import Mathlib.Data.List.Sort
import PersonalLedger.Proofs.Store.Reading
import PersonalLedger.Proofs.Time.Order

namespace PersonalLedger

/-- Whether `a` comes before `b` where the newest come first: in whole microseconds it is later, or
at the same time with the larger id. -/
def Entry.Precedes (a b : Entry) : Prop :=
  b.time.toMicros < a.time.toMicros ∨ a.time.toMicros = b.time.toMicros ∧ b.id < a.id

namespace Entry

variable {a b : Entry}

theorem Precedes.asymm (h : a.Precedes b) : ¬ b.Precedes a := by
  rw [Precedes, Instant.toMicros_lt_iff, Instant.toMicros_eq_iff] at h ⊢
  omega

instance : Std.Irrefl Precedes := ⟨fun _ h => h.asymm h⟩

instance : Std.Antisymm Precedes := ⟨fun _ _ h h' => absurd h' h.asymm⟩

end Entry

namespace Store

variable {a b c : Row}

theorem newer_eq_true_iff :
    newer a b = true ↔ b.time < a.time ∨ a.time = b.time ∧ b.id ≤ a.id := by
  simp only [newer, Bool.or_eq_true, Bool.and_eq_true, decide_eq_true_eq, beq_iff_eq]

theorem newer_trans (hab : newer a b = true) (hbc : newer b c = true) : newer a c = true := by
  rw [newer_eq_true_iff] at hab hbc ⊢
  rcases hab with hab | ⟨hab, hi⟩
  · rcases hbc with hbc | ⟨hbc, hj⟩
    · exact .inl (String.lt_trans hbc hab)
    · exact .inl (hbc ▸ hab)
  · rcases hbc with hbc | ⟨hbc, hj⟩
    · exact .inl (hab ▸ hbc)
    · exact .inr ⟨hab.trans hbc, Int.le_trans hj hi⟩

theorem newer_total (a b : Row) : (newer a b || newer b a) = true := by
  rw [Bool.or_eq_true, newer_eq_true_iff, newer_eq_true_iff]
  rcases Text.lt_or_eq_or_gt a.time b.time with hab | he | hba
  · exact .inr (.inl hab)
  · rcases Int.le_total b.id a.id with hi | hi
    · exact .inl (.inr ⟨he, hi⟩)
    · exact .inr (.inr ⟨he.symm, hi⟩)
  · exact .inl (.inl hba)

theorem mergeSort_newer_strict {α : Type} (row : α → Row) {xs : List α}
    (hrise : xs.Pairwise fun x y => (row x).id < (row y).id) :
    (xs.mergeSort fun x y => newer (row x) (row y)).Pairwise fun x y =>
      (row y).time < (row x).time ∨ (row x).time = (row y).time ∧ (row y).id < (row x).id := by
  have hne : (xs.mergeSort fun x y => newer (row x) (row y)).Pairwise fun x y =>
      (row x).id ≠ (row y).id := by
    apply (List.mergeSort_perm _ _).symm.pairwise
    · exact hrise.imp fun hlt => Int.ne_of_lt hlt
    · intro x y hxy
      exact hxy.symm
  have hs : (xs.mergeSort fun x y => newer (row x) (row y)).Pairwise fun x y =>
      newer (row x) (row y) = true := by
    apply List.pairwise_mergeSort
    · intro x y z hxy hyz
      exact newer_trans hxy hyz
    · intro x y
      exact newer_total (row x) (row y)
  apply (hne.and hs).imp
  rintro x y ⟨hid, hxy⟩
  rcases newer_eq_true_iff.1 hxy with ht | ⟨ht, hle⟩
  · exact .inl ht
  · exact .inr ⟨ht, by omega⟩

/-- Whether the ids rise along the entries, and all times are of the years 0 to 9999. -/
structure Keepable (es : List Entry) : Prop where
  rise : es.Pairwise (·.id < ·.id)
  plain : ∀ e ∈ es, e.time.IsPlain

structure Keeps (s : Store) (es : List Entry) : Prop extends Keepable es where
  rows : s.rows = es.map Entry.toRow

/-- Whether a query asks for an entry: by user, category and currency, and by the time in whole
microseconds, both ends of the window included. -/
structure Query.Wants (q : Query) (e : Entry) : Prop where
  user : e.user = q.user
  first : q.window.first.toMicros ≤ e.time.toMicros
  last : e.time.toMicros ≤ q.window.last.toMicros
  category : ∀ c ∈ q.category, e.category = c
  currency : ∀ c ∈ q.currency, e.currency = c

variable {s : Store} {es : List Entry} {q : Query}

theorem readAll_map_toRow (h : ∀ e ∈ es, e.time.IsPlain) :
    readAll (es.map Entry.toRow) = .ok (es.map Entry.readBack) := by
  rw [readAll, mapM_eq_ok_iff, List.forall₂_map_left_iff, List.forall₂_map_right_iff,
    List.forall₂_same]
  intro e he
  exact Entry.read_toRow (h e he)

theorem Query.all_beq_iff {filter : Option String} {text : String} :
    filter.all (text == ·) = true ↔ ∀ c ∈ filter, text = c := by
  cases filter with
  | none => simp only [Option.all_none, Option.not_mem_none, false_implies, implies_true]
  | some c => simp only [Option.all_some, beq_iff_eq, Option.mem_some_iff, forall_eq']

theorem selects_iff {r : Row} : q.selects r = true ↔
    r.user = q.user ∧ q.window.first.rowText ≤ r.time ∧ r.time ≤ q.window.last.rowText ∧
      (∀ c ∈ q.category, r.category = c) ∧ ∀ c ∈ q.currency, r.currency = c := by
  simp only [Query.selects, Bool.and_eq_true, beq_iff_eq, decide_eq_true_eq, Query.all_beq_iff,
    and_assoc]

theorem selects_toRow_iff {e : Entry} (hp : e.time.IsPlain) (hf : q.window.first.year ≤ 9999)
    (hl : q.window.last.year ≤ 9999) : q.selects e.toRow = true ↔ q.Wants e := by
  have hfirst := Instant.rowText_le_iff hf hp.2 (.inr hp)
  have hlast := Instant.rowText_le_iff hp.2 hl (.inl hp)
  rw [selects_iff]
  constructor
  · rintro ⟨hu, h1, h2, hcategory, hcurrency⟩
    exact ⟨hu, hfirst.1 h1, hlast.1 h2, hcategory, hcurrency⟩
  · rintro ⟨hu, h1, h2, hcategory, hcurrency⟩
    exact ⟨hu, hfirst.2 h1, hlast.2 h2, hcategory, hcurrency⟩

theorem exists_of_query_eq_error {e : StoreError} (h : s.query q = .error e) :
    ∃ r ∈ s.rows, r.user = q.user ∧ r.read = .error e := by
  obtain ⟨r, hr, he⟩ := exists_mem_of_mapM_eq_error h
  rw [select] at hr
  have hm := List.mem_mergeSort.1 (List.mem_of_mem_take hr)
  obtain ⟨hm, hs⟩ := List.mem_filter.1 hm
  exact ⟨r, hm, (selects_iff.1 hs).1, he⟩

/-- The entries whose rows a query selects, in the order of its answer. -/
def Query.found (q : Query) (es : List Entry) : List Entry :=
  (es.filter fun e => q.selects e.toRow).mergeSort fun a b => newer a.toRow b.toRow

theorem Query.mem_found {e : Entry} : e ∈ q.found es ↔ e ∈ es ∧ q.selects e.toRow = true := by
  rw [found, List.mem_mergeSort, List.mem_filter]

theorem Keepable.found_precedes (h : Keepable es) (q : Query) :
    (q.found es).Pairwise Entry.Precedes := by
  have hs := mergeSort_newer_strict Entry.toRow (h.rise.filter fun e => q.selects e.toRow)
  apply hs.imp_of_mem
  intro a b ha hb hab
  have hpa := h.plain a (Query.mem_found.1 ha).1
  have hpb := h.plain b (Query.mem_found.1 hb).1
  rcases hab with ht | ⟨ht, hid⟩
  · exact .inl ((Instant.rowText_lt_iff_of_isPlain hpb hpa).1 ht)
  · exact .inr ⟨(Instant.rowText_eq_iff hpa hpb).1 ht, hid⟩

section Window

variable (hf : q.window.first.year ≤ 9999) (hl : q.window.last.year ≤ 9999)

include hf hl

theorem Keepable.mem_found_iff (h : Keepable es) (e : Entry) :
    e ∈ q.found es ↔ e ∈ es ∧ q.Wants e := by
  rw [Query.mem_found]
  apply and_congr_right
  intro he
  exact selects_toRow_iff (h.plain e he) hf hl

/-- Entries behind all others that fall on the end of the window come first, the last of them
before the rest. -/
theorem Keepable.found_append {new : List Entry} (h : Keepable (es ++ new))
    (hw : ∀ e ∈ new, q.Wants e) (ht : ∀ e ∈ new, e.time = q.window.last) :
    q.found (es ++ new) = new.reverse ++ q.found es := by
  obtain ⟨hrise, hrise', hlt⟩ := List.pairwise_append.1 h.rise
  obtain ⟨hplain, -⟩ := List.forall_mem_append.1 h.plain
  have hes : Keepable es := ⟨hrise, hplain⟩
  apply (h.found_precedes q).eq_of_mem_iff
  · refine List.pairwise_append.2 ⟨List.pairwise_reverse.2 ?_, hes.found_precedes q, ?_⟩
    · apply hrise'.imp_of_mem
      intro a b ha hb hab
      exact .inr ⟨by rw [ht a ha, ht b hb], hab⟩
    · -- `a` is at the end of the window, so nothing else in it is later
      intro a ha b hb
      have ha := List.mem_reverse.1 ha
      obtain ⟨hb, hwb⟩ := (hes.mem_found_iff hf hl b).1 hb
      have hle := hwb.last
      rw [← ht a ha] at hle
      rcases Instant.toMicros_lt_or_eq_or_gt b.time a.time with hm | hm | hm
      · exact .inl hm
      · exact .inr ⟨hm.symm, hlt b hb a ha⟩
      · exact absurd hle (Instant.not_toMicros_le.2 hm)
  · intro e
    rw [h.mem_found_iff hf hl, List.mem_append, List.mem_append, List.mem_reverse,
      hes.mem_found_iff hf hl]
    constructor
    · rintro ⟨he | he, hwe⟩
      · exact .inr ⟨he, hwe⟩
      · exact .inl he
    · rintro (he | ⟨he, hwe⟩)
      · exact ⟨.inr he, hw e he⟩
      · exact ⟨.inl he, hwe⟩

end Window

theorem Keeps.select_eq (h : s.Keeps es) (q : Query) :
    s.select q = ((q.found es).take q.window.limit).map Entry.toRow := by
  have hfilter : s.rows.filter q.selects =
      (es.filter fun e => q.selects e.toRow).map Entry.toRow := by
    rw [h.rows, List.filter_map]
    rfl
  rw [select, hfilter, List.map_take, Query.found]
  congr 1
  symm
  apply List.map_mergeSort
  intro a _ b _
  rfl

theorem Keeps.query_eq (h : s.Keeps es) (q : Query) :
    s.query q = .ok (((q.found es).take q.window.limit).map Entry.readBack) := by
  rw [query, h.select_eq q]
  apply readAll_map_toRow
  intro e he
  exact h.plain e (Query.mem_found.1 (List.mem_of_mem_take he)).1

end Store

end PersonalLedger
