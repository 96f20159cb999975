import Mathlib.Data.List.Induction
import PersonalLedger.Proofs.Text.Order
import PersonalLedger.Totals

namespace PersonalLedger

namespace GroupKey

variable {a b c : GroupKey} {x y z : Option String}

theorem lt_iff : a.lt b = true ↔
    a.category < b.category ∨ a.category = b.category ∧ a.currency < b.currency := by
  rw [lt, Bool.or_eq_true, decide_eq_true_eq, Bool.and_eq_true, beq_iff_eq]
  apply or_congr_right
  apply and_congr_right
  intro _
  cases a.currency with
  | none =>
    cases b.currency with
    | none => simp only [Bool.false_eq_true, Option.not_lt_none]
    | some y => simp only [Option.none_lt_some]
  | some x =>
    cases b.currency with
    | none => simp only [Bool.false_eq_true, Option.not_lt_none]
    | some y => simp only [decide_eq_true_eq, Option.some_lt_some]

theorem currency_lt_irrefl (x : Option String) : ¬ x < x := by
  cases x with
  | none => exact Option.not_lt_none
  | some x =>
    rw [Option.some_lt_some]
    exact String.lt_irrefl x

theorem currency_lt_trans (h : x < y) (h' : y < z) : x < z := by
  cases z with
  | none => exact absurd h' Option.not_lt_none
  | some z =>
    cases y with
    | none => exact absurd h Option.not_lt_none
    | some y =>
      cases x with
      | none => exact Option.none_lt_some
      | some x =>
        rw [Option.some_lt_some] at h h' ⊢
        exact String.lt_trans h h'

theorem currency_lt_or_eq_or_gt (x y : Option String) : x < y ∨ x = y ∨ y < x := by
  cases x with
  | none =>
    cases y with
    | none => exact .inr (.inl rfl)
    | some y => exact .inl Option.none_lt_some
  | some x =>
    cases y with
    | none => exact .inr (.inr Option.none_lt_some)
    | some y =>
      rw [Option.some_lt_some, Option.some_lt_some, Option.some_inj]
      exact Text.lt_or_eq_or_gt x y

theorem ne_of_lt (h : a.lt b = true) : a ≠ b := by
  rintro rfl
  rcases lt_iff.1 h with h | ⟨-, h⟩
  · exact String.lt_irrefl _ h
  · exact currency_lt_irrefl _ h

theorem lt_trans (h : a.lt b = true) (h' : b.lt c = true) : a.lt c = true := by
  rw [lt_iff] at h h' ⊢
  rcases h with h | ⟨he, h⟩
  · rcases h' with h' | ⟨he', -⟩
    · exact .inl (String.lt_trans h h')
    · exact .inl (he' ▸ h)
  · rcases h' with h' | ⟨he', h'⟩
    · exact .inl (he ▸ h')
    · exact .inr ⟨he.trans he', currency_lt_trans h h'⟩

theorem lt_asymm (h : a.lt b = true) : b.lt a = false := by
  rw [← Bool.not_eq_true]
  intro h'
  exact ne_of_lt (lt_trans h h') rfl

instance : Std.Irrefl fun a b : GroupKey => a.lt b = true := ⟨fun _ h => ne_of_lt h rfl⟩

instance : Std.Antisymm fun a b : GroupKey => a.lt b = true :=
  ⟨fun _ _ h h' => absurd rfl (ne_of_lt (lt_trans h h'))⟩

theorem lt_of_not_lt (hne : a ≠ b) (h : ¬ a.lt b = true) : b.lt a = true := by
  rw [lt_iff] at h ⊢
  rcases Text.lt_or_eq_or_gt a.category b.category with hc | hc | hc
  · exact absurd (.inl hc) h
  · rcases currency_lt_or_eq_or_gt a.currency b.currency with hx | hx | hx
    · exact absurd (.inr ⟨hc, hx⟩) h
    · exact absurd (by rw [mk.injEq]; exact ⟨hc, hx⟩) hne
    · exact .inr ⟨hc.symm, hx⟩
  · exact .inl hc

end GroupKey

namespace Totals

variable {key : GroupKey} {amount : Decimal} {groups groups' : List Group}

/-- How groups change by one more amount: the group of its key grows, or is put in its place. -/
inductive Inserts (key : GroupKey) (amount : Decimal) : List Group → List Group → Prop where
  | new {total} (sum : Decimal.zero.add? amount = some total) :
    Inserts key amount [] [⟨key, total, 1⟩]
  | grown {g gs total} (same : key = g.key) (sum : g.total.add? amount = some total) :
    Inserts key amount (g :: gs) ({ g with total, count := g.count + 1 } :: gs)
  | before {g gs total} (lt : key.lt g.key = true) (sum : Decimal.zero.add? amount = some total) :
    Inserts key amount (g :: gs) (⟨key, total, 1⟩ :: g :: gs)
  | behind {g gs gs'} (lt : g.key.lt key = true) (rest : Inserts key amount gs gs') :
    Inserts key amount (g :: gs) (g :: gs')

theorem inserts_of_insert (h : insert key amount groups = some groups') :
    Inserts key amount groups groups' := by
  induction groups generalizing groups' with
  | nil =>
    rw [insert, Option.map_eq_some_iff] at h
    obtain ⟨total, hsum, rfl⟩ := h
    exact .new hsum
  | cons g gs ih =>
    rw [insert] at h
    split at h
    · next hkey =>
      obtain ⟨total, hsum, rfl⟩ := Option.map_eq_some_iff.1 h
      exact .grown hkey hsum
    · next hkey =>
      split at h
      · next hlt =>
        obtain ⟨total, hsum, rfl⟩ := Option.map_eq_some_iff.1 h
        exact .before hlt hsum
      · next hlt =>
        obtain ⟨gs', hrest, rfl⟩ := Option.map_eq_some_iff.1 h
        exact .behind (GroupKey.lt_of_not_lt hkey hlt) (ih hrest)

def Rising (groups : List Group) : Prop := groups.Pairwise fun g g' => g.key.lt g'.key = true

theorem Inserts.mem_keys (h : Inserts key amount groups groups') (other : GroupKey) :
    other ∈ groups'.map (·.key) ↔ other = key ∨ other ∈ groups.map (·.key) := by
  induction h with
  | new => rw [List.map_singleton, List.mem_singleton, List.map_nil, or_iff_left List.not_mem_nil]
  | grown same =>
    rw [List.map_cons, List.map_cons, List.mem_cons, ← same, ← or_assoc, or_self]
  | before => rw [List.map_cons, List.mem_cons]
  | behind _ _ ih =>
    rw [List.map_cons, List.map_cons, List.mem_cons, List.mem_cons, ih, or_left_comm]

theorem Inserts.rising (h : Inserts key amount groups groups') (hr : Rising groups) :
    Rising groups' := by
  induction h with
  | new => exact List.pairwise_singleton _ _
  | grown same =>
    obtain ⟨hlt, hgs⟩ := List.pairwise_cons.1 hr
    exact List.pairwise_cons.2 ⟨hlt, hgs⟩
  | @before g gs total lt =>
    obtain ⟨hlt, -⟩ := List.pairwise_cons.1 hr
    refine List.pairwise_cons.2 ⟨?_, hr⟩
    intro g' hg'
    rcases List.mem_cons.1 hg' with rfl | hg'
    · exact lt
    · exact GroupKey.lt_trans lt (hlt g' hg')
  | @behind g gs gs' lt rest ih =>
    obtain ⟨hlt, hgs⟩ := List.pairwise_cons.1 hr
    refine List.pairwise_cons.2 ⟨?_, ih hgs⟩
    intro g' hg'
    rcases (rest.mem_keys g'.key).1 (List.mem_map_of_mem hg') with he | he
    · rw [he]
      exact lt
    · obtain ⟨g'', hg'', he⟩ := List.mem_map.1 he
      rw [← he]
      exact hlt g'' hg''

theorem Rising.not_mem_keys {g : Group} {gs : List Group} (hr : Rising (g :: gs))
    (h : key.lt g.key = true) : key ∉ (g :: gs).map (·.key) := by
  obtain ⟨hlt, -⟩ := List.pairwise_cons.1 hr
  intro hm
  obtain ⟨g', hg', he⟩ := List.mem_map.1 hm
  rcases List.mem_cons.1 hg' with rfl | hg'
  · exact GroupKey.ne_of_lt h he.symm
  · exact GroupKey.ne_of_lt (GroupKey.lt_trans h (hlt g' hg')) he.symm

/-- The total and the count that groups hold for a key. -/
def held (key : GroupKey) : List Group → Decimal × Nat
  | [] => (.zero, 0)
  | g :: gs => if key = g.key then (g.total, g.count) else held key gs

theorem held_of_not_mem (h : key ∉ groups.map (·.key)) : held key groups = (.zero, 0) := by
  induction groups with
  | nil => rfl
  | cons g gs ih =>
    rw [List.map_cons, List.mem_cons, not_or] at h
    rw [held, if_neg h.1, ih h.2]

theorem held_of_mem (hr : Rising groups) {g : Group} (hg : g ∈ groups) :
    held g.key groups = (g.total, g.count) := by
  induction groups with
  | nil => cases hg
  | cons g' gs ih =>
    obtain ⟨hlt, hgs⟩ := List.pairwise_cons.1 hr
    rcases List.mem_cons.1 hg with rfl | hg
    · rw [held, if_pos rfl]
    · rw [held, if_neg (GroupKey.ne_of_lt (hlt g hg)).symm, ih hgs hg]

theorem Inserts.held_self (h : Inserts key amount groups groups') (hr : Rising groups) :
    (held key groups).1.add? amount = some (held key groups').1 ∧
      (held key groups').2 = (held key groups).2 + 1 := by
  induction h with
  | new sum =>
    rw [held, held, if_pos rfl]
    exact ⟨sum, rfl⟩
  | grown same sum =>
    rw [held, held, if_pos same, if_pos same]
    exact ⟨sum, rfl⟩
  | before lt sum =>
    rw [held_of_not_mem (hr.not_mem_keys lt), held, if_pos rfl]
    exact ⟨sum, rfl⟩
  | @behind g gs gs' lt rest ih =>
    have hne := (GroupKey.ne_of_lt lt).symm
    rw [held, held, if_neg hne, if_neg hne]
    exact ih (List.pairwise_cons.1 hr).2

theorem Inserts.held_of_ne (h : Inserts key amount groups groups') {other : GroupKey}
    (hne : other ≠ key) : held other groups' = held other groups := by
  induction h with
  | new => rw [held, held, if_neg hne, held]
  | grown same => rw [held, held, if_neg (same ▸ hne), if_neg (same ▸ hne)]
  | before => rw [held, if_neg hne]
  | behind _ _ ih => rw [held, held, ih]

variable {keyOf : Entry → GroupKey} {entries : List Entry}

/-- The entries with a key, in order. -/
def counted (keyOf : Entry → GroupKey) (entries : List Entry) (key : GroupKey) : List Entry :=
  entries.filter (keyOf · = key)

theorem mem_counted {e : Entry} : e ∈ counted keyOf entries key ↔ e ∈ entries ∧ keyOf e = key := by
  rw [counted, List.mem_filter, decide_eq_true_eq]

theorem counted_concat_self (keyOf : Entry → GroupKey) (entries : List Entry) (e : Entry) :
    counted keyOf (entries ++ [e]) (keyOf e) = counted keyOf entries (keyOf e) ++ [e] := by
  simp only [counted, List.filter_append, List.filter_cons, List.filter_nil, decide_true,
    ↓reduceIte]

theorem counted_concat_of_ne (entries : List Entry) {e : Entry} (h : key ≠ keyOf e) :
    counted keyOf (entries ++ [e]) key = counted keyOf entries key := by
  simp only [counted, List.filter_append, List.filter_cons, List.filter_nil, decide_eq_true_eq,
    h.symm, ↓reduceIte, List.append_nil]

theorem flatten_counted_perm {keys : List GroupKey} (hn : keys.Nodup) :
    (keys.map (counted keyOf entries)).flatten.Perm (entries.filter (keyOf · ∈ keys)) := by
  induction keys with
  | nil =>
    have hnil : entries.filter (keyOf · ∈ []) = [] := by
      rw [List.filter_eq_nil_iff]
      intro e _ he
      exact List.not_mem_nil (of_decide_eq_true he)
    rw [hnil]
    exact .nil
  | cons key keys ih =>
    obtain ⟨hkey, hkeys⟩ := List.nodup_cons.1 hn
    have hfirst : (entries.filter (keyOf · ∈ key :: keys)).filter (keyOf · = key) =
        counted keyOf entries key := by
      rw [List.filter_filter, counted]
      apply List.filter_congr
      intro e _
      by_cases he : keyOf e = key
      · simp only [he, decide_true, List.mem_cons_self, Bool.and_self]
      · simp only [he, decide_false, Bool.false_and]
    have hothers : (entries.filter (keyOf · ∈ key :: keys)).filter (fun e => !decide (keyOf e = key)) =
        entries.filter (keyOf · ∈ keys) := by
      rw [List.filter_filter]
      apply List.filter_congr
      intro e _
      by_cases he : keyOf e = key
      · simp only [he, decide_true, Bool.not_true, Bool.false_and, hkey, decide_false]
      · simp only [he, decide_false, Bool.not_false, Bool.true_and, List.mem_cons, false_or]
    rw [List.map_cons, List.flatten_cons]
    have hp := List.filter_append_perm (keyOf · = key) (entries.filter (keyOf · ∈ key :: keys))
    rw [hfirst, hothers] at hp
    exact ((ih hkeys).append_left _).trans hp

/-- The sum of amounts, added one after the other from zero on, unless it overflows. -/
def sum? (amounts : List Decimal) : Option Decimal := amounts.foldlM Decimal.add? .zero

theorem sum?_concat (amounts : List Decimal) (amount : Decimal) :
    sum? (amounts ++ [amount]) = (sum? amounts).bind (·.add? amount) := by
  rw [sum?, List.foldlM_append, sum?]
  cases amounts.foldlM Decimal.add? .zero with
  | none => rfl
  | some total =>
    simp only [bind, Option.bind, List.foldlM_cons, List.foldlM_nil]
    cases total.add? amount with
    | none => rfl
    | some total => rfl

def countAll (groups : List Group) : Nat := groups.foldr (fun g n => g.count + n) 0

theorem countAll_eq_length_flatten {part : Group → List Entry}
    (h : ∀ g ∈ groups, g.count = (part g).length) :
    countAll groups = (groups.map part).flatten.length := by
  induction groups with
  | nil => rfl
  | cons g groups ih =>
    obtain ⟨hg, hgroups⟩ := List.forall_mem_cons.1 h
    rw [List.map_cons, List.flatten_cons, List.length_append, ← hg, ← ih hgroups]
    rfl

/-- Whether groups are the totals of entries: their keys rise and are those of the entries, and each
holds the sum and the number of the entries with its key. -/
structure Covers (keyOf : Entry → GroupKey) (entries : List Entry) (groups : List Group) :
    Prop where
  rising : Rising groups
  keys : ∀ key, key ∈ groups.map (·.key) ↔ key ∈ entries.map keyOf
  sum : ∀ key, sum? ((counted keyOf entries key).map (·.amount)) = some (held key groups).1
  count : ∀ key, (held key groups).2 = (counted keyOf entries key).length

theorem covers_nil (keyOf : Entry → GroupKey) : Covers keyOf [] [] where
  rising := .nil
  keys := fun _ => .rfl
  sum := fun _ => rfl
  count := fun _ => rfl

theorem Covers.concat (h : Covers keyOf entries groups) {e : Entry}
    (hi : Inserts (keyOf e) e.amount groups groups') :
    Covers keyOf (entries ++ [e]) groups' where
  rising := hi.rising h.rising
  keys := by
    intro key
    rw [hi.mem_keys, h.keys, List.map_append, List.mem_append, List.map_singleton,
      List.mem_singleton, or_comm]
  sum := by
    intro key
    by_cases hk : key = keyOf e
    · subst hk
      rw [counted_concat_self, List.map_append, List.map_singleton, sum?_concat, h.sum]
      exact (hi.held_self h.rising).1
    · rw [counted_concat_of_ne entries hk, h.sum, hi.held_of_ne hk]
  count := by
    intro key
    by_cases hk : key = keyOf e
    · subst hk
      rw [counted_concat_self, List.length_append, (hi.held_self h.rising).2, h.count]
      rfl
    · rw [counted_concat_of_ne entries hk, hi.held_of_ne hk, h.count]

namespace Covers

variable (h : Covers keyOf entries groups)

include h

theorem keys_nodup : (groups.map (·.key)).Nodup := by
  rw [List.Nodup, List.pairwise_map]
  exact h.rising.imp GroupKey.ne_of_lt

theorem sum_of_mem {g : Group} (hg : g ∈ groups) :
    sum? ((counted keyOf entries g.key).map (·.amount)) = some g.total := by
  rw [h.sum, held_of_mem h.rising hg]

theorem count_of_mem {g : Group} (hg : g ∈ groups) :
    g.count = (counted keyOf entries g.key).length := by
  rw [← h.count, held_of_mem h.rising hg]

theorem counted_ne_nil {g : Group} (hg : g ∈ groups) : counted keyOf entries g.key ≠ [] := by
  obtain ⟨e, he, hk⟩ := List.mem_map.1 ((h.keys g.key).1 (List.mem_map_of_mem hg))
  exact List.ne_nil_of_mem (mem_counted.2 ⟨he, hk⟩)

theorem flatten_perm : (groups.map fun g => counted keyOf entries g.key).flatten.Perm entries := by
  have hp : ((groups.map (·.key)).map (counted keyOf entries)).flatten.Perm
      (entries.filter (keyOf · ∈ groups.map (·.key))) := flatten_counted_perm h.keys_nodup
  rw [List.map_map, List.filter_eq_self.2] at hp
  · exact hp
  · intro e he
    exact decide_eq_true ((h.keys (keyOf e)).2 (List.mem_map_of_mem he))

theorem countAll_eq : countAll groups = entries.length := by
  rw [← h.flatten_perm.length_eq]
  apply countAll_eq_length_flatten
  intro g hg
  exact h.count_of_mem hg

end Covers

theorem ofEntries_concat (keyOf : Entry → GroupKey) (entries : List Entry) (e : Entry) :
    ofEntries keyOf (entries ++ [e]) =
      (ofEntries keyOf entries).bind fun groups =>
        match insert (keyOf e) e.amount groups with
        | some groups => .ok groups
        | none => .error (.totalOverflow e.category) := by
  rw [ofEntries, List.foldlM_append, ← ofEntries]
  cases ofEntries keyOf entries with
  | error f => rfl
  | ok groups =>
    simp only [bind, Except.bind, List.foldlM_cons, List.foldlM_nil]
    cases insert (keyOf e) e.amount groups with
    | none => rfl
    | some groups => rfl

theorem covers_of_ofEntries (h : ofEntries keyOf entries = .ok groups) :
    Covers keyOf entries groups := by
  induction entries using List.reverseRecOn generalizing groups with
  | nil =>
    cases h
    exact covers_nil keyOf
  | append_singleton entries e ih =>
    rw [ofEntries_concat] at h
    cases hg : ofEntries keyOf entries with
    | error f =>
      rw [hg] at h
      cases h
    | ok before =>
      rw [hg] at h
      simp only [Except.bind] at h
      cases hi : insert (keyOf e) e.amount before with
      | none =>
        rw [hi] at h
        cases h
      | some after =>
        rw [hi] at h
        cases h
        exact (ih hg).concat (inserts_of_insert hi)

end Totals

end PersonalLedger
