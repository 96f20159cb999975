import PersonalLedger.Proofs.Store.Query

namespace PersonalLedger

namespace Row

/-- What is said of a row that cannot be read. Its amount is looked at first. -/
inductive Flaw (r : Row) : StoreError → Prop
  | amount (h : Decimal.read? r.amount.toList = none) : Flaw r (r.fault "amount" r.amount)
  | time (ha : Decimal.read? r.amount.toList ≠ none) (ht : Timestamp.read? r.time.toList = none) :
      Flaw r (r.fault "timestamp" r.time)

variable {r : Row} {e : StoreError}

theorem read_eq_error_iff : r.read = .error e ↔ r.Flaw e := by
  rw [read]
  cases ha : Decimal.read? r.amount.toList with
  | none =>
    constructor
    · intro h
      cases h
      exact .amount ha
    · rintro (_ | ⟨hne, -⟩)
      · rfl
      · exact absurd ha hne
  | some amount =>
    have hne : Decimal.read? r.amount.toList ≠ none := ha ▸ Option.some_ne_none amount
    cases ht : Timestamp.read? r.time.toList with
    | none =>
      constructor
      · intro h
        cases h
        exact .time hne ht
      · rintro (h | _)
        · exact absurd h hne
        · rfl
    | some p =>
      constructor
      · intro h
        cases h
      · rintro (h | ⟨-, h⟩)
        · exact absurd h hne
        · rw [ht] at h
          cases h

theorem exists_flaw_iff : (∃ e, r.Flaw e) ↔
    Decimal.read? r.amount.toList = none ∨ Timestamp.read? r.time.toList = none := by
  constructor
  · rintro ⟨_, h | ⟨-, h⟩⟩
    · exact .inl h
    · exact .inr h
  · intro h
    by_cases ha : Decimal.read? r.amount.toList = none
    · exact ⟨_, .amount ha⟩
    · exact ⟨_, .time ha (h.resolve_left ha)⟩

end Row

namespace Store

section ReadAll

variable {rows : List Row}

theorem readAll_eq_error_iff {e : StoreError} : readAll rows = .error e ↔
    ∃ before r after, rows = before ++ r :: after ∧
      (∀ b ∈ before, ∃ entry, b.read = .ok entry) ∧ r.Flaw e := by
  rw [readAll, mapM_eq_error_iff]
  simp only [Row.read_eq_error_iff]

theorem readAll_cases (rows : List Row) :
    (∃ es, readAll rows = .ok es ∧ List.Forall₂ (fun r e => r.read = .ok e) rows es) ∨
      ∃ detail, readAll rows = .error (.corrupt detail) := by
  cases hr : readAll rows with
  | ok es => exact .inl ⟨es, rfl, mapM_eq_ok_iff.1 hr⟩
  | error e =>
    obtain ⟨r, -, he⟩ := exists_mem_of_mapM_eq_error hr
    obtain ⟨detail, rfl⟩ := Row.read_eq_error he
    exact .inr ⟨detail, rfl⟩

theorem readAll_eq_corrupt_iff : (∃ detail, readAll rows = .error (.corrupt detail)) ↔
    ∃ r ∈ rows, Decimal.read? r.amount.toList = none ∨ Timestamp.read? r.time.toList = none := by
  simp only [← Row.exists_flaw_iff, ← Row.read_eq_error_iff]
  constructor
  · rintro ⟨detail, h⟩
    obtain ⟨r, hr, he⟩ := exists_mem_of_mapM_eq_error h
    exact ⟨r, hr, _, he⟩
  · rintro ⟨r, hr, e, he⟩
    rcases readAll_cases rows with ⟨es, hes, -⟩ | hcorrupt
    · obtain ⟨entry, hentry⟩ := exists_of_mapM_eq_ok hes hr
      exact absurd hentry (Row.read_ne_ok he entry)
    · exact hcorrupt

end ReadAll

/-- What can be looked up: the entries that a query asks for, the entry with a hash, or those with
some ids. -/
inductive Lookup where
  | query (q : Query)
  | byHash (hash : String) (user : Int)
  | byIds (ids : List Int) (user : Int)

namespace Lookup

def answer (s : Store) : Lookup → Except StoreError (List Entry)
  | query q => s.query q
  | byHash hash user => (s.findByHash hash user).map Option.toList
  | byIds ids user => s.findByIds ids user

/-- Whether one statement can take all the values of a look-up. -/
def Fits : Lookup → Prop
  | byIds ids _ => ids.length < maxValues
  | _ => True

/-- Whether a look-up asks for the row. Nothing of the row is read for that. -/
def AsksFor : Lookup → Row → Prop
  | query q, r => r.user = q.user ∧ q.window.first.rowText ≤ r.time ∧
      r.time ≤ q.window.last.rowText ∧ (∀ c ∈ q.category, r.category = c) ∧
      ∀ c ∈ q.currency, r.currency = c
  | byHash hash user, r => r.hash = hash ∧ r.user = user
  | byIds ids user, r => r.user = user ∧ r.id ∈ ids

/-- Whether row `a` comes before row `b`: in a query the newest first, by the texts of their times,
and else by the ids. -/
def Precedes : Lookup → Row → Row → Prop
  | query _, a, b => b.time < a.time ∨ a.time = b.time ∧ b.id < a.id
  | _, a, b => a.id < b.id

/-- As many of the rows as a look-up takes. -/
def cut : Lookup → List Row → List Row
  | query q, rows => rows.take q.window.limit
  | byHash _ _, rows => rows.take 1
  | byIds _ _, rows => rows

/-- Whether these are the rows that a look-up is about: of all the rows that it asks for, in its
order, as many as it takes. -/
def Selects (l : Lookup) (s : Store) (rows : List Row) : Prop :=
  ∃ asked, (∀ r, r ∈ asked ↔ r ∈ s.rows ∧ l.AsksFor r) ∧ asked.Pairwise l.Precedes ∧
    rows = l.cut asked

variable {l : Lookup} {s : Store} {rows : List Row}

theorem Precedes.asymm {a b : Row} (h : l.Precedes a b) : ¬ l.Precedes b a := by
  cases l with
  | query q =>
    rintro (hba | ⟨heq, hba⟩)
    · rcases h with hab | ⟨heq, -⟩
      · exact String.lt_irrefl _ (String.lt_trans hba hab)
      · exact String.lt_irrefl _ (heq ▸ hba)
    · rcases h with hab | ⟨-, hab⟩
      · exact String.lt_irrefl _ (heq ▸ hab)
      · exact Int.lt_asymm hab hba
  | byHash hash user => exact Int.lt_asymm h
  | byIds ids user => exact Int.lt_asymm h

instance : Std.Irrefl l.Precedes := ⟨fun _ h => h.asymm h⟩

instance : Std.Antisymm l.Precedes := ⟨fun _ _ h h' => absurd h' h.asymm⟩

theorem take_filter {α : Type} {keep : α → Bool} {xs : List α} {n : Nat}
    (h : ∀ x ∈ xs.take n, keep x = true) : (xs.filter keep).take n = xs.take n := by
  induction xs generalizing n with
  | nil => rfl
  | cons x xs ih =>
    cases n with
    | zero => rfl
    | succ n =>
      rw [List.take_succ_cons] at h ⊢
      obtain ⟨hx, hxs⟩ := List.forall_mem_cons.1 h
      rw [List.filter_cons_of_pos hx, List.take_succ_cons, ih hxs]

theorem cut_filter {keep : Row → Bool} (h : ∀ r ∈ l.cut rows, keep r = true) :
    l.cut (rows.filter keep) = l.cut rows := by
  cases l with
  | query q => exact take_filter h
  | byHash hash user => exact take_filter h
  | byIds ids user => exact List.filter_eq_self.2 h

def asked (s : Store) : Lookup → List Row
  | query q => (s.rows.filter q.selects).mergeSort newer
  | byHash hash user => s.hashed hash user
  | byIds ids user => s.named ids user

theorem mem_asked {r : Row} : r ∈ l.asked s ↔ r ∈ s.rows ∧ l.AsksFor r := by
  cases l with
  | query q => rw [asked, List.mem_mergeSort, List.mem_filter, selects_iff, AsksFor]
  | byHash hash user => exact mem_hashed
  | byIds ids user => exact mem_named

theorem asked_precedes (l : Lookup) (s : Store) :
    (l.asked s).Pairwise l.Precedes := by
  cases l with
  | query q => exact mergeSort_newer_strict id (s.rising.filter _)
  | byHash hash user => exact s.rising.filter _
  | byIds ids user => exact s.rising.filter _

theorem selects_iff_eq : l.Selects s rows ↔ rows = l.cut (l.asked s) := by
  constructor
  · rintro ⟨rows', hmem, hord, rfl⟩
    have heq : rows' = l.asked s := by
      -- a strict order leaves one way to list the same members
      apply hord.eq_of_mem_iff (l.asked_precedes s)
      intro r
      rw [hmem, mem_asked]
    rw [heq]
  · intro h
    exact ⟨l.asked s, fun r => mem_asked, l.asked_precedes s, h⟩

theorem Selects.filter {keep : Row → Bool} (h : l.Selects s rows)
    (hkeep : ∀ r ∈ rows, keep r = true) :
    l.Selects (s.filterRows keep) rows := by
  obtain ⟨rows', hmem, hord, rfl⟩ := h
  refine ⟨rows'.filter keep, ?_, hord.filter keep, (cut_filter hkeep).symm⟩
  intro r
  rw [rows_filterRows, List.mem_filter, List.mem_filter, hmem]
  exact and_right_comm

theorem map_head?_toList {α ε : Type} {f : Row → Except ε α} :
    (((rows.take 1).mapM f).map List.head?).map Option.toList = (rows.take 1).mapM f := by
  cases rows with
  | nil => rfl
  | cons r rows =>
    rw [List.take_succ_cons, List.take_zero, List.mapM_cons, List.mapM_nil]
    cases f r with
    | error e => rfl
    | ok x => rfl

theorem answer_eq (hl : l.Fits) : l.answer s = readAll (l.cut (l.asked s)) := by
  cases l with
  | query q => rfl
  | byHash hash user => exact map_head?_toList
  | byIds ids user =>
    have hl : ids.length < maxValues := hl
    rw [answer, findByIds, if_neg (by omega)]
    rfl

/-- A look-up is about the rows that it selects, whether they can be read or not. It fails as corrupt
just if one of them has an amount or a time that cannot be read, and then with the first such row in
their order; else it gives all of them. Other rows might as well not be there. -/
theorem answer_selected (hl : l.Fits) :
    (∃ rows, l.Selects s rows) ∧ ∀ rows, l.Selects s rows →
      ((∃ detail, l.answer s = .error (.corrupt detail)) ↔
          ∃ r ∈ rows, Decimal.read? r.amount.toList = none ∨
            Timestamp.read? r.time.toList = none) ∧
        (∀ e, l.answer s = .error e ↔
          ∃ before r after, rows = before ++ r :: after ∧
            (∀ b ∈ before, ∃ entry, b.read = .ok entry) ∧ r.Flaw e) ∧
        ((¬ ∃ detail, l.answer s = .error (.corrupt detail)) →
          ∃ es, l.answer s = .ok es ∧ List.Forall₂ (fun r e => r.read = .ok e) rows es) ∧
        ∀ keep : Row → Bool, (∀ r ∈ rows, keep r = true) →
          l.answer (s.filterRows keep) = l.answer s := by
  refine ⟨⟨_, selects_iff_eq.2 rfl⟩, ?_⟩
  intro rows hsel
  have hans : l.answer s = readAll rows := by
    rw [answer_eq hl, selects_iff_eq.1 hsel]
  rw [hans]
  refine ⟨readAll_eq_corrupt_iff, fun e => readAll_eq_error_iff, (readAll_cases rows).resolve_right, ?_⟩
  intro keep hkeep
  rw [answer_eq hl, ← selects_iff_eq.1 (hsel.filter hkeep)]

/-- Neither text of the third row can be read, and the row of the other user is no better. -/
theorem answer_selected_much :
    let kept (id : Int) : Entry :=
      { id, user := 1, category := "Groceries", amount := ⟨false, 750, 2, by decide, by decide⟩,
        currency := "NZD", notes := "", time := .ofSeconds 1742032800, hash := Text.intString id }
    let torn : Row := { (kept 3).toRow with amount := "much", time := "2025-03-14 noon" }
    let foreign : Row := { (kept 2).toRow with user := 2, amount := "", time := "now" }
    let s : Store :=
      ⟨[(kept 1).toRow, foreign, torn, (kept 4).toRow], [⟨1, "NZD"⟩, ⟨2, "NZD"⟩], 5, "NZD",
        by decide, by decide⟩
    let q : Query := ⟨1, none, none, ⟨.ofSeconds 1740787200, .ofSeconds 1742032800, 3⟩⟩
    let l := Lookup.query q
    l.Fits ∧ l.answer s = .error (.corrupt "entry 3: invalid amount \"much\"") := by
  intro kept torn foreign s q l
  have hl : l.Fits := trivial
  have hperm : ([(kept 4).toRow, (kept 1).toRow] ++ [torn]).Perm (s.rows.filter q.selects) := by
    decide +kernel
  have hord : ([(kept 4).toRow, (kept 1).toRow] ++ [torn]).Pairwise fun a b =>
      b.time < a.time ∨ a.time = b.time ∧ b.id < a.id := by
    decide +kernel
  have hsel : l.Selects s ([(kept 4).toRow, (kept 1).toRow] ++ [torn]) := by
    refine ⟨_, fun r => ?_, hord, rfl⟩
    rw [← mem_asked, asked, List.mem_mergeSort, hperm.mem_iff]
  have hread : ∀ b ∈ [(kept 4).toRow, (kept 1).toRow], ∃ entry, b.read = .ok entry := by
    intro b hb
    obtain ⟨e, he, rfl⟩ : ∃ e ∈ [kept 4, kept 1], e.toRow = b := List.mem_map.1 hb
    exact ⟨_, Entry.read_toRow (by revert e; decide)⟩
  have hflaw : torn.Flaw (.corrupt "entry 3: invalid amount \"much\"") :=
    Row.read_eq_error_iff.1 (by decide +kernel)
  exact ⟨hl, (((answer_selected hl).2 _ hsel).2.1 _).2 ⟨_, _, [], rfl, hread, hflaw⟩⟩

/-- Nothing is stored, so nothing is selected; but no statement takes so many ids. -/
theorem not_answered_of_many_ids :
    let l := Lookup.byIds (List.replicate maxValues 1) 1
    l.Selects (empty "NZD") [] ∧ ∀ es, l.answer (empty "NZD") ≠ .ok es := by
  intro l
  refine ⟨selects_iff_eq.2 rfl, ?_⟩
  intro es h
  have hl := (findByIds_eq_ok_iff.1 h).1
  rw [List.length_replicate] at hl
  exact Nat.lt_irrefl _ hl

end Lookup

end Store

end PersonalLedger
