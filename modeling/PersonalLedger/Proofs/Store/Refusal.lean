import PersonalLedger.Proofs.Store.Creation

namespace PersonalLedger.Store

/-- What stands against storing a draft behind others: its fingerprint is stored or is that of one
of them, or else the store does not know its owner. -/
def objection? (s : Store) (before : List Draft) (d : Draft) : Option StoreError :=
  if d.hash ∈ s.rows.map (·.hash) ∨ d.hash ∈ before.map (·.hash) then some .duplicateHash
  else if d.user ∉ s.users.map (·.id) then some .missingUser
  else none

variable {s : Store} {d : Draft} {ds before : List Draft} {e : StoreError}

theorem hasHash_eq_true_iff_mem {hash : String} :
    s.hasHash hash = true ↔ hash ∈ s.rows.map (·.hash) := by
  rw [hasHash_eq_true_iff, List.mem_map]

theorem hasUser_eq_true_iff_mem {user : Int} :
    s.hasUser user = true ↔ user ∈ s.users.map (·.id) := by
  rw [hasUser_eq_true_iff, List.mem_map]

theorem objection?_append (c : Draft) :
    (s.append c).objection? before d = s.objection? (c :: before) d := by
  have hm : d.hash ∈ (s.append c).rows.map (·.hash) ∨ d.hash ∈ before.map (·.hash) ↔
      d.hash ∈ s.rows.map (·.hash) ∨ d.hash ∈ (c :: before).map (·.hash) := by
    rw [← hasHash_eq_true_iff_mem, ← hasHash_eq_true_iff_mem, hasHash_append, Bool.or_eq_true,
      beq_iff_eq, or_assoc, List.map_cons, List.mem_cons, @eq_comm _ c.hash]
  rw [objection?, objection?]
  simp only [hm]
  rfl

theorem objection?_of_hasHash (h : s.hasHash d.hash = true) :
    s.objection? [] d = some .duplicateHash := by
  rw [objection?, if_pos (.inl (hasHash_eq_true_iff_mem.1 h))]

theorem objection?_of_not_hasHash (h : ¬ s.hasHash d.hash = true) :
    s.objection? [] d = if s.hasUser d.user then none else some .missingUser := by
  rw [hasHash_eq_true_iff_mem] at h
  simp only [objection?, h, List.map_nil, List.not_mem_nil, or_false, if_false,
    ← hasUser_eq_true_iff_mem, ite_not]

/-- `d` stands at place `i`, and `e` is what stands against it; nothing stands against the drafts
before it. -/
structure FirstRefused (s : Store) (ds : List Draft) (i : Nat) (d : Draft) (e : StoreError) :
    Prop where
  place : ds[i]? = some d
  refused : s.objection? (ds.take i) d = some e
  first : ∀ j < i, ∀ c ∈ ds[j]?, s.objection? (ds.take j) c = none

theorem FirstRefused.cons {c : Draft} {i : Nat} (hc : s.objection? [] c = none)
    (h : (s.append c).FirstRefused ds i d e) : s.FirstRefused (c :: ds) (i + 1) d e where
  place := by
    rw [List.getElem?_cons_succ]
    exact h.place
  refused := by
    rw [List.take_succ_cons, ← objection?_append]
    exact h.refused
  first := by
    intro j hj b hb
    cases j with
    | zero =>
      rw [List.getElem?_cons_zero, Option.mem_some_iff] at hb
      rw [← hb, List.take_zero]
      exact hc
    | succ j =>
      rw [List.getElem?_cons_succ] at hb
      rw [List.take_succ_cons, ← objection?_append]
      exact h.first j (Nat.lt_of_succ_lt_succ hj) b hb

theorem exists_firstRefused (h : s.createFrom ds = .error e) :
    ∃ i d, s.FirstRefused ds i d e := by
  induction ds generalizing s with
  | nil => cases h
  | cons d ds ih =>
    rw [createFrom] at h
    by_cases hh : s.hasHash d.hash = true
    · rw [if_pos hh] at h
      cases h
      exact ⟨0, d, rfl, objection?_of_hasHash hh, fun j hj => absurd hj (Nat.not_lt_zero j)⟩
    · rw [if_neg hh] at h
      have hob := objection?_of_not_hasHash hh
      cases hu : s.hasUser d.user with
      | false =>
        rw [hu] at h hob
        cases h
        exact ⟨0, d, rfl, hob, fun j hj => absurd hj (Nat.not_lt_zero j)⟩
      | true =>
        rw [hu] at h hob
        cases hr : (s.append d).createFrom ds with
        | ok p =>
          rw [hr] at h
          cases h
        | error e' =>
          rw [hr] at h
          cases h
          obtain ⟨i, d', hf⟩ := ih hr
          exact ⟨i + 1, d', hf.cons hob⟩

theorem ids_numbered (first : Int) (ds : List Draft) :
    (numbered first ds).map (·.id) = (List.range ds.length).map fun k : Nat => first + k := by
  induction ds generalizing first with
  | nil => rfl
  | cons d ds ih =>
    rw [numbered, List.map_cons, ih, List.length_cons, List.range_succ_eq_map, List.map_cons,
      List.map_map, Draft.id_withId]
    congr 1
    · exact (Int.add_zero first).symm
    · apply List.map_congr_left
      intro k _
      simp only [Function.comp_apply, Nat.succ_eq_add_one]
      omega

/-- Drafts are stored exactly if their fingerprints are new and different and the store knows their
owners. They are then returned in order, under ids that follow each other from the counter on, and
their rows stand behind the old ones. Else the store stays as it was, its counter too, and the error
is that of the first draft which cannot be stored behind those before it. -/
theorem create_all_or_none (s : Store) (ds : List Draft) :
    (s.Storable ds ∧ ∃ t es, s.create ds = (t, .ok es) ∧
        t.rows = s.rows ++ es.map Entry.toRow ∧ t.nextId = s.nextId + ds.length ∧
        t.users = s.users ∧ t.defaultCurrency = s.defaultCurrency ∧
        es.map (·.toDraft) = ds ∧
        es.map (·.id) = (List.range ds.length).map fun k : Nat => s.nextId + k) ∨
      (¬ s.Storable ds ∧ ∃ e i d, s.create ds = (s, .error e) ∧ s.FirstRefused ds i d e) := by
  rcases create_cases s ds with ⟨hs, hc⟩ | ⟨hs, e, hc⟩
  · exact .inl ⟨hs, s.extend ds, numbered s.nextId ds, hc, rfl, rfl, rfl, rfl,
      toDraft_numbered _ _, ids_numbered _ _⟩
  · rw [create] at hc
    cases hf : s.createFrom ds with
    | ok p =>
      rw [hf] at hc
      cases hc
    | error e' =>
      obtain ⟨i, d, hfirst⟩ := exists_firstRefused hf
      refine .inr ⟨hs, e', i, d, ?_, hfirst⟩
      rw [create, hf]

end PersonalLedger.Store
