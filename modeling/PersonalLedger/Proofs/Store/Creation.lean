import PersonalLedger.Store.Basic

namespace PersonalLedger

@[simp] theorem Draft.toDraft_withId (d : Draft) (id : Int) : (d.withId id).toDraft = d := rfl

@[simp] theorem Draft.id_withId (d : Draft) (id : Int) : (d.withId id).id = id := rfl

namespace Entry

variable (e : Entry)

@[simp] theorem id_toRow : e.toRow.id = e.id := rfl

@[simp] theorem hash_toRow : e.toRow.hash = e.hash := rfl

end Entry

namespace Store

/-- The entries that drafts become under ids that follow each other. -/
def numbered (first : Int) : List Draft → List Entry
  | [] => []
  | d :: ds => d.withId first :: numbered (first + 1) ds

section Numbered

variable {first : Int} {ds : List Draft} {e : Entry}

theorem toDraft_numbered (first : Int) (ds : List Draft) :
    (numbered first ds).map (·.toDraft) = ds := by
  induction ds generalizing first with
  | nil => rfl
  | cons d ds ih => rw [numbered, List.map_cons, Draft.toDraft_withId, ih]

theorem length_numbered (first : Int) (ds : List Draft) :
    (numbered first ds).length = ds.length := by
  rw [← List.length_map (·.toDraft), toDraft_numbered]

theorem hashes_numbered (first : Int) (ds : List Draft) :
    (numbered first ds).map (·.hash) = ds.map (·.hash) := by
  have hd := congrArg (List.map (·.hash)) (toDraft_numbered first ds)
  rw [List.map_map] at hd
  exact hd

theorem toDraft_mem_of_numbered (h : e ∈ numbered first ds) : e.toDraft ∈ ds := by
  rw [← toDraft_numbered first ds]
  exact List.mem_map_of_mem h

theorem getElem?_numbered {i : Nat} (h : (numbered first ds)[i]? = some e) :
    ds[i]? = some e.toDraft := by
  rw [← toDraft_numbered first ds, List.getElem?_map, h]
  rfl

theorem id_of_mem_numbered (h : e ∈ numbered first ds) :
    first ≤ e.id ∧ e.id < first + ds.length := by
  induction ds generalizing first with
  | nil => cases h
  | cons d ds ih =>
    rw [List.length_cons]
    rcases List.mem_cons.1 h with rfl | h
    · rw [Draft.id_withId]
      omega
    · have := ih h
      omega

theorem numbered_sorted (first : Int) (ds : List Draft) :
    (numbered first ds).Pairwise (·.id < ·.id) := by
  induction ds generalizing first with
  | nil => exact .nil
  | cons d ds ih =>
    refine .cons ?_ (ih _)
    intro e he
    have := (id_of_mem_numbered he).1
    rw [Draft.id_withId]
    omega

theorem ids_numbered_nodup (first : Int) (ds : List Draft) :
    ((numbered first ds).map (·.id)).Nodup := by
  rw [List.Nodup, List.pairwise_map]
  exact (numbered_sorted first ds).imp fun hlt => Int.ne_of_lt hlt

end Numbered

/-- The store with the drafts behind the rows that are there. -/
def extend (s : Store) (ds : List Draft) : Store :=
  { s with
    rows := s.rows ++ (numbered s.nextId ds).map Entry.toRow
    nextId := s.nextId + ds.length
    rising := by
      refine List.pairwise_append.2 ⟨s.rising, List.pairwise_map.2 (numbered_sorted _ _), ?_⟩
      intro r hr r' hr'
      obtain ⟨e, he, rfl⟩ := List.mem_map.1 hr'
      exact Int.lt_of_lt_of_le (s.below r hr) (id_of_mem_numbered he).1
    below := by
      intro r hr
      rcases List.mem_append.1 hr with hr | hr
      · have := s.below r hr
        omega
      · obtain ⟨e, he, rfl⟩ := List.mem_map.1 hr
        exact (id_of_mem_numbered he).2 }

@[simp] theorem rows_extend (s : Store) (ds : List Draft) :
    (s.extend ds).rows = s.rows ++ (numbered s.nextId ds).map Entry.toRow := rfl

@[simp] theorem nextId_extend (s : Store) (ds : List Draft) :
    (s.extend ds).nextId = s.nextId + ds.length := rfl

/-- Whether no draft stands in the way of storing them all. -/
structure Storable (s : Store) (ds : List Draft) : Prop where
  fresh : ∀ d ∈ ds, s.hasHash d.hash = false
  distinct : (ds.map (·.hash)).Nodup
  owned : ∀ d ∈ ds, s.hasUser d.user = true

theorem filterRows_congr {s : Store} {keep keep' : Row → Bool}
    (h : ∀ r ∈ s.rows, keep r = keep' r) : s.filterRows keep = s.filterRows keep' :=
  Store.ext (List.filter_congr h) rfl rfl rfl

variable {s s' : Store} {d : Draft} {ds : List Draft} {es : List Entry}

theorem hasHash_eq_true_iff {hash : String} :
    s.hasHash hash = true ↔ ∃ r ∈ s.rows, r.hash = hash := by
  simp only [hasHash, List.any_eq_true, beq_iff_eq]

theorem hasUser_eq_true_iff {user : Int} :
    s.hasUser user = true ↔ ∃ u ∈ s.users, u.id = user := by
  simp only [hasUser, List.any_eq_true, beq_iff_eq]

theorem hasHash_append (s : Store) (d : Draft) (hash : String) :
    (s.append d).hasHash hash = (s.hasHash hash || d.hash == hash) := by
  simp only [hasHash, append, List.any_append, List.any_cons, List.any_nil, Bool.or_false]
  rfl

@[simp] theorem extend_nil (s : Store) : s.extend [] = s := by
  apply Store.ext
  · exact List.append_nil s.rows
  · rfl
  · exact Int.add_zero s.nextId
  · rfl

theorem extend_cons (s : Store) (d : Draft) (ds : List Draft) :
    s.extend (d :: ds) = (s.append d).extend ds := by
  apply Store.ext
  · simp only [extend, append, numbered, List.map_cons, List.append_assoc, List.singleton_append]
  · rfl
  · simp only [extend, append, List.length_cons]
    omega
  · rfl

theorem storable_nil (s : Store) : s.Storable [] :=
  ⟨List.forall_mem_nil _, .nil, List.forall_mem_nil _⟩

theorem storable_cons : s.Storable (d :: ds) ↔
    s.hasHash d.hash = false ∧ s.hasUser d.user = true ∧ (s.append d).Storable ds := by
  constructor
  · rintro ⟨hf, hd, ho⟩
    rw [List.map_cons, List.nodup_cons] at hd
    refine ⟨hf d List.mem_cons_self, ho d List.mem_cons_self, ⟨?_, hd.2, ?_⟩⟩
    · intro c hc
      rw [hasHash_append, hf c (List.mem_cons_of_mem d hc), Bool.false_or, beq_eq_false_iff_ne]
      intro he
      exact hd.1 (he ▸ List.mem_map_of_mem hc)
    · intro c hc
      exact ho c (List.mem_cons_of_mem d hc)
  · rintro ⟨hd, hu, hf, hn, ho⟩
    have hne : ∀ c ∈ ds, s.hasHash c.hash = false ∧ d.hash ≠ c.hash := by
      intro c hc
      have := hf c hc
      rwa [hasHash_append, Bool.or_eq_false_iff, beq_eq_false_iff_ne] at this
    refine ⟨?_, ?_, ?_⟩
    · intro c hc
      rcases List.mem_cons.1 hc with rfl | hc
      · exact hd
      · exact (hne c hc).1
    · rw [List.map_cons, List.nodup_cons]
      refine ⟨?_, hn⟩
      intro hm
      obtain ⟨c, hc, he⟩ := List.mem_map.1 hm
      exact (hne c hc).2 he.symm
    · intro c hc
      rcases List.mem_cons.1 hc with rfl | hc
      · exact hu
      · exact ho c hc

theorem createFrom_eq_ok_iff :
    s.createFrom ds = .ok (es, s') ↔
      s.Storable ds ∧ es = numbered s.nextId ds ∧ s' = s.extend ds := by
  induction ds generalizing s es s' with
  | nil =>
    rw [createFrom, extend_nil, Except.ok.injEq, Prod.mk.injEq]
    constructor
    · rintro ⟨rfl, rfl⟩
      exact ⟨storable_nil s, rfl, rfl⟩
    · rintro ⟨-, rfl, rfl⟩
      exact ⟨rfl, rfl⟩
  | cons d ds ih =>
    rw [createFrom, storable_cons, extend_cons]
    by_cases hh : s.hasHash d.hash = true
    · rw [if_pos hh]
      constructor
      · intro h
        cases h
      · rintro ⟨⟨hf, -⟩, -⟩
        rw [hh] at hf
        cases hf
    · rw [if_neg hh]
      by_cases hu : s.hasUser d.user = true
      · rw [hu, Bool.not_true, if_neg Bool.false_ne_true]
        have hf : s.hasHash d.hash = false := Bool.eq_false_iff.2 hh
        cases hc : (s.append d).createFrom ds with
        | error e =>
          constructor
          · intro h
            cases h
          · rintro ⟨⟨-, -, hs⟩, -⟩
            rw [ih.2 ⟨hs, rfl, rfl⟩] at hc
            cases hc
        | ok p =>
          obtain ⟨es', t⟩ := p
          obtain ⟨hs, rfl, rfl⟩ := ih.1 hc
          simp only [Except.ok.injEq, Prod.mk.injEq]
          constructor
          · rintro ⟨rfl, rfl⟩
            exact ⟨⟨hf, trivial, hs⟩, rfl, rfl⟩
          · rintro ⟨-, rfl, rfl⟩
            exact ⟨rfl, rfl⟩
      · have hu' : s.hasUser d.user = false := Bool.eq_false_iff.2 hu
        rw [hu', Bool.not_false, if_pos rfl]
        constructor
        · intro h
          cases h
        · rintro ⟨⟨-, ho, -⟩, -⟩
          cases ho

theorem createFrom_error {e : StoreError} (h : s.createFrom ds = .error e) :
    e = .duplicateHash ∨ e = .missingUser := by
  induction ds generalizing s with
  | nil => cases h
  | cons d ds ih =>
    rw [createFrom] at h
    split at h
    · cases h
      exact .inl rfl
    · split at h
      · cases h
        exact .inr rfl
      · split at h
        · next hd =>
          cases h
          exact ih hd
        · cases h

theorem create_eq_ok_iff :
    s.create ds = (s', .ok es) ↔ s.Storable ds ∧ es = numbered s.nextId ds ∧ s' = s.extend ds := by
  rw [← createFrom_eq_ok_iff, create]
  cases hc : s.createFrom ds with
  | ok p =>
    obtain ⟨es', t⟩ := p
    simp only [Prod.mk.injEq, Except.ok.injEq, and_comm]
  | error e => simp only [Prod.mk.injEq, reduceCtorEq, and_false]

theorem create_cases (s : Store) (ds : List Draft) :
    (s.Storable ds ∧ s.create ds = (s.extend ds, .ok (numbered s.nextId ds))) ∨
      (¬ s.Storable ds ∧ ∃ e, s.create ds = (s, .error e)) := by
  rw [create]
  cases hc : s.createFrom ds with
  | ok p =>
    obtain ⟨es, t⟩ := p
    obtain ⟨hs, rfl, rfl⟩ := createFrom_eq_ok_iff.1 hc
    exact .inl ⟨hs, rfl⟩
  | error e =>
    refine .inr ⟨?_, e, rfl⟩
    intro hs
    rw [createFrom_eq_ok_iff.2 ⟨hs, rfl, rfl⟩] at hc
    cases hc

end Store

end PersonalLedger
