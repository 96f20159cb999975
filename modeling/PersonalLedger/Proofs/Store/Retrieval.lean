import PersonalLedger.Proofs.Store.Query

namespace PersonalLedger

def Entry.inMicros (e : Entry) : Entry := { e with time := e.time.toMicros }

theorem Entry.readBack_eq_inMicros {e : Entry}
    (h : e.amount.negative = true → e.amount.mantissa ≠ 0) : e.readBack = e.inMicros := by
  rw [readBack, inMicros, Decimal.readBack_eq_self h]

theorem filter_key_eq_singleton {α β : Type} [BEq α] [LawfulBEq α] [BEq β] [LawfulBEq β]
    {key : α → β} {xs : List α} {x : α} (h : (xs.map key).Nodup) (hx : x ∈ xs) :
    xs.filter (fun y => key y == key x) = [x] := by
  have hkey : ∀ y ∈ xs, (key y == key x) = (y == x) := by
    intro y hy
    rw [Bool.eq_iff_iff, beq_iff_eq, beq_iff_eq]
    exact ⟨fun he => List.inj_on_of_nodup_map h hy hx he, congrArg key⟩
  rw [List.filter_congr hkey, List.filter_beq, List.count_eq_one_of_mem (.of_map key h) hx]
  rfl

namespace Store

variable {s t : Store} {ds : List Draft} {es : List Entry} {ids : List Int} {user : Int}

theorem named_extend (hi : ∀ id ∈ ids, s.nextId ≤ id) :
    (s.extend ds).named ids user =
      ((numbered s.nextId ds).filter fun e => e.user == user && ids.contains e.id).map
        Entry.toRow := by
  have hold : s.rows.filter (fun r => r.user == user && ids.contains r.id) = [] := by
    apply List.filter_eq_nil_iff.2
    intro r hr h
    rw [Bool.and_eq_true, List.contains_iff_mem] at h
    have hlt := s.below r hr
    have hle := hi r.id h.2
    omega
  rw [named, rows_extend, List.filter_append, hold, List.nil_append, List.filter_map]
  rfl

theorem findByIds_extend (hi : ∀ id ∈ ids, s.nextId ≤ id)
    (ht : ∀ d ∈ ds, d.time.IsPlain) (hl : ids.length < maxValues) :
    (s.extend ds).findByIds ids user =
      .ok (((numbered s.nextId ds).filter fun e => e.user == user && ids.contains e.id).map
        Entry.readBack) := by
  rw [findByIds_eq_ok_iff, named_extend hi]
  refine ⟨hl, readAll_map_toRow ?_⟩
  intro e he
  exact ht e.toDraft (toDraft_mem_of_numbered (List.mem_filter.1 he).1)

theorem hashed_extend (h : s.Storable ds) {e : Entry} (he : e ∈ numbered s.nextId ds) :
    (s.extend ds).hashed e.hash user = if e.user = user then [e.toRow] else [] := by
  have hold : s.rows.filter (fun r => r.hash == e.hash && r.user == user) = [] := by
    apply List.filter_eq_nil_iff.2
    intro r hr hm
    rw [Bool.and_eq_true, beq_iff_eq] at hm
    -- the owner does not matter here: fingerprints are new in the whole store
    have hf := h.fresh e.toDraft (toDraft_mem_of_numbered he)
    rw [hasHash_eq_true_iff.2 ⟨r, hr, hm.1⟩] at hf
    cases hf
  have hnew : (numbered s.nextId ds).filter (fun a => a.hash == e.hash && a.user == user) =
      if e.user = user then [e] else [] := by
    have hdistinct : ((numbered s.nextId ds).map (·.hash)).Nodup := by
      rw [hashes_numbered]
      exact h.distinct
    rw [List.filter_congr fun a _ => Bool.and_comm (a.hash == e.hash) (a.user == user),
      ← List.filter_filter, filter_key_eq_singleton hdistinct he, List.filter_singleton]
    simp only [cond_eq_ite, beq_iff_eq]
  rw [hashed, rows_extend, List.filter_append, hold, List.nil_append, List.filter_map]
  exact (congrArg (List.map Entry.toRow) hnew).trans (by split <;> rfl)

theorem findByHash_extend (h : s.Storable ds) (ht : ∀ d ∈ ds, d.time.IsPlain) {e : Entry}
    (he : e ∈ numbered s.nextId ds) :
    (s.extend ds).findByHash e.hash user =
      .ok (if e.user = user then some e.readBack else none) := by
  have hh : (s.extend ds).hashed e.hash user = _ := hashed_extend h he
  have hr := Entry.read_toRow (ht e.toDraft (toDraft_mem_of_numbered he))
  by_cases hu : e.user = user
  · have ha : readAll [e.toRow] = .ok [e.readBack] := mapM_eq_ok_iff.2 (.cons hr .nil)
    rw [if_pos hu] at hh ⊢
    rw [findByHash, ← hashed, hh, List.take_succ_cons, List.take_zero, ha]
    rfl
  · rw [if_neg hu] at hh ⊢
    exact findByHash_eq_none hh

/-- New entries of the years 0 to 9999 with no signed zeros are found as they were stored, but for a
time cut to whole microseconds: under as many of their ids as one statement takes, those that the
user owns, and under the fingerprint of each, that entry if the user owns it. -/
theorem found_of_create (hc : s.create ds = (t, .ok es))
    (ht : ∀ d ∈ ds, d.time.IsPlain)
    (hz : ∀ d ∈ ds, d.amount.negative = true → d.amount.mantissa ≠ 0) :
    (∀ ids user, (∀ id ∈ ids, id ∈ es.map (·.id)) → ids.length < maxValues →
        t.findByIds ids user =
          .ok ((es.filter fun e => e.user == user && ids.contains e.id).map Entry.inMicros)) ∧
      ∀ e ∈ es, ∀ user,
        t.findByHash e.hash user = .ok (if e.user = user then some e.inMicros else none) := by
  obtain ⟨hs, rfl, rfl⟩ := create_eq_ok_iff.1 hc
  have hread : ∀ e ∈ numbered s.nextId ds, e.readBack = e.inMicros := by
    intro e he
    exact Entry.readBack_eq_inMicros (hz e.toDraft (toDraft_mem_of_numbered he))
  refine ⟨?_, ?_⟩
  · intro ids user hi hl
    have hnew : ∀ id ∈ ids, s.nextId ≤ id := by
      intro id hm
      obtain ⟨e, he, rfl⟩ := List.mem_map.1 (hi id hm)
      exact (id_of_mem_numbered he).1
    rw [findByIds_extend hnew ht hl]
    congr 1
    apply List.map_congr_left
    intro e he
    exact hread e (List.mem_filter.1 he).1
  · intro e he user
    rw [findByHash_extend hs ht he, hread e he]

/-- Beside a row that cannot be read, one user stores the amount with the most digits, in a leap
second, and another a zero with all places. -/
theorem found_of_create_two :
    let s : Store := ⟨[⟨1, 1, "Groceries", "?", "NZD", "", "?", "old"⟩], [⟨1, "NZD"⟩, ⟨2, "USD"⟩],
      2, "NZD", by decide, by decide⟩
    let ds : List Draft := [
      ⟨1, "Rent", ⟨true, 2 ^ 96 - 1, 28, by decide, by decide⟩, "NZD", "a\x1fb",
        ⟨1483228799, 1999999999, by decide, by decide⟩, "first"⟩,
      ⟨2, "Fun", ⟨false, 0, 28, by decide, by decide⟩, "USD", "", .epoch, "second"⟩]
    let es := numbered s.nextId ds
    (s.create ds = (s.extend ds, .ok es) ∧
        (∀ d ∈ ds, d.time.IsPlain) ∧
        ∀ d ∈ ds, d.amount.negative = true → d.amount.mantissa ≠ 0) ∧
      (∀ ids user, (∀ id ∈ ids, id ∈ es.map (·.id)) → ids.length < maxValues →
        (s.extend ds).findByIds ids user =
          .ok ((es.filter fun e => e.user == user && ids.contains e.id).map Entry.inMicros)) ∧
      ∀ e ∈ es, ∀ user,
        (s.extend ds).findByHash e.hash user =
          .ok (if e.user = user then some e.inMicros else none) := by
  intro s ds es
  have hc : s.create ds = (s.extend ds, .ok es) :=
    create_eq_ok_iff.2 ⟨⟨by decide, by decide, by decide⟩, rfl, rfl⟩
  have ht : ∀ d ∈ ds, d.time.IsPlain := by decide
  have hz : ∀ d ∈ ds, d.amount.negative = true → d.amount.mantissa ≠ 0 := by decide
  exact ⟨⟨hc, ht, hz⟩, found_of_create hc ht hz⟩

/-- A batch that is stored whole, but has more ids than one statement takes. -/
theorem not_found_of_many_ids :
    let s : Store := ((empty "NZD").getOrCreateUser 1).1
    let draft (k : Nat) : Draft :=
      ⟨1, "Groceries", ⟨false, 750, 2, by decide, by decide⟩, "NZD", "", .epoch, Text.natString k⟩
    let ds := (List.range maxValues).map draft
    ∃ t es, s.create ds = (t, .ok es) ∧ (∀ d ∈ ds, d.time.IsPlain) ∧
      (∀ d ∈ ds, d.amount.negative = true → d.amount.mantissa ≠ 0) ∧
      ∀ user found, t.findByIds (es.map (·.id)) user ≠ .ok found := by
  intro s draft ds
  have hdistinct : (ds.map (·.hash)).Nodup := by
    rw [List.map_map]
    exact List.nodup_range.map fun k k' he => Text.natText_inj (String.ofList_injective he)
  have hs : s.Storable ds :=
    ⟨List.forall_mem_map.2 fun _ _ => rfl, hdistinct, List.forall_mem_map.2 fun _ _ => rfl⟩
  have ht : ∀ d ∈ ds, d.time.IsPlain := by
    have : Instant.epoch.IsPlain := by decide
    exact List.forall_mem_map.2 fun _ _ => this
  have hz : ∀ d ∈ ds, d.amount.negative = true → d.amount.mantissa ≠ 0 :=
    List.forall_mem_map.2 fun _ _ h => Bool.noConfusion h
  refine ⟨s.extend ds, numbered s.nextId ds, create_eq_ok_iff.2 ⟨hs, rfl, rfl⟩, ht, hz, ?_⟩
  intro user found h
  have hl := (findByIds_eq_ok_iff.1 h).1
  rw [List.length_map, length_numbered, List.length_map, List.length_range] at hl
  exact Nat.lt_irrefl _ hl

end Store

end PersonalLedger
