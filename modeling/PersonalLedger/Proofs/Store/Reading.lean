import PersonalLedger.Proofs.Store.Consistency
import PersonalLedger.Proofs.Traverse

namespace PersonalLedger

namespace Row

variable {r : Row} {e : Entry}

theorem exists_of_read_eq_ok (h : r.read = .ok e) :
    ∃ amount time offset,
      Decimal.read? r.amount.toList = some amount ∧
        Timestamp.read? r.time.toList = some (time, offset) ∧
        e = { id := r.id, user := r.user, category := r.category, amount, currency := r.currency,
              notes := r.notes, time, hash := r.hash } := by
  rw [read] at h
  cases ha : Decimal.read? r.amount.toList with
  | none =>
    rw [ha] at h
    cases h
  | some amount =>
    rw [ha] at h
    cases ht : Timestamp.read? r.time.toList with
    | none =>
      simp only [ht] at h
      cases h
    | some p =>
      obtain ⟨time, offset⟩ := p
      simp only [ht] at h
      cases h
      exact ⟨amount, time, offset, rfl, rfl, rfl⟩

theorem id_of_read_eq_ok (h : r.read = .ok e) : e.id = r.id := by
  obtain ⟨amount, time, offset, -, -, rfl⟩ := exists_of_read_eq_ok h
  rfl

theorem user_of_read_eq_ok (h : r.read = .ok e) : e.user = r.user := by
  obtain ⟨amount, time, offset, -, -, rfl⟩ := exists_of_read_eq_ok h
  rfl

theorem read_eq_error {e : StoreError} (h : r.read = .error e) : ∃ detail, e = .corrupt detail := by
  rw [read] at h
  split at h
  · cases h
    exact ⟨_, rfl⟩
  · split at h
    · cases h
      exact ⟨_, rfl⟩
    · cases h

theorem read_ne_ok {e : StoreError} (h : r.read = .error e) : ∀ e', r.read ≠ .ok e' := by
  intro e' hok
  rw [h] at hok
  cases hok

end Row

namespace Store

variable {s : Store} {rows : List Row} {es : List Entry} {ids : List Int} {user : Int}

theorem ids_readAll (h : readAll rows = .ok es) : es.map (·.id) = rows.map (·.id) :=
  map_eq_of_mapM_eq_ok (fun _ _ => Row.id_of_read_eq_ok) h

/-- The rows that a look-up by ids selects. -/
def named (s : Store) (ids : List Int) (user : Int) : List Row :=
  s.rows.filter fun r => r.user == user && ids.contains r.id

theorem mem_named {r : Row} : r ∈ s.named ids user ↔ r ∈ s.rows ∧ r.user = user ∧ r.id ∈ ids := by
  simp only [named, List.mem_filter, Bool.and_eq_true, beq_iff_eq, List.contains_iff_mem]

theorem findByIds_eq_ok_iff :
    s.findByIds ids user = .ok es ↔
      ids.length < maxValues ∧ readAll (s.named ids user) = .ok es := by
  rw [findByIds]
  by_cases hn : maxValues < ids.length + 1
  · rw [if_pos hn]
    constructor
    · intro h
      cases h
    · rintro ⟨hlt, -⟩
      omega
  · rw [if_neg hn]
    exact ⟨fun h => ⟨by omega, h⟩, fun h => h.2⟩

/-- A look-up by ids finds a row corrupt only if it selects that row. -/
theorem exists_of_findByIds_eq_corrupt {detail : String}
    (h : s.findByIds ids user = .error (.corrupt detail)) :
    ∃ r ∈ s.named ids user, r.read = .error (.corrupt detail) := by
  rw [findByIds] at h
  split at h
  · cases h
  · exact exists_mem_of_mapM_eq_error h

theorem findByIds_eq_corrupt (hl : ids.length < maxValues) {r : Row} (hr : r ∈ s.named ids user)
    (h : ∀ e, r.read ≠ .ok e) : ∃ detail, s.findByIds ids user = .error (.corrupt detail) := by
  cases hf : s.findByIds ids user with
  | ok es =>
    obtain ⟨e, he⟩ := exists_of_mapM_eq_ok (findByIds_eq_ok_iff.1 hf).2 hr
    exact absurd he (h e)
  | error e =>
    rw [findByIds, if_neg (by omega)] at hf
    obtain ⟨r', -, hr'⟩ := exists_mem_of_mapM_eq_error hf
    obtain ⟨detail, rfl⟩ := Row.read_eq_error hr'
    exact ⟨detail, rfl⟩

theorem exists_row_of_mem_found (h : s.findByIds ids user = .ok es) {e : Entry} (he : e ∈ es) :
    e.user = user ∧ ∃ r ∈ s.rows, r.id = e.id ∧ r.user = user := by
  have hr := (findByIds_eq_ok_iff.1 h).2
  obtain ⟨r, hm, hre⟩ := exists_mem_of_mapM_eq_ok hr he
  obtain ⟨hs, hu, -⟩ := mem_named.1 hm
  exact ⟨(Row.user_of_read_eq_ok hre).trans hu, r, hs, (Row.id_of_read_eq_ok hre).symm, hu⟩

theorem ids_found_nodup (h : s.findByIds ids user = .ok es) :
    (es.map (·.id)).Nodup := by
  rw [ids_readAll (findByIds_eq_ok_iff.1 h).2]
  exact s.ids_nodup.sublist (List.filter_sublist.map _)

/-- Removing what was found under ids removes the rows that have those ids, and no others. -/
theorem rows_delete_found (h : s.findByIds ids user = .ok es) :
    (s.delete (es.map fun e => (e.id, e.user))).rows =
      s.rows.filter fun r => r.id ∉ es.map (·.id) := by
  rw [delete, rows_filterRows]
  apply List.filter_congr
  intro r hr
  have hi : (r.id, r.user) ∈ es.map (fun e => (e.id, e.user)) ↔ r.id ∈ es.map (·.id) := by
    constructor
    · intro hm
      obtain ⟨e, he, hp⟩ := List.mem_map.1 hm
      exact List.mem_map.2 ⟨e, he, congrArg Prod.fst hp⟩
    · intro hm
      obtain ⟨e, he, hid⟩ := List.mem_map.1 hm
      obtain ⟨hu, r', hr', hid', hu'⟩ := exists_row_of_mem_found h he
      have : r = r' := eq_of_id_eq hr hr' (hid'.trans hid).symm
      subst this
      exact List.mem_map.2 ⟨e, he, by rw [hid, hu, hu']⟩
  rw [List.contains_eq_mem, decide_not, decide_eq_decide.2 hi]

variable {hash : String}

/-- The rows that a look-up by fingerprint selects. -/
def hashed (s : Store) (hash : String) (user : Int) : List Row :=
  s.rows.filter fun r => r.hash == hash && r.user == user

theorem mem_hashed {r : Row} :
    r ∈ s.hashed hash user ↔ r ∈ s.rows ∧ r.hash = hash ∧ r.user = user := by
  simp only [hashed, List.mem_filter, Bool.and_eq_true, beq_iff_eq]

theorem findByHash_eq_none (h : s.hashed hash user = []) : s.findByHash hash user = .ok none := by
  rw [findByHash, ← hashed, h]
  rfl

theorem findByHash_eq_some (hr : ∀ r ∈ s.rows, ∃ e, r.read = .ok e)
    (h : s.hashed hash user ≠ []) : ∃ e, s.findByHash hash user = .ok (some e) := by
  cases hs : s.hashed hash user with
  | nil => exact absurd hs h
  | cons r rows =>
    have hm : r ∈ s.hashed hash user := hs ▸ List.mem_cons_self
    obtain ⟨e, he⟩ := hr r (mem_hashed.1 hm).1
    have ha : readAll [r] = .ok [e] := mapM_eq_ok_iff.2 (.cons he .nil)
    refine ⟨e, ?_⟩
    rw [findByHash, ← hashed, hs, List.take_succ_cons, List.take_zero, ha]
    rfl

theorem exists_of_findByHash_eq_error {e : StoreError} (h : s.findByHash hash user = .error e) :
    ∃ r ∈ s.hashed hash user, r.read = .error e := by
  rw [findByHash, ← hashed] at h
  cases hr : readAll ((s.hashed hash user).take 1) with
  | ok es =>
    rw [hr] at h
    cases h
  | error e' =>
    rw [hr] at h
    cases h
    obtain ⟨r, hm, he⟩ := exists_mem_of_mapM_eq_error hr
    exact ⟨r, List.mem_of_mem_take hm, he⟩

end Store

end PersonalLedger
