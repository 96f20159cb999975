import Mathlib.Data.List.Nodup
import PersonalLedger.Proofs.Store.Creation

namespace PersonalLedger.Store

variable {s : Store}

theorem ids_nodup (s : Store) : (s.rows.map (·.id)).Nodup := by
  rw [List.Nodup, List.pairwise_map]
  exact s.rising.imp fun hlt => Int.ne_of_lt hlt

theorem eq_of_id_eq {r r' : Row} (hr : r ∈ s.rows) (hr' : r' ∈ s.rows) (he : r.id = r'.id) :
    r = r' :=
  List.inj_on_of_nodup_map s.ids_nodup hr hr' he

/-- Ids are positive, no fingerprint and no user is there twice, and every row has an owner. -/
structure Consistent (s : Store) : Prop where
  next_pos : 0 < s.nextId
  ids_pos : ∀ r ∈ s.rows, 0 < r.id
  hashes_nodup : (s.rows.map (·.hash)).Nodup
  users_nodup : (s.users.map (·.id)).Nodup
  owned : ∀ r ∈ s.rows, s.hasUser r.user = true

theorem Consistent.countP_owner (h : s.Consistent) {r : Row} (hr : r ∈ s.rows) :
    s.users.countP (·.id == r.user) = 1 := by
  obtain ⟨u, hu, he⟩ := hasUser_eq_true_iff.1 (h.owned r hr)
  have hm : r.user ∈ s.users.map (·.id) := he ▸ List.mem_map_of_mem hu
  have hc := List.count_eq_one_of_mem h.users_nodup hm
  rw [List.count, List.countP_map] at hc
  exact hc

theorem consistent_empty (defaultCurrency : String) : (empty defaultCurrency).Consistent where
  next_pos := Int.one_pos
  ids_pos := List.forall_mem_nil _
  hashes_nodup := .nil
  users_nodup := .nil
  owned := List.forall_mem_nil _

theorem Consistent.extend {ds : List Draft} (h : s.Consistent) (hs : s.Storable ds) :
    (s.extend ds).Consistent where
  next_pos := by
    have := h.next_pos
    rw [nextId_extend]
    omega
  ids_pos := by
    intro r hr
    have := h.next_pos
    rcases List.mem_append.1 hr with hr | hr
    · exact h.ids_pos r hr
    · obtain ⟨e, he, rfl⟩ := List.mem_map.1 hr
      have := (id_of_mem_numbered he).1
      rw [Entry.id_toRow]
      omega
  hashes_nodup := by
    have hn : ((numbered s.nextId ds).map Entry.toRow).map (·.hash) = ds.map (·.hash) := by
      rw [List.map_map]
      exact hashes_numbered s.nextId ds
    rw [rows_extend, List.map_append, hn]
    refine List.nodup_append.2 ⟨h.hashes_nodup, hs.distinct, ?_⟩
    intro x hx y hy he
    subst he
    obtain ⟨r, hr, rfl⟩ := List.mem_map.1 hx
    obtain ⟨d, hd, he⟩ := List.mem_map.1 hy
    have hf := hs.fresh d hd
    rw [hasHash_eq_true_iff.2 ⟨r, hr, he.symm⟩] at hf
    cases hf
  users_nodup := h.users_nodup
  owned := by
    intro r hr
    rcases List.mem_append.1 hr with hr | hr
    · exact h.owned r hr
    · obtain ⟨e, he, rfl⟩ := List.mem_map.1 hr
      exact hs.owned e.toDraft (toDraft_mem_of_numbered he)

theorem mem_rows_delete {owned : List (Int × Int)} {r : Row} :
    r ∈ (s.delete owned).rows ↔ r ∈ s.rows ∧ (r.id, r.user) ∉ owned := by
  simp only [delete, rows_filterRows, List.mem_filter, Bool.not_eq_true', List.contains_eq_mem,
    decide_eq_false_iff_not]

theorem Consistent.delete (h : s.Consistent) (owned : List (Int × Int)) :
    (s.delete owned).Consistent where
  next_pos := h.next_pos
  ids_pos r hr := h.ids_pos r (mem_rows_delete.1 hr).1
  hashes_nodup := h.hashes_nodup.sublist (List.filter_sublist.map _)
  users_nodup := h.users_nodup
  owned r hr := h.owned r (mem_rows_delete.1 hr).1

namespace Column

variable (c : Column) (value : String) (r : Row)

@[simp] theorem user_set : (c.set value r).user = r.user := by
  cases c <;> rfl

@[simp] theorem hash_set : (c.set value r).hash = r.hash := by
  cases c <;> rfl

end Column

theorem map_rows_overwrite {α : Type} (f : Row → α)
    (hf : ∀ (c : Column) (value : String) (r : Row), f (c.set value r) = f r)
    (s : Store) (id : Int) (c : Column) (value : String) :
    (s.overwrite id c value).1.rows.map f = s.rows.map f := by
  simp only [overwrite, List.map_map]
  apply List.map_congr_left
  intro r _
  rw [Function.comp_apply, Column.setAt]
  split
  · exact hf c value r
  · rfl

theorem Consistent.overwrite (h : s.Consistent) (id : Int) (c : Column) (value : String) :
    (s.overwrite id c value).1.Consistent := by
  have hi := map_rows_overwrite (·.id) Column.id_set s id c value
  have hh := map_rows_overwrite (·.hash) Column.hash_set s id c value
  have hu := map_rows_overwrite (·.user) Column.user_set s id c value
  refine ⟨h.next_pos, ?_, hh ▸ h.hashes_nodup, h.users_nodup, ?_⟩
  · intro r hr
    have hm : r.id ∈ s.rows.map (·.id) := hi ▸ List.mem_map_of_mem hr
    obtain ⟨r', hr', he⟩ := List.mem_map.1 hm
    exact he ▸ h.ids_pos r' hr'
  · intro r hr
    have hm : r.user ∈ s.rows.map (·.user) := hu ▸ List.mem_map_of_mem hr
    obtain ⟨r', hr', he⟩ := List.mem_map.1 hm
    exact he ▸ h.owned r' hr'

theorem user?_eq_none_iff {user : Int} : s.user? user = none ↔ s.hasUser user = false := by
  simp only [user?, hasUser, List.find?_eq_none, List.any_eq_false]

theorem getOrCreateUser_fst (s : Store) (user : Int) :
    (s.getOrCreateUser user).1 =
      if s.hasUser user then s else { s with users := s.users ++ [⟨user, s.defaultCurrency⟩] } := by
  rw [getOrCreateUser]
  cases hu : s.user? user with
  | none => rw [user?_eq_none_iff.1 hu, if_neg Bool.false_ne_true]
  | some u =>
    have hh : s.hasUser user ≠ false := by
      intro hf
      rw [user?_eq_none_iff.2 hf] at hu
      cases hu
    rw [if_pos (Bool.ne_false_iff.1 hh)]

theorem hasUser_getOrCreateUser (s : Store) (user : Int) :
    (s.getOrCreateUser user).1.hasUser user = true := by
  rw [getOrCreateUser_fst]
  by_cases hu : s.hasUser user = true
  · rw [if_pos hu]
    exact hu
  · rw [if_neg hu, hasUser_eq_true_iff]
    exact ⟨⟨user, s.defaultCurrency⟩, List.mem_append_right _ (List.mem_singleton_self _), rfl⟩

@[simp] theorem rows_getOrCreateUser (s : Store) (user : Int) :
    (s.getOrCreateUser user).1.rows = s.rows := by
  rw [getOrCreateUser_fst]
  split <;> rfl

@[simp] theorem nextId_getOrCreateUser (s : Store) (user : Int) :
    (s.getOrCreateUser user).1.nextId = s.nextId := by
  rw [getOrCreateUser_fst]
  split <;> rfl

@[simp] theorem rows_updateUser (s : Store) (u : User) : (s.updateUser u).rows = s.rows := by
  rw [updateUser]
  split <;> rfl

@[simp] theorem nextId_updateUser (s : Store) (u : User) :
    (s.updateUser u).nextId = s.nextId := by
  rw [updateUser]
  split <;> rfl

theorem Consistent.of_users (h : s.Consistent) {t : Store} (hr : t.rows = s.rows)
    (hn : t.nextId = s.nextId) (hu : (t.users.map (·.id)).Nodup)
    (hk : ∀ user, s.hasUser user = true → t.hasUser user = true) : t.Consistent where
  next_pos := hn ▸ h.next_pos
  ids_pos := hr ▸ h.ids_pos
  hashes_nodup := hr ▸ h.hashes_nodup
  users_nodup := hu
  owned r hm := hk r.user (h.owned r (hr ▸ hm))

theorem not_mem_of_hasUser_eq_false {user : Int} (h : s.hasUser user = false) :
    user ∉ s.users.map (·.id) := by
  intro hm
  obtain ⟨u, hu, he⟩ := List.mem_map.1 hm
  rw [hasUser_eq_true_iff.2 ⟨u, hu, he⟩] at h
  cases h

theorem Consistent.addUser (h : s.Consistent) {u : User} (hu : s.hasUser u.id = false) :
    Consistent { s with users := s.users ++ [u] } := by
  refine h.of_users rfl rfl ?_ ?_
  · rw [List.map_append, List.map_singleton]
    refine List.nodup_append.2 ⟨h.users_nodup, List.nodup_singleton _, ?_⟩
    intro x hx y hy he
    rw [List.mem_singleton] at hy
    exact not_mem_of_hasUser_eq_false hu (hy ▸ he ▸ hx)
  · intro user hk
    obtain ⟨v, hv, he⟩ := hasUser_eq_true_iff.1 hk
    exact hasUser_eq_true_iff.2 ⟨v, List.mem_append_left _ hv, he⟩

theorem Consistent.getOrCreateUser (h : s.Consistent) (user : Int) :
    (s.getOrCreateUser user).1.Consistent := by
  rw [getOrCreateUser_fst]
  by_cases hu : s.hasUser user = true
  · rw [if_pos hu]
    exact h
  · rw [if_neg hu]
    exact h.addUser (Bool.eq_false_iff.2 hu)

theorem Consistent.updateUser (h : s.Consistent) (u : User) : (s.updateUser u).Consistent := by
  rw [Store.updateUser]
  by_cases hu : s.hasUser u.id = true
  · rw [if_pos hu]
    have hm : (s.users.map fun v => if v.id == u.id then u else v).map (·.id) =
        s.users.map (·.id) := by
      rw [List.map_map]
      apply List.map_congr_left
      intro v _
      simp only [Function.comp_apply, beq_iff_eq]
      split
      · next he => exact he.symm
      · rfl
    refine h.of_users rfl rfl (hm ▸ h.users_nodup) ?_
    intro user hk
    obtain ⟨v, hv, rfl⟩ := hasUser_eq_true_iff.1 hk
    have hv' : v.id ∈ s.users.map (·.id) := List.mem_map_of_mem hv
    rw [← hm] at hv'
    obtain ⟨v', hv', he⟩ := List.mem_map.1 hv'
    exact hasUser_eq_true_iff.2 ⟨v', hv', he⟩
  · rw [if_neg hu]
    exact h.addUser (Bool.eq_false_iff.2 hu)

end PersonalLedger.Store
