import PersonalLedger.Proofs.Store.Query

namespace PersonalLedger.Store

def rowsOf (s : Store) (user : Int) : List Row := s.rows.filter (·.user == user)

/-- Whether a user has the same rows and the same settings in two stores, which give the same
currency to new users. -/
structure Agree (user : Int) (s t : Store) : Prop where
  rows : s.rowsOf user = t.rowsOf user
  settings : s.user? user = t.user? user
  defaultCurrency : s.defaultCurrency = t.defaultCurrency

variable {s t : Store} {user other : Int}

theorem Agree.refl (user : Int) (s : Store) : Agree user s s := ⟨rfl, rfl, rfl⟩

theorem Agree.symm (h : Agree user s t) : Agree user t s :=
  ⟨h.rows.symm, h.settings.symm, h.defaultCurrency.symm⟩

theorem Agree.trans {u : Store} (h : Agree user s t) (h' : Agree user t u) : Agree user s u :=
  ⟨h.rows.trans h'.rows, h.settings.trans h'.settings, h.defaultCurrency.trans h'.defaultCurrency⟩

theorem hashed_eq_filter_rowsOf (s : Store) (hash : String) (user : Int) :
    s.hashed hash user = (s.rowsOf user).filter (·.hash == hash) := by
  rw [hashed, rowsOf, List.filter_filter]

theorem named_eq_filter_rowsOf (s : Store) (ids : List Int) (user : Int) :
    s.named ids user = (s.rowsOf user).filter fun r => ids.contains r.id := by
  rw [named, rowsOf, List.filter_filter]
  apply List.filter_congr
  intro r _
  exact Bool.and_comm _ _

theorem filter_selects_eq_filter_rowsOf (s : Store) (q : Query) :
    s.rows.filter q.selects = (s.rowsOf q.user).filter q.selects := by
  rw [rowsOf, List.filter_filter]
  apply List.filter_congr
  intro r _
  cases hs : q.selects r with
  | false => rfl
  | true =>
    have hu : r.user = q.user := (selects_iff.1 hs).1
    rw [hu, Bool.true_and, beq_self_eq_true]

namespace Agree

theorem findByHash (h : Agree user s t) (hash : String) :
    s.findByHash hash user = t.findByHash hash user := by
  rw [Store.findByHash, Store.findByHash, ← hashed, ← hashed, hashed_eq_filter_rowsOf,
    hashed_eq_filter_rowsOf, h.rows]

theorem findByIds (h : Agree user s t) (ids : List Int) :
    s.findByIds ids user = t.findByIds ids user := by
  rw [Store.findByIds, Store.findByIds, ← named, ← named, named_eq_filter_rowsOf,
    named_eq_filter_rowsOf, h.rows]

theorem query (h : Agree user s t) (category currency : Option String) (window : Window) :
    s.query ⟨user, category, currency, window⟩ = t.query ⟨user, category, currency, window⟩ := by
  rw [Store.query, Store.query, select, select, filter_selects_eq_filter_rowsOf,
    filter_selects_eq_filter_rowsOf, h.rows]

end Agree

theorem rowsOf_of_rows_eq (h : t.rows = s.rows) (user : Int) : t.rowsOf user = s.rowsOf user := by
  rw [rowsOf, rowsOf, h]

theorem rowsOf_delete (s : Store) (owned : List (Int × Int)) (user : Int) :
    (s.delete owned).rowsOf user =
      (s.rowsOf user).filter fun r => !owned.contains (r.id, r.user) := by
  rw [rowsOf, rowsOf, delete, rows_filterRows, List.filter_filter, List.filter_filter]
  apply List.filter_congr
  intro r _
  exact Bool.and_comm _ _

theorem rowsOf_delete_of_ne {owned : List (Int × Int)} (h : ∀ p ∈ owned, p.2 = user)
    (hne : other ≠ user) : (s.delete owned).rowsOf other = s.rowsOf other := by
  rw [rowsOf_delete, List.filter_eq_self]
  intro r hr
  have hu : r.user = other := beq_iff_eq.1 (List.mem_filter.1 hr).2
  rw [List.contains_eq_mem, Bool.not_eq_true', decide_eq_false_iff_not]
  intro hm
  exact hne (hu.symm.trans (h _ hm))

section Extend

variable {ds : List Draft} (h : ∀ d ∈ ds, d.user = user)

include h

theorem rowsOf_extend : (s.extend ds).rowsOf user =
    s.rowsOf user ++ (numbered s.nextId ds).map Entry.toRow := by
  rw [rowsOf, rows_extend, List.filter_append, ← rowsOf]
  congr 1
  rw [List.filter_eq_self]
  intro r hr
  obtain ⟨e, he, rfl⟩ := List.mem_map.1 hr
  exact beq_iff_eq.2 (h e.toDraft (toDraft_mem_of_numbered he))

theorem rowsOf_extend_of_ne (hne : other ≠ user) :
    (s.extend ds).rowsOf other = s.rowsOf other := by
  rw [rowsOf, rows_extend, List.filter_append, ← rowsOf, List.append_right_eq_self,
    List.filter_eq_nil_iff]
  intro r hr hu
  obtain ⟨e, he, rfl⟩ := List.mem_map.1 hr
  have hd : e.user = user := h e.toDraft (toDraft_mem_of_numbered he)
  exact hne ((beq_iff_eq.1 hu).symm.trans hd)

end Extend

theorem Agree.delete (h : Agree user s t) (owned : List (Int × Int)) :
    Agree user (s.delete owned) (t.delete owned) where
  rows := by rw [rowsOf_delete, rowsOf_delete, h.rows]
  settings := h.settings
  defaultCurrency := h.defaultCurrency

theorem getOrCreateUser_of_unknown (h : s.user? user = none) :
    s.getOrCreateUser user =
      ({ s with users := s.users ++ [⟨user, s.defaultCurrency⟩] }, ⟨user, s.defaultCurrency⟩) := by
  rw [getOrCreateUser, h]

theorem getOrCreateUser_of_known {u : User} (h : s.user? user = some u) :
    s.getOrCreateUser user = (s, u) := by
  rw [getOrCreateUser, h]

theorem find?_append_of_unknown {users : List User} (u : User)
    (h : users.find? (·.id == u.id) = none) :
    (users ++ [u]).find? (·.id == u.id) = some u := by
  rw [List.find?_append, h, Option.none_or, List.find?_singleton, if_pos (beq_self_eq_true u.id)]

theorem find?_append_of_ne (users : List User) {u : User} (h : other ≠ u.id) :
    (users ++ [u]).find? (·.id == other) = users.find? (·.id == other) := by
  have hf : [u].find? (·.id == other) = none := by
    rw [List.find?_singleton, if_neg]
    intro he
    exact h (beq_iff_eq.1 he).symm
  rw [List.find?_append, hf, Option.or_none]

theorem user?_getOrCreateUser (s : Store) (user : Int) :
    (s.getOrCreateUser user).1.user? user = some (s.getOrCreateUser user).2 := by
  cases h : s.user? user with
  | none =>
    rw [getOrCreateUser_of_unknown h]
    exact find?_append_of_unknown ⟨user, s.defaultCurrency⟩ h
  | some u =>
    rw [getOrCreateUser_of_known h]
    exact h

theorem user?_getOrCreateUser_of_ne (s : Store) (h : other ≠ user) :
    (s.getOrCreateUser user).1.user? other = s.user? other := by
  cases hu : s.user? user with
  | none =>
    rw [getOrCreateUser_of_unknown hu]
    exact find?_append_of_ne s.users h
  | some u => rw [getOrCreateUser_of_known hu]

theorem id_getOrCreateUser (s : Store) (user : Int) : (s.getOrCreateUser user).2.id = user := by
  have h := List.find?_some (user?_getOrCreateUser s user)
  exact beq_iff_eq.1 h

@[simp] theorem defaultCurrency_getOrCreateUser (s : Store) (user : Int) :
    (s.getOrCreateUser user).1.defaultCurrency = s.defaultCurrency := by
  rw [getOrCreateUser_fst]
  split <;> rfl

@[simp] theorem defaultCurrency_updateUser (s : Store) (u : User) :
    (s.updateUser u).defaultCurrency = s.defaultCurrency := by
  rw [updateUser]
  split <;> rfl

theorem find?_replace_self {users : List User} {u : User} (h : users.any (·.id == u.id) = true) :
    (users.map fun v => if v.id == u.id then u else v).find? (·.id == u.id) = some u := by
  induction users with
  | nil => cases h
  | cons v users ih =>
    rw [List.map_cons, List.find?_cons]
    by_cases hv : v.id == u.id
    · simp only [hv, if_true, beq_self_eq_true]
    · rw [List.any_cons, Bool.eq_false_iff.2 hv, Bool.false_or] at h
      simp only [Bool.eq_false_iff.2 hv, if_false, Bool.false_eq_true]
      exact ih h

theorem find?_replace_of_ne (users : List User) {u : User} (h : other ≠ u.id) :
    (users.map fun v => if v.id == u.id then u else v).find? (·.id == other) =
      users.find? (·.id == other) := by
  induction users with
  | nil => rfl
  | cons v users ih =>
    rw [List.map_cons, List.find?_cons, List.find?_cons, ih]
    by_cases hv : v.id == u.id
    · have hu : (u.id == other) = false := Bool.eq_false_iff.2 fun he => h (beq_iff_eq.1 he).symm
      have hv' : (v.id == other) = false := beq_iff_eq.1 hv ▸ hu
      simp only [hv, if_true, hu, hv']
    · simp only [Bool.eq_false_iff.2 hv, if_false, Bool.false_eq_true]

theorem user?_updateUser (s : Store) (u : User) : (s.updateUser u).user? u.id = some u := by
  rw [updateUser]
  by_cases h : s.hasUser u.id = true
  · rw [if_pos h]
    exact find?_replace_self h
  · rw [if_neg h]
    exact find?_append_of_unknown u (user?_eq_none_iff.2 (Bool.eq_false_iff.2 h))

theorem user?_updateUser_of_ne (s : Store) {u : User} (h : other ≠ u.id) :
    (s.updateUser u).user? other = s.user? other := by
  rw [updateUser]
  split
  · exact find?_replace_of_ne s.users h
  · exact find?_append_of_ne s.users h

namespace Agree

theorem snd_getOrCreateUser (h : Agree user s t) :
    (s.getOrCreateUser user).2 = (t.getOrCreateUser user).2 := by
  rw [Store.getOrCreateUser, Store.getOrCreateUser, h.settings]
  cases t.user? user with
  | none => exact congrArg (User.mk user) h.defaultCurrency
  | some u => rfl

theorem getOrCreateUser (h : Agree user s t) :
    Agree user (s.getOrCreateUser user).1 (t.getOrCreateUser user).1 where
  rows := by
    rw [rowsOf_of_rows_eq (s.rows_getOrCreateUser user),
      rowsOf_of_rows_eq (t.rows_getOrCreateUser user), h.rows]
  settings := by
    rw [user?_getOrCreateUser, user?_getOrCreateUser, h.snd_getOrCreateUser]
  defaultCurrency := by
    rw [defaultCurrency_getOrCreateUser, defaultCurrency_getOrCreateUser, h.defaultCurrency]

theorem updateUser (h : Agree user s t) {u : User} (hu : u.id = user) :
    Agree user (s.updateUser u) (t.updateUser u) where
  rows := by
    rw [rowsOf_of_rows_eq (s.rows_updateUser u), rowsOf_of_rows_eq (t.rows_updateUser u), h.rows]
  settings := by
    rw [← hu, user?_updateUser, user?_updateUser]
  defaultCurrency := by
    rw [defaultCurrency_updateUser, defaultCurrency_updateUser, h.defaultCurrency]

end Agree

theorem agree_getOrCreateUser_of_ne (s : Store) (h : other ≠ user) :
    Agree other s (s.getOrCreateUser user).1 where
  rows := (rowsOf_of_rows_eq (s.rows_getOrCreateUser user) other).symm
  settings := (user?_getOrCreateUser_of_ne s h).symm
  defaultCurrency := (defaultCurrency_getOrCreateUser s user).symm

theorem agree_updateUser_of_ne (s : Store) {u : User} (h : other ≠ u.id) :
    Agree other s (s.updateUser u) where
  rows := (rowsOf_of_rows_eq (s.rows_updateUser u) other).symm
  settings := (user?_updateUser_of_ne s h).symm
  defaultCurrency := (defaultCurrency_updateUser s u).symm

theorem agree_extend_of_ne {ds : List Draft} (h : ∀ d ∈ ds, d.user = user) (hne : other ≠ user) :
    Agree other s (s.extend ds) :=
  ⟨(rowsOf_extend_of_ne h hne).symm, rfl, rfl⟩

theorem agree_delete_of_ne {owned : List (Int × Int)} (h : ∀ p ∈ owned, p.2 = user)
    (hne : other ≠ user) : Agree other s (s.delete owned) :=
  ⟨(rowsOf_delete_of_ne h hne).symm, rfl, rfl⟩

theorem Agree.hasHash (h : Agree user s t) {hash : String}
    (hs : ∀ r ∈ s.rows, r.hash = hash → r.user = user)
    (ht : ∀ r ∈ t.rows, r.hash = hash → r.user = user) : s.hasHash hash = t.hasHash hash := by
  have himp : ∀ {s t : Store}, Agree user s t → (∀ r ∈ s.rows, r.hash = hash → r.user = user) →
      s.hasHash hash = true → t.hasHash hash = true := by
    intro s t h hs hh
    obtain ⟨r, hr, he⟩ := hasHash_eq_true_iff.1 hh
    have hm : r ∈ s.rowsOf user := List.mem_filter.2 ⟨hr, beq_iff_eq.2 (hs r hr he)⟩
    rw [h.rows] at hm
    exact hasHash_eq_true_iff.2 ⟨r, (List.mem_filter.1 hm).1, he⟩
  rw [Bool.eq_iff_iff]
  exact ⟨himp h hs, himp h.symm ht⟩

theorem createFrom_congr {ds : List Draft} (hh : ∀ d ∈ ds, s.hasHash d.hash = t.hasHash d.hash)
    (hu : ∀ d ∈ ds, s.hasUser d.user = t.hasUser d.user) :
    (∃ e, s.createFrom ds = .error e ∧ t.createFrom ds = .error e) ∨
      (s.Storable ds ∧ t.Storable ds) := by
  induction ds generalizing s t with
  | nil => exact .inr ⟨storable_nil s, storable_nil t⟩
  | cons d ds ih =>
    obtain ⟨hhd, hhs⟩ := List.forall_mem_cons.1 hh
    obtain ⟨hud, hus⟩ := List.forall_mem_cons.1 hu
    rw [createFrom, createFrom, ← hhd, ← hud]
    by_cases hf : s.hasHash d.hash = true
    · rw [if_pos hf, if_pos hf]
      exact .inl ⟨_, rfl, rfl⟩
    · rw [if_neg hf, if_neg hf]
      by_cases ho : s.hasUser d.user = true
      · rw [ho, Bool.not_true, if_neg Bool.false_ne_true, if_neg Bool.false_ne_true]
        -- the two stores meet the same of the rest, also with `d` in them
        have hnext : ∀ c ∈ ds, (s.append d).hasHash c.hash = (t.append d).hasHash c.hash := by
          intro c hc
          rw [hasHash_append, hasHash_append, hhs c hc]
        rcases ih hnext hus with ⟨e, hs, ht⟩ | ⟨hs, ht⟩
        · rw [hs, ht]
          exact .inl ⟨e, rfl, rfl⟩
        · have hf := Bool.eq_false_iff.2 hf
          exact .inr ⟨storable_cons.2 ⟨hf, ho, hs⟩, storable_cons.2 ⟨hhd ▸ hf, hud ▸ ho, ht⟩⟩
      · have ho := Bool.eq_false_iff.2 ho
        rw [ho, Bool.not_false, if_pos rfl, if_pos rfl]
        exact .inl ⟨_, rfl, rfl⟩

/-- Stores that meet the same of a batch both refuse it with the same error or both store it. -/
theorem create_congr {ds : List Draft} (hh : ∀ d ∈ ds, s.hasHash d.hash = t.hasHash d.hash)
    (hu : ∀ d ∈ ds, s.hasUser d.user = t.hasUser d.user) :
    (∃ e, s.create ds = (s, .error e) ∧ t.create ds = (t, .error e)) ∨
      (s.create ds = (s.extend ds, .ok (numbered s.nextId ds)) ∧
        t.create ds = (t.extend ds, .ok (numbered t.nextId ds))) := by
  rw [create, create]
  rcases createFrom_congr hh hu with ⟨e, hs, ht⟩ | ⟨hs, ht⟩
  · rw [hs, ht]
    exact .inl ⟨e, rfl, rfl⟩
  · rw [createFrom_eq_ok_iff.2 ⟨hs, rfl, rfl⟩, createFrom_eq_ok_iff.2 ⟨ht, rfl, rfl⟩]
    exact .inr ⟨rfl, rfl⟩

end PersonalLedger.Store
