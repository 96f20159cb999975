import Mathlib.Data.List.Forall2

namespace PersonalLedger

variable {α β ε : Type} {f : α → Except ε β} {xs : List α} {ys : List β}

theorem mapM_eq_ok_iff : xs.mapM f = .ok ys ↔ List.Forall₂ (fun x y => f x = .ok y) xs ys := by
  induction xs generalizing ys with
  | nil =>
    rw [List.mapM_nil, List.forall₂_nil_left_iff]
    exact ⟨fun h => by cases h; rfl, fun h => by rw [h]; rfl⟩
  | cons x xs ih =>
    rw [List.mapM_cons, List.forall₂_cons_left_iff]
    cases hx : f x with
    | error e =>
      constructor
      · intro h
        cases h
      · rintro ⟨y, zs, h, -, -⟩
        cases h
    | ok y =>
      simp only [bind, Except.bind]
      cases hr : xs.mapM f with
      | error e =>
        constructor
        · intro h
          cases h
        · rintro ⟨z, zs, -, hzs, -⟩
          rw [ih.2 hzs] at hr
          cases hr
      | ok zs =>
        have hzs := ih.1 hr
        constructor
        · intro h
          cases h
          exact ⟨y, zs, rfl, hzs, rfl⟩
        · rintro ⟨z, zs', hz, hzs', rfl⟩
          cases hz
          rw [ih.2 hzs'] at hr
          cases hr
          rfl

theorem map_eq_of_mapM_eq_ok {γ : Type} {g : α → γ} {h : β → γ}
    (hk : ∀ x y, f x = .ok y → h y = g x) (hr : xs.mapM f = .ok ys) : ys.map h = xs.map g := by
  have hf := mapM_eq_ok_iff.1 hr
  clear hr
  induction hf with
  | nil => rfl
  | cons hxy _ ih => rw [List.map_cons, List.map_cons, hk _ _ hxy, ih]

theorem exists_mem_of_mapM_eq_ok (hr : xs.mapM f = .ok ys) {y : β} (hy : y ∈ ys) :
    ∃ x ∈ xs, f x = .ok y := by
  have hf := mapM_eq_ok_iff.1 hr
  clear hr
  induction hf with
  | nil => cases hy
  | @cons x z xs zs hxz _ ih =>
    rcases List.mem_cons.1 hy with rfl | hy
    · exact ⟨x, List.mem_cons_self, hxz⟩
    · obtain ⟨x', hx', hxy⟩ := ih hy
      exact ⟨x', List.mem_cons_of_mem x hx', hxy⟩

theorem exists_mem_read_of_mapM_eq_ok (hr : xs.mapM f = .ok ys) {x : α} (hx : x ∈ xs) :
    ∃ y ∈ ys, f x = .ok y := by
  have hf := mapM_eq_ok_iff.1 hr
  clear hr
  induction hf with
  | nil => cases hx
  | @cons x' y xs ys hxy _ ih =>
    rcases List.mem_cons.1 hx with rfl | hx
    · exact ⟨y, List.mem_cons_self, hxy⟩
    · obtain ⟨z, hz, hxz⟩ := ih hx
      exact ⟨z, List.mem_cons_of_mem y hz, hxz⟩

theorem exists_of_mapM_eq_ok (hr : xs.mapM f = .ok ys) {x : α} (hx : x ∈ xs) :
    ∃ y, f x = .ok y := by
  obtain ⟨y, -, hy⟩ := exists_mem_read_of_mapM_eq_ok hr hx
  exact ⟨y, hy⟩

theorem mem_of_mapM_eq_ok (hr : xs.mapM f = .ok ys) {x : α} {y : β} (hx : x ∈ xs)
    (hy : f x = .ok y) : y ∈ ys := by
  obtain ⟨z, hz, hxz⟩ := exists_mem_read_of_mapM_eq_ok hr hx
  rw [hy] at hxz
  cases hxz
  exact hz

/-- A reading fails with the error of the first item that cannot be read. -/
theorem mapM_eq_error_iff {e : ε} : xs.mapM f = .error e ↔
    ∃ before x after, xs = before ++ x :: after ∧ (∀ y ∈ before, ∃ z, f y = .ok z) ∧
      f x = .error e := by
  induction xs with
  | nil =>
    constructor
    · intro h
      cases h
    · rintro ⟨before, x, after, h, -, -⟩
      exact absurd h.symm (List.append_ne_nil_of_right_ne_nil _ (List.cons_ne_nil _ _))
  | cons x xs ih =>
    rw [List.mapM_cons]
    cases hx : f x with
    | error e' =>
      constructor
      · intro h
        cases h
        exact ⟨[], x, xs, rfl, List.forall_mem_nil _, hx⟩
      · rintro ⟨before, y, after, hxs, hb, hy⟩
        cases before with
        | nil =>
          cases hxs
          rw [hx] at hy
          cases hy
          rfl
        | cons b before =>
          cases hxs
          obtain ⟨z, hz⟩ := hb x List.mem_cons_self
          rw [hx] at hz
          cases hz
    | ok z =>
      have hrest : (do let ys ← xs.mapM f; pure (z :: ys)) = .error e ↔ xs.mapM f = .error e := by
        cases xs.mapM f with
        | error e' => exact Iff.rfl
        | ok ys => exact ⟨fun h => (nomatch h), fun h => (nomatch h)⟩
      refine hrest.trans (ih.trans ⟨?_, ?_⟩)
      · rintro ⟨before, y, after, rfl, hb, hy⟩
        exact ⟨x :: before, y, after, rfl, List.forall_mem_cons.2 ⟨⟨z, hx⟩, hb⟩, hy⟩
      · rintro ⟨before, y, after, hxs, hb, hy⟩
        cases before with
        | nil =>
          cases hxs
          rw [hx] at hy
          cases hy
        | cons b before =>
          cases hxs
          exact ⟨before, y, after, rfl, (List.forall_mem_cons.1 hb).2, hy⟩

theorem exists_mem_of_mapM_eq_error {e : ε} (hr : xs.mapM f = .error e) :
    ∃ x ∈ xs, f x = .error e := by
  obtain ⟨before, x, after, rfl, -, hx⟩ := mapM_eq_error_iff.1 hr
  exact ⟨x, List.mem_append_right _ List.mem_cons_self, hx⟩

theorem exists_mapM_eq_ok (h : ∀ x ∈ xs, ∃ y, f x = .ok y) : ∃ ys, xs.mapM f = .ok ys := by
  cases hr : xs.mapM f with
  | ok ys => exact ⟨ys, rfl⟩
  | error e =>
    obtain ⟨x, hx, he⟩ := exists_mem_of_mapM_eq_error hr
    obtain ⟨y, hy⟩ := h x hx
    rw [he] at hy
    cases hy

end PersonalLedger
