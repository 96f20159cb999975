import PersonalLedger.Proofs.Ledger.Effect

namespace PersonalLedger

/-- `t` comes from `s` by a step that keeps the invariant and takes new ids from the counter on. -/
structure Advance (s t : Store) : Prop where
  consistent : s.Consistent → t.Consistent
  next_le : s.nextId ≤ t.nextId
  ids : ∀ r ∈ t.rows, r.id ∈ s.rows.map (·.id) ∨ s.nextId ≤ r.id

namespace Advance

variable {s t u : Store}

theorem refl (s : Store) : Advance s s :=
  ⟨fun h => h, Int.le_refl _, fun _ hr => .inl (List.mem_map_of_mem hr)⟩

theorem trans (h : Advance s t) (h' : Advance t u) : Advance s u where
  consistent hs := h'.consistent (h.consistent hs)
  next_le := Int.le_trans h.next_le h'.next_le
  ids := by
    intro r hr
    rcases h'.ids r hr with hi | hn
    · obtain ⟨r', hr', he⟩ := List.mem_map.1 hi
      exact he ▸ h.ids r' hr'
    · exact .inr (Int.le_trans h.next_le hn)

theorem of_rows_eq (hc : s.Consistent → t.Consistent) (hr : t.rows = s.rows)
    (hn : t.nextId = s.nextId) : Advance s t where
  consistent := hc
  next_le := Int.le_of_eq hn.symm
  ids _ hm := .inl (List.mem_map_of_mem (hr ▸ hm))

theorem getOrCreateUser (s : Store) (user : Int) : Advance s (s.getOrCreateUser user).1 :=
  of_rows_eq (fun h => h.getOrCreateUser user) (s.rows_getOrCreateUser user)
    (s.nextId_getOrCreateUser user)

theorem updateUser (s : Store) (v : User) : Advance s (s.updateUser v) :=
  of_rows_eq (fun h => h.updateUser v) (s.rows_updateUser v) (s.nextId_updateUser v)

theorem extend {ds : List Draft} (hs : s.Storable ds) : Advance s (s.extend ds) where
  consistent h := h.extend hs
  next_le := by
    rw [Store.nextId_extend]
    omega
  ids := by
    intro r hr
    rcases List.mem_append.1 hr with hr | hr
    · exact .inl (List.mem_map_of_mem hr)
    · obtain ⟨e, he, rfl⟩ := List.mem_map.1 hr
      exact .inr (Store.id_of_mem_numbered he).1

theorem create (s : Store) (ds : List Draft) : Advance s (s.create ds).1 := by
  rcases s.create_cases ds with ⟨hs, he⟩ | ⟨-, e, he⟩
  · rw [he]
    exact .extend hs
  · rw [he]
    exact .refl s

theorem delete (s : Store) (owned : List (Int × Int)) : Advance s (s.delete owned) where
  consistent h := h.delete owned
  next_le := Int.le_refl _
  ids _ hr := .inl (List.mem_map_of_mem (Store.mem_rows_delete.1 hr).1)

theorem overwrite (s : Store) (id : Int) (c : Store.Column) (value : String) :
    Advance s (s.overwrite id c value).1 where
  consistent h := h.overwrite id c value
  next_le := Int.le_refl _
  ids r hr := by
    have hm : r.id ∈ (s.overwrite id c value).1.rows.map (·.id) := List.mem_map_of_mem hr
    rw [Store.map_rows_overwrite (·.id) Store.Column.id_set] at hm
    exact .inl hm

end Advance

theorem Effect.advance {w : DedupWindow} {s t : Store} {m : Submission} {reply : Reply}
    (h : Effect w s m t reply) : Advance s t := by
  cases h with
  | kept => exact .refl s
  | met => exact .getOrCreateUser s m.user
  | preferred => exact (Advance.getOrCreateUser s m.user).trans (.updateUser _ _)
  | recorded _ _ storable => exact (Advance.getOrCreateUser s m.user).trans (.extend storable)
  | removed => exact .delete s _

/-- An operation on a store: a submission, a call of one of its writing operations, or an unchecked
overwriting of a text. -/
inductive Operation where
  | submission (w : DedupWindow) (m : Submission)
  | create (ds : List Draft)
  | delete (es : List Entry)
  | getOrCreateUser (user : Int)
  | updateUser (u : User)
  | overwrite (id : Int) (column : Store.Column) (value : String)

namespace Operation

def apply (s : Store) : Operation → Store
  | submission w m => (m.answer w s).1
  | create ds => (s.create ds).1
  | delete es => s.delete (es.map fun e => (e.id, e.user))
  | getOrCreateUser user => (s.getOrCreateUser user).1
  | updateUser u => s.updateUser u
  | overwrite id column value => (s.overwrite id column value).1

def run (s : Store) (ops : List Operation) : Store := ops.foldl apply s

/-- The ids of rows that an operation leaves and did not find. -/
def newIds (s : Store) (op : Operation) : List Int :=
  ((op.apply s).rows.map (·.id)).filter fun id => id ∉ s.rows.map (·.id)

def givenIds (s : Store) : List Operation → List Int
  | [] => []
  | op :: ops => op.newIds s ++ givenIds (op.apply s) ops

variable {s : Store}

theorem advance_apply (s : Store) (op : Operation) : Advance s (op.apply s) := by
  cases op with
  | submission w m => exact (effect_answer w s m).advance
  | create ds => exact .create s ds
  | delete es => exact .delete s _
  | getOrCreateUser user => exact .getOrCreateUser s user
  | updateUser u => exact .updateUser s u
  | overwrite id column value => exact .overwrite s id column value

theorem advance_run (s : Store) (ops : List Operation) : Advance s (run s ops) := by
  induction ops generalizing s with
  | nil => exact .refl s
  | cons op ops ih => exact (advance_apply s op).trans (ih (op.apply s))

theorem consistent_run (defaultCurrency : String) (ops : List Operation) :
    (run (.empty defaultCurrency) ops).Consistent :=
  (advance_run _ ops).consistent (Store.consistent_empty defaultCurrency)

theorem newIds_rise (s : Store) (op : Operation) : (op.newIds s).Pairwise (· < ·) :=
  (List.pairwise_map.2 (op.apply s).rising).sublist List.filter_sublist

theorem mem_newIds {op : Operation} {id : Int} (hi : id ∈ op.newIds s) :
    s.nextId ≤ id ∧ id < (op.apply s).nextId := by
  obtain ⟨hm, hn⟩ := List.mem_filter.1 hi
  obtain ⟨r, hr, rfl⟩ := List.mem_map.1 hm
  refine ⟨?_, (op.apply s).below r hr⟩
  rcases (advance_apply s op).ids r hr with ho | ho
  · exact absurd ho (of_decide_eq_true hn)
  · exact ho

theorem givenIds_rise (s : Store) (ops : List Operation) :
    (givenIds s ops).Pairwise (· < ·) ∧ ∀ id ∈ givenIds s ops, s.nextId ≤ id := by
  induction ops generalizing s with
  | nil => exact ⟨.nil, List.forall_mem_nil _⟩
  | cons op ops ih =>
    obtain ⟨hr, hn⟩ := ih (op.apply s)
    refine ⟨List.pairwise_append.2 ⟨newIds_rise s op, hr, ?_⟩, ?_⟩
    · intro id hi id' hi'
      exact Int.lt_of_lt_of_le (mem_newIds hi).2 (hn id' hi')
    · intro id hi
      rcases List.mem_append.1 hi with hi | hi
      · exact (mem_newIds hi).1
      · exact Int.le_trans (advance_apply s op).next_le (hn id hi)

theorem run_append (s : Store) (ops more : List Operation) :
    run s (ops ++ more) = run (run s ops) more := List.foldl_append

theorem givenIds_lt (s : Store) (ops : List Operation) :
    ∀ id ∈ givenIds s ops, id < (run s ops).nextId := by
  induction ops generalizing s with
  | nil => exact List.forall_mem_nil _
  | cons op ops ih =>
    intro id hi
    rcases List.mem_append.1 hi with hi | hi
    · exact Int.lt_of_lt_of_le (mem_newIds hi).2 (advance_run (op.apply s) ops).next_le
    · exact ih (op.apply s) id hi

/-- After any operations on an empty store, ids are different, positive and below the counter,
fingerprints are different, and each row has one owner. The counter never goes back, and no id is
given out twice. -/
theorem invariant_run (defaultCurrency : String) (ops : List Operation) :
    let s := run (.empty defaultCurrency) ops
    (s.rows.map (·.id)).Nodup ∧
      (∀ r ∈ s.rows, 0 < r.id ∧ r.id < s.nextId) ∧
      (s.rows.map (·.hash)).Nodup ∧
      (∀ r ∈ s.rows, s.users.countP (·.id == r.user) = 1) ∧
      (∀ more : List Operation, s.nextId ≤ (run s more).nextId) ∧
      (givenIds (.empty defaultCurrency) ops).Nodup := by
  intro s
  have h : s.Consistent := consistent_run defaultCurrency ops
  refine ⟨s.ids_nodup, fun r hr => ⟨h.ids_pos r hr, s.below r hr⟩, h.hashes_nodup, ?_, ?_, ?_⟩
  · intro r hr
    exact h.countP_owner hr
  · intro more
    exact (advance_run s more).next_le
  · have hg := givenIds_rise (.empty defaultCurrency) ops
    exact hg.1.imp fun hlt => Int.ne_of_lt hlt

end Operation

end PersonalLedger
