import PersonalLedger.Proofs.Ledger.Journal
import PersonalLedger.Proofs.Ledger.Recording
import PersonalLedger.Proofs.Store.Query

namespace PersonalLedger

theorem Store.keeps_of_rows_eq {s : Store} {es : List Entry}
    (hr : s.rows = es.map Entry.toRow) (hp : ∀ e ∈ es, e.time.IsPlain) : s.Keeps es := by
  have hrise := s.rising
  rw [hr, List.pairwise_map] at hrise
  exact ⟨⟨hrise, hp⟩, hr⟩

/-- The entries that stand after a reply, where `es` stood before: those that it reports as added
stand too, and those that it reports as removed do not. -/
def Reply.standing (es : List Entry) (reply : Reply) : List Entry :=
  (es.filter fun e => e.id ∉ reply.removed.map (·.id)) ++ reply.added

theorem filter_map_toRow {es : List Entry} {keepRow : Row → Bool} {keep : Entry → Bool}
    (h : ∀ e, keepRow e.toRow = keep e) :
    (es.map Entry.toRow).filter keepRow = (es.filter keep).map Entry.toRow := by
  rw [List.filter_map]
  congr 1
  apply List.filter_congr
  intro e _
  exact h e

theorem Effect.rows_standing {w : DedupWindow} {s t : Store} {m : Submission} {reply : Reply}
    (h : Effect w s m t reply) {es : List Entry} (hr : s.rows = es.map Entry.toRow) :
    t.rows = (reply.standing es).map Entry.toRow := by
  rw [h.rows_eq, hr, Reply.standing, List.map_append, filter_map_toRow]
  intro e
  rw [Entry.id_toRow]

theorem Effect.of_mem_added {w : DedupWindow} {s t : Store} {m : Submission} {reply : Reply}
    (h : Effect w s m t reply) {e : Entry} (he : e ∈ reply.added) :
    e.user = m.user ∧ e.time = m.now.instant := by
  obtain ⟨body, request, -, -, added⟩ := h.exists_request_of_mem_added he
  obtain ⟨hu, -, -, ht, -⟩ := Ledger.of_mem_drafts (Store.toDraft_mem_of_numbered (added ▸ he))
  exact ⟨hu, ht⟩

namespace Operation

/-- Whether an operation overwrites no text, and its times are of the years 0 to 9999. -/
def IsPlain : Operation → Prop
  | submission _ m => m.now.instant.IsPlain
  | create ds => ∀ d ∈ ds, d.time.IsPlain
  | overwrite _ _ _ => False
  | delete _ | getOrCreateUser _ | updateUser _ => True

instance : DecidablePred IsPlain
  | submission _ m => inferInstanceAs (Decidable m.now.instant.IsPlain)
  | create ds => inferInstanceAs (Decidable (∀ d ∈ ds, d.time.IsPlain))
  | overwrite _ _ _ => .isFalse id
  | delete _ | getOrCreateUser _ | updateUser _ => .isTrue trivial

/-- The entries that stand after an operation, where `es` stood before: those that it has reported
as created, and not those that it has removed. -/
def standing (s : Store) (es : List Entry) : Operation → List Entry
  | submission w m => (m.answer w s).2.standing es
  | create ds =>
    match (s.create ds).2 with
    | .ok created => es ++ created
    | .error _ => es
  | delete gone => es.filter fun e => (e.id, e.user) ∉ gone.map fun g => (g.id, g.user)
  | getOrCreateUser _ | updateUser _ | overwrite _ _ _ => es

def standingAfter (s : Store) (es : List Entry) : List Operation → List Entry
  | [] => es
  | op :: ops => standingAfter (op.apply s) (op.standing s es) ops

variable {s : Store} {es : List Entry} {op : Operation} {ops : List Operation}

theorem rows_apply (hr : s.rows = es.map Entry.toRow) (hp : op.IsPlain) :
    (op.apply s).rows = (op.standing s es).map Entry.toRow := by
  cases op with
  | submission w m =>
    rw [apply, standing]
    exact (effect_answer w s m).rows_standing hr
  | create ds =>
    rw [apply, standing]
    rcases s.create_cases ds with ⟨-, he⟩ | ⟨-, e, he⟩
    · rw [he, Store.rows_extend, hr, List.map_append]
    · rw [he, hr]
  | delete gone =>
    rw [apply, Store.delete, Store.rows_filterRows, hr]
    apply filter_map_toRow
    intro e
    rw [List.contains_eq_mem, decide_not]
    rfl
  | getOrCreateUser user => rw [apply, Store.rows_getOrCreateUser, hr, standing]
  | updateUser u => rw [apply, Store.rows_updateUser, hr, standing]
  | overwrite id column value => cases hp

theorem isPlain_of_mem_standing (h : ∀ e ∈ es, e.time.IsPlain) (hp : op.IsPlain) {e : Entry}
    (he : e ∈ op.standing s es) : e.time.IsPlain := by
  cases op with
  | submission w m =>
    rcases List.mem_append.1 he with he | he
    · exact h e (List.mem_of_mem_filter he)
    · rw [((effect_answer w s m).of_mem_added he).2]
      exact hp
  | create ds =>
    rw [standing] at he
    rcases s.create_cases ds with ⟨-, hr⟩ | ⟨-, _, hr⟩
    · rw [hr] at he
      rcases List.mem_append.1 he with he | he
      · exact h e he
      · exact hp e.toDraft (Store.toDraft_mem_of_numbered he)
    · rw [hr] at he
      exact h e he
  | delete gone => exact h e (List.mem_of_mem_filter he)
  | getOrCreateUser user => exact h e he
  | updateUser u => exact h e he
  | overwrite id column value => exact h e he

theorem keeps_apply (h : s.Keeps es) (hp : op.IsPlain) :
    (op.apply s).Keeps (op.standing s es) := by
  apply Store.keeps_of_rows_eq
  · exact rows_apply h.rows hp
  · intro e he
    exact isPlain_of_mem_standing h.plain hp he

theorem keeps_answer (h : s.Keeps es) (w : DedupWindow) {m : Submission}
    (hm : m.now.instant.IsPlain) : (m.answer w s).1.Keeps ((m.answer w s).2.standing es) := by
  have hp : (submission w m).IsPlain := hm
  have hk := keeps_apply h hp
  rw [apply, standing] at hk
  exact hk

theorem keeps_run (h : s.Keeps es) (hp : ∀ op ∈ ops, op.IsPlain) :
    (run s ops).Keeps (standingAfter s es ops) := by
  induction ops generalizing s es with
  | nil => exact h
  | cons op ops ih =>
    obtain ⟨hop, hops⟩ := List.forall_mem_cons.1 hp
    apply ih
    · exact keeps_apply h hop
    · exact hops

def entries (defaultCurrency : String) (ops : List Operation) : List Entry :=
  standingAfter (.empty defaultCurrency) [] ops

theorem keeps_entries (defaultCurrency : String) (hp : ∀ op ∈ ops, op.IsPlain) :
    (run (.empty defaultCurrency) ops).Keeps (entries defaultCurrency ops) := by
  apply keeps_run
  · exact ⟨⟨.nil, List.forall_mem_nil _⟩, rfl⟩
  · exact hp

/-- After operations of the years 0 to 9999 that overwrite no text, the rows are those of the
standing entries. A query whose window ends in year 9999 at the latest finds those among them that
it asks for: newest first, each as it is read from its row, and all of them or as many as its limit
says. -/
theorem query_run (defaultCurrency : String) (hp : ∀ op ∈ ops, op.IsPlain) {q : Store.Query}
    (hf : q.window.first.year ≤ 9999) (hl : q.window.last.year ≤ 9999) :
    let s := run (.empty defaultCurrency) ops
    let es := entries defaultCurrency ops
    s.rows = es.map Entry.toRow ∧
      ∃ wanted : List Entry,
        (∀ e, e ∈ wanted ↔ e ∈ es ∧ q.Wants e) ∧
          wanted.Pairwise Entry.Precedes ∧
          s.query q = .ok ((wanted.take q.window.limit).map Entry.readBack) := by
  intro s es
  have h : s.Keeps es := keeps_entries defaultCurrency hp
  refine ⟨h.rows, q.found es, ?_, h.found_precedes q, h.query_eq q⟩
  intro e
  exact h.mem_found_iff hf hl e

def purchase (user seconds : Int) (nanos : Fin 1000000000) (hash : String) : Draft :=
  { user, category := "Groceries", amount := ⟨false, 450, 2, by decide, by decide⟩,
    currency := "NZD", notes := "", hash,
    time := ⟨seconds, nanos, by have := nanos.isLt; omega, by have := nanos.isLt; omega⟩ }

/-- The first two purchases fall into one microsecond, which is the end of the window. -/
theorem query_run_purchases :
    let ops := [getOrCreateUser 1, getOrCreateUser 2,
      create [purchase 1 1742032800 700 "a", purchase 1 1742032800 200 "b",
        purchase 1 1742032799 0 "c", purchase 2 1742032800 0 "d"]]
    let q : Store.Query :=
      ⟨1, some "Groceries", none, .ofSeconds 1742000000, .ofSeconds 1742032800, 2⟩
    let s := run (.empty "NZD") ops
    let es := entries "NZD" ops
    s.rows = es.map Entry.toRow ∧
      ∃ wanted : List Entry,
        (∀ e, e ∈ wanted ↔ e ∈ es ∧ q.Wants e) ∧
          wanted.Pairwise Entry.Precedes ∧
          s.query q = .ok ((wanted.take q.window.limit).map Entry.readBack) := by
  intro ops q
  have hp : ∀ op ∈ ops, op.IsPlain := by decide
  exact query_run "NZD" hp (by decide) (by decide)

end Operation

end PersonalLedger
