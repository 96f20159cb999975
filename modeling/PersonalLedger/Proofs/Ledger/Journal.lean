import Mathlib.Data.List.Induction
import PersonalLedger.Proofs.Ledger.Operation
import PersonalLedger.Proofs.Store.Reading

namespace PersonalLedger

namespace Effect

variable {w : DedupWindow} {s t : Store} {m : Submission} {reply : Reply}

/-- The rows that a reply leaves: those that it does not report as removed, and behind them those
of the entries that it reports as added. -/
theorem rows_eq (h : Effect w s m t reply) :
    t.rows = (s.rows.filter fun r => r.id ∉ reply.removed.map (·.id)) ++
      reply.added.map Entry.toRow := by
  have hk (rows : List Row) : rows.filter (fun r => r.id ∉ ([] : List Entry).map (·.id)) = rows :=
    List.filter_eq_self.2 fun r _ => decide_eq_true List.not_mem_nil
  cases h with
  | kept added removed => rw [added, removed, hk, List.map_nil, List.append_nil]
  | met added removed =>
    rw [added, removed, hk, List.map_nil, List.append_nil, Store.rows_getOrCreateUser]
  | preferred _ added removed =>
    rw [added, removed, hk, List.map_nil, List.append_nil, Store.rows_updateUser,
      Store.rows_getOrCreateUser]
  | recorded _ _ _ added removed =>
    rw [added, removed, hk, Store.rows_extend, Store.rows_getOrCreateUser,
      Store.nextId_getOrCreateUser]
  | removed found added removed =>
    rw [added, removed, List.map_nil, List.append_nil, Store.rows_delete_found found]

theorem mem_rows_or_removed (h : Effect w s m t reply) {r : Row} (hr : r ∈ s.rows) :
    r ∈ t.rows ∨ r.id ∈ reply.removed.map (·.id) := by
  by_cases hd : r.id ∈ reply.removed.map (·.id)
  · exact .inr hd
  · rw [h.rows_eq]
    exact .inl (List.mem_append_left _ (List.mem_filter.2 ⟨hr, decide_eq_true hd⟩))

theorem mem_rows_or_added (h : Effect w s m t reply) {r : Row} (hr : r ∈ t.rows) :
    r ∈ s.rows ∨ ∃ e ∈ reply.added, r = e.toRow := by
  rw [h.rows_eq] at hr
  rcases List.mem_append.1 hr with hr | hr
  · exact .inl (List.mem_of_mem_filter hr)
  · obtain ⟨e, he, rfl⟩ := List.mem_map.1 hr
    exact .inr ⟨e, he, rfl⟩

theorem exists_row_of_mem_removed (h : Effect w s m t reply) {e : Entry} (he : e ∈ reply.removed) :
    ∃ r ∈ s.rows, r.id = e.id ∧ r.user = m.user := by
  cases h with
  | kept _ removed => cases removed ▸ he
  | met _ removed => cases removed ▸ he
  | preferred _ _ removed => cases removed ▸ he
  | recorded _ _ _ _ removed => cases removed ▸ he
  | removed found _ removed => exact (Store.exists_row_of_mem_found found (removed ▸ he)).2

theorem removed_nodup (h : Effect w s m t reply) :
    (reply.removed.map (·.id)).Nodup := by
  cases h with
  | kept _ removed => rw [removed]; exact .nil
  | met _ removed => rw [removed]; exact .nil
  | preferred _ _ removed => rw [removed]; exact .nil
  | recorded _ _ _ _ removed => rw [removed]; exact .nil
  | removed found _ removed => exact removed ▸ Store.ids_found_nodup found

theorem nextId_le_of_mem_added (h : Effect w s m t reply) {e : Entry} (he : e ∈ reply.added) :
    s.nextId ≤ e.id := by
  obtain ⟨body, request, -, -, added⟩ := h.exists_request_of_mem_added he
  exact (Store.id_of_mem_numbered (added ▸ he)).1

theorem mem_rows_of_lt (h : Effect w s m t reply) {r : Row} (hr : r ∈ t.rows)
    (hn : r.id < s.nextId) : r ∈ s.rows := by
  rcases h.mem_rows_or_added hr with hr | ⟨e, he, rfl⟩
  · exact hr
  · exact absurd hn (Int.not_lt.2 (h.nextId_le_of_mem_added he))

end Effect

structure Exchange where
  submission : Submission
  reply : Reply

/-- A store, and all that was said while it came about, in order. -/
structure Journal where
  store : Store
  log : List Exchange

namespace Journal

/-- Before the first submission. -/
def start (defaultCurrency : String) : Journal := ⟨.empty defaultCurrency, []⟩

def submit (w : DedupWindow) (j : Journal) (m : Submission) : Journal :=
  ⟨(m.answer w j.store).1, j.log ++ [⟨m, (m.answer w j.store).2⟩]⟩

def run (w : DedupWindow) (defaultCurrency : String) (ms : List Submission) : Journal :=
  ms.foldl (submit w) (start defaultCurrency)

def removedIds (log : List Exchange) : List Int :=
  log.flatMap fun x => x.reply.removed.map (·.id)

/-- The entries that replies report as added and no later one as removed. -/
def outstanding : List Exchange → List Entry
  | [] => []
  | x :: later =>
    (x.reply.added.filter fun e => e.id ∉ removedIds later) ++ outstanding later

theorem store_submit (w : DedupWindow) (j : Journal) (m : Submission) :
    (j.submit w m).store = (m.answer w j.store).1 := by
  unfold submit
  dsimp only

theorem run_concat (w : DedupWindow) (defaultCurrency : String) (ms : List Submission)
    (m : Submission) :
    run w defaultCurrency (ms ++ [m]) = (run w defaultCurrency ms).submit w m := by
  rw [run, List.foldl_append]
  rfl

theorem run_induction {w : DedupWindow} {defaultCurrency : String} {P : Journal → Prop}
    (hs : P (start defaultCurrency)) (hk : ∀ j m, P j → P (j.submit w m))
    (ms : List Submission) : P (run w defaultCurrency ms) := by
  induction ms using List.reverseRecOn with
  | nil => exact hs
  | append_singleton ms m ih =>
    rw [run_concat]
    exact hk _ m ih

theorem removedIds_concat (log : List Exchange) (x : Exchange) :
    removedIds (log ++ [x]) = removedIds log ++ x.reply.removed.map (·.id) := by
  rw [removedIds, List.flatMap_append, List.flatMap_singleton]
  rfl

theorem outstanding_concat (log : List Exchange) (x : Exchange) :
    outstanding (log ++ [x]) =
      ((outstanding log).filter fun e => e.id ∉ x.reply.removed.map (·.id)) ++ x.reply.added := by
  induction log with
  | nil =>
    simp only [List.nil_append, outstanding, removedIds, List.flatMap_nil, List.not_mem_nil,
      not_false_eq_true, decide_true, List.filter_true, List.append_nil, List.filter_nil]
  | cons y log ih =>
    rw [List.cons_append, outstanding, outstanding, ih, List.filter_append, List.filter_filter,
      ← List.append_assoc]
    congr 2
    apply List.filter_congr
    intro e _
    simp only [removedIds_concat, List.mem_append, not_or, Bool.decide_and]
    rw [Bool.and_comm]

/-- The rows are those of the outstanding entries, and no id was removed twice or is both removed
and there. -/
structure Balanced (j : Journal) : Prop where
  rows : j.store.rows = (outstanding j.log).map Entry.toRow
  removed_nodup : (removedIds j.log).Nodup
  removed_lt : ∀ id ∈ removedIds j.log, id < j.store.nextId
  removed_gone : ∀ id ∈ removedIds j.log, id ∉ j.store.rows.map (·.id)

theorem balanced_start (defaultCurrency : String) : (start defaultCurrency).Balanced where
  rows := rfl
  removed_nodup := .nil
  removed_lt := List.forall_mem_nil _
  removed_gone := List.forall_mem_nil _

theorem Balanced.of_effect {j : Journal} (h : j.Balanced) {w : DedupWindow} {m : Submission}
    {t : Store} {reply : Reply} (he : Effect w j.store m t reply) :
    Balanced ⟨t, j.log ++ [⟨m, reply⟩]⟩ := by
  have hr := he.rows_eq
  have hs : ∀ id ∈ reply.removed.map (·.id), id ∈ j.store.rows.map (·.id) := by
    intro id hm
    obtain ⟨e, hd, rfl⟩ := List.mem_map.1 hm
    obtain ⟨r, hr, hid, -⟩ := he.exists_row_of_mem_removed hd
    exact List.mem_map.2 ⟨r, hr, hid⟩
  have hlt : ∀ id ∈ removedIds j.log ++ reply.removed.map (·.id), id < j.store.nextId := by
    intro id hm
    rcases List.mem_append.1 hm with hm | hm
    · exact h.removed_lt id hm
    · obtain ⟨r, hr, rfl⟩ := List.mem_map.1 (hs id hm)
      exact j.store.below r hr
  refine ⟨?_, ?_, ?_, ?_⟩
  · rw [outstanding_concat, hr, h.rows, List.filter_map, List.map_append]
    rfl
  · rw [removedIds_concat]
    refine List.nodup_append.2 ⟨h.removed_nodup, he.removed_nodup, ?_⟩
    intro id hm id' hm' hid
    subst hid
    exact h.removed_gone id hm (hs id hm')
  · intro id hm
    rw [removedIds_concat] at hm
    exact Int.lt_of_lt_of_le (hlt id hm) he.advance.next_le
  · intro id hm hid
    rw [removedIds_concat] at hm
    rw [hr, List.map_append, List.mem_append] at hid
    rcases hid with hid | hid
    · obtain ⟨r, hr, rfl⟩ := List.mem_map.1 hid
      obtain ⟨hr, hn⟩ := List.mem_filter.1 hr
      rcases List.mem_append.1 hm with hm | hm
      · exact h.removed_gone r.id hm (List.mem_map_of_mem hr)
      · exact of_decide_eq_true hn hm
    · obtain ⟨r, hr, rfl⟩ := List.mem_map.1 hid
      obtain ⟨e, hm', rfl⟩ := List.mem_map.1 hr
      exact Int.not_lt.2 (he.nextId_le_of_mem_added hm') (hlt _ hm)

theorem balanced_run (w : DedupWindow) (defaultCurrency : String) (ms : List Submission) :
    (run w defaultCurrency ms).Balanced :=
  run_induction (balanced_start defaultCurrency)
    (fun j m h => h.of_effect (effect_answer w j.store m)) ms

theorem effect_submit (w : DedupWindow) (j : Journal) (m : Submission) :
    Effect w j.store m (j.submit w m).store (m.answer w j.store).2 := by
  rw [store_submit]
  exact effect_answer w j.store m

theorem mem_rows_of_foldl {w : DedupWindow} {j : Journal}
    {ms : List Submission} {r : Row} (hr : r ∈ (ms.foldl (submit w) j).store.rows)
    (hn : r.id < j.store.nextId) : r ∈ j.store.rows := by
  -- the counter only grows, so an id from below it is never given out again
  induction ms generalizing j with
  | nil => exact hr
  | cons m ms ih =>
    have he := effect_submit w j m
    have hn' := Int.lt_of_lt_of_le hn he.advance.next_le
    rw [List.foldl_cons] at hr
    exact he.mem_rows_of_lt (ih hr hn') hn

/-- A stored row stays as it is until it is removed, whatever is submitted. -/
theorem eq_of_mem_rows_append (w : DedupWindow) (defaultCurrency : String)
    (ms more : List Submission) {r r' : Row} (hr : r ∈ (run w defaultCurrency ms).store.rows)
    (hr' : r' ∈ (run w defaultCurrency (ms ++ more)).store.rows) (hi : r'.id = r.id) : r' = r := by
  rw [run, List.foldl_append] at hr'
  have hn : r'.id < (run w defaultCurrency ms).store.nextId := by
    rw [hi]
    exact Store.below _ r hr
  exact Store.eq_of_id_eq (mem_rows_of_foldl hr' hn) hr hi

/-- After any submissions, the rows are those of the outstanding entries, each there once, and no id
was reported as removed twice. The next submission removes rows of its sender only and reports each
of them; any row that it brings is that of an entry it reports. -/
theorem rows_run (w : DedupWindow) (defaultCurrency : String) (ms : List Submission) :
    let j := run w defaultCurrency ms
    j.store.rows = (outstanding j.log).map Entry.toRow ∧
      (j.store.rows.map (·.id)).Nodup ∧
      (removedIds j.log).Nodup ∧
      ∀ m : Submission,
        let t := (m.answer w j.store).1
        let reply := (m.answer w j.store).2
        (∀ e ∈ reply.removed, ∃ r ∈ j.store.rows, r.id = e.id ∧ r.user = m.user) ∧
          (∀ r ∈ j.store.rows, r ∈ t.rows ∨ r.id ∈ reply.removed.map (·.id)) ∧
          ∀ r ∈ t.rows, r ∈ j.store.rows ∨ ∃ e ∈ reply.added, r = e.toRow := by
  intro j
  have h : j.Balanced := balanced_run w defaultCurrency ms
  refine ⟨h.rows, j.store.ids_nodup, h.removed_nodup, ?_⟩
  intro m t reply
  have he : Effect w j.store m t reply := effect_answer w j.store m
  exact ⟨fun e => he.exists_row_of_mem_removed, fun r => he.mem_rows_or_removed,
    fun r => he.mem_rows_or_added⟩

end Journal

end PersonalLedger
