import PersonalLedger.Proofs.Command.Amount
import PersonalLedger.Proofs.Command.RemoveRequest
import PersonalLedger.Proofs.Ledger.Listing
import PersonalLedger.Proofs.Store.Ownership
import PersonalLedger.Proofs.Store.Retrieval

namespace PersonalLedger

open Store Text

theorem Submission.drafts_ne_nil {w : DedupWindow} {s : Store} {m : Submission} {body : String}
    {request : AddRequest} (h : AddRequest.parse body = .ok request) :
    m.drafts w s request ≠ [] := by
  obtain ⟨code, amounts, extra, category, values, notes, currency, -, -, ha, -, rfl⟩ :=
    AddRequest.of_parse h
  intro hd
  have hm := Ledger.amounts_drafts w ⟨category.name, values, " ".intercalate notes, currency⟩
    (s.getOrCreateUser m.user).2.currency m.now.instant m.user
  rw [← drafts, hd] at hm
  exact Amount.ne_nil_of_parse ha hm.symm

namespace Store

variable {s : Store} {ds : List Draft} {user : Int} {ids : List Int}

/-- The store with so many ids given to no row. -/
def skip (s : Store) (count : Nat) : Store :=
  { s with
    nextId := s.nextId + count
    below := by
      intro r hr
      have := s.below r hr
      omega }

@[simp] theorem rows_skip (s : Store) (count : Nat) : (s.skip count).rows = s.rows := rfl

@[simp] theorem users_skip (s : Store) (count : Nat) : (s.skip count).users = s.users := rfl

@[simp] theorem nextId_skip (s : Store) (count : Nat) :
    (s.skip count).nextId = s.nextId + count := rfl

theorem id_not_mem_numbered {r : Row} (hr : r ∈ s.rows) :
    r.id ∉ (numbered s.nextId ds).map (·.id) := by
  intro hm
  obtain ⟨e, he, hi⟩ := List.mem_map.1 hm
  have hlt := s.below r hr
  have hle := (id_of_mem_numbered he).1
  omega

theorem findByIds_extend_all (hu : ∀ d ∈ ds, d.user = user)
    (ht : ∀ d ∈ ds, d.time.IsPlain) (hl : ids.length < maxValues)
    (hi : ∀ id, id ∈ ids ↔ id ∈ (numbered s.nextId ds).map (·.id)) :
    (s.extend ds).findByIds ids user = .ok ((numbered s.nextId ds).map Entry.readBack) := by
  have hnew : ∀ id ∈ ids, s.nextId ≤ id := by
    intro id hm
    obtain ⟨e, he, rfl⟩ := List.mem_map.1 ((hi id).1 hm)
    exact (id_of_mem_numbered he).1
  have hall : (numbered s.nextId ds).filter (fun e => e.user == user && ids.contains e.id) =
      numbered s.nextId ds := by
    apply List.filter_eq_self.2
    intro e he
    rw [Bool.and_eq_true, beq_iff_eq, List.contains_iff_mem, hi]
    exact ⟨hu e.toDraft (toDraft_mem_of_numbered he), List.mem_map_of_mem he⟩
  rw [findByIds_extend hnew ht hl, hall]

/-- Removing new rows takes back all that storing them has done, except for the counter. -/
theorem delete_extend (s : Store) (ds : List Draft) :
    (s.extend ds).delete ((numbered s.nextId ds).map fun e => (e.id, e.user)) =
      s.skip ds.length := by
  have hold : s.rows.filter (fun r => !((numbered s.nextId ds).map
      fun e => (e.id, e.user)).contains (r.id, r.user)) = s.rows := by
    apply List.filter_eq_self.2
    intro r hr
    rw [Bool.not_eq_true', List.contains_eq_mem, decide_eq_false_iff_not]
    intro hm
    obtain ⟨e, he, hp⟩ := List.mem_map.1 hm
    exact id_not_mem_numbered hr (List.mem_map.2 ⟨e, he, congrArg Prod.fst hp⟩)
  have hnew : ((numbered s.nextId ds).map Entry.toRow).filter (fun r =>
      !((numbered s.nextId ds).map fun e => (e.id, e.user)).contains (r.id, r.user)) = [] := by
    apply List.filter_eq_nil_iff.2
    intro r hr h
    obtain ⟨e, he, rfl⟩ := List.mem_map.1 hr
    rw [Bool.not_eq_true', List.contains_eq_mem, decide_eq_false_iff_not] at h
    exact h (List.mem_map.2 ⟨e, he, rfl⟩)
  apply Store.ext
  · rw [delete, rows_filterRows, rows_extend, List.filter_append, hold, hnew, List.append_nil]
    rfl
  · rfl
  · rfl
  · rfl

theorem Storable.of_eq {t : Store} (h : s.Storable ds)
    (hr : t.rows = s.rows) (hu : t.users = s.users) : t.Storable ds where
  fresh := by
    intro d hd
    rw [hasHash, hr]
    exact h.fresh d hd
  distinct := h.distinct
  owned := by
    intro d hd
    rw [hasUser, hu]
    exact h.owned d hd

end Store

namespace Ledger

variable {s t : Store} {ds : List Draft} {user : Int}

theorem checkNew_of_rows_eq (h : t.rows = s.rows) (user : Int) (ds : List Draft) :
    checkNew t user ds = checkNew s user ds := by
  induction ds with
  | nil => rfl
  | cons d ds ih => rw [checkNew, checkNew, findByHash, findByHash, h, ih]

theorem remove_extend (hu : ∀ d ∈ ds, d.user = user)
    (ht : ∀ d ∈ ds, d.time.IsPlain) (hne : ds ≠ []) (hl : ds.length < maxValues)
    {words : List String} {ids : List Int} (hr : words.mapM RemoveRequest.readId = .ok ids)
    (hi : ∀ id, id ∈ ids ↔ id ∈ (numbered s.nextId ds).map (·.id)) :
    remove (s.extend ds) words user = (s.skip ds.length,
      .ok (.removed ((numbered s.nextId ds).map Entry.readBack))) := by
  have hlength : ((numbered s.nextId ds).map (·.id)).length = ds.length := by
    rw [List.length_map, length_numbered]
  have hnew : (numbered s.nextId ds).map (·.id) ≠ [] := by
    intro hnil
    rw [hnil] at hlength
    exact hne (List.eq_nil_of_length_eq_zero hlength.symm)
  obtain ⟨asked, hp, hasked, hmem⟩ :=
    RemoveRequest.parse_of_mem_iff hr (ids_numbered_nodup s.nextId ds) hnew hi
  have hfound := findByIds_extend_all hu ht (by omega) hmem
  have hall : ∀ id ∈ asked, id ∈ ((numbered s.nextId ds).map Entry.readBack).map (·.id) := by
    intro id hm
    rw [List.map_map]
    exact (hmem id).1 hm
  rw [remove_of_found hp hfound hall, List.map_map]
  -- reading a row back keeps its id and its owner
  exact congrArg (·, _) (delete_extend s ds)

theorem add_again {w : DedupWindow} {body : String} {request : AddRequest} {time : Instant}
    (hp : AddRequest.parse body = .ok request)
    (hd : drafts w request (s.getOrCreateUser user).2.currency time user = ds)
    (hs : (s.getOrCreateUser user).1.Storable ds)
    (hn : checkNew (s.getOrCreateUser user).1 user ds = .ok ())
    (hr : t.rows = (s.getOrCreateUser user).1.rows)
    (hu : t.users = (s.getOrCreateUser user).1.users) :
    (add w t body time user).2 = .ok (.added (numbered t.nextId ds)) := by
  -- the sender is known since the first time, so nothing about them is made anew
  have hknown : t.user? user = some (s.getOrCreateUser user).2 := by
    rw [user?, hu]
    exact s.user?_getOrCreateUser user
  have hget := getOrCreateUser_of_known hknown
  have hstore : (t.getOrCreateUser user).1 = t := by rw [hget]
  have hdrafts : drafts w request (t.getOrCreateUser user).2.currency time user = ds := by
    rw [hget]
    exact hd
  have hstorable : (t.getOrCreateUser user).1.Storable ds := by
    rw [hstore]
    exact hs.of_eq hr hu
  have hnew : checkNew (t.getOrCreateUser user).1 user ds = .ok () := by
    rw [hstore, checkNew_of_rows_eq hr]
    exact hn
  rw [add_of_storable hp hdrafts hstorable hnew, hstore]

end Ledger

namespace Submission

variable {w : DedupWindow} {s : Store} {m : Submission}

/-- Only `add` adds: the store has passed the drafts of a request, and holds them now. -/
theorem of_added {new : List Entry} (h : (m.answer w s).2.result = .ok (.added new)) :
    ∃ body request, Command.parse m.text = .add body ∧ AddRequest.parse body = .ok request ∧
      (s.getOrCreateUser m.user).1.Storable (m.drafts w s request) ∧
      Ledger.checkNew (s.getOrCreateUser m.user).1 m.user (m.drafts w s request) = .ok () ∧
      (m.answer w s).1 = (s.getOrCreateUser m.user).1.extend (m.drafts w s request) ∧
      new = numbered (s.getOrCreateUser m.user).1.nextId (m.drafts w s request) := by
  have hk := kind_of_result h
  cases hc : Command.parse m.text with
  | add body =>
    rw [answer_of_add hc] at h ⊢
    cases hp : AddRequest.parse body with
    | error e =>
      rw [Ledger.add_of_parse_error hp] at h
      cases h
    | ok request =>
      rcases Ledger.add_cases hp w s m.now.instant m.user with ⟨hs, hn, he⟩ | ⟨e, he⟩
      · rw [he] at h ⊢
        cases h
        exact ⟨body, request, rfl, hp, hs, hn, rfl, rfl⟩
      · rw [he] at h
        cases h
  | remove => rw [hc] at hk; cases hk
  | list => rw [hc] at hk; cases hk
  | help => rw [hc] at hk; cases hk
  | config => rw [hc] at hk; cases hk
  | unknown => rw [hc] at hk; cases hk

section Undo

variable {new : List Entry} (h : (m.answer w s).2.result = .ok (.added new))

include h

theorem answer_undo (ht : m.now.instant.IsPlain) (hl : new.length < maxValues)
    {undo : Submission} (hu : undo.user = m.user) {words : List String}
    (hw : Command.parse undo.text = .remove words) {ids : List Int}
    (hr : words.mapM RemoveRequest.readId = .ok ids) (hi : ∀ id, id ∈ ids ↔ id ∈ new.map (·.id)) :
    undo.answer w (m.answer w s).1 =
      ((s.getOrCreateUser m.user).1.skip new.length,
        ⟨.remove, .ok (.removed (new.map Entry.readBack))⟩) := by
  obtain ⟨body, request, -, hp, -, -, hstore, rfl⟩ := of_added h
  have huser : ∀ d ∈ m.drafts w s request, d.user = m.user := by
    intro d hd
    exact (Ledger.of_mem_drafts hd).1
  have htime : ∀ d ∈ m.drafts w s request, d.time.IsPlain := by
    intro d hd
    obtain ⟨-, -, -, hnow, -⟩ := Ledger.of_mem_drafts hd
    rw [hnow]
    exact ht
  rw [length_numbered] at hl
  have hremove := Ledger.remove_extend huser htime (drafts_ne_nil hp) hl hr hi
  rw [answer_of_remove hw, hu, hstore, hremove, length_numbered]

theorem answer_again {t : Store} (hr : t.rows = (s.getOrCreateUser m.user).1.rows)
    (hu : t.users = (s.getOrCreateUser m.user).1.users) :
    (m.answer w t).2.result =
      .ok (.added (numbered t.nextId (new.map (·.toDraft)))) := by
  obtain ⟨body, request, hcmd, hp, hs, hn, -, rfl⟩ := of_added h
  rw [answer_of_add hcmd, toDraft_numbered]
  exact Ledger.add_again hp rfl hs hn hr hu

end Undo

/-- An `rm` by the sender of an `add` that has stored entries, of all their ids in any order and any
number of times, reports them one after the other and leaves the rows as they were. The `add` can
then be sent again, with ids behind all that were given out before. -/
theorem answer_remove_of_added (ht : m.now.instant.IsPlain) {new : List Entry}
    (h : (m.answer w s).2.result = .ok (.added new)) (hl : new.length < maxValues)
    {undo : Submission} (hu : undo.user = m.user) {words : List String}
    (hw : Command.parse undo.text = .remove words) {ids : List Int}
    (hr : words.mapM RemoveRequest.readId = .ok ids) (hi : ∀ id, id ∈ ids ↔ id ∈ new.map (·.id)) :
    let t := (m.answer w s).1
    let t' := (undo.answer w t).1
    (∃ gone, (undo.answer w t).2.result = .ok (.removed gone) ∧
        List.Forall₂ Entry.Shows gone new ∧ gone.Pairwise (·.id < ·.id)) ∧
      t'.rows = s.rows ∧
      ∃ again, (m.answer w t').2.result = .ok (.added again) ∧
        again.map (·.toDraft) = new.map (·.toDraft) ∧
        (∀ e ∈ again, t.nextId ≤ e.id) ∧
        ∀ defaultCurrency ops, Operation.run (.empty defaultCurrency) ops = s →
          ∀ id ∈ Operation.givenIds (.empty defaultCurrency)
            (ops ++ [.submission w m, .submission w undo]), ∀ e ∈ again, id < e.id := by
  intro t t'
  have hundo := answer_undo h ht hl hu hw hr hi
  have ht' : t' = (s.getOrCreateUser m.user).1.skip new.length := congrArg Prod.fst hundo
  have hnext : t'.nextId = t.nextId := by
    obtain ⟨_, _, _, _, _, _, hstore, hnew⟩ := of_added h
    have ht : t.nextId = _ := congrArg Store.nextId hstore
    rw [ht', ht, nextId_skip, nextId_extend, hnew, length_numbered]
  have hrows : t'.rows = (s.getOrCreateUser m.user).1.rows := by rw [ht', rows_skip]
  have husers : t'.users = (s.getOrCreateUser m.user).1.users := by rw [ht', users_skip]
  have hsorted : new.Pairwise (·.id < ·.id) := by
    obtain ⟨-, -, -, -, -, -, -, rfl⟩ := of_added h
    exact numbered_sorted _ _
  refine ⟨?_, ?_, ?_⟩
  · rw [hundo]
    refine ⟨_, rfl, ?_, ?_⟩
    · rw [List.forall₂_map_left_iff, List.forall₂_same]
      intro e _
      exact e.shows_readBack
    · rw [List.pairwise_map]
      exact hsorted
  · rw [hrows, rows_getOrCreateUser]
  · refine ⟨_, answer_again h hrows husers, ?_, ?_, ?_⟩
    · rw [toDraft_numbered]
    · intro e he
      rw [← hnext]
      exact (id_of_mem_numbered he).1
    · intro defaultCurrency ops hrun id hid e he
      -- the removal leaves the counter where it is, past all ids that were given out
      have hlt := Operation.givenIds_lt (.empty defaultCurrency) _ id hid
      have hend : Operation.run s [.submission w m, .submission w undo] = t' := by
        simp only [Operation.run, List.foldl_cons, List.foldl_nil, Operation.apply, t', t]
      rw [Operation.run_append, hrun, hend] at hlt
      exact Int.lt_of_lt_of_le hlt (id_of_mem_numbered he).1

/-- The store has a row of the sender that can no longer be read. -/
theorem answer_remove_of_added_dinner :
    let s := Operation.run (.empty "NZD") [.getOrCreateUser 1,
      .create [Operation.purchase 1 1742032800 400 "a", Operation.purchase 1 1742032800 200 "b"],
      .overwrite 1 .time "never"]
    let w : DedupWindow := .ofSeconds 60
    let m := Operation.ask "add G (10-20.50) dinner" 1742032800
    let undo := Operation.ask "rm 4 3 004" 1742032860
    let new := (m.answer w s).2.added
    new.map (·.id) = [3, 4] ∧
      let t := (m.answer w s).1
      let t' := (undo.answer w t).1
      (∃ gone, (undo.answer w t).2.result = .ok (.removed gone) ∧
          List.Forall₂ Entry.Shows gone new ∧ gone.Pairwise (·.id < ·.id)) ∧
        t'.rows = s.rows ∧
        ∃ again, (m.answer w t').2.result = .ok (.added again) ∧
          again.map (·.toDraft) = new.map (·.toDraft) ∧
          (∀ e ∈ again, t.nextId ≤ e.id) ∧
          ∀ defaultCurrency ops, Operation.run (.empty defaultCurrency) ops = s →
            ∀ id ∈ Operation.givenIds (.empty defaultCurrency)
              (ops ++ [.submission w m, .submission w undo]), ∀ e ∈ again, id < e.id := by
  intro s w m undo new
  have ht : m.now.instant.IsPlain := by decide
  have hids : new.map (·.id) = [3, 4] := by decide +kernel
  have hne : new ≠ [] := by
    intro hnil
    rw [hnil] at hids
    cases hids
  have hl : new.length < maxValues := by
    rw [← List.length_map (·.id), hids]
    decide
  have hw : Command.parse undo.text = .remove ["4", "3", "004"] := by decide +kernel
  have hr : ["4", "3", "004"].mapM RemoveRequest.readId = .ok [4, 3, 4] := by decide +kernel
  have hi : ∀ id, id ∈ [4, 3, 4] ↔ id ∈ new.map (·.id) := by
    intro id
    rw [hids]
    simp only [List.mem_cons, List.not_mem_nil, or_false]
    omega
  have h := Reply.result_of_added_ne_nil hne
  exact ⟨hids, answer_remove_of_added ht h hl rfl hw hr hi⟩

end Submission

end PersonalLedger
