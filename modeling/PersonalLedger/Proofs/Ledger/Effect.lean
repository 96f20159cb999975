import PersonalLedger.Ledger
import PersonalLedger.Proofs.Store.Consistency

namespace PersonalLedger

/-- A text that a user sends at a moment. -/
structure Submission where
  user : Int
  text : String
  now : Moment
  deriving DecidableEq

namespace Submission

def answer (w : DedupWindow) (s : Store) (m : Submission) : Store × Reply :=
  Ledger.dispatch w s m.text m.now m.user

def drafts (w : DedupWindow) (s : Store) (m : Submission) (request : AddRequest) : List Draft :=
  Ledger.drafts w request (s.getOrCreateUser m.user).2.currency m.now.instant m.user

variable {w : DedupWindow} {s : Store} {m : Submission}

theorem answer_of_add {body : String} (h : Command.parse m.text = .add body) :
    m.answer w s = ((Ledger.add w s body m.now.instant m.user).1,
      ⟨.add, (Ledger.add w s body m.now.instant m.user).2⟩) := by
  rw [answer, Ledger.dispatch, h]
  rfl

theorem answer_of_remove {words : List String} (h : Command.parse m.text = .remove words) :
    m.answer w s = ((Ledger.remove s words m.user).1,
      ⟨.remove, (Ledger.remove s words m.user).2⟩) := by
  rw [answer, Ledger.dispatch, h]
  rfl

theorem answer_of_list {words : List String} (h : Command.parse m.text = .list words) :
    m.answer w s = (s, ⟨.list, Ledger.list s words m.now m.user⟩) := by
  rw [answer, Ledger.dispatch, h]
  rfl

end Submission

namespace Reply

def added (r : Reply) : List Entry :=
  match r.result with
  | .ok (.added es) => es
  | _ => []

def removed (r : Reply) : List Entry :=
  match r.result with
  | .ok (.removed es) => es
  | _ => []

end Reply

namespace Ledger

variable {w : DedupWindow} {s : Store} {user : Int}

theorem dispatch_eq (w : DedupWindow) (s : Store) (text : String) (now : Moment) (user : Int) :
    dispatch w s text now user =
      ((run w s (Command.parse text) now user).1,
        ⟨(Command.parse text).kind, (run w s (Command.parse text) now user).2⟩) := by
  rw [dispatch]

theorem record_cases (s : Store) (ds : List Draft) :
    (s.Storable ds ∧
        record s ds = (s.extend ds, .ok (.added (Store.numbered s.nextId ds)))) ∨
      ∃ e, record s ds = (s, .error e) := by
  rw [record]
  rcases s.create_cases ds with ⟨hs, he⟩ | ⟨-, e, he⟩
  · rw [he]
    exact .inl ⟨hs, rfl⟩
  · rw [he]
    right
    cases e with
    | duplicateHash => exact ⟨_, rfl⟩
    | missingUser => exact ⟨_, rfl⟩
    | tooManyIds => exact ⟨_, rfl⟩
    | corrupt => exact ⟨_, rfl⟩

theorem record_of_storable {ds : List Draft} (h : s.Storable ds) :
    record s ds = (s.extend ds, .ok (.added (Store.numbered s.nextId ds))) := by
  rcases s.create_cases ds with ⟨-, he⟩ | ⟨hn, -⟩
  · rw [record, he]
  · exact absurd h hn

theorem add_of_parse_error {body : String} {e : Failure} (h : AddRequest.parse body = .error e)
    (w : DedupWindow) (s : Store) (time : Instant) (user : Int) :
    add w s body time user = (s, .error e) := by
  rw [add, h]

theorem add_of_parse {body : String} {request : AddRequest} (h : AddRequest.parse body = .ok request)
    (w : DedupWindow) (s : Store) (time : Instant) (user : Int) :
    add w s body time user =
      match checkNew (s.getOrCreateUser user).1 user
          (drafts w request (s.getOrCreateUser user).2.currency time user) with
      | .error e => ((s.getOrCreateUser user).1, .error e)
      | .ok () => record (s.getOrCreateUser user).1
          (drafts w request (s.getOrCreateUser user).2.currency time user) := by
  rewrite [add, h]
  rfl

/-- An `add` that can be read makes its sender known. Then it stores all its drafts or none. -/
theorem add_cases {body : String} {request : AddRequest} (h : AddRequest.parse body = .ok request)
    (w : DedupWindow) (s : Store) (time : Instant) (user : Int) :
    let t := (s.getOrCreateUser user).1
    let ds := drafts w request (s.getOrCreateUser user).2.currency time user
    (t.Storable ds ∧ checkNew t user ds = .ok () ∧
        add w s body time user = (t.extend ds, .ok (.added (Store.numbered t.nextId ds)))) ∨
      ∃ e, add w s body time user = (t, .error e) := by
  intro t ds
  rw [add_of_parse h]
  cases hc : checkNew t user ds with
  | error e => exact .inr ⟨e, rfl⟩
  | ok =>
    rcases record_cases t ds with ⟨hs, hr⟩ | he
    · exact .inl ⟨hs, rfl, hr⟩
    · exact .inr he

theorem add_of_storable {body : String} {request : AddRequest} {time : Instant} {ds : List Draft}
    (h : AddRequest.parse body = .ok request)
    (hd : drafts w request (s.getOrCreateUser user).2.currency time user = ds)
    (hs : (s.getOrCreateUser user).1.Storable ds)
    (hn : checkNew (s.getOrCreateUser user).1 user ds = .ok ()) :
    add w s body time user = ((s.getOrCreateUser user).1.extend ds,
      .ok (.added (Store.numbered (s.getOrCreateUser user).1.nextId ds))) := by
  rw [add_of_parse h, hd, hn]
  exact record_of_storable hs

theorem remove_cases (s : Store) (words : List String) (user : Int) :
    (∃ e, remove s words user = (s, .error e)) ∨
      ∃ ids es, RemoveRequest.parse words = .ok ids ∧ s.findByIds ids user = .ok es ∧
        remove s words user = (s.delete (es.map fun e => (e.id, e.user)), .ok (.removed es)) := by
  rw [remove]
  cases hp : RemoveRequest.parse words with
  | error e => exact .inl ⟨e, rfl⟩
  | ok ids =>
    cases hf : s.findByIds ids user with
    | error e => exact .inl ⟨.storage e, by simp only [hf]⟩
    | ok es =>
      by_cases hm : (ids.filter fun id => !es.any (·.id == id)).isEmpty = true
      · refine .inr ⟨ids, es, rfl, hf, ?_⟩
        simp only [hf, hm, ↓reduceIte]
      · refine .inl ⟨.notFound (ids.filter fun id => !es.any (·.id == id)), ?_⟩
        simp only [hf, hm, Bool.false_eq_true, ↓reduceIte]

theorem remove_of_found {words : List String} {ids : List Int} {es : List Entry}
    (hp : RemoveRequest.parse words = .ok ids) (hf : s.findByIds ids user = .ok es)
    (hm : ∀ id ∈ ids, id ∈ es.map (·.id)) :
    remove s words user = (s.delete (es.map fun e => (e.id, e.user)), .ok (.removed es)) := by
  have hmissing : (ids.filter fun id => !es.any (·.id == id)) = [] := by
    apply List.filter_eq_nil_iff.2
    intro id hid
    obtain ⟨e, he, hei⟩ := List.mem_map.1 (hm id hid)
    have hany : es.any (·.id == id) = true := List.any_eq_true.2 ⟨e, he, beq_iff_eq.2 hei⟩
    rw [hany]
    exact Bool.false_ne_true
  rw [remove, hp]
  simp only [hf, hmissing, List.isEmpty_nil, ↓reduceIte]

theorem config_cases (s : Store) (words : List String) (user : Int) :
    (∃ e, config s words user = (s, .error e)) ∨
      (∃ u, config s words user = ((s.getOrCreateUser user).1, .ok (.config u false))) ∨
      ∃ currency ∈ Registry.currencies,
        config s words user =
          ((s.getOrCreateUser user).1.updateUser
              { (s.getOrCreateUser user).2 with currency := currency.code },
            .ok (.config { (s.getOrCreateUser user).2 with currency := currency.code } true)) := by
  rw [config]
  cases hp : ConfigRequest.parse words with
  | error e => exact .inl ⟨e, rfl⟩
  | ok request =>
    cases request with
    | showSettings => exact .inr (.inl ⟨_, rfl⟩)
    | setCurrency code =>
      cases hc : Registry.currency? code with
      | none => exact .inl ⟨.unsupportedCurrency code, by simp only [hc]⟩
      | some currency =>
        refine .inr (.inr ⟨currency, List.mem_of_find?_eq_some hc, ?_⟩)
        simp only [hc]

section List

variable {words : List String} {now : Moment} {l : Listing} {es : List Entry}

theorem list_of_parse_error {e : Failure} (h : Listing.parse now words = .error e) :
    list s words now user = .error e := by
  rw [list, h]
  rfl

theorem list_of_query_error {e : StoreError} (hl : Listing.parse now words = .ok l)
    (hq : s.query ⟨user, l.category, l.currency, l.window⟩ = .error e) :
    list s words now user = .error (.storage e) := by
  simp only [list, hl, bind, Except.bind, hq, stored]

theorem list_of_query (hl : Listing.parse now words = .ok l)
    (hq : s.query ⟨user, l.category, l.currency, l.window⟩ = .ok es) :
    list s words now user = (totals l es).map (.listed l es) := by
  simp only [list, hl, bind, Except.bind, hq, stored]
  cases totals l es with
  | error e => rfl
  | ok gs => rfl

theorem of_list_eq_ok {o : Outcome} (h : list s words now user = .ok o) :
    ∃ l es gs, Listing.parse now words = .ok l ∧
      s.query ⟨user, l.category, l.currency, l.window⟩ = .ok es ∧ totals l es = .ok gs ∧
      o = .listed l es gs := by
  cases hl : Listing.parse now words with
  | error e =>
    rw [list_of_parse_error hl] at h
    cases h
  | ok l =>
    cases hq : s.query ⟨user, l.category, l.currency, l.window⟩ with
    | error e =>
      rw [list_of_query_error hl hq] at h
      cases h
    | ok es =>
      rw [list_of_query hl hq] at h
      cases ht : totals l es with
      | error e =>
        rw [ht] at h
        cases h
      | ok gs =>
        rw [ht] at h
        cases h
        exact ⟨l, es, gs, rfl, hq, ht, rfl⟩

end List

end Ledger

open Ledger

def Outcome.kind : Outcome → CommandKind
  | added _ => .add
  | removed _ => .remove
  | listed _ _ _ => .list
  | help _ => .help
  | config _ _ => .config

theorem Submission.kind_of_result {w : DedupWindow} {s : Store} {m : Submission} {o : Outcome}
    (h : (m.answer w s).2.result = .ok o) : o.kind = (Command.parse m.text).kind := by
  rw [answer, dispatch] at h
  cases hc : Command.parse m.text with
  | add body =>
    simp only [hc, Ledger.run] at h
    cases hp : AddRequest.parse body with
    | error e =>
      rw [add_of_parse_error hp] at h
      cases h
    | ok request =>
      rcases add_cases hp w s m.now.instant m.user with ⟨-, -, he⟩ | ⟨e, he⟩
      · rw [he] at h
        cases h
        rfl
      · rw [he] at h
        cases h
  | remove words =>
    simp only [hc, Ledger.run] at h
    rcases remove_cases s words m.user with ⟨e, he⟩ | ⟨ids, es, -, -, he⟩
    · rw [he] at h
      cases h
    · rw [he] at h
      cases h
      rfl
  | list words =>
    simp only [hc, Ledger.run] at h
    obtain ⟨l, es, gs, -, -, -, rfl⟩ := of_list_eq_ok h
    rfl
  | help topic =>
    rw [hc] at h
    cases h
    rfl
  | config words =>
    simp only [hc, Ledger.run] at h
    rcases config_cases s words m.user with ⟨e, he⟩ | ⟨u, he⟩ | ⟨currency, -, he⟩
    · rw [he] at h
      cases h
    · rw [he] at h
      cases h
      rfl
    · rw [he] at h
      cases h
      rfl
  | unknown word =>
    rw [hc] at h
    cases h

/-- What answering a submission does to a store, with the reply. -/
inductive Effect (w : DedupWindow) (s : Store) (m : Submission) : Store → Reply → Prop where
  /-- The store stays. -/
  | kept {reply} (added : reply.added = []) (removed : reply.removed = []) : Effect w s m s reply
  /-- The sender is known now. -/
  | met {reply} (added : reply.added = []) (removed : reply.removed = []) :
    Effect w s m (s.getOrCreateUser m.user).1 reply
  /-- The sender has a currency now. -/
  | preferred {reply currency} (supported : currency ∈ Registry.currencies)
      (added : reply.added = []) (removed : reply.removed = []) :
    Effect w s m ((s.getOrCreateUser m.user).1.updateUser
      { (s.getOrCreateUser m.user).2 with currency := currency.code }) reply
  /-- The sender is known, and the drafts of a request are stored. -/
  | recorded {reply body request} (command : Command.parse m.text = .add body)
      (parsed : AddRequest.parse body = .ok request)
      (storable : (s.getOrCreateUser m.user).1.Storable (m.drafts w s request))
      (added : reply.added = Store.numbered s.nextId (m.drafts w s request))
      (removed : reply.removed = []) :
    Effect w s m ((s.getOrCreateUser m.user).1.extend (m.drafts w s request)) reply
  /-- Entries of the sender are gone. -/
  | removed {reply ids es} (found : s.findByIds ids m.user = .ok es) (added : reply.added = [])
      (removed : reply.removed = es) :
    Effect w s m (s.delete (es.map fun e => (e.id, e.user))) reply

theorem effect_answer (w : DedupWindow) (s : Store) (m : Submission) :
    Effect w s m (m.answer w s).1 (m.answer w s).2 := by
  rw [Submission.answer, dispatch]
  cases hc : Command.parse m.text with
  | add body =>
    simp only [run]
    cases hp : AddRequest.parse body with
    | error e =>
      rw [add_of_parse_error hp]
      exact .kept rfl rfl
    | ok request =>
      rcases add_cases hp w s m.now.instant m.user with ⟨hs, -, he⟩ | ⟨e, he⟩
      · rw [he]
        refine .recorded hc hp hs ?_ rfl
        rw [← Store.nextId_getOrCreateUser s m.user]
        rfl
      · rw [he]
        exact .met rfl rfl
  | remove words =>
    simp only [run]
    rcases remove_cases s words m.user with ⟨e, he⟩ | ⟨ids, es, -, hf, he⟩
    · rw [he]
      exact .kept rfl rfl
    · rw [he]
      exact .removed hf rfl rfl
  | list words =>
    simp only [run]
    cases hl : list s words m.now m.user with
    | error e => exact .kept rfl rfl
    | ok o =>
      obtain ⟨l, es, gs, -, -, -, rfl⟩ := of_list_eq_ok hl
      exact .kept rfl rfl
  | help topic => exact .kept rfl rfl
  | config words =>
    simp only [run]
    rcases config_cases s words m.user with ⟨e, he⟩ | ⟨u, he⟩ | ⟨currency, hr, he⟩
    · rw [he]
      exact .kept rfl rfl
    · rw [he]
      exact .met rfl rfl
    · rw [he]
      exact .preferred hr rfl rfl
  | unknown word => exact .kept rfl rfl

/-- A reply with a new entry is that to an `add`, and all its entries are those of the request. -/
theorem Effect.exists_request_of_mem_added {w : DedupWindow} {s t : Store} {m : Submission}
    {reply : Reply} (h : Effect w s m t reply) {e : Entry} (he : e ∈ reply.added) :
    ∃ body request, Command.parse m.text = .add body ∧ AddRequest.parse body = .ok request ∧
      reply.added = Store.numbered s.nextId (m.drafts w s request) := by
  cases h with
  | kept added => cases added ▸ he
  | met added => cases added ▸ he
  | preferred _ added => cases added ▸ he
  | recorded command parsed _ added => exact ⟨_, _, command, parsed, added⟩
  | removed _ added => cases added ▸ he

end PersonalLedger
