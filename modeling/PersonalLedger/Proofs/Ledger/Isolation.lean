import PersonalLedger.Proofs.Ledger.Recording
import PersonalLedger.Proofs.Store.Ownership

namespace PersonalLedger

open Store

theorem Effect.agree_of_ne {w : DedupWindow} {s t : Store} {m : Submission} {reply : Reply}
    (h : Effect w s m t reply) {other : Int} (hne : other ≠ m.user) : s.Agree other t := by
  have hmet : s.Agree other (s.getOrCreateUser m.user).1 := agree_getOrCreateUser_of_ne s hne
  cases h with
  | kept => exact .refl other s
  | met => exact hmet
  | preferred =>
    apply hmet.trans
    apply agree_updateUser_of_ne
    rw [id_getOrCreateUser]
    exact hne
  | recorded =>
    apply hmet.trans
    apply agree_extend_of_ne _ hne
    intro d hd
    exact (Ledger.of_mem_drafts hd).1
  | removed found =>
    apply agree_delete_of_ne _ hne
    intro p hp
    obtain ⟨e, he, rfl⟩ := List.mem_map.1 hp
    exact (exists_row_of_mem_found found he).1

theorem Effect.added_of_ne {w : DedupWindow} {s t : Store} {m : Submission} {reply : Reply}
    (h : Effect w s m t reply) (hk : (Command.parse m.text).kind ≠ .add) : reply.added = [] := by
  cases h with
  | kept added => exact added
  | met added => exact added
  | preferred _ added => exact added
  | recorded command =>
    rw [command] at hk
    exact absurd rfl hk
  | removed _ added => exact added

namespace Ledger

variable {s t : Store} {user : Int} (h : s.Agree user t)

include h

theorem remove_agree (words : List String) :
    (remove s words user).2 = (remove t words user).2 ∧
      (remove s words user).1.Agree user (remove t words user).1 := by
  rw [remove, remove]
  cases RemoveRequest.parse words with
  | error e => exact ⟨rfl, h⟩
  | ok ids =>
    simp only [h.findByIds ids]
    cases t.findByIds ids user with
    | error e => exact ⟨rfl, h⟩
    | ok es =>
      simp only
      split
      · exact ⟨rfl, h.delete _⟩
      · exact ⟨rfl, h⟩

theorem config_agree (words : List String) :
    (config s words user).2 = (config t words user).2 ∧
      (config s words user).1.Agree user (config t words user).1 := by
  have hu := h.snd_getOrCreateUser
  rw [config, config]
  cases ConfigRequest.parse words with
  | error e => exact ⟨rfl, h⟩
  | ok request =>
    cases request with
    | showSettings =>
      simp only [hu]
      exact ⟨trivial, h.getOrCreateUser⟩
    | setCurrency code =>
      simp only
      cases Registry.currency? code with
      | none => exact ⟨rfl, h⟩
      | some currency =>
        simp only [hu]
        exact ⟨trivial, h.getOrCreateUser.updateUser (id_getOrCreateUser t user)⟩

theorem list_agree (words : List String) (now : Moment) :
    list s words now user = list t words now user := by
  simp only [list, h.query]

theorem checkNew_agree (ds : List Draft) : checkNew s user ds = checkNew t user ds := by
  induction ds with
  | nil => rfl
  | cons d ds ih => rw [checkNew, checkNew, h.findByHash, ih]

/-- A request that meets no foreign fingerprint has the same outcome, with the ids that are next. -/
theorem add_agree {body : String} {request : AddRequest} (hp : AddRequest.parse body = .ok request)
    (w : DedupWindow) (time : Instant) {ds : List Draft}
    (hd : drafts w request (s.getOrCreateUser user).2.currency time user = ds)
    (hs : ∀ d ∈ ds, ∀ r ∈ s.rows, r.hash = d.hash → r.user = user)
    (ht : ∀ d ∈ ds, ∀ r ∈ t.rows, r.hash = d.hash → r.user = user) :
    (∃ e, add w s body time user = ((s.getOrCreateUser user).1, .error e) ∧
        add w t body time user = ((t.getOrCreateUser user).1, .error e)) ∨
      (add w s body time user = ((s.getOrCreateUser user).1.extend ds,
          .ok (.added (numbered s.nextId ds))) ∧
        add w t body time user = ((t.getOrCreateUser user).1.extend ds,
          .ok (.added (numbered t.nextId ds)))) := by
  have ha := h.getOrCreateUser
  have hhash : ∀ d ∈ ds, (s.getOrCreateUser user).1.hasHash d.hash =
      (t.getOrCreateUser user).1.hasHash d.hash := by
    intro d hm
    apply ha.hasHash
    · rw [rows_getOrCreateUser]
      exact hs d hm
    · rw [rows_getOrCreateUser]
      exact ht d hm
  have huser : ∀ d ∈ ds, (s.getOrCreateUser user).1.hasUser d.user =
      (t.getOrCreateUser user).1.hasUser d.user := by
    intro d hm
    rw [(of_mem_drafts (hd ▸ hm)).1, hasUser_getOrCreateUser, hasUser_getOrCreateUser]
  rw [add_of_parse hp, add_of_parse hp, ← h.snd_getOrCreateUser, hd, ← checkNew_agree ha ds]
  cases checkNew (s.getOrCreateUser user).1 user ds with
  | error e => exact .inl ⟨e, rfl, rfl⟩
  | ok =>
    simp only [record]
    rcases create_congr hhash huser with ⟨e, hcs, hct⟩ | ⟨hcs, hct⟩
    · rw [hcs, hct]
      cases e with
      | duplicateHash => exact .inl ⟨_, rfl, rfl⟩
      | missingUser => exact .inl ⟨_, rfl, rfl⟩
      | tooManyIds => exact .inl ⟨_, rfl, rfl⟩
      | corrupt => exact .inl ⟨_, rfl, rfl⟩
    · rw [hcs, hct, nextId_getOrCreateUser, nextId_getOrCreateUser]
      exact .inr ⟨rfl, rfl⟩

end Ledger

/-- Replies that are the same but for the ids of added entries. -/
inductive Reply.SameButIds : Reply → Reply → Prop where
  | same (reply : Reply) : SameButIds reply reply
  | added {kind : CommandKind} {es es' : List Entry}
      (drafts : es.map (·.toDraft) = es'.map (·.toDraft)) :
    SameButIds ⟨kind, .ok (.added es)⟩ ⟨kind, .ok (.added es')⟩

/-- Two answers to a user that are the same, and leave the user the same, but for the ids of the
entries that they add. -/
structure AgreeButIds (user : Int) (t t' : Store) (reply reply' : Reply) : Prop where
  replies : reply.SameButIds reply'
  rows : ∃ kept, t.rowsOf user = kept ++ reply.added.map Entry.toRow ∧
    t'.rowsOf user = kept ++ reply'.added.map Entry.toRow
  settings : t.user? user = t'.user? user
  defaultCurrency : t.defaultCurrency = t'.defaultCurrency

theorem Store.Agree.butIds {t t' : Store} {user : Int} (h : t.Agree user t') {reply : Reply}
    (hr : reply.added = []) : AgreeButIds user t t' reply reply where
  replies := .same reply
  rows := by
    refine ⟨t.rowsOf user, ?_, ?_⟩
    · rw [hr, List.map_nil, List.append_nil]
    · rw [hr, List.map_nil, List.append_nil, h.rows]
  settings := h.settings
  defaultCurrency := h.defaultCurrency

theorem Command.eq_add_of_kind {c : Command} (h : c.kind = .add) : ∃ body, c = .add body := by
  cases c with
  | add body => exact ⟨body, rfl⟩
  | remove => cases h
  | list => cases h
  | help => cases h
  | config => cases h
  | unknown => cases h

namespace Submission

/-- The fingerprints that are computed to answer a submission. -/
def hashes (w : DedupWindow) (s : Store) (m : Submission) : List String :=
  match Command.parse m.text with
  | .add body =>
    match AddRequest.parse body with
    | .ok request => (m.drafts w s request).map (·.hash)
    | .error _ => []
  | _ => []

/-- Whether nobody but the sender has one of these fingerprints stored. -/
def Unclaimed (w : DedupWindow) (s : Store) (m : Submission) : Prop :=
  ∀ hash ∈ m.hashes w s, ∀ r ∈ s.rows, r.hash = hash → r.user = m.user

instance (w : DedupWindow) (s : Store) (m : Submission) : Decidable (m.Unclaimed w s) :=
  inferInstanceAs (Decidable (∀ hash ∈ m.hashes w s, ∀ r ∈ s.rows, r.hash = hash → r.user = m.user))

variable {w : DedupWindow} {s s' : Store} {m : Submission}

theorem answer_agree (h : s.Agree m.user s') (hk : (Command.parse m.text).kind ≠ .add) :
    (m.answer w s).2 = (m.answer w s').2 ∧ (m.answer w s).1.Agree m.user (m.answer w s').1 := by
  rw [answer, answer, Ledger.dispatch, Ledger.dispatch]
  cases hc : Command.parse m.text with
  | add body =>
    rw [hc] at hk
    exact absurd rfl hk
  | remove words =>
    obtain ⟨hr, ha⟩ := Ledger.remove_agree h words
    simp only [Ledger.run, hr]
    exact ⟨trivial, ha⟩
  | list words =>
    simp only [Ledger.run, Ledger.list_agree h]
    exact ⟨trivial, h⟩
  | help topic => exact ⟨rfl, h⟩
  | config words =>
    obtain ⟨hr, ha⟩ := Ledger.config_agree h words
    simp only [Ledger.run, hr]
    exact ⟨trivial, ha⟩
  | unknown word => exact ⟨rfl, h⟩

theorem Unclaimed.user_of_hash_eq (h : m.Unclaimed w s) {body : String} {request : AddRequest}
    (hc : Command.parse m.text = .add body) (hp : AddRequest.parse body = .ok request) :
    ∀ d ∈ m.drafts w s request, ∀ r ∈ s.rows, r.hash = d.hash → r.user = m.user := by
  intro d hd
  apply h
  rw [hashes, hc]
  simp only [hp]
  exact List.mem_map_of_mem hd

theorem answer_add_agree (h : s.Agree m.user s') (hs : m.Unclaimed w s) (hs' : m.Unclaimed w s')
    {body : String} (hc : Command.parse m.text = .add body) :
    AgreeButIds m.user (m.answer w s).1 (m.answer w s').1 (m.answer w s).2 (m.answer w s').2 := by
  rw [answer_of_add hc, answer_of_add hc]
  cases hp : AddRequest.parse body with
  | error e =>
    rw [Ledger.add_of_parse_error hp, Ledger.add_of_parse_error hp]
    exact h.butIds rfl
  | ok request =>
    have hdrafts : m.drafts w s' request = m.drafts w s request := by
      rw [drafts, drafts, h.snd_getOrCreateUser]
    have hfree := hs'.user_of_hash_eq hc hp
    rw [hdrafts] at hfree
    rcases Ledger.add_agree h hp w m.now.instant rfl (hs.user_of_hash_eq hc hp) hfree with
      ⟨e, he, he'⟩ | ⟨he, he'⟩
    · rw [he, he']
      exact h.getOrCreateUser.butIds rfl
    · have huser : ∀ d ∈ m.drafts w s request, d.user = m.user := by
        intro d hd
        exact (Ledger.of_mem_drafts hd).1
      -- the new rows differ in their ids, which start at the counter of either store
      have hrows : ∀ u : Store, ((u.getOrCreateUser m.user).1.extend
          (m.drafts w s request)).rowsOf m.user =
            u.rowsOf m.user ++ (numbered u.nextId (m.drafts w s request)).map Entry.toRow := by
        intro u
        rw [rowsOf_extend huser, rowsOf_of_rows_eq (u.rows_getOrCreateUser m.user),
          nextId_getOrCreateUser]
      have hu := h.getOrCreateUser
      rw [he, he']
      refine ⟨.added ?_, ⟨s.rowsOf m.user, hrows s, ?_⟩, hu.settings, hu.defaultCurrency⟩
      · rw [toDraft_numbered, toDraft_numbered]
      · rw [h.rows]
        exact hrows s'

/-- A submission is answered in the same way on two stores in which its sender has the same share,
and leaves the same share. Only `add` needs that its fingerprints are nobody else's, and only the
ids of what it adds may differ. On both stores the shares of all others stay as they are. -/
theorem answer_isolated (w : DedupWindow) (h : s.Agree m.user s') :
    let t := (m.answer w s).1
    let t' := (m.answer w s').1
    let reply := (m.answer w s).2
    let reply' := (m.answer w s').2
    ((Command.parse m.text).kind ≠ .add → reply = reply' ∧ t.Agree m.user t') ∧
      (m.Unclaimed w s → m.Unclaimed w s' → AgreeButIds m.user t t' reply reply') ∧
      ∀ other, other ≠ m.user → s.Agree other t ∧ s'.Agree other t' := by
  intro t t' reply reply'
  have hother : ∀ other, other ≠ m.user → s.Agree other t ∧ s'.Agree other t' := by
    intro other hne
    exact ⟨(effect_answer w s m).agree_of_ne hne, (effect_answer w s' m).agree_of_ne hne⟩
  refine ⟨answer_agree h, ?_, hother⟩
  intro hs hs'
  by_cases hk : (Command.parse m.text).kind = .add
  · obtain ⟨body, hc⟩ := Command.eq_add_of_kind hk
    exact answer_add_agree h hs hs' hc
  · obtain ⟨hr, ha⟩ := answer_agree h hk
    have hadded := (effect_answer w s' m).added_of_ne hk
    have hreply : reply = reply' := hr
    rw [hreply]
    exact ha.butIds hadded

/-- The second store has a row of user 2 besides that nobody can read. -/
theorem answer_isolated_corrupt :
    let row : Row :=
      ⟨1, 1, "Groceries", "4.50", "NZD", "", "2025-03-15T10:00:00.000000Z", "a"⟩
    let s : Store := ⟨[row], [⟨1, "NZD"⟩], 2, "NZD", by decide, by decide⟩
    let s' : Store := ⟨[row, ⟨2, 2, "Dining", "oops", "EUR", "", "never", "b"⟩],
      [⟨1, "NZD"⟩, ⟨2, "EUR"⟩], 3, "NZD", by decide, by decide⟩
    let now : Moment := ⟨.ofSeconds 1742036400, .fixed 0⟩
    let listing : Submission := ⟨1, "ls", now⟩
    let adding : Submission := ⟨1, "add G 5", now⟩
    let w : DedupWindow := .ofSeconds 60
    ((listing.answer w s).2 = (listing.answer w s').2 ∧
        (listing.answer w s).1.Agree 1 (listing.answer w s').1) ∧
      AgreeButIds 1 (adding.answer w s).1 (adding.answer w s').1 (adding.answer w s).2
        (adding.answer w s').2 ∧
      s'.Agree 2 (adding.answer w s').1 := by
  intro row s s' now listing adding w
  have h : s.Agree 1 s' := ⟨by decide, by decide, rfl⟩
  have hk : (Command.parse listing.text).kind ≠ .add := by decide +kernel
  have hs : adding.Unclaimed w s := by decide +kernel
  have hs' : adding.Unclaimed w s' := by decide +kernel
  obtain ⟨hlisting, -, -⟩ := answer_isolated (m := listing) w h
  obtain ⟨-, hadding, hother⟩ := answer_isolated (m := adding) w h
  exact ⟨hlisting hk, hadding hs hs', (hother 2 (by decide)).2⟩

end Submission

end PersonalLedger
