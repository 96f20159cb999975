import PersonalLedger.Proofs.Ledger.Isolation
import PersonalLedger.Proofs.Ledger.Journal

namespace PersonalLedger

open Text

namespace AddRequest

/-- The code of the supported currency whose marker is the last word behind the amounts. -/
def marked? (body : String) : Option String :=
  ((words body).drop 2).getLast?.bind Listing.currency?

theorem currency_of_notesAndCurrency {extra notes : List String} {currency : Option String}
    (h : notesAndCurrency extra = .ok (notes, currency)) :
    currency = extra.getLast?.bind Listing.currency? := by
  rw [notesAndCurrency] at h
  cases hl : extra.getLast? with
  | none =>
    rw [hl] at h
    cases h
    rfl
  | some word =>
    rw [hl, Option.map_some] at h
    rw [Option.bind_some, Listing.currency?]
    cases hm : Registry.marker word with
    | absent =>
      rw [hm] at h
      cases h
      rfl
    | unsupported code =>
      rw [hm] at h
      cases h
    | supported currency =>
      rw [hm] at h
      cases h
      rfl

theorem currency_of_parse {body : String} {request : AddRequest} (h : parse body = .ok request) :
    request.currency = marked? body := by
  obtain ⟨code, amounts, extra, category, values, notes, currency, hw, -, -, hn, rfl⟩ := of_parse h
  rw [marked?, hw]
  exact currency_of_notesAndCurrency hn

end AddRequest

namespace Store

/-- The currency that a user's entries have where nothing else is said. -/
def currencyOf (s : Store) (user : Int) : String := (s.getOrCreateUser user).2.currency

variable {s t : Store}

theorem currencyOf_empty (defaultCurrency : String) (user : Int) :
    (empty defaultCurrency).currencyOf user = defaultCurrency := rfl

theorem Agree.currencyOf {user : Int} (h : s.Agree user t) : s.currencyOf user = t.currencyOf user :=
  congrArg User.currency h.snd_getOrCreateUser

theorem currencyOf_of_known {user : Int} {u : User} (h : s.user? user = some u) :
    s.currencyOf user = u.currency := by
  rw [currencyOf, getOrCreateUser_of_known h]

theorem currencyOf_getOrCreateUser (s : Store) (user : Int) :
    (s.getOrCreateUser user).1.currencyOf user = s.currencyOf user :=
  currencyOf_of_known (user?_getOrCreateUser s user)

theorem currencyOf_updateUser (s : Store) {user : Int} {u : User} (h : u.id = user) :
    (s.updateUser u).currencyOf user = u.currency := by
  subst h
  exact currencyOf_of_known (user?_updateUser s u)

theorem currencyOf_congr (hu : t.users = s.users) (hd : t.defaultCurrency = s.defaultCurrency)
    (user : Int) : t.currencyOf user = s.currencyOf user := by
  rw [currencyOf, currencyOf, getOrCreateUser, getOrCreateUser, user?, user?, hu, hd]
  cases s.users.find? (·.id == user) with
  | none => rfl
  | some u => rfl

theorem currencyOf_extend (s : Store) (ds : List Draft) (user : Int) :
    (s.extend ds).currencyOf user = s.currencyOf user :=
  currencyOf_congr (s := s) (t := s.extend ds) rfl rfl user

theorem currencyOf_delete (s : Store) (owned : List (Int × Int)) (user : Int) :
    (s.delete owned).currencyOf user = s.currencyOf user :=
  currencyOf_congr (s := s) (t := s.delete owned) rfl rfl user

end Store

/-- The code of the currency that a submission sets for its sender, if that is supported. -/
def Submission.chosen? (m : Submission) : Option String :=
  match Command.parse m.text with
  | .config words =>
    match ConfigRequest.parse words with
    | .ok (.setCurrency code) => (Registry.currency? code).map (·.code)
    | _ => none
  | _ => none

def Exchange.chosen? (x : Exchange) : Option String :=
  match x.reply.result with
  | .ok _ => x.submission.chosen?
  | .error _ => none

namespace Submission

variable {w : DedupWindow} {s : Store} {m : Submission}

theorem chosen?_of_ne (h : ∀ words, Command.parse m.text ≠ .config words) (reply : Reply) :
    Exchange.chosen? ⟨m, reply⟩ = none := by
  have hm : m.chosen? = none := by
    rw [chosen?]
    split
    · next words hc => exact absurd hc (h words)
    · rfl
  rw [Exchange.chosen?]
  split
  · exact hm
  · rfl

theorem currencyOf_config {words : List String} (hc : Command.parse m.text = .config words) :
    (m.answer w s).1.currencyOf m.user =
      (Exchange.chosen? ⟨m, (m.answer w s).2⟩).getD (s.currencyOf m.user) := by
  rw [answer, Ledger.dispatch, hc]
  simp only [Ledger.run, Ledger.config, Exchange.chosen?, chosen?, hc]
  cases hp : ConfigRequest.parse words with
  | error e => rfl
  | ok request =>
    cases request with
    | showSettings => exact s.currencyOf_getOrCreateUser m.user
    | setCurrency code =>
      cases hr : Registry.currency? code with
      | none => simp only [hr, Option.getD_none]
      | some currency =>
        have hu := Store.currencyOf_updateUser (s.getOrCreateUser m.user).1
          (u := { (s.getOrCreateUser m.user).2 with currency := currency.code })
          (s.id_getOrCreateUser m.user)
        simp only [hr, Option.map_some, Option.getD_some]
        exact hu

theorem currencyOf_of_ne (h : ∀ words, Command.parse m.text ≠ .config words) :
    (m.answer w s).1.currencyOf m.user = s.currencyOf m.user := by
  rw [answer, Ledger.dispatch]
  cases hc : Command.parse m.text with
  | add body =>
    simp only [Ledger.run]
    cases hp : AddRequest.parse body with
    | error e => rw [Ledger.add_of_parse_error hp]
    | ok request =>
      rcases Ledger.add_cases hp w s m.now.instant m.user with ⟨-, -, he⟩ | ⟨e, he⟩
      · rw [he, Store.currencyOf_extend, Store.currencyOf_getOrCreateUser]
      · rw [he, Store.currencyOf_getOrCreateUser]
  | remove words =>
    simp only [Ledger.run]
    rcases Ledger.remove_cases s words m.user with ⟨e, he⟩ | ⟨ids, es, -, -, he⟩
    · rw [he]
    · rw [he, Store.currencyOf_delete]
  | list words => rfl
  | help topic => rfl
  | config words => exact absurd hc (h words)
  | unknown word => rfl

/-- Only a currency that was set changes what the sender's entries have. -/
theorem currencyOf_answer (w : DedupWindow) (s : Store) (m : Submission) :
    (m.answer w s).1.currencyOf m.user =
      (Exchange.chosen? ⟨m, (m.answer w s).2⟩).getD (s.currencyOf m.user) := by
  by_cases h : ∃ words, Command.parse m.text = .config words
  · obtain ⟨words, hc⟩ := h
    exact currencyOf_config hc
  · have h : ∀ words, Command.parse m.text ≠ .config words := not_exists.1 h
    rw [chosen?_of_ne h, Option.getD_none]
    exact currencyOf_of_ne h

end Submission

theorem Effect.currency_of_added {w : DedupWindow} {s t : Store} {m : Submission} {reply : Reply}
    (h : Effect w s m t reply) {e : Entry} (he : e ∈ reply.added) :
    ∃ body, Command.parse m.text = .add body ∧
      e.currency = (AddRequest.marked? body).getD (s.currencyOf m.user) := by
  obtain ⟨body, request, command, parsed, added⟩ := h.exists_request_of_mem_added he
  obtain ⟨-, -, -, -, hc⟩ := Ledger.of_mem_drafts (Store.toDraft_mem_of_numbered (added ▸ he))
  rw [AddRequest.currency_of_parse parsed] at hc
  exact ⟨body, command, hc⟩

namespace Journal

variable {w : DedupWindow} {defaultCurrency : String} {j : Journal} {m : Submission}
  {ms : List Submission}

/-- The currency that a user has set last, or else the default. -/
def preference (defaultCurrency : String) (log : List Exchange) (user : Int) : String :=
  ((log.filter (·.submission.user == user)).filterMap Exchange.chosen?).getLast?.getD defaultCurrency

theorem preference_concat (defaultCurrency : String) (log : List Exchange) (x : Exchange) :
    preference defaultCurrency (log ++ [x]) x.submission.user =
      x.chosen?.getD (preference defaultCurrency log x.submission.user) := by
  rw [preference, preference, List.filter_append, List.filterMap_append,
    List.filter_singleton, beq_self_eq_true, cond_true]
  cases hx : x.chosen? with
  | none => rw [List.filterMap_cons_none hx, List.filterMap_nil, List.append_nil, Option.getD_none]
  | some code =>
    rw [List.filterMap_cons_some hx, List.filterMap_nil, List.getLast?_concat, Option.getD_some,
      Option.getD_some]

theorem preference_concat_of_ne (defaultCurrency : String) (log : List Exchange) {x : Exchange}
    {user : Int} (h : user ≠ x.submission.user) :
    preference defaultCurrency (log ++ [x]) user = preference defaultCurrency log user := by
  rw [preference, preference, List.filter_append, List.filter_singleton,
    beq_eq_false_iff_ne.2 h.symm, cond_false, List.append_nil]

theorem currencyOf_submit (h : ∀ user, j.store.currencyOf user = preference defaultCurrency j.log user)
    (user : Int) :
    (j.submit w m).store.currencyOf user = preference defaultCurrency (j.submit w m).log user := by
  by_cases hu : user = m.user
  · subst hu
    have hc := preference_concat defaultCurrency j.log ⟨m, (m.answer w j.store).2⟩
    rw [submit, Submission.currencyOf_answer, h]
    exact hc.symm
  · have ha := (effect_answer w j.store m).agree_of_ne hu
    rw [submit, ← ha.currencyOf, h, preference_concat_of_ne]
    exact hu

theorem currencyOf_run (w : DedupWindow) (defaultCurrency : String) (ms : List Submission)
    (user : Int) :
    (run w defaultCurrency ms).store.currencyOf user =
      preference defaultCurrency (run w defaultCurrency ms).log user := by
  -- a submission touches the sender's setting only, so the induction is on all users at once
  have h := run_induction (w := w)
    (P := fun j => ∀ user, j.store.currencyOf user = preference defaultCurrency j.log user)
    (Store.currencyOf_empty defaultCurrency) fun _ _ => currencyOf_submit
  exact h ms user

/-- Neither a code that is not supported nor what another user sets counts. -/
example :
    let now : Moment := ⟨.epoch, .fixed 0⟩
    preference "NZD" (run (.ofSeconds 1) "NZD"
      [⟨7, "config set-default-currency usd", now⟩, ⟨8, "cfg set-default-currency EUR", now⟩,
        ⟨7, "config set-default-currency dollars", now⟩, ⟨7, "config", now⟩]).log 7 = "USD" := by
  decide +kernel

/-- After any submissions, an entry that the next one adds is stored in the currency that its message
is marked with, or else in the one that its sender has set last, or else in the default. A row that
is stored is the same in all later stores that have its id. -/
theorem currency_run (w : DedupWindow) (defaultCurrency : String) (ms : List Submission)
    (m : Submission) :
    let j := run w defaultCurrency ms
    (∀ e ∈ (m.answer w j.store).2.added,
        e.toRow ∈ (run w defaultCurrency (ms ++ [m])).store.rows ∧
          ∃ body, Command.parse m.text = .add body ∧
            e.currency =
              (AddRequest.marked? body).getD (preference defaultCurrency j.log m.user)) ∧
      ∀ r ∈ j.store.rows, ∀ more : List Submission,
        ∀ r' ∈ (run w defaultCurrency (ms ++ more)).store.rows, r'.id = r.id → r' = r := by
  intro j
  have he := effect_answer w j.store m
  refine ⟨?_, ?_⟩
  · intro e hm
    refine ⟨?_, ?_⟩
    · rw [run_concat, submit, he.rows_eq]
      exact List.mem_append_right _ (List.mem_map_of_mem hm)
    · obtain ⟨body, hb, hcur⟩ := he.currency_of_added hm
      rw [currencyOf_run] at hcur
      exact ⟨body, hb, hcur⟩
  · intro r hr more r' hr' hi
    exact eq_of_mem_rows_append w defaultCurrency ms more hr hr' hi

end Journal

end PersonalLedger
