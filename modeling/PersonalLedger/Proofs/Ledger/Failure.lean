import PersonalLedger.Proofs.Ledger.Effect

namespace PersonalLedger.Ledger

variable {w : DedupWindow} {s t : Store} {user : Int} {e : Failure}

theorem add_error {body : String} {time : Instant}
    (h : add w s body time user = (t, .error e)) :
    t = s ∨
      (∃ request, AddRequest.parse body = .ok request) ∧ t = (s.getOrCreateUser user).1 := by
  cases hp : AddRequest.parse body with
  | error e' =>
    rw [add_of_parse_error hp] at h
    cases h
    exact .inl rfl
  | ok request =>
    rcases add_cases hp w s time user with ⟨-, -, he⟩ | ⟨e', he⟩
    · rw [he] at h
      cases h
    · rw [he] at h
      cases h
      exact .inr ⟨⟨request, rfl⟩, rfl⟩

theorem remove_error {words : List String} (h : remove s words user = (t, .error e)) : t = s := by
  rcases remove_cases s words user with ⟨e', he⟩ | ⟨ids, es, -, -, he⟩
  · rw [he] at h
    cases h
    rfl
  · rw [he] at h
    cases h

theorem config_error {words : List String} (h : config s words user = (t, .error e)) : t = s := by
  rcases config_cases s words user with ⟨e', he⟩ | ⟨u, he⟩ | ⟨currency, -, he⟩
  · rw [he] at h
    cases h
    rfl
  · rw [he] at h
    cases h
  · rw [he] at h
    cases h

theorem run_error {command : Command} {now : Moment}
    (h : run w s command now user = (t, .error e)) :
    t = s ∨ (∃ body request, command = .add body ∧ AddRequest.parse body = .ok request) ∧
      t = (s.getOrCreateUser user).1 := by
  cases command with
  | add body =>
    rcases add_error h with rfl | ⟨⟨request, hp⟩, ht⟩
    · exact .inl rfl
    · exact .inr ⟨⟨body, request, rfl, hp⟩, ht⟩
  | remove words => exact .inl (remove_error h)
  | list words => exact .inl (congrArg Prod.fst h).symm
  | help topic => cases h
  | config words => exact .inl (config_error h)
  | unknown word => exact .inl (congrArg Prod.fst h).symm

/-- A failing command leaves rows and counter alone, and the users too, except that an `add` that
could be read may have made its sender known. `ls`, `help` and unknown commands leave the store
alone whatever they reply. -/
theorem dispatch_error_frame (w : DedupWindow) (s : Store) (text : String) (now : Moment)
    (user : Int) :
    let t := (dispatch w s text now user).1
    let reply := (dispatch w s text now user).2
    (∀ e, reply.result = .error e →
      t.rows = s.rows ∧ t.nextId = s.nextId ∧
        (t = s ∨
          (∃ body request, Command.parse text = .add body ∧ AddRequest.parse body = .ok request) ∧
            s.hasUser user = false ∧
            t = { s with users := s.users ++ [⟨user, s.defaultCurrency⟩] })) ∧
      (reply.kind = .list ∨ reply.kind = .help ∨ reply.kind = .unknown → t = s) := by
  rw [dispatch]
  generalize Command.parse text = command
  cases hr : run w s command now user with
  | mk t result =>
  simp only
  constructor
  · rintro e rfl
    rcases run_error hr with rfl | ⟨hp, rfl⟩
    · exact ⟨rfl, rfl, .inl rfl⟩
    · refine ⟨s.rows_getOrCreateUser user, s.nextId_getOrCreateUser user, ?_⟩
      rw [Store.getOrCreateUser_fst]
      by_cases hu : s.hasUser user = true
      · rw [if_pos hu]
        exact .inl rfl
      · rw [if_neg hu]
        exact .inr ⟨hp, Bool.eq_false_iff.2 hu, rfl⟩
  · intro hk
    cases command with
    | add body => rcases hk with hk | hk | hk <;> cases hk
    | remove words => rcases hk with hk | hk | hk <;> cases hk
    | list words => exact (congrArg Prod.fst hr).symm
    | help topic => exact (congrArg Prod.fst hr).symm
    | config words => rcases hk with hk | hk | hk <;> cases hk
    | unknown word => exact (congrArg Prod.fst hr).symm

end PersonalLedger.Ledger
