import PersonalLedger.Proofs.Ledger.Failure
import PersonalLedger.Proofs.Store.Ownership

namespace PersonalLedger

namespace Store

/-- Whether two stores are the same once they know a user. -/
def SameOnceMet (user : Int) (s t : Store) : Prop :=
  (s.getOrCreateUser user).1 = (t.getOrCreateUser user).1

variable {s t : Store} {user : Int}

theorem SameOnceMet.refl (user : Int) (s : Store) : SameOnceMet user s s := rfl

theorem sameOnceMet_getOrCreateUser (s : Store) (user : Int) :
    SameOnceMet user (s.getOrCreateUser user).1 s := by
  rw [SameOnceMet, getOrCreateUser_of_known (user?_getOrCreateUser s user)]

theorem delete_getOrCreateUser (s : Store) (owned : List (Int × Int)) (user : Int) :
    ((s.delete owned).getOrCreateUser user).1 = (s.getOrCreateUser user).1.delete owned := by
  cases hu : s.user? user with
  | none =>
    have hd : (s.delete owned).user? user = none := hu
    rw [getOrCreateUser_of_unknown hu, getOrCreateUser_of_unknown hd]
    rfl
  | some u =>
    have hd : (s.delete owned).user? user = some u := hu
    rw [getOrCreateUser_of_known hu, getOrCreateUser_of_known hd]

namespace SameOnceMet

theorem rows (h : SameOnceMet user s t) : s.rows = t.rows := by
  rw [← s.rows_getOrCreateUser user, ← t.rows_getOrCreateUser user, h]

theorem getOrCreateUser (h : SameOnceMet user s t) :
    s.getOrCreateUser user = t.getOrCreateUser user := by
  apply Prod.ext h
  have hs := user?_getOrCreateUser s user
  rw [show (s.getOrCreateUser user).1 = (t.getOrCreateUser user).1 from h,
    user?_getOrCreateUser t user] at hs
  exact (Option.some_inj.1 hs).symm

theorem delete (h : SameOnceMet user s t) (owned : List (Int × Int)) :
    SameOnceMet user (s.delete owned) (t.delete owned) := by
  rw [SameOnceMet, delete_getOrCreateUser, delete_getOrCreateUser, h]

end SameOnceMet

end Store

namespace Ledger

open Store

variable {w : DedupWindow} {s t : Store} {user : Int}

theorem add_of_sameOnceMet (h : SameOnceMet user s t) (body : String) (time : Instant) :
    (add w s body time user).2 = (add w t body time user).2 ∧
      SameOnceMet user (add w s body time user).1 (add w t body time user).1 := by
  cases hp : AddRequest.parse body with
  | error e =>
    rw [add_of_parse_error hp, add_of_parse_error hp]
    exact ⟨rfl, h⟩
  | ok request =>
    rw [add_of_parse hp, add_of_parse hp, h.getOrCreateUser]
    exact ⟨rfl, .refl _ _⟩

theorem remove_of_sameOnceMet (h : SameOnceMet user s t) (words : List String) :
    (remove s words user).2 = (remove t words user).2 ∧
      SameOnceMet user (remove s words user).1 (remove t words user).1 := by
  have hfind : ∀ ids, s.findByIds ids user = t.findByIds ids user := by
    intro ids
    rw [findByIds, findByIds, h.rows]
  rw [remove, remove]
  cases RemoveRequest.parse words with
  | error e => exact ⟨rfl, h⟩
  | ok ids =>
    dsimp only
    rw [hfind]
    cases t.findByIds ids user with
    | error e => exact ⟨rfl, h⟩
    | ok es =>
      dsimp only
      split
      · exact ⟨rfl, h.delete _⟩
      · exact ⟨rfl, h⟩

theorem list_of_sameOnceMet (h : SameOnceMet user s t) (words : List String) (now : Moment) :
    list s words now user = list t words now user := by
  have hquery : ∀ q, s.query q = t.query q := by
    intro q
    rw [query, query, select, select, h.rows]
  simp only [list, hquery]

theorem config_of_sameOnceMet (h : SameOnceMet user s t) (words : List String) :
    (config s words user).2 = (config t words user).2 ∧
      SameOnceMet user (config s words user).1 (config t words user).1 := by
  rw [config, config]
  cases ConfigRequest.parse words with
  | error e => exact ⟨rfl, h⟩
  | ok request =>
    cases request with
    | showSettings =>
      dsimp only
      rw [h.getOrCreateUser]
      exact ⟨rfl, .refl _ _⟩
    | setCurrency code =>
      dsimp only
      cases Registry.currency? code with
      | none => exact ⟨rfl, h⟩
      | some currency =>
        dsimp only
        rw [h.getOrCreateUser]
        exact ⟨rfl, .refl _ _⟩

theorem run_of_sameOnceMet (h : SameOnceMet user s t) (command : Command) (now : Moment) :
    (run w s command now user).2 = (run w t command now user).2 ∧
      SameOnceMet user (run w s command now user).1 (run w t command now user).1 := by
  cases command with
  | add body => exact add_of_sameOnceMet h body now.instant
  | remove words => exact remove_of_sameOnceMet h words
  | list words => exact ⟨list_of_sameOnceMet h words now, h⟩
  | help topic => exact ⟨rfl, h⟩
  | config words => exact config_of_sameOnceMet h words
  | unknown word => exact ⟨rfl, h⟩

/-- A user is answered in the same way by stores that are the same once they know the user. -/
theorem dispatch_of_sameOnceMet (h : SameOnceMet user s t) (text : String) (now : Moment) :
    (dispatch w s text now user).2 = (dispatch w t text now user).2 ∧
      SameOnceMet user (dispatch w s text now user).1 (dispatch w t text now user).1 := by
  obtain ⟨hresult, hstore⟩ := run_of_sameOnceMet (w := w) h (Command.parse text) now
  rw [dispatch_eq, dispatch_eq]
  dsimp only
  rw [hresult]
  exact ⟨rfl, hstore⟩

theorem sameOnceMet_of_dispatch_error {text : String} {now : Moment} {e : Failure}
    (h : (dispatch w s text now user).2.result = .error e) :
    SameOnceMet user (dispatch w s text now user).1 s := by
  rw [dispatch_eq] at h ⊢
  generalize hr : run w s (Command.parse text) now user = r at h ⊢
  obtain ⟨t, result⟩ := r
  dsimp only at h ⊢
  rw [h] at hr
  rcases run_error hr with rfl | ⟨-, rfl⟩
  · exact .refl _ _
  · exact sameOnceMet_getOrCreateUser s user

end Ledger

theorem Effect.defaultCurrency {w : DedupWindow} {s t : Store} {m : Submission} {reply : Reply}
    (h : Effect w s m t reply) : t.defaultCurrency = s.defaultCurrency := by
  cases h with
  | kept => rfl
  | met => exact s.defaultCurrency_getOrCreateUser m.user
  | preferred =>
    rw [Store.defaultCurrency_updateUser]
    exact s.defaultCurrency_getOrCreateUser m.user
  | recorded => exact s.defaultCurrency_getOrCreateUser m.user
  | removed => rfl

theorem Ledger.defaultCurrency_dispatch (w : DedupWindow) (s : Store) (text : String) (now : Moment)
    (user : Int) : (dispatch w s text now user).1.defaultCurrency = s.defaultCurrency := by
  have heffect := effect_answer w s ⟨user, text, now⟩
  rw [Submission.answer] at heffect
  dsimp only at heffect
  exact heffect.defaultCurrency

end PersonalLedger
