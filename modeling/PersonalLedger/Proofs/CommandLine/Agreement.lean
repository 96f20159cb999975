import PersonalLedger.CommandLine.Session
import PersonalLedger.Proofs.Config.Loading
import PersonalLedger.Proofs.Ledger.Meeting

namespace PersonalLedger.CommandLine

open Text Store

/-- The text that handling a message gives, whether it succeeds or fails. -/
def told : Except String String → String
  | .ok text => text
  | .error message => message

def IsBlankLine (line : String) : Prop := (trim line.toList).isEmpty = true

instance : DecidablePred IsBlankLine := fun _ => inferInstanceAs (Decidable (_ = true))

/-- The lines of an input that are not blank, with their times. -/
def spoken (lines : List (String × Moment)) : List (String × Moment) :=
  lines.filter fun (line, _) => decide (¬IsBlankLine line)

section Handle

variable {sender : Sender} {s t : Store} {line message : String} {now : Moment}

theorem handle_of_prepare {text : String} (h : Message.prepare line = .ok text) :
    handle sender s line now =
      ((Ledger.dispatch sender.window s text now sender.user).1,
        match (Ledger.dispatch sender.window s text now sender.user).2.userError with
        | some message => .error message
        | none => .ok ((Ledger.dispatch sender.window s text now sender.user).2.render now.zone)) := by
  rw [handle, h]
  dsimp only
  cases (Ledger.dispatch sender.window s text now sender.user).2.userError with
  | none => rfl
  | some message => rfl

theorem handle_of_rejected {rejection : Message.Rejection}
    (h : Message.prepare line = .error rejection) :
    handle sender s line now = (s, .error rejection.message) := by
  rw [handle, h]

theorem exec_line (sender : Sender) (s : Store) (line : String) (now : Moment) :
    exec sender s [line] now = handle sender s line now := by
  rw [exec, String.intercalate_singleton]

theorem replLine_of_blank (h : IsBlankLine line) : replLine sender s line now = (s, []) := by
  rw [replLine]
  exact if_pos h

theorem replLine_of_not_blank (h : ¬IsBlankLine line) :
    replLine sender s line now =
      ((handle sender s line now).1, [told (handle sender s line now).2]) := by
  rw [replLine]
  refine (if_neg h).trans ?_
  cases hp : Message.prepare line with
  | error rejection => rw [handle_of_rejected hp, told]
  | ok text =>
    rw [handle_of_prepare hp]
    dsimp only
    generalize Ledger.dispatch sender.window s text now sender.user = answer
    obtain ⟨t, kind, result⟩ := answer
    cases result with
    | ok outcome => rfl
    | error e => rfl

theorem handle_of_sameOnceMet (h : SameOnceMet sender.user s t) (line : String) (now : Moment) :
    (handle sender s line now).2 = (handle sender t line now).2 ∧
      SameOnceMet sender.user (handle sender s line now).1 (handle sender t line now).1 := by
  cases hp : Message.prepare line with
  | error rejection =>
    rw [handle_of_rejected hp, handle_of_rejected hp]
    exact ⟨rfl, h⟩
  | ok text =>
    obtain ⟨hreply, hstore⟩ := Ledger.dispatch_of_sameOnceMet (w := sender.window) h text now
    rw [handle_of_prepare hp, handle_of_prepare hp, hreply]
    dsimp only
    exact ⟨rfl, hstore⟩

theorem sameOnceMet_of_handle_error (h : (handle sender s line now).2 = .error message) :
    SameOnceMet sender.user (handle sender s line now).1 s := by
  cases hp : Message.prepare line with
  | error rejection =>
    rw [handle_of_rejected hp]
    exact .refl _ _
  | ok text =>
    rw [handle_of_prepare hp] at h ⊢
    dsimp only at h ⊢
    cases hr : (Ledger.dispatch sender.window s text now sender.user).2.result with
    | ok outcome =>
      rw [Reply.userError, hr] at h
      cases h
    | error e => exact Ledger.sameOnceMet_of_dispatch_error hr

theorem defaultCurrency_handle (sender : Sender) (s : Store) (line : String) (now : Moment) :
    (handle sender s line now).1.defaultCurrency = s.defaultCurrency := by
  cases hp : Message.prepare line with
  | error rejection => rw [handle_of_rejected hp]
  | ok text =>
    rw [handle_of_prepare hp]
    dsimp only
    exact Ledger.defaultCurrency_dispatch sender.window s text now sender.user

theorem replLine_of_sameOnceMet (h : SameOnceMet sender.user s t) (line : String) (now : Moment) :
    (replLine sender s line now).2 = (replLine sender t line now).2 ∧
      SameOnceMet sender.user (replLine sender s line now).1 (replLine sender t line now).1 := by
  by_cases hb : IsBlankLine line
  · rw [replLine_of_blank hb, replLine_of_blank hb]
    exact ⟨rfl, h⟩
  · obtain ⟨hresult, hstore⟩ := handle_of_sameOnceMet h line now
    rw [replLine_of_not_blank hb, replLine_of_not_blank hb, hresult]
    dsimp only
    exact ⟨rfl, hstore⟩

theorem sameOnceMet_of_fails (h : (exec sender s [line] now).2 = .error message) :
    SameOnceMet sender.user (replLine sender s line now).1 s := by
  rw [exec_line] at h
  by_cases hb : IsBlankLine line
  · rw [replLine_of_blank hb]
    exact .refl _ _
  · rw [replLine_of_not_blank hb]
    exact sameOnceMet_of_handle_error h

end Handle

section Repl

variable {sender : Sender} {s t : Store}

theorem repl_cons (sender : Sender) (s : Store) (line : String) (now : Moment)
    (lines : List (String × Moment)) :
    repl sender s ((line, now) :: lines) =
      ((repl sender (replLine sender s line now).1 lines).1,
        (replLine sender s line now).2 ++ (repl sender (replLine sender s line now).1 lines).2) := by
  rw [repl]

theorem repl_append (sender : Sender) (s : Store) (before after : List (String × Moment)) :
    repl sender s (before ++ after) =
      ((repl sender (repl sender s before).1 after).1,
        (repl sender s before).2 ++ (repl sender (repl sender s before).1 after).2) := by
  induction before generalizing s with
  | nil => rfl
  | cons line before ih =>
    obtain ⟨line, now⟩ := line
    rw [List.cons_append, repl_cons, repl_cons, ih, List.append_assoc]

theorem repl_spoken (sender : Sender) (s : Store) (lines : List (String × Moment)) :
    repl sender s (spoken lines) = repl sender s lines := by
  induction lines generalizing s with
  | nil => rfl
  | cons line lines ih =>
    obtain ⟨line, now⟩ := line
    by_cases hb : IsBlankLine line
    · rw [spoken, List.filter_cons_of_neg (by simpa using hb), ← spoken, repl_cons,
        replLine_of_blank hb, ih]
      rfl
    · rw [spoken, List.filter_cons_of_pos (by simpa using hb), ← spoken, repl_cons, repl_cons, ih]

theorem repl_of_sameOnceMet (h : SameOnceMet sender.user s t) (lines : List (String × Moment)) :
    (repl sender s lines).2 = (repl sender t lines).2 ∧
      SameOnceMet sender.user (repl sender s lines).1 (repl sender t lines).1 := by
  induction lines generalizing s t with
  | nil => exact ⟨rfl, h⟩
  | cons line lines ih =>
    obtain ⟨line, now⟩ := line
    obtain ⟨htexts, hstore⟩ := replLine_of_sameOnceMet h line now
    obtain ⟨hmore, hend⟩ := ih hstore
    rw [repl_cons, repl_cons, htexts, hmore]
    dsimp only
    exact ⟨rfl, hend⟩

end Repl

/-- What a call of `exec` prints and the text in it: the output where it succeeds, or else the error. -/
inductive Result.Prints : Result → String → Prop where
  | output (text : String) : Prints (success (text ++ "\n")) text
  | error (text : String) : Prints (failure text) text

namespace Invocation

def execLine (call : Invocation) (line : String) : Invocation :=
  { call with action := .exec none [line] }

def execEach (call : Invocation) (path : String) :
    Home → List (String × Moment) → Home × List Result
  | home, [] => (home, [])
  | home, (line, now) :: lines =>
    let (home, result) := (call.execLine line).run path home now ""
    let (home, results) := execEach call path home lines
    (home, result :: results)

variable {call : Invocation} {home started : Home} {sender : Sender}

theorem sender_of_start (h : call.start home = .ok (started, sender)) :
    ∃ config file, Config.load home.config = .ok (config, file) ∧
      started = ⟨some file, { home.store with defaultCurrency := config.currency }⟩ ∧
        sender = call.sender config := by
  rw [start] at h
  cases hl : Config.load home.config with
  | error e =>
    rw [hl] at h
    cases h
  | ok p =>
    obtain ⟨config, file⟩ := p
    rw [hl] at h
    cases h
    exact ⟨config, file, rfl, rfl, rfl⟩

theorem start_again (h : call.start home = .ok (started, sender)) {store : Store}
    (hd : store.defaultCurrency = started.store.defaultCurrency) :
    call.start { started with store } = .ok ({ started with store }, sender) := by
  obtain ⟨config, file, hl, rfl, rfl⟩ := sender_of_start h
  have hstore : { store with defaultCurrency := config.currency } = store := by
    cases store
    cases hd
    rfl
  rw [start]
  dsimp only
  rw [Config.load_again hl]
  dsimp only
  rw [hstore]

def resultOf : Except String String → Result
  | .ok text => success (text ++ "\n")
  | .error message => failure message

theorem prints_resultOf (handled : Except String String) :
    (resultOf handled).Prints (told handled) := by
  cases handled with
  | ok text => exact .output text
  | error message => exact .error message

theorem run_execLine (h : call.start home = .ok (started, sender)) (path line : String)
    (now : Moment) :
    (call.execLine line).run path home now "" =
      ({ started with store := (handle sender started.store line now).1 },
        resultOf (handle sender started.store line now).2) := by
  have hstart : (call.execLine line).start home = .ok (started, sender) := h
  have hexec : execAt sender started.store none [line] now =
      ((handle sender started.store line now).1,
        resultOf (handle sender started.store line now).2) := by
    rw [← exec_line, execAt, Option.elim_none]
    dsimp only
    generalize exec sender started.store [line] now = handled
    obtain ⟨store, result⟩ := handled
    cases result with
    | ok text => rfl
    | error message => rfl
  rw [run, hstart]
  dsimp only [execLine]
  rw [hexec]

theorem execEach_cons (call : Invocation) (path line : String) (home : Home) (now : Moment)
    (lines : List (String × Moment)) :
    call.execEach path home ((line, now) :: lines) =
      ((call.execEach path ((call.execLine line).run path home now "").1 lines).1,
        ((call.execLine line).run path home now "").2 ::
          (call.execEach path ((call.execLine line).run path home now "").1 lines).2) := by
  rw [execEach]

theorem length_execEach (call : Invocation) (path : String) (home : Home)
    (lines : List (String × Moment)) : (call.execEach path home lines).2.length = lines.length := by
  induction lines generalizing home with
  | nil => rfl
  | cons line lines ih =>
    obtain ⟨line, now⟩ := line
    rw [execEach_cons, List.length_cons, List.length_cons, ih]

theorem execEach_of_start (h : call.start home = .ok (started, sender)) (path : String)
    {lines : List (String × Moment)} (hl : ∀ line ∈ lines, ¬IsBlankLine line.1) :
    (lines ≠ [] → (call.execEach path home lines).1 =
        { started with store := (repl sender started.store lines).1 }) ∧
      List.Forall₂ Result.Prints (call.execEach path home lines).2
        (repl sender started.store lines).2 := by
  induction lines generalizing home started with
  | nil => exact ⟨fun hne => absurd rfl hne, .nil⟩
  | cons line lines ih =>
    obtain ⟨line, now⟩ := line
    obtain ⟨hline, hlines⟩ := List.forall_mem_cons.1 hl
    -- the next call starts where this one ends, with the settings that it has found
    have hnext := start_again h (defaultCurrency_handle sender started.store line now)
    obtain ⟨hstore, hprints⟩ := ih hnext hlines
    rw [execEach_cons, run_execLine h, repl_cons, replLine_of_not_blank hline]
    dsimp only
    refine ⟨?_, .cons (prints_resultOf _) hprints⟩
    intro _
    cases lines with
    | nil => rfl
    | cons next lines => exact hstore (List.cons_ne_nil _ _)

end Invocation

theorem not_isBlankLine_of_mem_spoken {lines : List (String × Moment)} {line : String × Moment}
    (h : line ∈ spoken lines) : ¬IsBlankLine line.1 :=
  of_decide_eq_true (List.mem_filter.1 h).2

/-- A line that fails can be left out: the other lines print the same and do the same, except that the
sender may have become known by it. -/
theorem repl_without {sender : Sender} {s : Store} {before after : List (String × Moment)}
    {line message : String} {now : Moment}
    (h : (exec sender (repl sender s before).1 [line] now).2 = .error message) :
    ∃ shown later,
      (repl sender s (before ++ (line, now) :: after)).2 =
          (repl sender s before).2 ++ shown ++ later ∧
        (repl sender s (before ++ after)).2 = (repl sender s before).2 ++ later ∧
        shown = (if IsBlankLine line then [] else [message]) ∧
        SameOnceMet sender.user (repl sender s (before ++ (line, now) :: after)).1
          (repl sender s (before ++ after)).1 := by
  obtain ⟨htexts, hstore⟩ := repl_of_sameOnceMet (sameOnceMet_of_fails h) after
  rw [repl_append, repl_append, repl_cons]
  dsimp only
  rw [htexts]
  refine ⟨_, _, (List.append_assoc _ _ _).symm, rfl, ?_, hstore⟩
  by_cases hb : IsBlankLine line
  · rw [replLine_of_blank hb, if_pos hb]
  · rw [exec_line] at h
    rw [replLine_of_not_blank hb, if_neg hb, h, told]

namespace Invocation

variable {call : Invocation} {home started : Home} {sender : Sender}

/-- `repl` prints one text for each line that is not blank, which is the text that a call of `exec`
prints for this line, and leaves the store that these calls leave. A line that fails can be left out. -/
theorem repl_agrees (h : call.start home = .ok (started, sender)) (path : String)
    (lines : List (String × Moment)) :
    (repl sender started.store lines).2.length = (spoken lines).length ∧
      List.Forall₂ Result.Prints (call.execEach path home (spoken lines)).2
        (repl sender started.store lines).2 ∧
      (spoken lines ≠ [] → (call.execEach path home (spoken lines)).1 =
        { started with store := (repl sender started.store lines).1 }) ∧
      (spoken lines = [] → (repl sender started.store lines).1 = started.store) ∧
      ∀ before line now after message, lines = before ++ (line, now) :: after →
        (exec sender (repl sender started.store before).1 [line] now).2 = .error message →
        ∃ shown later,
          (repl sender started.store lines).2 =
              (repl sender started.store before).2 ++ shown ++ later ∧
            (repl sender started.store (before ++ after)).2 =
              (repl sender started.store before).2 ++ later ∧
            shown = (if IsBlankLine line then [] else [message]) ∧
            SameOnceMet sender.user (repl sender started.store lines).1
              (repl sender started.store (before ++ after)).1 := by
  have hspoken : ∀ line ∈ spoken lines, ¬IsBlankLine line.1 :=
    fun _ => not_isBlankLine_of_mem_spoken
  obtain ⟨hstore, hprints⟩ := execEach_of_start h path hspoken
  rw [repl_spoken] at hstore hprints
  refine ⟨?_, hprints, hstore, ?_, ?_⟩
  · rw [← hprints.length_eq, length_execEach]
  · intro hnil
    rw [← repl_spoken, hnil]
    rfl
  · rintro before line now after message rfl hfails
    exact repl_without hfails

/-- The second line is blank, and the third fails. -/
theorem repl_agrees_currency :
    let call : Invocation := ⟨none, none, .repl⟩
    let now : Moment := ⟨.ofSeconds 1742032800, .fixed 0⟩
    let lines := [("config set-default-currency eur", now), (" ", now), ("rm x", now),
      ("config", now)]
    let started : Home := ⟨some Config.initial.fileText, .empty "NZD"⟩
    let sender : Sender := ⟨1, .ofSeconds 1⟩
    call.start .empty = .ok (started, sender) ∧
      (repl sender started.store lines).2 =
        ["Default currency set to EUR.", "Please use the format: rm <id> [id...]",
          "Default currency: EUR"] ∧
      List.Forall₂ Result.Prints (call.execEach "" .empty (spoken lines)).2
        (repl sender started.store lines).2 := by
  intro call now lines started sender
  have h : call.start .empty = .ok (started, sender) := rfl
  obtain ⟨-, hprints, -⟩ := repl_agrees h "" lines
  exact ⟨h, by decide +kernel, hprints⟩

end Invocation

end PersonalLedger.CommandLine
