import PersonalLedger.CommandLine.Arguments
import PersonalLedger.Config
import PersonalLedger.Message
import PersonalLedger.Reply

/-!
What a call of the program does: with one message, or with a line of input after the other. Nothing
here reads a clock or a file; the times are given, and so is what a home directory holds.
-/

namespace PersonalLedger.CommandLine

open Text

/-- Who sends messages, and under which window they are repetitions. -/
structure Sender where
  user : Int
  window : DedupWindow
  deriving DecidableEq

/-- The text that handling a message prints, or that says why it failed. -/
def handle (sender : Sender) (s : Store) (raw : String) (now : Moment) :
    Store × Except String String :=
  match Message.prepare raw with
  | .error rejection => (s, .error rejection.message)
  | .ok text =>
    let (s, reply) := Ledger.dispatch sender.window s text now sender.user
    match reply.userError with
    | some message => (s, .error message)
    | none => (s, .ok (reply.render now.zone))

def exec (sender : Sender) (s : Store) (words : List String) (now : Moment) :
    Store × Except String String :=
  handle sender s (" ".intercalate words) now

/-- The text that `repl` prints for a line; nothing for a blank one. -/
def replLine (sender : Sender) (s : Store) (line : String) (now : Moment) : Store × List String :=
  if (trim line.toList).isEmpty then (s, [])
  else
    match Message.prepare line with
    | .error rejection => (s, [rejection.message])
    | .ok text =>
      let (s, reply) := Ledger.dispatch sender.window s text now sender.user
      (s, [reply.render now.zone])

/-- Handles the lines of input, each at its own time, one after the other. -/
def repl (sender : Sender) (s : Store) : List (String × Moment) → Store × List String
  | [] => (s, [])
  | (line, now) :: lines =>
    let (s, texts) := replLine sender s line now
    let (s, more) := repl sender s lines
    (s, texts ++ more)

/-- The lines of an input. A carriage return before the end of a line belongs to the end. -/
def linesOf (input : List Char) : List (List Char) :=
  let rec go (line : List Char) : List Char → List (List Char)
    | [] => if line.isEmpty then [] else [line.reverse]
    | '\n' :: rest =>
      (match line with
        | '\r' :: before => before.reverse
        | line => line.reverse) :: go [] rest
    | c :: rest => go (c :: line) rest
  go [] input

structure Home where
  config : Option String
  store : Store
  deriving DecidableEq

def Home.empty : Home := ⟨none, .empty ""⟩

instance : Inhabited Home := ⟨Home.empty⟩

/-- What a call leaves behind: its exit code, and what it printed to either stream. -/
structure Result where
  code : Nat
  output : String
  errors : String
  deriving DecidableEq

def success (output : String) : Result := ⟨0, output, ""⟩

def failure (message : String) : Result := ⟨1, "", message ++ "\n"⟩

def configPath (home : String) : String := home ++ "/config/config.json"

def Invocation.sender (call : Invocation) (config : Config) : Sender :=
  ⟨call.user.getD config.user, config.window⟩

/-- Loads the settings of a home directory; they say who sends the messages of a call, and which
currency new users get. -/
def Invocation.start (call : Invocation) (home : Home) : Except Config.LoadError (Home × Sender) :=
  match Config.load home.config with
  | .error e => .error e
  | .ok (config, file) =>
    .ok (⟨some file, { home.store with defaultCurrency := config.currency }⟩, call.sender config)

def execAt (sender : Sender) (s : Store) (time : Option String) (words : List String)
    (now : Moment) : Store × Result :=
  match time.elim (some now) Timestamp.moment? with
  | none => (s, failure ("Invalid RFC3339 timestamp: " ++ time.getD ""))
  | some sent =>
    match exec sender s words sent with
    | (s, .ok text) => (s, success (text ++ "\n"))
    | (s, .error message) => (s, failure message)

def replInput (sender : Sender) (s : Store) (input : String) (now : Moment) : Store × Result :=
  let (s, texts) := repl sender s ((linesOf input.toList).map fun l => (String.ofList l, now))
  (s, success (String.join (texts.map (· ++ "\n"))))

/-- Carries out a call in a home directory whose settings are at a path. `now` is the time of all
messages that have no written one. -/
def Invocation.run (call : Invocation) (path : String) (home : Home) (now : Moment)
    (input : String) : Home × Result :=
  match call.start home with
  | .error e => (home, failure (e.message path))
  | .ok (home, sender) =>
    let (store, result) := match call.action with
      | .repl => replInput sender home.store input now
      | .exec time words => execAt sender home.store time words now
    ({ home with store }, result)

end PersonalLedger.CommandLine
