import PersonalLedger.Text.Numeral

namespace PersonalLedger.CommandLine

open Text

inductive Action where
  /-- Handle one message, sent at the written time or now. -/
  | exec (time : Option String) (words : List String)
  /-- Handle one message a line until the input ends. -/
  | repl
  deriving DecidableEq

structure Invocation where
  home : Option String
  user : Option Int
  action : Action
  deriving DecidableEq

inductive Refusal where
  /-- The arguments make no sense. -/
  | usage
  /-- They ask how the program is called. -/
  | helpScreen
  deriving DecidableEq

/-- An argument, by its form. A long one may have a value attached with an equals sign. -/
inductive Argument where
  | separator
  | long (name : String) (value : Option String)
  | short (letters : List Char)
  | plain (text : String)
  deriving DecidableEq

def Argument.ofText (text : String) : Argument :=
  match text.toList with
  | ['-', '-'] => .separator
  | '-' :: '-' :: cs =>
    let name := String.ofList (cs.takeWhile (· != '='))
    match cs.dropWhile (· != '=') with
    | [] => .long name none
    | _ :: value => .long name (some (String.ofList value))
  | '-' :: c :: cs => .short (c :: cs)
  | _ => .plain text

/-- Whether the letters ask for help and nothing else. -/
def isHelp (letters : List Char) : Bool := letters.all (· == 'h')

def execWords (time : Option String) (words : List String) : Except Refusal Action :=
  if words.isEmpty then .error .usage else .ok (.exec time words)

/-- Whether an argument can be the value of the option before it although it starts with a hyphen:
behind `exec` every argument can that is no option itself. -/
def isTimeValue : Argument → Bool
  | .separator => false
  | .long name _ => name != "at" && name != "help"
  | .short letters => !isHelp letters
  | .plain _ => true

/-- Reads what follows `exec`. The message starts at the first argument that is no option. -/
def readExec (time : Option String) : List String → Except Refusal Action
  | [] => .error .usage
  | arg :: args =>
    match Argument.ofText arg with
    | .separator => execWords time args
    | .long "at" (some value) => if time.isSome then .error .usage else readExec (some value) args
    | .long "at" none =>
      match args with
      | [] => .error .usage
      | value :: args =>
        if time.isSome || !isTimeValue (.ofText value) then .error .usage
        else readExec (some value) args
    | .long "help" none => .error .helpScreen
    | .long "help" (some _) => .error .usage
    | .short letters => if isHelp letters then .error .helpScreen else execWords time (arg :: args)
    | .long _ _ | .plain _ => execWords time (arg :: args)

def readRepl : List String → Except Refusal Action
  | [] => .ok .repl
  | arg :: args =>
    match Argument.ofText arg with
    | .separator => if args.isEmpty then .ok .repl else .error .usage
    | .long "help" none => .error .helpScreen
    | .short letters =>
      if letters.head? = some 'h' then .error .helpScreen else .error .usage
    | _ => .error .usage

/-- Reads what follows `help`: the name of a command, or nothing. -/
def readHelp : List String → Refusal
  | [] => .helpScreen
  | [name] => if name = "exec" || name = "repl" || name = "help" then .helpScreen else .usage
  | _ => .usage

def plainValue (value : String) : Except Refusal String :=
  match Argument.ofText value with
  | .plain text => .ok text
  | _ => .error .usage

/-- Takes the home directory, which is given at most once and is not empty. -/
def takeHome (home : Option String) (value : String) : Except Refusal (Option String) :=
  if home.isSome || value.isEmpty then .error .usage else .ok (some value)

def takeUser (user : Option Int) (value : String) : Except Refusal (Option Int) :=
  match user, integer? value.toList with
  | none, some n => .ok (some n)
  | _, _ => .error .usage

/-- Reads all arguments, given the home directory and the user found so far. -/
def read (home : Option String) (user : Option Int) : List String → Except Refusal Invocation
  | [] => .error .usage
  | arg :: args =>
    match Argument.ofText arg with
    | .long "home" (some value) => do read (← takeHome home value) user args
    | .long "home" none =>
      match args with
      | [] => .error .usage
      | value :: args => do read (← takeHome home (← plainValue value)) user args
    | .long "user" (some value) => do read home (← takeUser user value) args
    | .long "user" none =>
      match args with
      | [] => .error .usage
      | value :: args => do read home (← takeUser user (← plainValue value)) args
    | .long "help" none => .error .helpScreen
    | .short letters => .error (if letters.head? = some 'h' then .helpScreen else .usage)
    | .plain "exec" => (readExec none args).map (⟨home, user, ·⟩)
    | .plain "repl" => (readRepl args).map (⟨home, user, ·⟩)
    | .plain "help" => .error (readHelp args)
    | _ => .error .usage

/-- Reads the arguments; what they leave out comes from the environment. -/
def invocation (homeVariable userVariable : Option String) (args : List String) :
    Except Refusal Invocation := do
  let call ← read none none args
  let home ← match call.home, homeVariable with
    | some home, _ => .ok (some home)
    | none, some value => takeHome none value
    | none, none => .ok none
  let user ← match call.user, userVariable with
    | some user, _ => .ok (some user)
    | none, some value => takeUser none value
    | none, none => .ok none
  .ok { call with home, user }

end PersonalLedger.CommandLine
