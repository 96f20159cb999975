import PersonalLedger.Text.Blank
import PersonalLedger.Text.Case

namespace PersonalLedger

open Text

inductive CommandKind where
  | add
  | remove
  | list
  | help
  | config
  | unknown
  deriving DecidableEq

/-- A command with its arguments; `add` keeps the text behind the word as it is. -/
inductive Command where
  | add (body : String)
  | remove (words : List String)
  | list (words : List String)
  | help (topic : Option String)
  | config (words : List String)
  | unknown (word : String)
  deriving DecidableEq

namespace Command

def parse (text : String) : Command :=
  let (head, rest) := splitAtBlank (trim text.toList)
  let word := String.ofList head
  let body := String.ofList rest
  match lower word with
  | "add" | "a" => .add body
  | "rm" | "remove" | "r" | "delete" | "del" | "d" => .remove (words body)
  | "ls" | "list" | "l" => .list (words body)
  | "help" | "h" | "?" => .help (words body).head?
  | "config" | "cfg" => .config (words body)
  | _ => .unknown word

def kind : Command → CommandKind
  | add _ => .add
  | remove _ => .remove
  | list _ => .list
  | help _ => .help
  | config _ => .config
  | unknown _ => .unknown

end Command

end PersonalLedger
