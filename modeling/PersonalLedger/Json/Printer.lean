import PersonalLedger.Json.Basic
import PersonalLedger.Text.Numeral

namespace PersonalLedger.Json

open Text

/-- One character of a string: quotes, backslashes and controls are escaped, all else stands for
itself. -/
def stringChar (c : Char) : List Char :=
  match c with
  | '"' => ['\\', '"']
  | '\\' => ['\\', '\\']
  | '\x08' => ['\\', 'b']
  | '\x0c' => ['\\', 'f']
  | '\n' => ['\\', 'n']
  | '\r' => ['\\', 'r']
  | '\t' => ['\\', 't']
  | c =>
    if c.toNat < 0x10 then ['\\', 'u', '0', '0', '0'] ++ Nat.toDigits 16 c.toNat
    else if c.toNat < 0x20 then ['\\', 'u', '0', '0'] ++ Nat.toDigits 16 c.toNat
    else [c]

def stringText (s : String) : List Char := '"' :: s.toList.flatMap stringChar ++ ['"']

def newLine (level : Nat) : List Char := '\n' :: List.replicate (2 * level) ' '

mutual

/-- A value on a level. -/
def textAt (level : Nat) : Json → List Char
  | .null => "null".toList
  | .bool true => "true".toList
  | .bool false => "false".toList
  | .whole n => intText n
  | .fractional written => written.toList
  | .text s => stringText s
  | .array [] => "[]".toList
  | .array (item :: items) =>
    '[' :: newLine (level + 1) ++ textAt (level + 1) item ++ itemsText (level + 1) items ++
      newLine level ++ [']']
  | .object [] => ['\x7b', '\x7d']
  | .object ((key, value) :: fields) =>
    '\x7b' :: newLine (level + 1) ++ stringText key ++ [':', ' '] ++ textAt (level + 1) value ++
      fieldsText (level + 1) fields ++ newLine level ++ ['\x7d']

/-- The items behind the first, each after a comma. -/
def itemsText (level : Nat) : List Json → List Char
  | [] => []
  | item :: items => ',' :: newLine level ++ textAt level item ++ itemsText level items

def fieldsText (level : Nat) : List (String × Json) → List Char
  | [] => []
  | (key, value) :: fields =>
    ',' :: newLine level ++ stringText key ++ [':', ' '] ++ textAt level value ++
      fieldsText level fields

end

def render (value : Json) : String := String.ofList (textAt 0 value)

end PersonalLedger.Json
