import PersonalLedger.Text.Blank
import PersonalLedger.Text.Numeral

namespace PersonalLedger

open Text

namespace Message

def maxLength : Nat := 160

/-- The text without the prefix of a command. -/
def unprefixed : List Char → List Char
  | '!' :: rest => rest
  | '/' :: rest => rest
  | cs => cs

inductive Rejection where
  | empty
  | tooLong
  deriving DecidableEq

def Rejection.message : Rejection → String
  | empty => "Empty message."
  | tooLong => "Messages are limited to " ++ natString maxLength ++ " characters."

/-- The text of the command in a message. The length that counts is that of the whole message. -/
def prepare (raw : String) : Except Rejection String :=
  let text := trimStart (unprefixed (trim raw.toList))
  if text.isEmpty then .error .empty
  else if maxLength < raw.length then .error .tooLong
  else .ok (String.ofList text)

end Message

end PersonalLedger
