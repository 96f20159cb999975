import PersonalLedger.Decimal.Reader
import PersonalLedger.Failure
import PersonalLedger.Text.Blank

namespace PersonalLedger.Amount

open Text

def isParenthesis (c : Char) : Bool := c == '(' || c == ')'

/-- The amount as it is read: without blanks around it, with points for commas. -/
def normalized (cs : List Char) : List Char :=
  (trim cs).map fun c => if c = ',' then '.' else c

def one (cs : List Char) : Except Failure Decimal :=
  match Decimal.read? (normalized cs) with
  | some amount => .ok amount
  | none => .error (.invalidAmount (String.ofList cs))

/-- The pieces between the minus signs; one more than there are minus signs. -/
def pieces : List Char → List (List Char)
  | [] => [[]]
  | c :: rest =>
    if c = '-' then [] :: pieces rest
    else
      match pieces rest with
      | [] => [[c]]
      | piece :: others => (c :: piece) :: others

/-- Reads an amount word; the first piece that is no amount makes it fail. -/
def parse (word : String) : Except Failure (List Decimal) :=
  let cs := word.toList
  if cs.any isParenthesis then
    let inner := cs.filter (!isParenthesis ·)
    if (trim inner).isEmpty then .error (.invalidAmount word) else (pieces inner).mapM one
  else (one cs).map ([·])

end PersonalLedger.Amount
