import PersonalLedger.Command.Amount
import PersonalLedger.Registry

namespace PersonalLedger

structure AddRequest where
  category : String
  amounts : List Decimal
  notes : String
  currency : Option String
  deriving DecidableEq

namespace AddRequest

open Text

/-- The notes and the currency in the words behind the amounts: the last word is the currency if it
is a marker. -/
def notesAndCurrency (extra : List String) : Except Failure (List String × Option String) :=
  match extra.getLast?.map Registry.marker with
  | some (.supported currency) => .ok (extra.dropLast, some currency.code)
  | some (.unsupported code) => .error (.unsupportedCurrency code)
  | some .absent | none => .ok (extra, none)

/-- Reads what follows the word `add`. -/
def parse (body : String) : Except Failure AddRequest :=
  match words body with
  | code :: amounts :: extra => do
    let some category := Registry.category? code | .error (.unknownCategory code)
    -- a word that can be read has at least one amount, so nothing is left to refuse here
    let amounts ← Amount.parse amounts
    let (notes, currency) ← notesAndCurrency extra
    .ok ⟨category.name, amounts, " ".intercalate notes, currency⟩
  | _ => .error (.invalidFormat ("expected a category and an amount, got " ++ quoted body))

end AddRequest

end PersonalLedger
