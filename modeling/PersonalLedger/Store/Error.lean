import PersonalLedger.Text.Numeral

namespace PersonalLedger

open Text

inductive StoreError where
  /-- An entry names a user that the store does not know. -/
  | missingUser
  /-- More ids were asked for than one statement can hold; `statement` is its text, and the first
  id too many stands at `position` in it. -/
  | tooManyIds (statement : String) (position : Nat)
  /-- An entry with the same fingerprint is stored. -/
  | duplicateHash
  /-- A stored row cannot be read. -/
  | corrupt (detail : String)
  deriving DecidableEq

namespace StoreError

def message : StoreError → String
  | missingUser => "sqlite error: FOREIGN KEY constraint failed"
  | tooManyIds statement position =>
    "sqlite error: too many SQL variables in " ++ statement ++ " at offset " ++
      natString position
  | duplicateHash => "an entry with the same hash already exists"
  | corrupt detail => "corrupt row: " ++ detail

end StoreError

end PersonalLedger
