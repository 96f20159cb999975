namespace PersonalLedger

inductive Json where
  | null
  | bool (value : Bool)
  | whole (value : Int)
  | fractional (written : String)
  | text (value : String)
  | array (items : List Json)
  | object (fields : List (String × Json))
  deriving Inhabited

namespace Json

/-- Of the fields with one key, the last. -/
def lastOfEach : List (String × Json) → List (String × Json)
  | [] => []
  | field :: fields =>
    if fields.any (·.1 == field.1) then lastOfEach fields else field :: lastOfEach fields

def field? (key : String) (fields : List (String × Json)) : Option Json :=
  (fields.find? (·.1 == key)).map (·.2)

end Json

end PersonalLedger
