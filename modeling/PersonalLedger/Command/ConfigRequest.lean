import PersonalLedger.Failure

namespace PersonalLedger

/-- To show the settings of the user, or to set their currency. -/
inductive ConfigRequest where
  | showSettings
  | setCurrency (code : String)
  deriving DecidableEq

namespace ConfigRequest

open Text

def parse (words : List String) : Except Failure ConfigRequest :=
  match words.head?.map lower, words.drop 1 with
  | none, [] => .ok .showSettings
  | some "show", [] => .ok .showSettings
  | some "set-default-currency", [code] => .ok (.setCurrency code)
  | _, _ =>
    .error (.invalidFormat ("unsupported config arguments " ++ bracketed (words.map quoted)))

end ConfigRequest

end PersonalLedger
