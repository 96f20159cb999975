import PersonalLedger.Failure

namespace PersonalLedger.RemoveRequest

open Text

def readId (word : String) : Except Failure Int :=
  match integer? word.toList with
  | some id => .ok id
  | none => .error (.invalidFormat (quoted word ++ " is not an id"))

/-- A list without repetitions; the first mention of each member stays. -/
def firstMentions : List Int → List Int
  | [] => []
  | id :: ids => id :: (firstMentions ids).filter (· != id)

/-- The ids that the words behind `rm` name, in the order of their first mention. -/
def parse (words : List String) : Except Failure (List Int) :=
  if words.isEmpty then .error (.invalidFormat "no ids given")
  else (words.mapM readId).map firstMentions

end PersonalLedger.RemoveRequest
