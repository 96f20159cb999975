import PersonalLedger.Ledger
import PersonalLedger.Text.Table

namespace PersonalLedger.Reply

open Text

def countText (n : Nat) : String :=
  if n = 1 then "1 transaction" else natString n ++ " transactions"

def amountText (amount : Decimal) : String := String.ofList (amount.fixedText 2)

def entryCells (zone : Zone) (e : Entry) : List String :=
  [intString e.id, e.category, amountText e.amount ++ " " ++ e.currency, e.notes,
    Timestamp.minuteText zone e.time]

def entryTable (zone : Zone) (entries : List Entry) : String :=
  Table.render ["ID", "Category", "Amount", "Notes", "At"] (entries.map (entryCells zone))

/-- The cells of a group; `currency` is that of a group whose key has none. -/
def groupCells (currency : Option String) (g : Group) : List String :=
  let total := match g.key.currency.or currency with
    | some code => amountText g.total ++ " " ++ code
    | none => amountText g.total
  [g.key.category, total, natString g.count]

/-- The table of totals, in the order of the keys. -/
def groupTable (currency : Option String) (groups : List Group) : String :=
  Table.render ["Category", "Total", "Count"]
    ((groups.mergeSort fun a b => !b.key.lt a.key).map (groupCells currency))

def listText (zone : Zone) (l : Listing) (entries : List Entry) (groups : Option (List Group)) :
    String :=
  let since := Timestamp.dayText zone l.first
  if entries.isEmpty then "No transactions since " ++ since ++ "."
  else
    match groups with
    | some groups => "Totals since " ++ since ++ "\n" ++ groupTable l.currency groups
    | none => countText entries.length ++ " since " ++ since ++ "\n" ++ entryTable zone entries

def outcomeText (zone : Zone) : Outcome → String
  | .added entries => "Recorded " ++ countText entries.length ++ "\n" ++ entryTable zone entries
  | .removed entries => "Removed " ++ countText entries.length ++ "\n" ++ entryTable zone entries
  | .listed l entries groups => listText zone l entries groups
  | .help text => text
  | .config user true => "Default currency set to " ++ user.currency ++ "."
  | .config user false => "Default currency: " ++ user.currency

/-- The text of a reply; of a failure, what it tells the user. -/
def render (zone : Zone) (r : Reply) : String :=
  match r.result with
  | .ok outcome => outcomeText zone outcome
  | .error e => e.userMessage r.kind

end PersonalLedger.Reply
