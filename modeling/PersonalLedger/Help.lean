import PersonalLedger.Command.Listing

namespace PersonalLedger.Help

open Text

def lines (ls : List String) : String := "\n".intercalate ls

def overview : String := lines [
  "Commands:",
  "  add <category> <amount> [notes] [$CURRENCY]   record a transaction",
  "  rm <id> [id...]                               remove transactions",
  "  ls [filters...]                               list transactions",
  "  config set-default-currency <CODE>            set your currency",
  "  help <topic>                                  add, rm, ls, config, categories, currencies"]

def add : String := lines [
  "add <category> <amount> [notes] [$CURRENCY]",
  "  G 45 Woolworths",
  "  E 12,50 coffee $USD",
  "  G (10-20-30) market     records three transactions"]

def remove : String := lines [
  "rm <id> [id...]",
  "  Nothing is removed unless every id exists."]

def config : String := lines [
  "config                               show your settings",
  "config set-default-currency <CODE>   currency used when add has no $CODE"]

def list : String :=
  let maxText := natString Listing.maxLimit
  let defaultText := natString Listing.defaultLimit
  let totals := Listing.totalsWord
  let all := Listing.allTimeWord
  lines [
    "ls [category] [DD/MM/YYYY] [1-" ++ maxText ++ "] [" ++ totals ++ "] [" ++ all ++ "] [$CURRENCY]",
    "  Defaults to the current cycle (since the 28th), " ++ defaultText ++ " rows.",
    "  " ++ totals ++ "  totals per category",
    "  " ++ all ++ "  everything since the beginning"]

def codeLine (code name : String) : String := "  " ++ code ++ " (" ++ name ++ ")"

def categories : String :=
  lines ("Categories:" :: Registry.categories.map fun c => codeLine c.shortName c.name)

def currencies : String :=
  lines ("Currencies:" :: Registry.currencies.map fun c => codeLine c.code c.name)

/-- The help about a topic; the overview without one, or with one that there is not. -/
def text (topic : Option String) : String :=
  match topic.map lower with
  | some "add" | some "a" => add
  | some "rm" | some "remove" | some "delete" | some "del" => remove
  | some "ls" | some "list" => list
  | some "config" | some "cfg" => config
  | some "categories" | some "category" => categories
  | some "currencies" | some "currency" => currencies
  | _ => overview

end PersonalLedger.Help
