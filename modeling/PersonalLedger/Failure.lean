import PersonalLedger.Command.Basic
import PersonalLedger.Store.Error
import PersonalLedger.Text.Quoted

namespace PersonalLedger

open Text

inductive Failure where
  | invalidFormat (detail : String)
  | unknownCategory (code : String)
  | unsupportedCurrency (code : String)
  | invalidAmount (text : String)
  | totalOverflow (category : String)
  | invalidArgument (word : String)
  | duplicate (hash : String)
  | notFound (ids : List Int)
  | unknownCommand (word : String)
  | storage (error : StoreError)
  deriving DecidableEq

namespace Failure

def message : Failure → String
  | invalidFormat detail => "invalid format: " ++ detail
  | unknownCategory code => "unknown category alias " ++ quoted code
  | unsupportedCurrency code => "unsupported currency " ++ quoted code
  | invalidAmount text => "invalid amount " ++ quoted text
  | totalOverflow category => "total for " ++ category ++ " overflowed"
  | invalidArgument word => "unrecognised list argument " ++ quoted word
  | duplicate hash => "duplicate transaction (hash " ++ hash ++ ")"
  | notFound ids => "transactions not found: " ++ bracketed (ids.map intString)
  | unknownCommand word => "unknown command " ++ quoted word
  | storage error => "persistence failure: " ++ error.message

/-- What the user reads when there is nothing for them to mend. -/
def apology : String := "Something went wrong, please try again later."

def usage : CommandKind → String
  | .add => "Please use the format: add <category> <amount> [notes] [$CURRENCY]"
  | .remove => "Please use the format: rm <id> [id...]"
  | .list => "Please use the format: ls [category] [DD/MM/YYYY] [1-100] [+] [*] [$CURRENCY]"
  | .config => "Please use the format: config set-default-currency <CODE>"
  | .help | .unknown => apology

/-- What the user reads about the failure of a command of this kind. -/
def userMessage (kind : CommandKind) : Failure → String
  | unknownCategory code =>
    "\"" ++ code ++ "\" is not a valid category. Send \"help categories\" to see them."
  | unsupportedCurrency code =>
    "\"" ++ code ++ "\" is not a supported currency. Send \"help currencies\" to see them."
  | invalidAmount text =>
    "\"" ++ text ++ "\" is not a valid amount. Use 12.50, 12,50 or (10-20-30)."
  | totalOverflow category =>
    "The " ++ category ++ " total is too large to add up. Try a shorter period."
  | invalidArgument word =>
    "\"" ++ word ++ "\" is not a valid list option. Send \"help ls\" for the options."
  | duplicate _ => "This transaction was already recorded."
  | notFound ids => "No transaction found with ID " ++ ", ".intercalate (ids.map intString) ++ "."
  | invalidFormat _ => usage kind
  | unknownCommand _ => "Unknown command. Send \"help\" to see what I understand."
  | storage _ => apology

end Failure

end PersonalLedger
