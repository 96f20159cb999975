import PersonalLedger.Text.Blank
import PersonalLedger.Text.Case

namespace PersonalLedger

/-- A kind of spending or income, with the short name that messages use. -/
structure Category where
  shortName : String
  name : String
  deriving DecidableEq

structure Currency where
  code : String
  name : String
  deriving DecidableEq

namespace Registry

open Text

/-- All categories, in the order of the help text. -/
def categories : List Category := [
  ⟨"G", "Groceries"⟩,
  ⟨"T", "Transport"⟩,
  ⟨"R", "Rent"⟩,
  ⟨"U", "Utilities"⟩,
  ⟨"E", "Eating Out"⟩,
  ⟨"H", "Health"⟩,
  ⟨"S", "Shopping"⟩,
  ⟨"F", "Fun"⟩,
  ⟨"TR", "Travel"⟩,
  ⟨"GI", "Gifts"⟩,
  ⟨"ED", "Education"⟩,
  ⟨"SUB", "Subscriptions"⟩,
  ⟨"O", "Other"⟩,
  ⟨"+", "Income"⟩]

def currencies : List Currency := [
  ⟨"ARS", "Argentine Peso"⟩,
  ⟨"NZD", "New Zealand Dollar"⟩,
  ⟨"USD", "US Dollar"⟩,
  ⟨"EUR", "Euro"⟩,
  ⟨"AUD", "Australian Dollar"⟩,
  ⟨"JPY", "Japanese Yen"⟩,
  ⟨"BRL", "Brazilian Real"⟩,
  ⟨"GBP", "British Pound"⟩,
  ⟨"CAD", "Canadian Dollar"⟩,
  ⟨"CHF", "Swiss Franc"⟩,
  ⟨"CNY", "Chinese Yuan"⟩,
  ⟨"INR", "Indian Rupee"⟩,
  ⟨"MXN", "Mexican Peso"⟩,
  ⟨"ZAR", "South African Rand"⟩,
  ⟨"SEK", "Swedish Krona"⟩,
  ⟨"NOK", "Norwegian Krone"⟩,
  ⟨"DKK", "Danish Krone"⟩,
  ⟨"SGD", "Singapore Dollar"⟩,
  ⟨"HKD", "Hong Kong Dollar"⟩,
  ⟨"KRW", "South Korean Won"⟩,
  ⟨"RUB", "Russian Ruble"⟩,
  ⟨"TRY", "Turkish Lira"⟩,
  ⟨"PLN", "Polish Zloty"⟩,
  ⟨"THB", "Thai Baht"⟩,
  ⟨"MYR", "Malaysian Ringgit"⟩]

/-- A code as it is looked up: without blanks around it, in upper case. -/
def lookupKey (code : String) : String := String.ofList (upper (trim code.toList))

def category? (code : String) : Option Category :=
  categories.find? (·.shortName == lookupKey code)

def currency? (code : String) : Option Currency :=
  currencies.find? (·.code == lookupKey code)

/-- What a word says about a currency. A marker is a dollar sign and at least one character. -/
inductive Marker where
  | absent
  | unsupported (code : String)
  | supported (currency : Currency)
  deriving DecidableEq

def marker (word : String) : Marker :=
  match word.toList with
  | '$' :: c :: rest =>
    let code := String.ofList (c :: rest)
    match currency? code with
    | some currency => .supported currency
    | none => .unsupported code
  | _ => .absent

end Registry

end PersonalLedger
