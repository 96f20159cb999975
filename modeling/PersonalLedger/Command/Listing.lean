import PersonalLedger.Failure
import PersonalLedger.Registry
import PersonalLedger.Time.Cycle

namespace PersonalLedger

/-- A period of time, both ends included, and how many of the newest entries in it to take. -/
structure Window where
  first : Instant
  last : Instant
  limit : Nat
  deriving DecidableEq

structure Listing where
  first : Instant
  last : Instant
  category : Option String
  currency : Option String
  totals : Bool
  limit : Nat
  deriving DecidableEq

namespace Listing

open Text

/-- The limit of a listing that has neither a wildcard nor a limit. -/
def defaultLimit : Nat := 10

/-- The largest limit, and the limit of a listing with a wildcard. -/
def maxLimit : Nat := 100

def allTimeWord : String := "*"

def totalsWord : String := "+"

/-- What a word of a listing says. -/
inductive Form where
  | allTime
  | totals
  | limit (count : Nat)
  | since (date : Date)
  | category (name : String)
  | currency (code : String)
  deriving DecidableEq

def limit? (word : String) : Option Nat :=
  (natural? (2 ^ 32) word.toList).filter fun n => 1 ≤ n && n ≤ maxLimit

/-- A number of one to `width` digits, with blanks before it, and the rest of the text. -/
def takeNumber (width : Nat) (cs : List Char) : Option (Nat × List Char) :=
  let cs := trimStart cs
  let digits := (cs.take width).takeWhile Char.isDigit
  (digits? digits).map (·, cs.drop digits.length)

/-- The year that makes up the rest of the text: up to four digits, or any number behind a sign. -/
def year? (cs : List Char) : Option Int :=
  let year : Option Int := match trimStart cs with
    | '-' :: digits => (digits? digits).map fun n => -Int.ofNat n
    | '+' :: digits => (digits? digits).map Int.ofNat
    | digits => if digits.length ≤ 4 then (digits? digits).map Int.ofNat else none
  year.filter Instant.tellsYear

/-- The date that a word is, as day, month and year between slashes. -/
def date? (word : String) : Option Date := do
  let (day, cs) ← takeNumber 2 word.toList
  let '/' :: cs := cs | none
  let (month, cs) ← takeNumber 2 cs
  let '/' :: cs := cs | none
  let year ← year? cs
  Date.of? year month day

def category? (word : String) : Option String := (Registry.category? word).map (·.name)

def currency? (word : String) : Option String :=
  match Registry.marker word with
  | .supported currency => some currency.code
  | _ => none

/-- The first form, in this order, that a word has. -/
def form? (word : String) : Option Form :=
  if word = allTimeWord then some .allTime
  else if word = totalsWord then some .totals
  else
    ((limit? word).map .limit).or <|
      ((date? word).map .since).or <|
        ((category? word).map .category).or <|
          (currency? word).map .currency

/-- The forms of all words, or the first word that has none. -/
def forms (words : List String) : Except Failure (List Form) :=
  words.mapM fun word =>
    match form? word with
    | some form => .ok form
    | none => .error (.invalidArgument word)

/-- The settings without any word: the cycle up to now. -/
def initial (now : Moment) : Listing :=
  ⟨Cycle.start now, now.instant, none, none, false, defaultLimit⟩

/-- The settings after one more word. A limit is left for the end. -/
def adjust (zone : Zone) (l : Listing) : Form → Listing
  | .allTime => { l with first := .epoch, limit := maxLimit }
  | .totals => { l with totals := true, limit := maxLimit }
  | .limit _ => l
  | .since date => { l with first := zone.midnight date }
  | .category name => { l with category := some name }
  | .currency code => { l with currency := some code }

def Form.limit? : Form → Option Nat
  | .limit count => some count
  | _ => none

/-- The settings that the forms make. The last limit counts, wherever it stands. -/
def ofForms (now : Moment) (forms : List Form) : Listing :=
  let l := forms.foldl (adjust now.zone) (initial now)
  match (forms.filterMap Form.limit?).getLast? with
  | some count => { l with limit := count }
  | none => l

def parse (now : Moment) (words : List String) : Except Failure Listing :=
  (forms words).map (ofForms now)

def window (l : Listing) : Window := ⟨l.first, l.last, l.limit⟩

end Listing

end PersonalLedger
