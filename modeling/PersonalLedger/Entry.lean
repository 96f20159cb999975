import PersonalLedger.Decimal.Printer
import PersonalLedger.Decimal.Reader
import PersonalLedger.Store.Error
import PersonalLedger.Text.Quoted
import PersonalLedger.Time.Timestamp

namespace PersonalLedger

structure Draft where
  user : Int
  category : String
  amount : Decimal
  currency : String
  notes : String
  time : Instant
  hash : String
  deriving DecidableEq

structure Entry extends Draft where
  id : Int
  deriving DecidableEq

/-- An entry as it is kept, the amount and the time as texts. -/
structure Row where
  id : Int
  user : Int
  category : String
  amount : String
  currency : String
  notes : String
  time : String
  hash : String
  deriving DecidableEq

/-- The time of a row: UTC, six digits of a second, the rest cut off. -/
def Instant.rowText (t : Instant) : String := String.ofList (Timestamp.text .micros 0 t)

def Draft.withId (d : Draft) (id : Int) : Entry := { d with id }

namespace Entry

def toRow (e : Entry) : Row :=
  { id := e.id, user := e.user, category := e.category, amount := String.ofList e.amount.text,
    currency := e.currency, notes := e.notes, time := e.time.rowText, hash := e.hash }

end Entry

namespace Row

open Text

def fault (r : Row) (column value : String) : StoreError :=
  .corrupt ("entry " ++ intString r.id ++ ": invalid " ++ column ++ " " ++ quoted value)

/-- Reads a row: the amount first, then the time. -/
def read (r : Row) : Except StoreError Entry :=
  match Decimal.read? r.amount.toList with
  | none => .error (r.fault "amount" r.amount)
  | some amount =>
    match Timestamp.read? r.time.toList with
    | none => .error (r.fault "timestamp" r.time)
    | some (time, _) =>
      .ok { id := r.id, user := r.user, category := r.category, amount, currency := r.currency,
            notes := r.notes, time, hash := r.hash }

end Row

end PersonalLedger
