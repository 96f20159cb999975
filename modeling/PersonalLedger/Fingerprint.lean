import PersonalLedger.Decimal.Printer
import PersonalLedger.Fingerprint.Sha256
import PersonalLedger.Time.Instant

namespace PersonalLedger

/-- The width of the windows in which a repetition counts as the same submission, in seconds. -/
structure DedupWindow where
  seconds : Nat
  seconds_pos : 0 < seconds
  deriving DecidableEq

namespace DedupWindow

/-- The window of so many seconds; of one second instead of none. -/
def ofSeconds (seconds : Nat) : DedupWindow := ⟨max seconds 1, by omega⟩

instance : Inhabited DedupWindow := ⟨ofSeconds 1⟩

/-- The start of the window that an instant falls into. -/
def start (w : DedupWindow) (t : Instant) : Int := t.seconds / w.seconds * w.seconds

end DedupWindow

namespace Fingerprint

open Text

/-- What a fingerprint is made from. `position` is the place of the amount in its batch. -/
structure Fields where
  category : String
  amount : Decimal
  notes : String
  time : Instant
  user : Int
  position : Nat
  currency : String
  deriving DecidableEq

def separator : Char := '\x1f'

def Fields.texts (w : DedupWindow) (f : Fields) : List (List Char) :=
  [f.category.toList, f.amount.fixedText 2, f.notes.toList, intText (w.start f.time),
    intText f.user, natText f.position, f.currency.toList]

def Fields.text (w : DedupWindow) (f : Fields) : List Char :=
  (f.texts w).flatMap (· ++ [separator])

def Fields.bytes (w : DedupWindow) (f : Fields) : List UInt8 :=
  (String.ofList (f.text w)).toUTF8.toList

def hash (w : DedupWindow) (f : Fields) : String := Sha256.hex (f.bytes w)

end Fingerprint

end PersonalLedger
