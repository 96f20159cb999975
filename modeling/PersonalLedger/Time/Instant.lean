import PersonalLedger.Time.Date

namespace PersonalLedger

/-- A point in time. Seconds are counted from 1970-01-01T00:00:00 UTC without leap seconds; a leap
second is counted as a second 59 that has more than 10^9 nanoseconds. -/
structure Instant where
  seconds : Int
  nanos : Nat
  nanos_lt : nanos < 2000000000
  leap : 1000000000 ≤ nanos → seconds % 60 = 59
  deriving DecidableEq

namespace Instant

def ofSeconds (seconds : Int) : Instant := ⟨seconds, 0, by decide, by intro h; omega⟩

def epoch : Instant := ofSeconds 0

instance : Inhabited Instant := ⟨epoch⟩

def toMicros (t : Instant) : Instant :=
  ⟨t.seconds, t.nanos / 1000 * 1000, by have := t.nanos_lt; omega,
    fun h => t.leap (by omega)⟩

instance : LT Instant := ⟨fun a b => a.seconds < b.seconds ∨ (a.seconds = b.seconds ∧ a.nanos < b.nanos)⟩
instance : LE Instant := ⟨fun a b => a.seconds < b.seconds ∨ (a.seconds = b.seconds ∧ a.nanos ≤ b.nanos)⟩
instance (a b : Instant) : Decidable (a < b) := instDecidableOr
instance (a b : Instant) : Decidable (a ≤ b) := instDecidableOr

/-- The first second that can be told. -/
def firstSecond : Int := 86400 * Date.first.days

def lastSecond : Int := 86400 * Date.last.days + 86399

def tellsYear (year : Int) : Bool := -262143 ≤ year && year ≤ 262142

def tells (second : Int) : Bool := firstSecond ≤ second && second ≤ lastSecond

end Instant

end PersonalLedger
