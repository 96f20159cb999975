import PersonalLedger.Time.Instant

namespace PersonalLedger

/-- A time zone: `before` seconds east of UTC until the second `change`, and `after` from it on. -/
structure Zone where
  before : Int
  after : Int
  change : Int
  deriving DecidableEq

namespace Zone

def fixed (offset : Int) : Zone := ⟨offset, offset, 0⟩

def offsetAt (z : Zone) (second : Int) : Int := if second < z.change then z.before else z.after

/-- What the clock of the zone shows at an instant, in seconds since 1970-01-01T00:00:00 there. -/
def localSeconds (z : Zone) (t : Instant) : Int := t.seconds + z.offsetAt t.seconds

def localDate (z : Zone) (t : Instant) : Date := ⟨z.localSeconds t / 86400⟩

/-- The seconds at which the clock of the zone shows `shown`, in order: two where it was put back
over that time, and none where it was put forward. -/
def readings (z : Zone) (shown : Int) : List Int :=
  [shown - z.before].filter (· < z.change) ++ [shown - z.after].filter (z.change ≤ ·)

/-- The earliest second at which the clock of the zone shows `shown`, if all of them can be told. -/
def earliest? (z : Zone) (shown : Int) : Option Int :=
  let readings := z.readings shown
  if readings.all Instant.tells then readings.head? else none

/-- Midnight of a date in the zone: the earliest one, or midnight in UTC where the zone has none that
can be told. -/
def midnight (z : Zone) (date : Date) : Instant :=
  Instant.ofSeconds ((z.earliest? (86400 * date.days)).getD (86400 * date.days))

end Zone

structure Moment where
  instant : Instant
  zone : Zone
  deriving DecidableEq

namespace Moment

def date (m : Moment) : Date := m.zone.localDate m.instant

def offset (m : Moment) : Int := m.zone.offsetAt m.instant.seconds

end Moment

end PersonalLedger
