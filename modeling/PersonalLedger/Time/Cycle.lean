import PersonalLedger.Time.Zone

namespace PersonalLedger.Cycle

def startDay : Nat := 28

/-- The start of the cycle that a date is in: the last 28th before it. Up to the 28th, that is the
28th of the month before, found from the last day of that month. There is none where a step leaves
the dates that can be told. -/
def startDate? (date : Date) : Option Date :=
  let day := date.dayOfMonth
  if startDay < day then date.back? (day - startDay)
  else do
    let monthEnd ← date.back? day
    monthEnd.back? (monthEnd.dayOfMonth - startDay)

/-- The instant at which the cycle of a moment starts, where the moment is seen from. The cycle of
the first 28 dates that can be told has no start; theirs is taken to be their own midnight. -/
def start (m : Moment) : Instant := m.zone.midnight ((startDate? m.date).getD m.date)

end PersonalLedger.Cycle
