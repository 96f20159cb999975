namespace PersonalLedger

/-- A calendar date, as the number of days since 1970-01-01. -/
structure Date where
  days : Int
  deriving DecidableEq

structure YearMonthDay where
  year : Int
  month : Nat
  day : Nat
  deriving DecidableEq

namespace Date

def isLeap (year : Int) : Bool := year % 4 == 0 && (year % 100 != 0 || year % 400 == 0)

def monthLengths (leap : Bool) : List Nat :=
  [31, if leap then 29 else 28, 31, 30, 31, 30, 31, 31, 30, 31, 30, 31]

/-- The length of month 1 to 12; 0 for any other. -/
def monthLength (leap : Bool) (month : Nat) : Nat :=
  if month = 0 then 0 else (monthLengths leap).getD (month - 1) 0

def daysBeforeMonth (leap : Bool) (month : Nat) : Nat :=
  ((monthLengths leap).take (month - 1)).foldl (· + ·) 0

/-- The days from 0001-01-01 to the first day of the year. -/
def daysBeforeYear (year : Int) : Int :=
  let y := year - 1
  365 * y + y / 4 - y / 100 + y / 400

/-- The days from 0001-01-01 to 1970-01-01. -/
def epochDays : Int := 719162

def isValid (d : YearMonthDay) : Bool :=
  1 ≤ d.day && d.day ≤ monthLength (isLeap d.year) d.month

def ofValid (d : YearMonthDay) : Date :=
  ⟨daysBeforeYear d.year + (daysBeforeMonth (isLeap d.year) d.month + (d.day - 1) : Nat) - epochDays⟩

def of? (year : Int) (month day : Nat) : Option Date :=
  if isValid ⟨year, month, day⟩ then some (ofValid ⟨year, month, day⟩) else none

/-- The year of a day counted from 0001-01-01, and the number of the day in it, from 0. Years repeat
after 400; each of the first three centuries of such a cycle, and each of the first three years of
four, is one day shorter than the last. -/
def yearAndDay (n : Int) : Int × Nat :=
  let inCycle := (n % 146097).toNat
  let century := min (inCycle / 36524) 3
  let inCentury := inCycle - 36524 * century
  let inFour := inCentury % 1461
  let year := min (inFour / 365) 3
  (400 * (n / 146097) + (100 * century + 4 * (inCentury / 1461) + year : Nat) + 1,
    inFour - 365 * year)

/-- The month of a day of the year counted from 0, and the day of that month; `month` is the number
of the first month in the list. -/
def monthAndDay (month : Nat) : List Nat → Nat → Nat × Nat
  | [], n => (month, n + 1)
  | length :: lengths, n =>
    if n < length then (month, n + 1) else monthAndDay (month + 1) lengths (n - length)

def written (d : Date) : YearMonthDay :=
  let (year, dayOfYear) := yearAndDay (d.days + epochDays)
  let (month, day) := monthAndDay 1 (monthLengths (isLeap year)) dayOfYear
  ⟨year, month, day⟩

def dayOfMonth (d : Date) : Nat := d.written.day

instance : LT Date := ⟨fun a b => a.days < b.days⟩
instance : LE Date := ⟨fun a b => a.days ≤ b.days⟩
instance (a b : Date) : Decidable (a < b) := inferInstanceAs (Decidable (a.days < b.days))
instance (a b : Date) : Decidable (a ≤ b) := inferInstanceAs (Decidable (a.days ≤ b.days))

/-- The first date that can be told. -/
def first : Date := ofValid ⟨-262143, 1, 1⟩

def last : Date := ofValid ⟨262142, 12, 31⟩

/-- The date so many days earlier, whether it can be told or not. -/
def back (d : Date) (days : Int) : Date := ⟨d.days - days⟩

/-- The date so many days earlier, if it can be told. -/
def back? (d : Date) (days : Nat) : Option Date :=
  if first ≤ d.back days ∧ d.back days ≤ last then some (d.back days) else none

end Date

end PersonalLedger
