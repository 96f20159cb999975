import PersonalLedger.Time.Zone
import PersonalLedger.Text.Numeral

namespace PersonalLedger.Timestamp

open Text

/-- How many digits of a second are written: so many, or the fewest of 0, 3, 6 and 9 that lose
nothing. -/
inductive Precision where
  | micros
  | exact
  deriving DecidableEq

/-- A year: four digits, and outside 0 to 9999 a sign and at least four digits. -/
def yearText (year : Int) : List Char :=
  if 0 ≤ year ∧ year ≤ 9999 then padded 4 year.toNat
  else (if year < 0 then '-' else '+') :: padded 4 year.natAbs

def dateText (d : Date) : List Char :=
  let w := d.written
  yearText w.year ++ '-' :: padded 2 w.month ++ '-' :: padded 2 w.day

/-- Hour, minute and second of a second of the day; a leap second is number 60. -/
def clockText (second : Nat) (leap : Bool) : List Char :=
  padded 2 (second / 3600) ++ ':' :: padded 2 (second / 60 % 60) ++
    ':' :: padded 2 (second % 60 + if leap then 1 else 0)

/-- The part of a second behind the point, with the point. -/
def fractionText (precision : Precision) (nanos : Nat) : List Char :=
  match precision with
  | .micros => '.' :: padded 6 (nanos / 1000)
  | .exact =>
    if nanos = 0 then []
    else if nanos % 1000000 = 0 then '.' :: padded 3 (nanos / 1000000)
    else if nanos % 1000 = 0 then '.' :: padded 6 (nanos / 1000)
    else '.' :: padded 9 nanos

/-- An offset from UTC: `Z` for none, else hours and minutes with a sign, rounded. -/
def offsetText (offset : Int) : List Char :=
  if offset = 0 then ['Z']
  else
    let minutes := (offset.natAbs + 30) / 60
    (if offset < 0 then '-' else '+') :: padded 2 (minutes / 60) ++ ':' :: padded 2 (minutes % 60)

/-- An instant as the clock shows it `offset` seconds east of UTC. -/
def text (precision : Precision) (offset : Int) (t : Instant) : List Char :=
  let shown := t.seconds + offset
  let leap := decide (1000000000 ≤ t.nanos)
  dateText ⟨shown / 86400⟩ ++ 'T' :: clockText (shown % 86400).toNat leap ++
    fractionText precision (t.nanos % 1000000000) ++ offsetText offset

def ofMoment (m : Moment) : String := String.ofList (text .exact m.offset m.instant)

/-- The first `count` characters as a number, if all are digits, and the rest. -/
def takeNumber (count : Nat) (cs : List Char) : Option (Nat × List Char) :=
  if count ≤ cs.length then (digits? (cs.take count)).map (·, cs.drop count) else none

/-- The text after a character that has to come first. -/
def skip (accepts : Char → Bool) : List Char → Option (List Char)
  | [] => none
  | c :: rest => if accepts c then some rest else none

/-- The nanoseconds of an optional fraction, and the rest. Digits behind the ninth are dropped. -/
def takeFraction (cs : List Char) : Option (Nat × List Char) :=
  match cs with
  | '.' :: rest =>
    let digits := rest.takeWhile Char.isDigit
    if digits.isEmpty then none
    else
      let kept := digits.take 9
      some (Nat.ofDigitChars 10 kept 0 * 10 ^ (9 - kept.length), rest.dropWhile Char.isDigit)
  | cs => some (0, cs)

/-- The sign of an offset; the minus sign may be the mathematical one. -/
def takeSign : List Char → Option (Int × List Char)
  | '+' :: rest => some (1, rest)
  | '-' :: rest => some (-1, rest)
  | '\u2212' :: rest => some (-1, rest)
  | _ => none

/-- The offset that makes up the rest of the text, less than a day. -/
def offset? : List Char → Option Int
  | ['Z'] => some 0
  | ['z'] => some 0
  | cs => do
    let (sign, cs) ← takeSign cs
    let (hours, cs) ← takeNumber 2 cs
    let cs ← skip (· == ':') cs
    let (minutes, cs) ← takeNumber 2 cs
    if cs.isEmpty && hours ≤ 23 && minutes ≤ 59 then some (sign * (3600 * hours + 60 * minutes : Nat))
    else none

/-- The instant at which a clock `offset` seconds east of UTC shows second `second`, 0 to 60, of the
minute that starts at `minute`. -/
def instant? (minute : Int) (second nanos : Nat) (offset : Int) : Option Instant :=
  let shown := minute + min second 59 - offset
  let nanos := if second = 60 then nanos + 1000000000 else nanos
  if h : nanos < 2000000000 ∧ (1000000000 ≤ nanos → shown % 60 = 59) then
    some ⟨shown, nanos, h.1, h.2⟩
  else none

def read? (cs : List Char) : Option (Instant × Int) := do
  let (year, cs) ← takeNumber 4 cs
  let cs ← skip (· == '-') cs
  let (month, cs) ← takeNumber 2 cs
  let cs ← skip (· == '-') cs
  let (day, cs) ← takeNumber 2 cs
  let date ← Date.of? year month day
  let cs ← skip (fun c => c == 'T' || c == 't' || c == ' ') cs
  let (hour, cs) ← takeNumber 2 cs
  let cs ← skip (· == ':') cs
  let (minute, cs) ← takeNumber 2 cs
  let cs ← skip (· == ':') cs
  let (second, cs) ← takeNumber 2 cs
  let (nanos, cs) ← takeFraction cs
  let offset ← offset? cs
  if hour ≤ 23 && minute ≤ 59 && second ≤ 60 then
    let t ← instant? (86400 * date.days + (3600 * hour + 60 * minute : Nat)) second nanos offset
    some (t, offset)
  else none

def moment? (text : String) : Option Moment :=
  (read? text.toList).map fun (t, offset) => ⟨t, .fixed offset⟩

def monthNames : List String :=
  ["Jan", "Feb", "Mar", "Apr", "May", "Jun", "Jul", "Aug", "Sep", "Oct", "Nov", "Dec"]

/-- A day as a reply shows it, `28/02/2025`. -/
def dayText (zone : Zone) (t : Instant) : String :=
  let w := (zone.localDate t).written
  String.ofList (padded 2 w.day ++ '/' :: padded 2 w.month ++ '/' :: yearText w.year)

/-- A time as a reply shows it, `15-Mar-2025 10:05`. -/
def minuteText (zone : Zone) (t : Instant) : String :=
  let w := (zone.localDate t).written
  let second := (zone.localSeconds t % 86400).toNat
  String.ofList (padded 2 w.day ++ '-' :: (monthNames.getD (w.month - 1) "").toList ++
    '-' :: yearText w.year ++ ' ' :: padded 2 (second / 3600) ++ ':' :: padded 2 (second / 60 % 60))

end PersonalLedger.Timestamp
