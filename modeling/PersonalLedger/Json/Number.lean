import PersonalLedger.Json.Basic
import PersonalLedger.Text.Numeral

/-!
Numbers in JSON. An integer of 64 bits is exact. Any other number is floating point, and is refused
if it lies beyond the largest double.
-/

namespace PersonalLedger.Json

open Text

/-- The double next to a natural number, as a natural number: 53 binary digits, a half going to the
even neighbour. -/
def nearestDouble (n : Nat) : Nat :=
  let unit := 2 ^ (n.log2 + 1 - 53)
  let quotient := n / unit
  let rest := 2 * (n % unit)
  let rounded :=
    if unit < rest || (unit == rest && quotient % 2 == 1) then quotient + 1 else quotient
  rounded * unit

/-- The first product that a double rounds to infinity. -/
def firstInfinite : Nat := 2 ^ 1024 - 2 ^ 970

/-- Whether `significand * 10 ^ exponent` is a finite double, the factors rounded first. -/
def isFinite (significand : Nat) (exponent : Int) : Bool :=
  significand == 0 || exponent < 0 ||
    (exponent ≤ 308 &&
      nearestDouble significand * nearestDouble (10 ^ exponent.toNat) < firstInfinite)

def leadingDigits (n : Nat) : List Char → Nat × List Char
  | [] => (n, [])
  | c :: cs =>
    let next := 10 * n + (c.toNat - '0'.toNat)
    if next < 2 ^ 64 then leadingDigits next cs else (n, c :: cs)

/-- Whether a number with a fraction or an exponent, or a long one, is a finite double. Only as many
digits as make a 64-bit number count. -/
def inRange (integer fraction : List Char) (exponent : Int) : Bool :=
  let (head, dropped) := leadingDigits 0 integer
  let (significand, rest) := leadingDigits head fraction
  let shift : Int := dropped.length - (fraction.length - rest.length : Nat)
  if 2 ^ 31 ≤ exponent.natAbs then significand == 0 || exponent < 0
  else isFinite significand (shift + exponent)

def takeFraction : List Char → Option (List Char × List Char)
  | '.' :: rest =>
    let digits := rest.takeWhile Char.isDigit
    if digits.isEmpty then none else some (digits, rest.dropWhile Char.isDigit)
  | cs => some ([], cs)

def takeDigits (cs : List Char) : Option (Nat × List Char) :=
  (digits? (cs.takeWhile Char.isDigit)).map (·, cs.dropWhile Char.isDigit)

def takeExponent : List Char → Option (Option Int × List Char)
  | c :: rest =>
    if c = 'e' || c = 'E' then
      match rest with
      | '-' :: rest => (takeDigits rest).map fun (n, rest) => (some (-Int.ofNat n), rest)
      | '+' :: rest => (takeDigits rest).map fun (n, rest) => (some n, rest)
      | rest => (takeDigits rest).map fun (n, rest) => (some n, rest)
    else some (none, c :: rest)
  | [] => some (none, [])

/-- The value of a number whose parts were read; `written` is its text. -/
def ofParts (negative : Bool) (integer fraction : List Char) (exponent : Option Int)
    (written : String) : Option Json :=
  let n := Nat.ofDigitChars 10 integer 0
  if fraction.isEmpty && exponent.isNone && !negative && n < 2 ^ 64 then some (.whole n)
  else if fraction.isEmpty && exponent.isNone && negative && 0 < n && n ≤ 2 ^ 63 then
    some (.whole (-n))
  else if inRange integer fraction (exponent.getD 0) then some (.fractional written)
  else none

def readUnsigned (negative : Bool) (cs : List Char) : Option (Json × List Char) := do
  let integer := cs.takeWhile Char.isDigit
  if integer.isEmpty || (integer.head? == some '0' && 1 < integer.length) then none
  let (fraction, cs') ← takeFraction (cs.dropWhile Char.isDigit)
  let (exponent, cs') ← takeExponent cs'
  let written := (if negative then ['-'] else []) ++ cs.take (cs.length - cs'.length)
  let value ← ofParts negative integer fraction exponent (String.ofList written)
  some (value, cs')

def readNumber : List Char → Option (Json × List Char)
  | '-' :: rest => readUnsigned true rest
  | cs => readUnsigned false cs

end PersonalLedger.Json
