import PersonalLedger.Decimal.Basic
import PersonalLedger.Text.Numeral

/-!
Reading decimals. A plain decimal is a sign, then digits with at most one point and with underscores
after the first digit; places that do not fit are rounded away, a half going up. A scientific
decimal is a plain one with a power of ten after `e` or `E`.
-/

namespace PersonalLedger.Decimal

open Text

/-- Coefficients from here on are long: at the last place an underscore is skipped in them, and
read as the digit 0 in shorter ones. -/
def longCoefficient : Nat := (2 ^ 64 - 1) / 10 - 255

/-- Whether a text holds only what may follow the rounded place: digits and underscores. -/
def isTail (cs : List Char) : Bool := cs.all fun c => c.isDigit || c == '_'

/-- Rounds at `c`, the first character that does not fit, and checks the text behind it. A carry
out of the largest mantissa costs a place. -/
def roundAt (value places : Nat) (c : Char) (rest : List Char) : Option (Nat × Nat) :=
  let digit := if c = '_' then some 0 else digit? c
  match digit, isTail rest with
  | some digit, true =>
    if digit < 5 then some (value, places)
    else if value + 1 < limit then some (value + 1, places)
    else if places = 0 then none
    else some ((value + 5) / 10, places - 1)
  | _, _ => none

/-- Reads the rest of an unsigned decimal. So far its digits made `value`, `places` of them behind
the point; `point` and `begun` say whether a point and a digit were read. -/
def readDigits (value places : Nat) (point begun : Bool) : List Char → Option (Nat × Nat)
  | [] => if begun then some (value, places) else none
  | c :: rest =>
    match digit? c with
    | some digit =>
      let next := 10 * value + digit
      let nextPlaces := if point then places + 1 else 0
      if limit ≤ next then
        if point then roundAt value places c rest else none
      else if point && maxScale ≤ nextPlaces then
        match rest with
        | [] => some (next, nextPlaces)
        | d :: tail =>
          if d = '_' && longCoefficient ≤ value then readDigits next nextPlaces true true tail
          else roundAt next nextPlaces d tail
      else readDigits next nextPlaces point true rest
    | none =>
      if c = '.' && !point then readDigits value places true begun rest
      else if c = '_' && begun then readDigits value places point begun rest
      else none

/-- The decimal of the digits read: zero has no sign, and the count of places starts over
behind 28. -/
def ofReading (negative : Bool) : Nat × Nat → Option Decimal
  | (value, places) => ofParts? (negative && value != 0) value (places % (maxScale + 1))

def plain? : List Char → Option Decimal
  | '-' :: rest => (readDigits 0 0 false false rest).bind (ofReading true)
  | '+' :: rest => (readDigits 0 0 false false rest).bind (ofReading false)
  | cs => (readDigits 0 0 false false cs).bind (ofReading false)

/-- `n / 10 ^ count`, rounded by the last digit dropped, a half going up. -/
def dropDigits (n count : Nat) : Nat :=
  if count = 0 then n
  else
    let kept := n / 10 ^ (count - 1)
    kept / 10 + if 5 ≤ kept % 10 then 1 else 0

/-- The decimal divided by `10 ^ exponent`. Digits behind place 28 are rounded away. -/
def shiftRight? (d : Decimal) (exponent : Nat) : Option Decimal :=
  if maxScale < exponent then none
  else if d.scale + exponent ≤ maxScale then ofParts? d.negative d.mantissa (d.scale + exponent)
  else ofParts? d.negative (dropDigits d.mantissa (d.scale + exponent - maxScale)) maxScale

def shiftLeft? (d : Decimal) (exponent : Nat) : Option Decimal :=
  if exponent ≤ d.scale then ofParts? d.negative d.mantissa (d.scale - exponent)
  else if maxScale < exponent then none
  else ofParts? d.negative (d.mantissa * 10 ^ (exponent - d.scale)) 0

/-- The decimal multiplied by the power of ten whose exponent is written in the text. -/
def shift? (d : Decimal) : List Char → Option Decimal
  | '-' :: exponent => (natural? (2 ^ 32) exponent).bind d.shiftRight?
  | exponent => (natural? (2 ^ 32) exponent).bind d.shiftLeft?

def isExponentMark (c : Char) : Bool := c == 'e' || c == 'E'

def read? (cs : List Char) : Option Decimal :=
  let mantissa := cs.takeWhile (!isExponentMark ·)
  match cs.dropWhile (!isExponentMark ·) with
  | [] => plain? mantissa
  | _ :: exponent => (plain? mantissa).bind (·.shift? exponent)

end PersonalLedger.Decimal
