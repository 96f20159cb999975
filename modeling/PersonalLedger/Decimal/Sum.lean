import PersonalLedger.Decimal.Basic

namespace PersonalLedger.Decimal

/-- The nearest integer to `n / 10 ^ count`; a half goes to the even neighbour. -/
def roundHalfEven (n count : Nat) : Nat :=
  let quotient := n / 10 ^ count
  let rest := 2 * (n % 10 ^ count)
  if 10 ^ count < rest || (10 ^ count == rest && quotient % 2 == 1) then quotient + 1 else quotient

/-- The decimal `± n / 10 ^ (scale + dropped)` with `scale` places, or with the most below that
fit. -/
def fit? (negative : Bool) (n : Nat) : (dropped scale : Nat) → Option Decimal
  | dropped, 0 => ofParts? negative (roundHalfEven n dropped) 0
  | dropped, scale + 1 =>
    (ofParts? negative (roundHalfEven n dropped) (scale + 1)).or
      (fit? negative n (dropped + 1) scale)

/-- The sum, if some number of places lets it fit. Adding zero leaves the other number and its
scale alone. -/
def add? (a b : Decimal) : Option Decimal :=
  if a.mantissa = 0 then some b
  else if b.mantissa = 0 then some a
  else
    let scale := max a.scale b.scale
    let sum := a.coefficient * 10 ^ (scale - a.scale) + b.coefficient * 10 ^ (scale - b.scale)
    fit? (decide (sum < 0)) sum.natAbs 0 scale

end PersonalLedger.Decimal
