import PersonalLedger.Text.Numeral

namespace PersonalLedger

/-- The decimal of value `± mantissa / 10 ^ scale`. The scale is part of it: `45.0` and `45.00` are
two decimals of one value. Zero keeps its sign too. -/
structure Decimal where
  negative : Bool
  mantissa : Nat
  scale : Nat
  mantissa_lt : mantissa < 2 ^ 96
  scale_le : scale ≤ 28
  deriving DecidableEq

namespace Decimal

/-- The first mantissa that is too large. -/
def limit : Nat := 2 ^ 96

def maxScale : Nat := 28

def zero : Decimal := ⟨false, 0, 0, by decide, by decide⟩

instance : Inhabited Decimal := ⟨zero⟩

/-- The mantissa with its sign. -/
def coefficient (d : Decimal) : Int := if d.negative then -Int.ofNat d.mantissa else d.mantissa

def ofParts? (negative : Bool) (mantissa scale : Nat) : Option Decimal :=
  if h : mantissa < 2 ^ 96 ∧ scale ≤ 28 then some ⟨negative, mantissa, scale, h.1, h.2⟩ else none

end Decimal

end PersonalLedger
