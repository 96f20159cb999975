import PersonalLedger.Decimal.Basic
import PersonalLedger.Text.Numeral

namespace PersonalLedger.Decimal

open Text

def signText (d : Decimal) : List Char := if d.negative then ['-'] else []

/-- `value / 10 ^ places`, written with exactly so many places. -/
def pointText (value places : Nat) : List Char :=
  natText (value / 10 ^ places) ++
    if places = 0 then [] else '.' :: padded places (value % 10 ^ places)

def text (d : Decimal) : List Char := d.signText ++ pointText d.mantissa d.scale

/-- The mantissa that the decimal has with `places` places, if further ones are cut off. -/
def mantissaAt (d : Decimal) (places : Nat) : Nat :=
  if d.scale ≤ places then d.mantissa * 10 ^ (places - d.scale)
  else d.mantissa / 10 ^ (d.scale - places)

/-- The decimal with exactly so many places; further ones are cut off, the sign stays. -/
def fixedText (places : Nat) (d : Decimal) : List Char :=
  d.signText ++ pointText (d.mantissaAt places) places

instance : ToString Decimal := ⟨fun d => String.ofList d.text⟩

end PersonalLedger.Decimal
