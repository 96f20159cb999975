-- Powers of integers are those of the core library, whatever else a module imports.
attribute [instance (20000), default_instance 20000] instPowNat

namespace PersonalLedger.Text

def digit? (c : Char) : Option Nat := if c.isDigit then some (c.toNat - '0'.toNat) else none

/-- The value of a text that is ASCII digits and nothing else. -/
def digits? (cs : List Char) : Option Nat :=
  if !cs.isEmpty && cs.all Char.isDigit then some (Nat.ofDigitChars 10 cs 0) else none

/-- The value of an unsigned numeral below `bound`; a plus sign may stand before it. -/
def natural? (bound : Nat) (cs : List Char) : Option Nat :=
  let number := match cs with
    | '+' :: rest => digits? rest
    | cs => digits? cs
  number.filter (· < bound)

/-- The value of a signed 64-bit numeral. -/
def integer? (cs : List Char) : Option Int :=
  let number : Option Int := match cs with
    | '+' :: rest => (digits? rest).map Int.ofNat
    | '-' :: rest => (digits? rest).map fun n => -Int.ofNat n
    | cs => (digits? cs).map Int.ofNat
  number.filter fun n => -2 ^ 63 ≤ n && n < 2 ^ 63

def natText (n : Nat) : List Char := Nat.toDigits 10 n

def intText (n : Int) : List Char :=
  if n < 0 then '-' :: natText n.natAbs else natText n.natAbs

def natString (n : Nat) : String := String.ofList (natText n)

def intString (n : Int) : String := String.ofList (intText n)

/-- A natural number in decimal, with zeros before it up to `width` digits. -/
def padded (width n : Nat) : List Char :=
  let digits := natText n
  List.replicate (width - digits.length) '0' ++ digits

end PersonalLedger.Text
