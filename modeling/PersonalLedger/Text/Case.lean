/-!
Letter case, as far as it can lead to an ASCII name. Names of commands and codes are ASCII, so a
letter whose other case is not ASCII can stay as it is: the text differs from every name either way.
-/

namespace PersonalLedger.Text

/-- The full upper case of a character, where it is ASCII; any other character stays. -/
def upperOf (c : Char) : List Char :=
  match c with
  | 'ß' => ['S', 'S']
  | 'ı' => ['I']
  | 'ſ' => ['S']
  | 'ﬀ' => ['F', 'F']
  | 'ﬁ' => ['F', 'I']
  | 'ﬂ' => ['F', 'L']
  | 'ﬃ' => ['F', 'F', 'I']
  | 'ﬄ' => ['F', 'F', 'L']
  | 'ﬅ' => ['S', 'T']
  | 'ﬆ' => ['S', 'T']
  | c => [c.toUpper]

def upper (cs : List Char) : List Char := cs.flatMap upperOf

/-- The lower case of a character, where it is ASCII; any other character stays. The Kelvin sign
is the one character outside ASCII that has an ASCII lower case. -/
def lowerOf (c : Char) : Char := if c = '\u212a' then 'k' else c.toLower

def lower (text : String) : String := String.ofList (text.toList.map lowerOf)

end PersonalLedger.Text
