namespace PersonalLedger.Text

/-- The 25 characters with the Unicode property White_Space. -/
def isBlank (c : Char) : Bool :=
  let n := c.toNat
  (0x09 ≤ n && n ≤ 0x0D) || n == 0x20 || n == 0x85 || n == 0xA0 || n == 0x1680 ||
    (0x2000 ≤ n && n ≤ 0x200A) || n == 0x2028 || n == 0x2029 || n == 0x202F || n == 0x205F ||
    n == 0x3000

def trimStart (cs : List Char) : List Char := cs.dropWhile isBlank

def trimEnd (cs : List Char) : List Char := (cs.reverse.dropWhile isBlank).reverse

def trim (cs : List Char) : List Char := trimEnd (trimStart cs)

def startsWord : List Char → Bool
  | [] => false
  | c :: _ => !isBlank c

/-- The words of a text, in order. -/
def wordsOf : List Char → List (List Char)
  | [] => []
  | c :: rest =>
    if isBlank c then wordsOf rest
    else if startsWord rest then
      match wordsOf rest with
      | [] => [[c]]
      | word :: words => (c :: word) :: words
    else [c] :: wordsOf rest

def words (text : String) : List String := (wordsOf text.toList).map String.ofList

/-- What stands before the first blank, and what stands after it. -/
def splitAtBlank (cs : List Char) : List Char × List Char :=
  (cs.takeWhile (!isBlank ·), (cs.dropWhile (!isBlank ·)).drop 1)

end PersonalLedger.Text
