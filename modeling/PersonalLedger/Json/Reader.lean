import PersonalLedger.Json.Number

namespace PersonalLedger.Json

def isSpace (c : Char) : Bool := c == ' ' || c == '\n' || c == '\r' || c == '\t'

def skipSpace (cs : List Char) : List Char := cs.dropWhile isSpace

/-- Where the reader of a string stands. -/
inductive StringState where
  | plain
  | escape
  /-- `count` hexadecimal digits of a code make `value`; `high` is the first half of a pair. -/
  | code (high : Option Nat) (count value : Nat)
  /-- The second half of a pair has to follow. -/
  | pair (high : Nat)
  | pairEscape (high : Nat)

def shortEscape? : Char → Option Char
  | '"' => some '"'
  | '\\' => some '\\'
  | '/' => some '/'
  | 'b' => some '\x08'
  | 'f' => some '\x0c'
  | 'n' => some '\n'
  | 'r' => some '\r'
  | 't' => some '\t'
  | _ => none

def hexDigit? (c : Char) : Option Nat :=
  if c.isDigit then some (c.toNat - '0'.toNat)
  else if 'a' ≤ c ∧ c ≤ 'f' then some (c.toNat - 'a'.toNat + 10)
  else if 'A' ≤ c ∧ c ≤ 'F' then some (c.toNat - 'A'.toNat + 10)
  else none

/-- Whether a code is the first half of a pair. -/
def isHigh (code : Nat) : Bool := 0xD800 ≤ code && code < 0xDC00

def isLow (code : Nat) : Bool := 0xDC00 ≤ code && code < 0xE000

def ofPair (high low : Nat) : Char := Char.ofNat (0x10000 + 0x400 * (high - 0xD800) + (low - 0xDC00))

/-- Reads a string up to the quote that closes it. -/
def readString : StringState → List Char → Option (List Char × List Char)
  | _, [] => none
  | .plain, c :: rest =>
    if c = '"' then some ([], rest)
    else if c = '\\' then readString .escape rest
    else if c.toNat < 0x20 then none
    else (readString .plain rest).map fun (cs, rest) => (c :: cs, rest)
  | .escape, c :: rest =>
    if c = 'u' then readString (.code none 0 0) rest
    else
      match shortEscape? c with
      | none => none
      | some d => (readString .plain rest).map fun (cs, rest) => (d :: cs, rest)
  | .code high count value, c :: rest =>
    match hexDigit? c with
    | none => none
    | some digit =>
      let value := 16 * value + digit
      if count < 3 then readString (.code high (count + 1) value) rest
      else
        match high with
        | none =>
          if isHigh value then readString (.pair value) rest
          else if isLow value then none
          else (readString .plain rest).map fun (cs, rest) => (Char.ofNat value :: cs, rest)
        | some high =>
          if isLow value then
            (readString .plain rest).map fun (cs, rest) => (ofPair high value :: cs, rest)
          else none
  | .pair high, c :: rest => if c = '\\' then readString (.pairEscape high) rest else none
  | .pairEscape high, c :: rest => if c = 'u' then readString (.code (some high) 0 0) rest else none

mutual

/-- Reads a value. `depth` is one more than the nesting still allowed; `fuel` bounds the recursion. -/
def readValue : (fuel depth : Nat) → List Char → Option (Json × List Char)
  | 0, _, _ => none
  | fuel + 1, depth, cs =>
    match skipSpace cs with
    | 'n' :: 'u' :: 'l' :: 'l' :: rest => some (.null, rest)
    | 't' :: 'r' :: 'u' :: 'e' :: rest => some (.bool true, rest)
    | 'f' :: 'a' :: 'l' :: 's' :: 'e' :: rest => some (.bool false, rest)
    | '"' :: rest => (readString .plain rest).map fun (s, rest) => (.text (String.ofList s), rest)
    | '[' :: rest =>
      if depth ≤ 1 then none
      else
        match skipSpace rest with
        | ']' :: rest => some (.array [], rest)
        | rest => (readItems fuel (depth - 1) rest).map fun (items, rest) => (.array items, rest)
    | '\x7b' :: rest =>
      if depth ≤ 1 then none
      else
        match skipSpace rest with
        | '\x7d' :: rest => some (.object [], rest)
        | rest =>
          (readFields fuel (depth - 1) rest).map fun (fields, rest) =>
            (.object (lastOfEach fields), rest)
    | cs => readNumber cs

def readItems : (fuel depth : Nat) → List Char → Option (List Json × List Char)
  | 0, _, _ => none
  | fuel + 1, depth, cs =>
    match readValue fuel depth cs with
    | none => none
    | some (item, rest) =>
      match skipSpace rest with
      | ']' :: rest => some ([item], rest)
      | ',' :: rest => (readItems fuel depth rest).map fun (items, rest) => (item :: items, rest)
      | _ => none

def readFields : (fuel depth : Nat) → List Char → Option (List (String × Json) × List Char)
  | 0, _, _ => none
  | fuel + 1, depth, cs =>
    match skipSpace cs with
    | '"' :: rest =>
      match readString .plain rest with
      | none => none
      | some (key, rest) =>
        match skipSpace rest with
        | ':' :: rest =>
          match readValue fuel depth rest with
          | none => none
          | some (value, rest) =>
            let field := (String.ofList key, value)
            match skipSpace rest with
            | '\x7d' :: rest => some ([field], rest)
            | ',' :: rest =>
              (readFields fuel depth rest).map fun (fields, rest) => (field :: fields, rest)
            | _ => none
        | _ => none
    | _ => none

end

def maxDepth : Nat := 128

def read? (text : String) : Option Json :=
  let cs := text.toList
  match readValue (2 * cs.length + 2) maxDepth cs with
  | some (value, rest) => if (skipSpace rest).isEmpty then some value else none
  | none => none

end PersonalLedger.Json
