import PersonalLedger.Fingerprint
import PersonalLedger.Json.Printer
import PersonalLedger.Json.Reader
import PersonalLedger.Registry
import PersonalLedger.Text.Quoted

namespace PersonalLedger

structure Config where
  /-- The currency of new users. -/
  currency : String
  /-- The user who sends the messages if none is named. -/
  user : Int
  /-- The width of the deduplication window. -/
  windowSeconds : Nat
  /-- What is logged. -/
  logFilter : String
  deriving DecidableEq

namespace Config

open Text

def initial : Config := ⟨"NZD", 1, 1, "warn"⟩

instance : Inhabited Config := ⟨initial⟩

def window (c : Config) : DedupWindow := .ofSeconds c.windowSeconds

def fields (c : Config) : List (String × Json) :=
  [("default_currency", .text c.currency), ("default_user", .whole c.user),
    ("dedup_window_secs", .whole c.windowSeconds), ("log_filter", .text c.logFilter)]

def fileText (c : Config) : String := (Json.object c.fields).render

/-- A text, or the default where there is none. -/
def textField (default : String) : Option Json → Option String
  | none => some default
  | some (.text s) => some s
  | some _ => none

/-- An integer in a range, or the default where there is none. -/
def wholeField (default first last : Int) : Option Json → Option Int
  | none => some default
  | some (.whole n) => if first ≤ n && n ≤ last then some n else none
  | some _ => none

/-- The settings in four values, each of which may be left out. -/
def ofValues? (currency user window filter : Option Json) : Option Config := do
  let currency ← textField initial.currency currency
  let user ← wholeField initial.user (-2 ^ 63) (2 ^ 63 - 1) user
  let window ← wholeField initial.windowSeconds 0 (2 ^ 32 - 1) window
  let filter ← textField initial.logFilter filter
  some ⟨currency, user, window.toNat, filter⟩

/-- The settings in a value: the fields of an object, or an array of at most four values in their
order. -/
def ofJson? : Json → Option Config
  | .object fs =>
    ofValues? (Json.field? "default_currency" fs) (Json.field? "default_user" fs)
      (Json.field? "dedup_window_secs" fs) (Json.field? "log_filter" fs)
  | .array items =>
    if items.length ≤ 4 then ofValues? items[0]? items[1]? items[2]? items[3]? else none
  | _ => none

/-- Whether two field values are the same; those of settings are texts and integers. -/
def sameValue : Json → Json → Bool
  | .text s, .text t => s == t
  | .whole m, .whole n => m == n
  | _, _ => false

/-- Whether a value is that of the settings, whatever the order of its fields. -/
def isValue (c : Config) : Json → Bool
  | .object fs =>
    fs.length == c.fields.length &&
      c.fields.all fun (key, value) => (Json.field? key fs).any (sameValue value)
  | _ => false

inductive LoadError where
  /-- The bytes of the file are no text. -/
  | notText
  | unreadable
  | unsupportedCurrency (code : String)
  deriving DecidableEq

def LoadError.message (path : String) : LoadError → String
  | notText => "Failed to read " ++ path ++ ": stream did not contain valid UTF-8"
  | unreadable => "Failed to parse " ++ path
  | unsupportedCurrency code =>
    "Invalid config " ++ path ++ ": Unsupported default_currency " ++ quoted code ++ " in config"

/-- Loads the settings from the text of the file, if there is a file; with them comes the text that
the file has afterwards. -/
def load (file : Option String) : Except LoadError (Config × String) :=
  match file with
  | none => .ok (initial, initial.fileText)
  | some text =>
    match Json.read? text with
    | none => .error .unreadable
    | some value =>
      match ofJson? value with
      | none => .error .unreadable
      | some c =>
        match Registry.currency? c.currency with
        | none => .error (.unsupportedCurrency c.currency)
        | some currency =>
          let c := { c with currency := currency.code }
          .ok (c, if c.isValue value then text else c.fileText)

/-- The text of the file, if there is a file; nothing if its bytes are no text. -/
def decode : Option ByteArray → Option (Option String)
  | none => some none
  | some bytes => (String.fromUTF8? bytes).map some

/-- Loads the settings from the bytes of the file, if there is a file, with what it holds afterwards.
It is not written where there are no settings to load from it. -/
def loadFile (file : Option ByteArray) : Option ByteArray × Except LoadError Config :=
  match decode file with
  | none => (file, .error .notText)
  | some text =>
    match load text with
    | .error e => (file, .error e)
    | .ok (c, written) => (some written.toUTF8, .ok c)

end Config

end PersonalLedger
