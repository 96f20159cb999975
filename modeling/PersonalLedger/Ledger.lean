import PersonalLedger.Command.AddRequest
import PersonalLedger.Command.ConfigRequest
import PersonalLedger.Command.RemoveRequest
import PersonalLedger.Fingerprint
import PersonalLedger.Help
import PersonalLedger.Store.Basic
import PersonalLedger.Totals

namespace PersonalLedger

inductive Outcome where
  | added (entries : List Entry)
  | removed (entries : List Entry)
  | listed (listing : Listing) (entries : List Entry) (groups : Option (List Group))
  | help (text : String)
  | config (user : User) (changed : Bool)
  deriving DecidableEq

structure Reply where
  kind : CommandKind
  result : Except Failure Outcome

def Reply.userError (r : Reply) : Option String :=
  match r.result with
  | .ok _ => none
  | .error e => some (e.userMessage r.kind)

namespace Ledger

open Text

def stored {α : Type} : Except StoreError α → Except Failure α
  | .ok a => .ok a
  | .error e => .error (.storage e)

/-- The entry for the amount at a position of a request. -/
def draft (window : DedupWindow) (request : AddRequest) (currency : String) (time : Instant)
    (user : Int) (amount : Decimal) (position : Nat) : Draft :=
  { user, category := request.category, amount, currency, notes := request.notes, time,
    hash := Fingerprint.hash window
      { category := request.category, amount, notes := request.notes, time, user, position,
        currency } }

def drafts (window : DedupWindow) (request : AddRequest) (preferred : String) (time : Instant)
    (user : Int) : List Draft :=
  let currency := request.currency.getD preferred
  request.amounts.zipIdx.map fun (amount, i) => draft window request currency time user amount i

/-- The first draft with a fingerprint that the user has stored makes the check fail. -/
def checkNew (s : Store) (user : Int) : List Draft → Except Failure Unit
  | [] => .ok ()
  | d :: ds =>
    match s.findByHash d.hash user with
    | .error e => .error (.storage e)
    | .ok (some _) => .error (.duplicate d.hash)
    | .ok none => checkNew s user ds

/-- Stores drafts that the check let pass. A fingerprint that is stored all the same is reported as
that of the first draft. -/
def record (s : Store) (ds : List Draft) : Store × Except Failure Outcome :=
  match s.create ds with
  | (s, .ok entries) => (s, .ok (.added entries))
  | (s, .error .duplicateHash) => (s, .error (.duplicate ((ds.head?.map (·.hash)).getD "")))
  | (s, .error e) => (s, .error (.storage e))

/-- Carries out `add`. The user is stored as soon as the request can be read. -/
def add (window : DedupWindow) (s : Store) (body : String) (time : Instant) (user : Int) :
    Store × Except Failure Outcome :=
  match AddRequest.parse body with
  | .error e => (s, .error e)
  | .ok request =>
    let (s, u) := s.getOrCreateUser user
    let ds := drafts window request u.currency time user
    match checkNew s user ds with
    | .error e => (s, .error e)
    | .ok () => record s ds

/-- Carries out `rm`: every id has to be an entry of the user. -/
def remove (s : Store) (words : List String) (user : Int) : Store × Except Failure Outcome :=
  match RemoveRequest.parse words with
  | .error e => (s, .error e)
  | .ok ids =>
    match s.findByIds ids user with
    | .error e => (s, .error (.storage e))
    | .ok entries =>
      let missing := ids.filter fun id => !entries.any (·.id == id)
      if missing.isEmpty then
        (s.delete (entries.map fun e => (e.id, e.user)), .ok (.removed entries))
      else (s, .error (.notFound missing))

/-- The totals of a listing, if it asks for them. Under a currency filter there is one currency only,
and the totals are by category. -/
def totals (l : Listing) (entries : List Entry) : Except Failure (Option (List Group)) :=
  if l.totals then
    let keyOf := if l.currency.isSome then GroupKey.byCategory else GroupKey.byCategoryAndCurrency
    (Totals.ofEntries keyOf entries).map some
  else .ok none

def list (s : Store) (words : List String) (now : Moment) (user : Int) : Except Failure Outcome := do
  let l ← Listing.parse now words
  let entries ← stored (s.query ⟨user, l.category, l.currency, l.window⟩)
  let groups ← totals l entries
  .ok (.listed l entries groups)

def config (s : Store) (words : List String) (user : Int) : Store × Except Failure Outcome :=
  match ConfigRequest.parse words with
  | .error e => (s, .error e)
  | .ok .showSettings =>
    let (s, u) := s.getOrCreateUser user
    (s, .ok (.config u false))
  | .ok (.setCurrency code) =>
    match Registry.currency? code with
    | none => (s, .error (.unsupportedCurrency code))
    | some currency =>
      let (s, u) := s.getOrCreateUser user
      let u := { u with currency := currency.code }
      (s.updateUser u, .ok (.config u true))

def run (window : DedupWindow) (s : Store) (command : Command) (now : Moment) (user : Int) :
    Store × Except Failure Outcome :=
  match command with
  | .add body => add window s body now.instant user
  | .remove words => remove s words user
  | .list words => (s, list s words now user)
  | .help topic => (s, .ok (.help (Help.text topic)))
  | .config words => config s words user
  | .unknown word => (s, .error (.unknownCommand word))

/-- Answers the text of a message. -/
def dispatch (window : DedupWindow) (s : Store) (text : String) (now : Moment) (user : Int) :
    Store × Reply :=
  let command := Command.parse text
  let (s, result) := run window s command now user
  (s, ⟨command.kind, result⟩)

end Ledger

end PersonalLedger
