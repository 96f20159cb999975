import PersonalLedger.Decimal.Sum
import PersonalLedger.Entry
import PersonalLedger.Failure

namespace PersonalLedger

/-- What the entries of a group have in common. -/
structure GroupKey where
  category : String
  currency : Option String
  deriving DecidableEq

structure Group where
  key : GroupKey
  total : Decimal
  count : Nat
  deriving DecidableEq

namespace GroupKey

/-- The order of keys: by category, then by currency, no currency first. -/
def lt (a b : GroupKey) : Bool :=
  decide (a.category < b.category) ||
    (a.category == b.category &&
      match a.currency, b.currency with
      | none, some _ => true
      | some x, some y => decide (x < y)
      | _, none => false)

def byCategory (e : Entry) : GroupKey := ⟨e.category, none⟩

def byCategoryAndCurrency (e : Entry) : GroupKey := ⟨e.category, some e.currency⟩

end GroupKey

namespace Totals

/-- The groups with an amount added to the one with the key, which is put in its place if it is
new; nothing if the total overflows. -/
def insert (key : GroupKey) (amount : Decimal) : List Group → Option (List Group)
  | [] => (Decimal.zero.add? amount).map fun total => [⟨key, total, 1⟩]
  | g :: gs =>
    if key = g.key then
      (g.total.add? amount).map fun total => { g with total, count := g.count + 1 } :: gs
    else if key.lt g.key then
      (Decimal.zero.add? amount).map fun total => ⟨key, total, 1⟩ :: g :: gs
    else (insert key amount gs).map (g :: ·)

/-- The totals of entries in order; the first entry at which one overflows is the error. -/
def ofEntries (keyOf : Entry → GroupKey) (entries : List Entry) : Except Failure (List Group) :=
  entries.foldlM (fun groups e =>
    match insert (keyOf e) e.amount groups with
    | some groups => .ok groups
    | none => .error (.totalOverflow e.category)) []

end Totals

end PersonalLedger
