import PersonalLedger.Json.Printer
import PersonalLedger.Json.Reader
import PersonalLedger.Store.Basic

namespace PersonalLedger

def User.toJson (u : User) : Json := .array [.whole u.id, .text u.currency]

def User.ofJson? : Json → Option User
  | .array [.whole id, .text currency] => some ⟨id, currency⟩
  | _ => none

def Row.toJson (r : Row) : Json :=
  .array [.whole r.id, .whole r.user, .text r.category, .text r.amount, .text r.currency,
    .text r.notes, .text r.time, .text r.hash]

def Row.ofJson? : Json → Option Row
  | .array [.whole id, .whole user, .text category, .text amount, .text currency, .text notes,
      .text time, .text hash] => some ⟨id, user, category, amount, currency, notes, time, hash⟩
  | _ => none

namespace Store

def toJson (s : Store) : Json :=
  .object [("next_id", .whole s.nextId), ("users", .array (s.users.map User.toJson)),
    ("rows", .array (s.rows.map Row.toJson))]

/-- Reads a store, if its rows are in the order of their ids and the counter is past them. -/
def ofJson? : Json → Option Store
  | .object [("next_id", .whole nextId), ("users", .array users), ("rows", .array rows)] => do
    let users ← users.mapM User.ofJson?
    let rows ← rows.mapM Row.ofJson?
    if h : rows.Pairwise (·.id < ·.id) ∧ ∀ r ∈ rows, r.id < nextId then
      some ⟨rows, users, nextId, "", h.1, h.2⟩
    else none
  | _ => none

end Store

end PersonalLedger
