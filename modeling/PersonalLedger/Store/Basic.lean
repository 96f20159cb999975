import PersonalLedger.Command.Listing
import PersonalLedger.Entry

namespace PersonalLedger

structure User where
  id : Int
  currency : String
  deriving DecidableEq

/-- The contents of a store. Rows are kept in the order of their ids, all below `nextId`, which was
never given to a row; `defaultCurrency` is what a new user gets. -/
@[ext]
structure Store where
  rows : List Row
  users : List User
  nextId : Int
  defaultCurrency : String
  rising : rows.Pairwise (·.id < ·.id)
  below : ∀ r ∈ rows, r.id < nextId
  deriving DecidableEq

namespace Store

def empty (defaultCurrency : String) : Store :=
  ⟨[], [], 1, defaultCurrency, .nil, List.forall_mem_nil _⟩

instance : Inhabited Store := ⟨empty ""⟩

/-- Whether a row has the hash, whoever owns it. -/
def hasHash (s : Store) (hash : String) : Bool := s.rows.any (·.hash == hash)

def hasUser (s : Store) (user : Int) : Bool := s.users.any (·.id == user)

def append (s : Store) (d : Draft) : Store :=
  { s with
    rows := s.rows ++ [(d.withId s.nextId).toRow]
    nextId := s.nextId + 1
    rising := by
      refine List.pairwise_append.2 ⟨s.rising, List.pairwise_singleton _ _, ?_⟩
      intro r hr r' hr'
      rw [List.mem_singleton.1 hr']
      exact s.below r hr
    below := by
      intro r hr
      rcases List.mem_append.1 hr with hr | hr
      · exact Int.lt_add_one_of_le (Int.le_of_lt (s.below r hr))
      · rw [List.mem_singleton.1 hr]
        exact Int.lt_succ s.nextId }

/-- Stores the drafts one by one; the first that cannot be stored is the error. -/
def createFrom : Store → List Draft → Except StoreError (List Entry × Store)
  | s, [] => .ok ([], s)
  | s, d :: ds =>
    -- a row with a known hash is refused before anyone asks for its owner
    if s.hasHash d.hash then .error .duplicateHash
    else if !s.hasUser d.user then .error .missingUser
    else
      match createFrom (s.append d) ds with
      | .error e => .error e
      | .ok (entries, s') => .ok (d.withId s.nextId :: entries, s')

/-- Stores all the drafts or none; their ids follow each other. -/
def create (s : Store) (ds : List Draft) : Store × Except StoreError (List Entry) :=
  match s.createFrom ds with
  | .error e => (s, .error e)
  | .ok (entries, s') => (s', .ok entries)

def filterRows (s : Store) (keep : Row → Bool) : Store :=
  { s with
    rows := s.rows.filter keep
    rising := s.rising.filter keep
    below := fun r hr => s.below r (List.mem_filter.1 hr).1 }

@[simp] theorem rows_filterRows (s : Store) (keep : Row → Bool) :
    (s.filterRows keep).rows = s.rows.filter keep := rfl

/-- Removes the rows that have both an id and its owner among the pairs. -/
def delete (s : Store) (owned : List (Int × Int)) : Store :=
  s.filterRows fun r => !owned.contains (r.id, r.user)

def readAll (rows : List Row) : Except StoreError (List Entry) := rows.mapM Row.read

def findByHash (s : Store) (hash : String) (user : Int) : Except StoreError (Option Entry) :=
  (readAll ((s.rows.filter fun r => r.hash == hash && r.user == user).take 1)).map List.head?

/-- The most values that a statement can take. -/
def maxValues : Nat := 32766

def idStatement (count : Nat) : String :=
  "SELECT id, user_id, category, amount, currency, notes, timestamp, hash FROM entries " ++
    "WHERE user_id = ? AND id IN (" ++ ", ".intercalate (List.replicate count "?") ++ ") ORDER BY id"

def findByIds (s : Store) (ids : List Int) (user : Int) : Except StoreError (List Entry) :=
  if maxValues < ids.length + 1 then
    .error (.tooManyIds (idStatement ids.length)
      ((idStatement 1).length - ") ORDER BY id".length - 1 + 3 * (maxValues - 1)))
  else readAll (s.rows.filter fun r => r.user == user && ids.contains r.id)

structure Query where
  user : Int
  category : Option String
  currency : Option String
  window : Window
  deriving DecidableEq

/-- Whether a query asks for the row. Times are compared as the texts that rows hold. -/
def Query.selects (q : Query) (r : Row) : Bool :=
  r.user == q.user && decide (q.window.first.rowText ≤ r.time) &&
    decide (r.time ≤ q.window.last.rowText) &&
    q.category.all (r.category == ·) && q.currency.all (r.currency == ·)

/-- Whether `a` comes before `b` in the answer to a query: newest first, then by the larger id. -/
def newer (a b : Row) : Bool := decide (b.time < a.time) || (a.time == b.time && decide (b.id ≤ a.id))

def select (s : Store) (q : Query) : List Row :=
  ((s.rows.filter q.selects).mergeSort newer).take q.window.limit

def query (s : Store) (q : Query) : Except StoreError (List Entry) := readAll (s.select q)

def user? (s : Store) (user : Int) : Option User := s.users.find? (·.id == user)

/-- The user, who is stored with the default currency at first sight. -/
def getOrCreateUser (s : Store) (user : Int) : Store × User :=
  match s.user? user with
  | some u => (s, u)
  | none =>
    let u := ⟨user, s.defaultCurrency⟩
    ({ s with users := s.users ++ [u] }, u)

/-- Stores a user, in place of what is stored about them. -/
def updateUser (s : Store) (u : User) : Store :=
  if s.hasUser u.id then
    { s with users := s.users.map fun v => if v.id == u.id then u else v }
  else { s with users := s.users ++ [u] }

/-- The columns whose text can be overwritten. -/
inductive Column where
  | amount
  | time
  | category
  | currency
  | notes
  deriving DecidableEq

def Column.set (value : String) (r : Row) : Column → Row
  | .amount => { r with amount := value }
  | .time => { r with time := value }
  | .category => { r with category := value }
  | .currency => { r with currency := value }
  | .notes => { r with notes := value }

@[simp] theorem Column.id_set (c : Column) (value : String) (r : Row) :
    (c.set value r).id = r.id := by
  cases c <;> rfl

def Column.setAt (c : Column) (id : Int) (value : String) (r : Row) : Row :=
  if r.id == id then c.set value r else r

@[simp] theorem Column.id_setAt (c : Column) (id : Int) (value : String) (r : Row) :
    (c.setAt id value r).id = r.id := by
  rw [setAt]
  split
  · exact c.id_set value r
  · rfl

/-- Overwrites one text of a row, unchecked, and counts the rows that have the id. -/
def overwrite (s : Store) (id : Int) (column : Column) (value : String) : Store × Nat :=
  ({ s with
    rows := s.rows.map (column.setAt id value)
    rising := by
      simp only [List.pairwise_map, Column.id_setAt]
      exact s.rising
    below := by
      intro r hr
      obtain ⟨r', hr', rfl⟩ := List.mem_map.1 hr
      rw [Column.id_setAt]
      exact s.below r' hr' }, s.rows.countP (·.id == id))

end Store

end PersonalLedger
