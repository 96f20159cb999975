namespace PersonalLedger.Table

def widths (headers : List String) (rows : List (List String)) : List Nat :=
  rows.foldl (fun ws row => ws.zipWith (fun w cell => max w (String.length cell)) row)
    (headers.map String.length)

def cellText (width : Nat) (cell : String) : String :=
  " " ++ cell ++ String.ofList (List.replicate (width - cell.length) ' ') ++ " |"

def rowLine (widths : List Nat) (cells : List String) : String :=
  "|" ++ String.join (List.zipWith cellText widths cells)

def ruleLine (widths : List Nat) : String :=
  "|" ++ String.join (widths.map fun w => String.ofList (List.replicate (w + 2) '-') ++ "|")

/-- The lines of a table whose rows have one cell for each header. -/
def lines (headers : List String) (rows : List (List String)) : List String :=
  let ws := widths headers rows
  rowLine ws headers :: ruleLine ws :: rows.map (rowLine ws)

def render (headers : List String) (rows : List (List String)) : String :=
  "\n".intercalate (lines headers rows)

end PersonalLedger.Table
