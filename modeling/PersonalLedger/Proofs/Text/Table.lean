import Mathlib.Data.List.Forall2
import Mathlib.Data.List.Induction
import Mathlib.Order.Bounds.Basic
import PersonalLedger.Text.Table

namespace PersonalLedger.Table

/-- The characters of a line between two places. -/
def between (line : List Char) (left right : Nat) : List Char := (line.take right).drop (left + 1)

/-- A cell as it stands between two bars: its text, filled up with blanks to the width, and a blank
on either side. -/
def shownCell (width : Nat) (cell : String) : List Char :=
  ' ' :: (cell.toList ++ List.replicate (width - cell.length) ' ' ++ [' '])

/-- Whether a line shows cells in columns of these widths, each column between two edges. -/
def Shows (width edge : Nat → Nat) (cells : List String) (line : List Char) : Prop :=
  ∀ i cell, cells[i]? = some cell →
    cell.length ≤ width i ∧ between line (edge i) (edge (i + 1)) = shownCell (width i) cell

/-- Whether lines are a table of these headers and rows. All lines have a bar at each edge, and a
column is as wide as its widest cell. -/
structure IsLaid (headers : List String) (rows : List (List String)) (lines : List (List Char))
    (width edge : Nat → Nat) : Prop where
  first : edge 0 = 0
  next : ∀ i < headers.length, edge (i + 1) = edge i + width i + 3
  widest : ∀ i < headers.length, IsGreatest
    {n | ∃ row ∈ headers :: rows, ∃ cell, row[i]? = some cell ∧ cell.length = n} (width i)
  sameLength : ∀ line ∈ lines, line.length = edge headers.length + 1
  bars : ∀ chars ∈ lines, ∀ i ≤ headers.length, chars[edge i]? = some '|'
  shown : ∃ header rule body, lines = header :: rule :: body ∧ Shows width edge headers header ∧
    (∀ i < headers.length,
      between rule (edge i) (edge (i + 1)) = List.replicate (width i + 2) '-') ∧
    List.Forall₂ (Shows width edge) rows body

variable {blocks : List (List Char)} {block : List Char} {ws : List Nat} {i w : Nat}
  {cells headers : List String} {rows : List (List String)}

/-- Blocks with a bar before the first and after each. -/
def fence (blocks : List (List Char)) : List Char := '|' :: blocks.flatMap (· ++ ['|'])

/-- Where the bar after the first `i` columns of these widths stands. -/
def edgeOf : List Nat → Nat → Nat
  | _, 0 => 0
  | [], _ + 1 => 0
  | w :: ws, i + 1 => w + 3 + edgeOf ws i
termination_by structural _ i => i

/-- Whether blocks fill columns of these widths, with room for a blank on either side. -/
def Fills (ws : List Nat) (blocks : List (List Char)) : Prop :=
  List.Forall₂ (fun w block => block.length = w + 2) ws blocks

theorem fence_cons (block : List Char) (blocks : List (List Char)) :
    fence (block :: blocks) = '|' :: block ++ fence blocks := by
  simp only [fence, List.flatMap_cons, List.cons_append, List.append_assoc, List.nil_append]

theorem edgeOf_succ (h : ws[i]? = some w) : edgeOf ws (i + 1) = edgeOf ws i + w + 3 := by
  induction i generalizing ws with
  | zero =>
    cases ws with
    | nil => cases h
    | cons v ws =>
      cases h
      rw [edgeOf, edgeOf, edgeOf]
      omega
  | succ i ih =>
    cases ws with
    | nil => cases h
    | cons v ws =>
      rw [edgeOf, ih h, edgeOf]
      omega

theorem drop_fence (h : Fills ws blocks) (i : Nat) :
    (fence blocks).drop (edgeOf ws i) = fence (blocks.drop i) := by
  induction i generalizing ws blocks with
  | zero => rfl
  | succ i ih =>
    cases h with
    | nil => rfl
    | @cons w block ws blocks hw hrest =>
      have hedge : edgeOf (w :: ws) (i + 1) = ('|' :: block).length + edgeOf ws i := by
        rw [edgeOf, List.length_cons, hw]
      rw [hedge, fence_cons, List.drop_length_add_append, ih hrest]
      rfl

theorem length_fence (h : Fills ws blocks) : (fence blocks).length = edgeOf ws ws.length + 1 := by
  induction h with
  | nil => rfl
  | @cons w block ws blocks hw _ ih =>
    rw [fence_cons, List.length_append, List.length_cons, hw, ih, List.length_cons, edgeOf]
    omega

theorem bar_fence (h : Fills ws blocks) (i : Nat) : (fence blocks)[edgeOf ws i]? = some '|' := by
  have hdrop : ((fence blocks).drop (edgeOf ws i))[0]? = (fence blocks)[edgeOf ws i]? :=
    List.getElem?_drop
  rw [← hdrop, drop_fence h]
  rfl

theorem length_of_fills (h : Fills ws blocks) (hw : ws[i]? = some w)
    (hb : blocks[i]? = some block) : block.length = w + 2 := by
  obtain ⟨hiw, rfl⟩ := List.getElem?_eq_some_iff.1 hw
  obtain ⟨hib, rfl⟩ := List.getElem?_eq_some_iff.1 hb
  exact h.get hiw hib

theorem between_fence (h : Fills ws blocks) (hw : ws[i]? = some w) (hb : blocks[i]? = some block) :
    between (fence blocks) (edgeOf ws i) (edgeOf ws (i + 1)) = block := by
  have hlength := length_of_fills h hw hb
  have hright : edgeOf ws (i + 1) - (edgeOf ws i + 1) = block.length := by
    rw [edgeOf_succ hw]
    omega
  obtain ⟨hi, rfl⟩ := List.getElem?_eq_some_iff.1 hb
  calc between (fence blocks) (edgeOf ws i) (edgeOf ws (i + 1))
    _ = (((fence blocks).drop (edgeOf ws i)).drop 1).take blocks[i].length := by
      rw [between, List.drop_take, hright, List.drop_drop]
    _ = (blocks[i] ++ fence (blocks.drop (i + 1))).take blocks[i].length := by
      rw [drop_fence h, List.drop_eq_getElem_cons hi, fence_cons]
      rfl
    _ = blocks[i] := List.take_left

theorem widths_concat (headers : List String) (rows : List (List String)) (row : List String) :
    widths headers (rows ++ [row]) =
      (widths headers rows).zipWith (fun w cell => max w cell.length) row := by
  rw [widths, List.foldl_append]
  rfl

theorem length_widths (h : ∀ row ∈ rows, row.length = headers.length) :
    (widths headers rows).length = headers.length := by
  induction rows using List.reverseRecOn with
  | nil => exact List.length_map _
  | append_singleton rows row ih =>
    have hrows := ih fun row hrow => h row (List.mem_append_left _ hrow)
    have hrow := h row (List.mem_append_right _ List.mem_cons_self)
    rw [widths_concat, List.length_zipWith, hrows, hrow, Nat.min_self]

theorem isGreatest_widths (h : (widths headers rows)[i]? = some w) : IsGreatest
    {n | ∃ row ∈ headers :: rows, ∃ cell, row[i]? = some cell ∧ cell.length = n} w := by
  induction rows using List.reverseRecOn generalizing w with
  | nil =>
    rw [widths, List.foldl_nil, List.getElem?_map, Option.map_eq_some_iff] at h
    obtain ⟨cell, hcell, rfl⟩ := h
    refine ⟨⟨headers, List.mem_cons_self, cell, hcell, rfl⟩, ?_⟩
    rintro n ⟨row, hrow, other, hother, rfl⟩
    cases List.mem_singleton.1 hrow
    rw [hcell] at hother
    cases hother
    exact Nat.le_refl _
  | append_singleton rows row ih =>
    rw [widths_concat, List.getElem?_zipWith_eq_some] at h
    obtain ⟨w, cell, hw, hcell, rfl⟩ := h
    obtain ⟨⟨widest, hmem, text, htext, he⟩, hle⟩ := ih hw
    constructor
    · rcases Nat.le_total w cell.length with hlt | hlt
      · rw [Nat.max_eq_right hlt]
        exact ⟨row, List.mem_append_right (headers :: rows) List.mem_cons_self, cell, hcell, rfl⟩
      · rw [Nat.max_eq_left hlt]
        exact ⟨widest, List.mem_append_left [row] hmem, text, htext, he⟩
    · rintro n ⟨other, hother, text, htext, rfl⟩
      rcases List.mem_append.1 (List.cons_append ▸ hother) with hold | hnew
      · exact Nat.le_trans (hle ⟨other, hold, text, htext, rfl⟩) (Nat.le_max_left _ _)
      · cases List.mem_singleton.1 hnew
        rw [hcell] at htext
        cases htext
        exact Nat.le_max_right _ _

theorem toList_rowLine (ws : List Nat) (cells : List String) :
    (rowLine ws cells).toList = fence (List.zipWith shownCell ws cells) := by
  have hcell (w : Nat) (cell : String) :
      (cellText w cell).toList = shownCell w cell ++ ['|'] := by
    simp only [cellText, shownCell, String.toList_append, String.toList_ofList, List.append_assoc,
      List.cons_append]
    rfl
  simp only [rowLine, String.toList_append, String.toList_join, fence, List.flatMap_def,
    List.map_zipWith, hcell]
  rfl

theorem toList_ruleLine (ws : List Nat) :
    (ruleLine ws).toList = fence (ws.map fun w => List.replicate (w + 2) '-') := by
  simp only [ruleLine, String.toList_append, String.toList_join, fence, List.flatMap_map,
    String.toList_ofList]
  rfl

def Fits (ws : List Nat) (cells : List String) : Prop :=
  List.Forall₂ (fun w cell => String.length cell ≤ w) ws cells

theorem length_shownCell {cell : String} (h : cell.length ≤ w) :
    (shownCell w cell).length = w + 2 := by
  rw [shownCell, List.length_cons, List.length_append, List.length_append, String.length_toList,
    List.length_replicate, List.length_singleton]
  omega

theorem fills_of_fits (h : Fits ws cells) : Fills ws (List.zipWith shownCell ws cells) := by
  induction h with
  | nil => exact .nil
  | cons hw _ ih => exact .cons (length_shownCell hw) ih

theorem fills_rule (ws : List Nat) : Fills ws (ws.map fun w => List.replicate (w + 2) '-') := by
  rw [Fills, List.forall₂_map_right_iff, List.forall₂_same]
  exact fun w _ => List.length_replicate

theorem fits_widths {row : List String} (h : ∀ row ∈ rows, row.length = headers.length)
    (hrow : row ∈ headers :: rows) : Fits (widths headers rows) row := by
  have hlength : row.length = headers.length := by
    rcases List.mem_cons.1 hrow with rfl | hrow
    · rfl
    · exact h row hrow
  apply List.forall₂_iff_get.2
  refine ⟨(length_widths h).trans hlength.symm, ?_⟩
  intro i hw hi
  exact (isGreatest_widths (List.getElem?_eq_getElem _)).2
    ⟨row, hrow, _, List.getElem?_eq_getElem _, rfl⟩

theorem shows_rowLine (h : Fits ws cells) :
    Shows (ws.getD · 0) (edgeOf ws) cells (rowLine ws cells).toList := by
  intro i cell hcell
  obtain ⟨hlength, hfits⟩ := List.forall₂_iff_get.1 h
  obtain ⟨hi, rfl⟩ := List.getElem?_eq_some_iff.1 hcell
  have hw := List.getElem?_eq_getElem (hlength ▸ hi)
  simp only [List.getD_eq_getElem?_getD, hw, Option.getD_some, toList_rowLine]
  refine ⟨hfits i _ hi, between_fence (fills_of_fits h) hw ?_⟩
  exact List.getElem?_zipWith_eq_some.2 ⟨_, _, hw, hcell, rfl⟩

theorem between_ruleLine (h : ws[i]? = some w) :
    between (ruleLine ws).toList (edgeOf ws i) (edgeOf ws (i + 1)) = List.replicate (w + 2) '-' := by
  rw [toList_ruleLine]
  apply between_fence (fills_rule ws) h
  rw [List.getElem?_map, h, Option.map_some]

theorem getElem?_widths (h : ∀ row ∈ rows, row.length = headers.length)
    (hi : i < headers.length) :
    (widths headers rows)[i]? = some ((widths headers rows).getD i 0) := by
  rw [← length_widths h] at hi
  rw [List.getD_eq_getElem?_getD, List.getElem?_eq_getElem hi, Option.getD_some]

theorem of_mem_lines {line : String} (h : line ∈ lines headers rows) :
    (∃ row ∈ headers :: rows, line = rowLine (widths headers rows) row) ∨
      line = ruleLine (widths headers rows) := by
  rw [lines] at h
  rcases List.mem_cons.1 h with rfl | h
  · exact .inl ⟨headers, List.mem_cons_self, rfl⟩
  rcases List.mem_cons.1 h with rfl | h
  · exact .inr rfl
  · obtain ⟨row, hrow, rfl⟩ := List.mem_map.1 h
    exact .inl ⟨row, List.mem_cons_of_mem _ hrow, rfl⟩

section Lines

variable (h : ∀ row ∈ rows, row.length = headers.length)

include h

/-- Every line of a table is a fence around blocks that fill the columns. -/
theorem exists_fills_of_mem_lines {line : List Char}
    (hline : line ∈ (lines headers rows).map String.toList) :
    ∃ blocks, Fills (widths headers rows) blocks ∧ line = fence blocks := by
  obtain ⟨text, htext, rfl⟩ := List.mem_map.1 hline
  rcases of_mem_lines htext with ⟨row, hrow, rfl⟩ | rfl
  · exact ⟨_, fills_of_fits (fits_widths h hrow), toList_rowLine _ _⟩
  · exact ⟨_, fills_rule _, toList_ruleLine _⟩

theorem isLaid_lines : IsLaid headers rows ((lines headers rows).map String.toList)
    ((widths headers rows).getD · 0) (edgeOf (widths headers rows)) where
  first := rfl
  next i hi := edgeOf_succ (getElem?_widths h hi)
  widest i hi := isGreatest_widths (getElem?_widths h hi)
  sameLength := by
    intro line hline
    obtain ⟨blocks, hblocks, rfl⟩ := exists_fills_of_mem_lines h hline
    rw [length_fence hblocks, length_widths h]
  bars := by
    intro line hline i _
    obtain ⟨blocks, hblocks, rfl⟩ := exists_fills_of_mem_lines h hline
    exact bar_fence hblocks i
  shown := by
    refine ⟨_, _, _, rfl, shows_rowLine (fits_widths h List.mem_cons_self), ?_, ?_⟩
    · intro i hi
      exact between_ruleLine (getElem?_widths h hi)
    · rw [List.map_map, List.forall₂_map_right_iff, List.forall₂_same]
      intro row hrow
      exact shows_rowLine (fits_widths h (List.mem_cons_of_mem _ hrow))

end Lines

theorem newline_not_mem_fence (h : ∀ block ∈ blocks, '\n' ∉ block) : '\n' ∉ fence blocks := by
  intro hmem
  rcases List.mem_cons.1 hmem with he | hmem
  · cases he
  · obtain ⟨block, hblock, hmem⟩ := List.mem_flatMap.1 hmem
    rcases List.mem_append.1 hmem with hmem | hmem
    · exact h block hblock hmem
    · cases List.mem_singleton.1 hmem

theorem newline_not_mem_shownCell {cell : String} (h : '\n' ∉ cell.toList) :
    '\n' ∉ shownCell w cell := by
  simp [shownCell, h]

theorem newline_not_mem_rowLine (h : ∀ cell ∈ cells, '\n' ∉ cell.toList) :
    '\n' ∉ (rowLine ws cells).toList := by
  rw [toList_rowLine]
  apply newline_not_mem_fence
  intro block hblock
  obtain ⟨i, hi⟩ := List.mem_iff_getElem?.1 hblock
  obtain ⟨w, cell, -, hcell, rfl⟩ := List.getElem?_zipWith_eq_some.1 hi
  exact newline_not_mem_shownCell (h cell (List.mem_of_getElem? hcell))

theorem newline_not_mem_ruleLine (ws : List Nat) : '\n' ∉ (ruleLine ws).toList := by
  rw [toList_ruleLine]
  apply newline_not_mem_fence
  intro block hblock hmem
  obtain ⟨w, -, rfl⟩ := List.mem_map.1 hblock
  cases List.eq_of_mem_replicate hmem

theorem splitOn_render (h : ∀ row ∈ headers :: rows, ∀ cell ∈ row, '\n' ∉ cell.toList) :
    (render headers rows).toList.splitOn '\n' = (lines headers rows).map String.toList := by
  have hlines : ∀ line ∈ (lines headers rows).map String.toList, '\n' ∉ line := by
    intro line hline
    obtain ⟨text, htext, rfl⟩ := List.mem_map.1 hline
    rcases of_mem_lines htext with ⟨row, hrow, rfl⟩ | rfl
    · exact newline_not_mem_rowLine (h row hrow)
    · exact newline_not_mem_ruleLine _
  rw [render, String.toList_intercalate]
  exact List.splitOn_intercalate '\n' hlines (List.cons_ne_nil _ _)

end PersonalLedger.Table
