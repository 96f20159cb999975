import PersonalLedger.Proofs.Decimal.RoundTrip
import PersonalLedger.Proofs.Text.Table
import PersonalLedger.Proofs.Totals.Grouping
import PersonalLedger.Reply

namespace PersonalLedger

open Text

namespace Text

def OneLine (text : String) : Prop := '\n' ∉ text.toList

instance : DecidablePred OneLine := fun _ => inferInstanceAs (Decidable (¬ _))

variable {a b : String} {cs : List Char}

theorem OneLine.append (ha : OneLine a) (hb : OneLine b) : OneLine (a ++ b) := by
  rw [OneLine, String.toList_append]
  exact List.not_mem_append ha hb

theorem oneLine_ofList (h : '\n' ∉ cs) : OneLine (.ofList cs) := by
  rwa [OneLine, String.toList_ofList]

theorem newline_not_mem_padded (width n : Nat) : '\n' ∉ padded width n :=
  not_mem_of_forall_isDigit (fun _ => isDigit_of_mem_padded) rfl

theorem oneLine_natString (n : Nat) : OneLine (natString n) :=
  oneLine_ofList (not_mem_of_forall_isDigit (fun _ => isDigit_of_mem_natText) rfl)

theorem oneLine_intString (n : Int) : OneLine (intString n) :=
  oneLine_ofList (not_mem_intText rfl (by decide) n)

def lines (text : String) : List (List Char) := text.toList.splitOn '\n'

theorem lines_append {head : String} (h : OneLine head) (text : String) :
    lines (head ++ "\n" ++ text) = head.toList :: lines text := by
  rw [lines, String.append_assoc, String.toList_append, String.toList_append]
  exact List.splitOn_append_cons_self_of_not_mem h text.toList

end Text

namespace Timestamp

theorem newline_not_mem_yearText (year : Int) : '\n' ∉ yearText year := by
  rw [yearText]
  split
  · exact newline_not_mem_padded _ _
  · rw [List.mem_cons, not_or]
    refine ⟨?_, newline_not_mem_padded _ _⟩
    split <;> decide

theorem oneLine_dayText (zone : Zone) (t : Instant) : OneLine (dayText zone t) := by
  apply oneLine_ofList
  simp only [List.mem_append, List.mem_cons, newline_not_mem_padded,
    newline_not_mem_yearText, or_false, false_or]
  decide

theorem oneLine_monthName (month : Nat) : OneLine (monthNames.getD month "") := by
  by_cases h : month < 12
  · have hall : ∀ month < 12, OneLine (monthNames.getD month "") := by decide
    exact hall month h
  · rw [List.getD_eq_getElem?_getD, List.getElem?_eq_none (Nat.not_lt.1 h)]
    decide

theorem oneLine_minuteText (zone : Zone) (t : Instant) : OneLine (minuteText zone t) := by
  apply oneLine_ofList
  have hmonth := oneLine_monthName ((zone.localDate t).written.month - 1)
  rw [OneLine] at hmonth
  simp only [List.mem_append, List.mem_cons, newline_not_mem_padded,
    newline_not_mem_yearText, hmonth, or_false, false_or]
  decide

end Timestamp

theorem Table.isLaid_render {headers : List String} {rows : List (List String)}
    (h : ∀ row ∈ rows, row.length = headers.length)
    (hone : ∀ row ∈ headers :: rows, ∀ cell ∈ row, OneLine cell) :
    ∃ width edge, IsLaid headers rows (Text.lines (render headers rows)) width edge := by
  rw [Text.lines, splitOn_render hone]
  exact ⟨_, _, isLaid_lines h⟩

namespace GroupKey

variable {a b c : GroupKey}

theorem not_lt_trans (h : b.lt a = false) (h' : c.lt b = false) : c.lt a = false := by
  rw [← Bool.not_eq_true] at h h' ⊢
  intro hlt
  by_cases he : b = a
  · exact h' (he ▸ hlt)
  · exact h' (lt_trans hlt (lt_of_not_lt he h))

theorem not_lt_total (a b : GroupKey) : b.lt a = false ∨ a.lt b = false := by
  cases hb : b.lt a with
  | false => exact .inl rfl
  | true => exact .inr (lt_asymm hb)

end GroupKey

/-- Whether groups are put in the order of their keys, and those of one key stay in their order. -/
structure Group.Ordered (groups ordered : List Group) : Prop where
  perm : ordered.Perm groups
  rising : ordered.Pairwise fun g g' => g'.key.lt g.key = false
  stable : ∀ key, (ordered.filter fun g => g.key = key) = groups.filter fun g => g.key = key

theorem Group.ordered_mergeSort (groups : List Group) :
    Group.Ordered groups (groups.mergeSort fun g g' => !g'.key.lt g.key) := by
  have htrans : ∀ g g' g'' : Group, (!g'.key.lt g.key) = true → (!g''.key.lt g'.key) = true →
      (!g''.key.lt g.key) = true := by
    simp only [Bool.not_eq_true']
    exact fun _ _ _ => GroupKey.not_lt_trans
  have htotal : ∀ g g' : Group, (!g'.key.lt g.key || !g.key.lt g'.key) = true := by
    simp only [Bool.or_eq_true, Bool.not_eq_true']
    exact fun g g' => GroupKey.not_lt_total g.key g'.key
  have hperm := List.mergeSort_perm groups fun g g' => !g'.key.lt g.key
  refine ⟨hperm, ?_, ?_⟩
  · have hsorted := List.pairwise_mergeSort htrans htotal groups
    simp only [Bool.not_eq_true'] at hsorted
    exact hsorted
  · intro key
    have hsame : (groups.filter fun g => g.key = key).Pairwise fun g g' =>
        (!g'.key.lt g.key) = true := by
      apply List.pairwise_iff_forall_sublist.2
      intro g g' hpair
      have hg := List.mem_filter.1 (hpair.subset List.mem_cons_self)
      have hg' := List.mem_filter.1 (hpair.subset (List.mem_cons_of_mem g List.mem_cons_self))
      rw [of_decide_eq_true hg.2, of_decide_eq_true hg'.2, Bool.not_eq_true']
      exact (GroupKey.not_lt_total key key).elim id id
    have hsub := (List.sublist_mergeSort htrans htotal hsame List.filter_sublist).filter
      fun g => decide (g.key = key)
    simp only [List.filter_filter, Bool.and_self] at hsub
    exact (hsub.eq_of_length ((hperm.filter _).length_eq).symm).symm

structure Entry.IsOneLine (e : Entry) : Prop where
  category : OneLine e.category
  currency : OneLine e.currency
  notes : OneLine e.notes

structure Group.IsOneLine (g : Group) : Prop where
  category : OneLine g.key.category
  currency : ∀ code ∈ g.key.currency, OneLine code

inductive Outcome.ShowsEntries : Outcome → List Entry → Prop where
  | added {entries : List Entry} : ShowsEntries (.added entries) entries
  | removed {entries : List Entry} : ShowsEntries (.removed entries) entries
  | listed {l : Listing} {entries : List Entry} (nonempty : entries ≠ []) :
    ShowsEntries (.listed l entries none) entries

/-- Whether an outcome is shown as a table of groups; the currency is that of groups without one. -/
inductive Outcome.ShowsTotals : Outcome → Option String → List Group → Prop where
  | listed {l : Listing} {entries : List Entry} {groups : List Group} (nonempty : entries ≠ []) :
    ShowsTotals (.listed l entries (some groups)) l.currency groups

namespace Reply

variable {zone : Zone} {entries : List Entry} {groups : List Group} {currency : Option String}
  {reply : Reply} {o : Outcome} {cell : String}

theorem oneLine_countText (n : Nat) : OneLine (countText n) := by
  rw [countText]
  split
  · decide
  · exact (oneLine_natString n).append (by decide)

theorem oneLine_amountText (amount : Decimal) : OneLine (amountText amount) :=
  oneLine_ofList (Decimal.not_mem_fixedText rfl (by decide) (by decide) amount 2)

theorem oneLine_entryCells {e : Entry} (h : e.IsOneLine) (hc : cell ∈ entryCells zone e) :
    OneLine cell := by
  rw [entryCells] at hc
  simp only [List.mem_cons, List.not_mem_nil, or_false] at hc
  rcases hc with rfl | rfl | rfl | rfl | rfl
  · exact oneLine_intString e.id
  · exact h.category
  · exact ((oneLine_amountText e.amount).append (by decide)).append h.currency
  · exact h.notes
  · exact Timestamp.oneLine_minuteText zone e.time

theorem oneLine_groupCells {g : Group} (h : g.IsOneLine) (hcode : ∀ code ∈ currency, OneLine code)
    (hc : cell ∈ groupCells currency g) : OneLine cell := by
  rw [groupCells] at hc
  simp only [List.mem_cons, List.not_mem_nil, or_false] at hc
  rcases hc with rfl | rfl | rfl
  · exact h.category
  · have hamount := oneLine_amountText g.total
    have hlabel (code : String) (hcode : OneLine code) :
        OneLine (amountText g.total ++ " " ++ code) := (hamount.append (by decide)).append hcode
    cases hkey : g.key.currency with
    | some code => exact hlabel code (h.currency code hkey)
    | none =>
      cases currency with
      | some code => exact hlabel code (hcode code rfl)
      | none => exact hamount
  · exact oneLine_natString g.count

theorem isLaid_entryTable (zone : Zone) (h : ∀ e ∈ entries, e.IsOneLine) :
    ∃ width edge, Table.IsLaid ["ID", "Category", "Amount", "Notes", "At"]
      (entries.map (entryCells zone)) (Text.lines (entryTable zone entries)) width edge := by
  apply Table.isLaid_render
  · intro row hrow
    obtain ⟨e, -, rfl⟩ := List.mem_map.1 hrow
    simp only [entryCells, List.length_cons]
  · intro row hrow
    rcases List.mem_cons.1 hrow with rfl | hrow
    · decide
    · obtain ⟨e, he, rfl⟩ := List.mem_map.1 hrow
      exact fun cell hcell => oneLine_entryCells (h e he) hcell

theorem isLaid_groupTable (h : ∀ g ∈ groups, g.IsOneLine)
    (hcode : ∀ code ∈ currency, OneLine code) :
    ∃ ordered width edge, Group.Ordered groups ordered ∧
      Table.IsLaid ["Category", "Total", "Count"] (ordered.map (groupCells currency))
        (Text.lines (groupTable currency groups)) width edge := by
  have hordered := Group.ordered_mergeSort groups
  obtain ⟨width, edge, hlaid⟩ : ∃ width edge, Table.IsLaid ["Category", "Total", "Count"]
      ((groups.mergeSort fun g g' => !g'.key.lt g.key).map (groupCells currency))
      (Text.lines (groupTable currency groups)) width edge := by
    apply Table.isLaid_render
    · intro row hrow
      obtain ⟨g, -, rfl⟩ := List.mem_map.1 hrow
      simp only [groupCells, List.length_cons]
    · intro row hrow
      rcases List.mem_cons.1 hrow with rfl | hrow
      · decide
      · obtain ⟨g, hg, rfl⟩ := List.mem_map.1 hrow
        exact fun cell hcell => oneLine_groupCells (h g (hordered.perm.mem_iff.1 hg)) hcode hcell
  exact ⟨_, width, edge, hordered, hlaid⟩

theorem render_of_eq_ok (zone : Zone) (h : reply.result = .ok o) :
    reply.render zone = outcomeText zone o := by
  rw [render, h]

theorem listText_entries (l : Listing) (h : entries ≠ []) :
    listText zone l entries none =
      countText entries.length ++ " since " ++ Timestamp.dayText zone l.first ++ "\n" ++
        entryTable zone entries := by
  rw [listText, if_neg (mt List.isEmpty_iff.1 h)]

theorem listText_groups (l : Listing) (h : entries ≠ []) (groups : List Group) :
    listText zone l entries (some groups) =
      "Totals since " ++ Timestamp.dayText zone l.first ++ "\n" ++
        groupTable l.currency groups := by
  rw [listText, if_neg (mt List.isEmpty_iff.1 h)]

theorem exists_head_of_showsEntries (zone : Zone) (h : reply.result = .ok o)
    (ho : o.ShowsEntries entries) :
    ∃ head, OneLine head ∧ reply.render zone = head ++ "\n" ++ entryTable zone entries := by
  rw [render_of_eq_ok zone h]
  cases ho with
  | added => exact ⟨_, OneLine.append (by decide) (oneLine_countText _), rfl⟩
  | removed => exact ⟨_, OneLine.append (by decide) (oneLine_countText _), rfl⟩
  | listed nonempty =>
    refine ⟨_, ?_, listText_entries _ nonempty⟩
    exact ((oneLine_countText _).append (by decide)).append (Timestamp.oneLine_dayText _ _)

theorem exists_head_of_showsTotals (zone : Zone) (h : reply.result = .ok o)
    (ho : o.ShowsTotals currency groups) :
    ∃ head, OneLine head ∧ reply.render zone = head ++ "\n" ++ groupTable currency groups := by
  rw [render_of_eq_ok zone h]
  cases ho with
  | listed nonempty =>
    refine ⟨_, ?_, listText_groups _ nonempty _⟩
    exact OneLine.append (by decide) (Timestamp.oneLine_dayText _ _)

/-- Behind its first line a reply with entries is their table, and one with totals is the table of
these in the order of their keys. -/
theorem render_table (h : reply.result = .ok o) (zone : Zone) :
    (∀ entries, o.ShowsEntries entries → (∀ e ∈ entries, e.IsOneLine) →
      ∃ head lines width edge, Text.lines (reply.render zone) = head :: lines ∧
        Table.IsLaid ["ID", "Category", "Amount", "Notes", "At"] (entries.map (entryCells zone))
          lines width edge) ∧
    (∀ currency groups, o.ShowsTotals currency groups → (∀ code ∈ currency, OneLine code) →
      (∀ g ∈ groups, g.IsOneLine) →
      ∃ head lines ordered width edge, Text.lines (reply.render zone) = head :: lines ∧
        Group.Ordered groups ordered ∧
        Table.IsLaid ["Category", "Total", "Count"] (ordered.map (groupCells currency))
          lines width edge) := by
  constructor
  · intro entries hshows hone
    obtain ⟨head, hhead, htext⟩ := exists_head_of_showsEntries zone h hshows
    obtain ⟨width, edge, hlaid⟩ := isLaid_entryTable zone hone
    exact ⟨_, _, width, edge, htext ▸ Text.lines_append hhead _, hlaid⟩
  · intro currency groups hshows hcode hone
    obtain ⟨head, hhead, htext⟩ := exists_head_of_showsTotals zone h hshows
    obtain ⟨ordered, width, edge, hordered, hlaid⟩ := isLaid_groupTable hone hcode
    exact ⟨_, _, ordered, width, edge, htext ▸ Text.lines_append hhead _, hordered, hlaid⟩

/-- Notes with a bar and a letter of two bytes stand whole in their column, beside notes of another
length; the totals of these entries come in the other order than the groups. -/
theorem render_table_bar :
    let e : Entry :=
      { id := 7, user := 1, category := "Groceries", currency := "EUR", hash := "",
        amount := ⟨false, 450, 2, by decide, by decide⟩, notes := "café | tea",
        time := .ofSeconds 1742032800 }
    let e' : Entry :=
      { id := 12, user := 1, category := "Dining", currency := "NZD", hash := "",
        amount := ⟨true, 1234, 0, by decide, by decide⟩, notes := "",
        time := .ofSeconds 1742032859 }
    let g : Group := ⟨⟨"Groceries", none⟩, e.amount, 1⟩
    let g' : Group := ⟨⟨"Dining", some "NZD"⟩, e'.amount, 1⟩
    let l : Listing := ⟨.ofSeconds 1740700800, e'.time, none, some "EUR", true, 100⟩
    let added : Reply := ⟨.add, .ok (.added [e, e'])⟩
    let totals : Reply := ⟨.list, .ok (.listed l [e, e'] (some [g, g']))⟩
    ((∀ x ∈ [e, e'], x.IsOneLine) ∧ (∀ code ∈ l.currency, OneLine code) ∧
        ∀ x ∈ [g, g'], x.IsOneLine) ∧
      (∃ head lines width edge, Text.lines (added.render (.fixed 0)) = head :: lines ∧
        Table.IsLaid ["ID", "Category", "Amount", "Notes", "At"]
          [["7", "Groceries", "4.50 EUR", "café | tea", "15-Mar-2025 10:00"],
            ["12", "Dining", "-1234.00 NZD", "", "15-Mar-2025 10:00"]] lines width edge) ∧
      ∃ head lines ordered width edge, Text.lines (totals.render (.fixed 0)) = head :: lines ∧
        Group.Ordered [g, g'] ordered ∧
        Table.IsLaid ["Category", "Total", "Count"] (ordered.map (groupCells l.currency))
          lines width edge := by
  intro e e' g g' l added totals
  have he : ∀ x ∈ [e, e'], x.IsOneLine :=
    List.forall_mem_cons.2 ⟨⟨by decide, by decide, by decide⟩,
      List.forall_mem_singleton.2 ⟨by decide, by decide, by decide⟩⟩
  have hg : ∀ x ∈ [g, g'], x.IsOneLine :=
    List.forall_mem_cons.2 ⟨⟨by decide, by decide⟩,
      List.forall_mem_singleton.2 ⟨by decide, by decide⟩⟩
  have hcode : ∀ code ∈ l.currency, OneLine code := by decide
  have hadded : added.result = .ok (.added [e, e']) := rfl
  have htotals : totals.result = .ok (.listed l [e, e'] (some [g, g'])) := rfl
  have hlaid := (render_table hadded (.fixed 0)).1 [e, e'] .added he
  have hcells : [e, e'].map (entryCells (.fixed 0)) =
      [["7", "Groceries", "4.50 EUR", "café | tea", "15-Mar-2025 10:00"],
        ["12", "Dining", "-1234.00 NZD", "", "15-Mar-2025 10:00"]] := by decide
  rw [hcells] at hlaid
  exact ⟨⟨he, hcode, hg⟩, hlaid, (render_table htotals (.fixed 0)).2 l.currency [g, g']
    (.listed (List.cons_ne_nil e [e'])) hcode hg⟩

end Reply

end PersonalLedger
