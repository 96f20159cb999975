import PersonalLedger.Command.AddRequest
import PersonalLedger.Proofs.Command.Amount
import PersonalLedger.Proofs.Registry

namespace PersonalLedger

open Text

namespace AddRequest

variable {body code amount word : String} {ws notes extra ending : List String}
  {category : Category} {values : List Decimal} {currency : Option String} {request : AddRequest}
  {e : Failure}

theorem toList_marker (code : String) : ("$" ++ code).toList = '$' :: code.toList :=
  String.toList_append

/-- The words that may end a request behind its notes, where `marks` says which codes stand for which
currencies: none, unless the last note would be taken for a marker, or the marker of a currency. -/
inductive Ending (marks : String → Currency → Prop) (notes : List String) :
    List String → Option String → Prop where
  | absent (plain : ∀ note, notes.getLast? = some note → ¬ Registry.IsMarker note) :
    Ending marks notes [] none
  | marker {code : String} {currency : Currency} (h : marks code currency) :
    Ending marks notes ["$" ++ code] (some currency.code)

/-- The currencies as they are looked up. -/
def Marks (code : String) (currency : Currency) : Prop := Registry.currency? code = some currency

theorem Ending.mono {marks marks' : String → Currency → Prop}
    (h : ∀ code currency, marks code currency → marks' code currency)
    (he : Ending marks notes ending currency) : Ending marks' notes ending currency := by
  cases he with
  | absent plain => exact .absent plain
  | marker hm => exact .marker (h _ _ hm)

theorem notesAndCurrency_of_ending (h : Ending Marks notes ending currency) :
    notesAndCurrency (notes ++ ending) = .ok (notes, currency) := by
  cases h with
  | absent plain =>
    rw [List.append_nil, notesAndCurrency]
    cases hl : notes.getLast? with
    | none => rfl
    | some note =>
      rw [Option.map_some, Registry.marker_of_not_isMarker (plain note hl)]
  | @marker code currency hm =>
    have hmarker : Registry.marker ("$" ++ code) = .supported currency :=
      Registry.marker_eq_supported_iff.2 ⟨code, toList_marker code, hm⟩
    rw [notesAndCurrency, List.getLast?_concat, Option.map_some, hmarker, List.dropLast_concat]

theorem notesAndCurrency_of_unsupported (hne : code ≠ "") (h : Registry.currency? code = none) :
    notesAndCurrency (notes ++ ["$" ++ code]) = .error (.unsupportedCurrency code) := by
  rw [notesAndCurrency, List.getLast?_concat, Option.map_some,
    Registry.marker_of_currency?_eq_none hne (toList_marker code) h]

theorem eq_marker (h : word.toList = '$' :: code.toList) : word = "$" ++ code := by
  rw [← String.toList_inj, h, toList_marker]

theorem ending_or_unsupported (extra : List String) :
    (∃ notes ending currency, extra = notes ++ ending ∧ Ending Marks notes ending currency) ∨
      ∃ notes code, extra = notes ++ ["$" ++ code] ∧ code ≠ "" ∧
        Registry.currency? code = none := by
  rcases List.eq_nil_or_concat extra with rfl | ⟨notes, word, rfl⟩
  · left
    refine ⟨[], [], none, rfl, .absent ?_⟩
    intro note hl
    cases hl
  · rw [List.concat_eq_append]
    by_cases hm : Registry.IsMarker word
    · obtain ⟨code, hne, hw⟩ := hm
      obtain rfl := eq_marker hw
      cases hc : Registry.currency? code with
      | none => exact .inr ⟨notes, code, rfl, hne, hc⟩
      | some currency => exact .inl ⟨notes, ["$" ++ code], some currency.code, rfl, .marker hc⟩
    · left
      refine ⟨notes ++ [word], [], none, (List.append_nil _).symm, .absent ?_⟩
      intro note hl
      rw [List.getLast?_concat, Option.some_inj] at hl
      exact hl ▸ hm

/-- What is asked for by words: a category, amounts, notes and perhaps a currency. -/
inductive Asks : List String → AddRequest → Prop where
  | intro {code amount : String} {category : Category} {values : List Decimal}
    {notes ending : List String} {currency : Option String}
    (found : Registry.category? code = some category) (reads : Amount.parse amount = .ok values)
    (ends : Ending Marks notes ending currency) :
    Asks (code :: amount :: (notes ++ ending))
      ⟨category.name, values, " ".intercalate notes, currency⟩

/-- Why a body with these words is refused: for the first of its parts that is wrong. -/
inductive Refuses (body : String) : List String → Failure → Prop where
  | short {ws : List String} (h : ws.length < 2) : Refuses body ws
    (.invalidFormat ("expected a category and an amount, got " ++ quoted body))
  | category {code amount : String} {extra : List String}
    (missing : Registry.category? code = none) :
    Refuses body (code :: amount :: extra) (.unknownCategory code)
  | amount {code amount text : String} {category : Category} {extra : List String}
    (found : Registry.category? code = some category)
    (unread : Amount.parse amount = .error (.invalidAmount text)) :
    Refuses body (code :: amount :: extra) (.invalidAmount text)
  | currency {code amount mark : String} {category : Category} {values : List Decimal}
    {notes : List String} (found : Registry.category? code = some category)
    (reads : Amount.parse amount = .ok values) (nonempty : mark ≠ "")
    (missing : Registry.currency? mark = none) :
    Refuses body (code :: amount :: (notes ++ ["$" ++ mark])) (.unsupportedCurrency mark)

theorem parse_of_asks (h : Asks (words body) request) : parse body = .ok request := by
  generalize hw : words body = ws at h
  cases h with
  | intro found reads ends =>
    rw [parse, hw]
    simp only [found, reads, notesAndCurrency_of_ending ends, bind, Except.bind]

theorem parse_of_refuses (h : Refuses body (words body) e) : parse body = .error e := by
  generalize hw : words body = ws at h
  cases h with
  | short hlt =>
    rw [parse, hw]
    split
    · rw [List.length_cons, List.length_cons] at hlt
      omega
    · rfl
  | category missing =>
    rw [parse, hw]
    simp only [missing]
  | amount found unread =>
    rw [parse, hw]
    simp only [found, unread, bind, Except.bind]
  | currency found reads hne missing =>
    rw [parse, hw]
    simp only [found, reads, notesAndCurrency_of_unsupported hne missing, bind, Except.bind]

theorem asks_or_refuses (body : String) (ws : List String) :
    (∃ request, Asks ws request) ∨ ∃ e, Refuses body ws e := by
  match ws with
  | [] | [_] => exact .inr ⟨_, .short (by simp)⟩
  | code :: amount :: extra =>
    cases hc : Registry.category? code with
    | none => exact .inr ⟨_, .category hc⟩
    | some category =>
      cases ha : Amount.parse amount with
      | error e =>
        obtain ⟨text, rfl⟩ := Amount.exists_of_parse_eq_error ha
        exact .inr ⟨_, .amount hc ha⟩
      | ok values =>
        rcases ending_or_unsupported extra with
          ⟨notes, ending, currency, rfl, hends⟩ | ⟨notes, mark, rfl, hne, hmissing⟩
        · exact .inl ⟨_, .intro hc ha hends⟩
        · exact .inr ⟨_, .currency hc ha hne hmissing⟩

theorem parse_eq_ok_iff : parse body = .ok request ↔ Asks (words body) request := by
  refine ⟨fun h => ?_, parse_of_asks⟩
  rcases asks_or_refuses body (words body) with ⟨asked, hasks⟩ | ⟨e, hrefuses⟩
  · rw [parse_of_asks hasks] at h
    cases h
    exact hasks
  · rw [parse_of_refuses hrefuses] at h
    cases h

theorem parse_eq_error_iff : parse body = .error e ↔ Refuses body (words body) e := by
  refine ⟨fun h => ?_, parse_of_refuses⟩
  rcases asks_or_refuses body (words body) with ⟨asked, hasks⟩ | ⟨found, hrefuses⟩
  · rw [parse_of_asks hasks] at h
    cases h
  · rw [parse_of_refuses hrefuses] at h
    cases h
    exact hrefuses

/-- What is read for a request: one part of the words after the other. -/
theorem of_parse (h : parse body = .ok request) :
    ∃ code amounts extra category values notes currency,
      words body = code :: amounts :: extra ∧ Registry.category? code = some category ∧
        Amount.parse amounts = .ok values ∧ notesAndCurrency extra = .ok (notes, currency) ∧
        request = ⟨category.name, values, " ".intercalate notes, currency⟩ := by
  have hasks := parse_eq_ok_iff.1 h
  generalize words body = ws at hasks
  cases hasks with
  | intro found reads ends =>
    exact ⟨_, _, _, _, _, _, _, rfl, found, reads, notesAndCurrency_of_ending ends, rfl⟩

def MarksTyped (code : String) (currency : Currency) : Prop :=
  currency ∈ Registry.currencies ∧ Registry.SameLetters code currency.code

/-- The words that a request may be typed as, the codes in any letter case. -/
inductive Typed : List String → AddRequest → Prop where
  | intro {code amount : String} {category : Category} {values : List Decimal}
    {notes ending : List String} {currency : Option String}
    (listed : category ∈ Registry.categories)
    (named : Registry.SameLetters code category.shortName)
    (unbroken : ∀ c ∈ amount.toList, isBlank c = false) (reads : Amount.parse amount = .ok values)
    (words : ∀ note ∈ notes, IsWord note.toList) (ends : Ending MarksTyped notes ending currency) :
    Typed (code :: amount :: (notes ++ ending))
      ⟨category.name, values, " ".intercalate notes, currency⟩

theorem Typed.asks (h : Typed ws request) : Asks ws request := by
  cases h with
  | intro listed named _ reads _ ends =>
    exact .intro (Registry.category?_of_sameLetters listed named) reads
      (ends.mono fun _ _ hm => Registry.currency?_of_sameLetters hm.1 hm.2)

theorem Ending.isWord (h : Ending MarksTyped notes ending currency) :
    ∀ word ∈ ending, IsWord word.toList := by
  cases h with
  | absent => exact List.forall_mem_nil _
  | marker hm =>
    obtain ⟨hlisted, hsame⟩ := hm
    have hword := Registry.isWord_of_sameLetters hsame (Registry.isName_of_currency hlisted)
    refine List.forall_mem_singleton.2 ?_
    rw [toList_marker]
    exact ⟨List.cons_ne_nil _ _, List.forall_mem_cons.2 ⟨rfl, hword.unbroken⟩⟩

theorem Typed.isWord (h : Typed ws request) : ∀ word ∈ ws, IsWord word.toList := by
  cases h with
  | intro listed named unbroken reads plain ends =>
    have hcategory := Registry.isWord_of_sameLetters named (Registry.isName_of_category listed)
    have hamount := (⟨Amount.toList_ne_nil_of_parse reads, unbroken⟩ : IsWord _)
    refine List.forall_mem_cons.2 ⟨hcategory, List.forall_mem_cons.2 ⟨hamount, ?_⟩⟩
    exact List.forall_mem_append.2 ⟨plain, ends.isWord⟩

/-- A text is read as the request that is typed in it, whatever blanks separate the words. The
requests that are read are those that the words ask for, and any other text is refused for the first
of its parts that is wrong. -/
theorem parse_exactly (body : String) :
    (∀ words request, Typed words request →
      Spaced (words.map String.toList) body.toList → parse body = .ok request) ∧
    (∀ request, parse body = .ok request ↔ Asks (words body) request) ∧
    ∀ e, parse body = .error e ↔ Refuses body (words body) e := by
  refine ⟨?_, fun _ => parse_eq_ok_iff, fun _ => parse_eq_error_iff⟩
  intro ws request htyped hspaced
  apply parse_of_asks
  rw [words_of_spaced hspaced htyped.isWord]
  exact htyped.asks

theorem parse_exactly_spaced :
    parse " g\t(1-2)  two apples $usd" = .ok ⟨"Groceries",
      [⟨false, 1, 0, by decide, by decide⟩, ⟨false, 2, 0, by decide, by decide⟩], "two apples",
      some "USD"⟩ := by
  have hamount : IsWord "(1-2)".toList := by decide
  have htyped := @Typed.intro "g" "(1-2)" ⟨"G", "Groceries"⟩ _ ["two", "apples"] ["$" ++ "usd"]
    (some "USD") (by decide) (by decide) hamount.unbroken rfl (by decide)
    (@Ending.marker MarksTyped _ "usd" ⟨"USD", "US Dollar"⟩ ⟨by decide, by decide⟩)
  exact (parse_exactly _).1 _ _ htyped (wordsOf_eq_iff.1 (by decide)).1

end AddRequest

end PersonalLedger
