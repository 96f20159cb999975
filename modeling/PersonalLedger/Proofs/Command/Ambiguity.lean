import PersonalLedger.Proofs.Command.DateWord
import PersonalLedger.Proofs.Command.Listing

namespace PersonalLedger

open Text

namespace Text

variable {c : Char} {cs : List Char} {p : Char → Bool}

theorem mem_dropWhile (h : c ∈ cs) (hc : p c = false) : c ∈ cs.dropWhile p := by
  rw [← List.takeWhile_append_dropWhile (p := p) (l := cs), List.mem_append] at h
  rcases h with h | h
  · have htrue := List.mem_takeWhile_imp h
    rw [hc] at htrue
    cases htrue
  · exact h

theorem mem_trim (h : c ∈ cs) (hc : isBlank c = false) : c ∈ trim cs := by
  have hstart : c ∈ trimStart cs := mem_dropWhile h hc
  rw [trim, trimEnd, List.mem_reverse]
  exact mem_dropWhile (List.mem_reverse.2 hstart) hc

end Text

namespace Registry

variable {c : Char} {code : String} {category : Category} {currency : Currency}

theorem mem_lookupKey (h : c ∈ code.toList) (hc : IsCodeChar c) : c ∈ (lookupKey code).toList := by
  obtain ⟨hlt, hblank, hupper⟩ := hc
  rw [lookupKey, String.toList_ofList, upper, List.mem_flatMap]
  refine ⟨c, mem_trim h hblank, ?_⟩
  rw [upperOf_of_lt hlt, hupper]
  exact List.mem_singleton.2 rfl

theorem isUpper_or_eq_plus (h : category ∈ categories) :
    ∀ c ∈ category.shortName.toList, c.isUpper = true ∨ c = '+' := by
  have hall : ∀ category ∈ categories,
      (category.shortName.toList.all fun c => c.isUpper || c == '+') = true := by decide
  intro c hc
  have hchar := List.all_eq_true.1 (hall category h) c hc
  rwa [Bool.or_eq_true, beq_iff_eq] at hchar

theorem isUpper_of_currency (h : currency ∈ currencies) :
    ∀ c ∈ currency.code.toList, c.isUpper = true := by
  have hall : ∀ currency ∈ currencies, currency.code.toList.all Char.isUpper = true := by decide
  exact List.all_eq_true.1 (hall currency h)

theorem isCodeChar_of_isDigit (h : c.isDigit = true) : IsCodeChar c := by
  have hrange := Char.isDigit_iff_toNat.1 h
  have h9 : '9'.toNat = 57 := rfl
  refine ⟨by omega, isBlank_of_isDigit h, ?_⟩
  rcases toUpper_cases c with hlower | hupper
  · omega
  · exact hupper

end Registry

theorem Text.isUpper_of_isDigit {c : Char} (h : c.isDigit = true) : c.isUpper = false := by
  have hrange := Char.isDigit_iff_toNat.1 h
  have h9 : '9'.toNat = 57 := rfl
  have hA : ¬ 'A'.val ≤ c.val := by
    rw [UInt32.le_iff_toNat_le]
    change ¬ 65 ≤ c.toNat
    omega
  exact decide_eq_false fun hupper => hA hupper.1

namespace Listing

variable {c : Char} {word name code : String} {count : Nat} {form other : Form}

theorem not_mem_of_category (h : Reads word (.category name)) (hc : Registry.IsCodeChar c)
    (hupper : c.isUpper = false) (hplus : c ≠ '+') : c ∉ word.toList := by
  intro hmem
  cases h with
  | category known key =>
    have hkey := Registry.mem_lookupKey hmem hc
    rw [← key] at hkey
    rcases Registry.isUpper_or_eq_plus known c hkey with hu | he
    · rw [hupper] at hu
      cases hu
    · exact hplus he

theorem slash_not_mem_of_currency (h : Reads word (.currency code)) : '/' ∉ word.toList := by
  intro hmem
  cases h with
  | currency marker known key =>
    rw [marker] at hmem
    rcases List.mem_cons.1 hmem with he | hmem
    · cases he
    · have hkey := Registry.mem_lookupKey hmem (by decide)
      rw [← key] at hkey
      cases Registry.isUpper_of_currency known '/' hkey

theorem digits_of_limit (h : Reads word (.limit count)) :
    (∀ c ∈ word.toList, c.isDigit = true ∨ c = '+') ∧ ∃ c ∈ word.toList, c.isDigit = true := by
  cases h with
  | limit numeral pos le =>
    generalize word.toList = cs at numeral
    generalize hz : (count : Int) = z at numeral
    cases numeral with
    | bare digits =>
      obtain ⟨c, hc⟩ := List.exists_mem_of_ne_nil cs digits.nonempty
      exact ⟨fun c hc => .inl (digits.isDigit c hc), c, hc, digits.isDigit c hc⟩
    | plus digits =>
      obtain ⟨c, hc⟩ := List.exists_mem_of_ne_nil _ digits.nonempty
      refine ⟨?_, c, List.mem_cons_of_mem _ hc, digits.isDigit c hc⟩
      intro d hd
      rcases List.mem_cons.1 hd with he | hd
      · exact .inr he
      · exact .inl (digits.isDigit d hd)
    | minus => omega

theorem not_mem_of_limit (h : Reads word (.limit count)) (hdigit : c.isDigit = false)
    (hplus : c ≠ '+') : c ∉ word.toList := by
  intro hmem
  rcases (digits_of_limit h).1 c hmem with hd | he
  · rw [hdigit] at hd
    cases hd
  · exact hplus he

theorem WritesDate.slash_mem {cs : List Char} {d : YearMonthDay} (h : WritesDate cs d) :
    '/' ∈ cs := by
  cases h with
  | mk => exact List.mem_append_right _ List.mem_cons_self

theorem ne_star (h : '*' ∉ word.toList) : word ≠ "*" := by
  rintro rfl
  exact h List.mem_cons_self

/-- The place of the only form that a word can have, as its characters tell. -/
def placeOf (word : String) : Nat :=
  if word = "*" then 0
  else if '/' ∈ word.toList then 3
  else if '$' ∈ word.toList then 5
  else if word.toList.any Char.isDigit then 2
  else 4

/-- Other than "+", a word has its form at the place that its characters tell. -/
theorem rank_eq_placeOf (hw : word ≠ "+") (h : Reads word form) : form.rank = placeOf word := by
  cases form with
  | allTime =>
    cases h with
    | allTime wildcard =>
      rw [wildcard]
      rfl
  | totals =>
    cases h with
    | totals wildcard => exact absurd wildcard hw
  | limit count =>
    have hstar : '*' ∉ word.toList := not_mem_of_limit h rfl (by decide)
    have hslash : '/' ∉ word.toList := not_mem_of_limit h rfl (by decide)
    have hdollar : '$' ∉ word.toList := not_mem_of_limit h rfl (by decide)
    have hdigit : word.toList.any Char.isDigit = true :=
      List.any_eq_true.2 (digits_of_limit h).2
    rw [placeOf, if_neg (ne_star hstar), if_neg hslash, if_neg hdollar, if_pos hdigit]
    rfl
  | since date =>
    have hslash := (date?_eq_some_iff.1 (reads_since_iff.1 h)).1.slash_mem
    have hstar : word ≠ "*" := by
      rintro rfl
      cases List.mem_singleton.1 hslash
    rw [placeOf, if_neg hstar, if_pos hslash]
    rfl
  | category name =>
    have hstar : '*' ∉ word.toList := not_mem_of_category h (by decide) rfl (by decide)
    have hslash : '/' ∉ word.toList := not_mem_of_category h (by decide) rfl (by decide)
    have hdollar : '$' ∉ word.toList := not_mem_of_category h (by decide) rfl (by decide)
    have hdigit : ¬ word.toList.any Char.isDigit = true := by
      rw [List.any_eq_true]
      rintro ⟨c, hc, hd⟩
      have hplus : c ≠ '+' := ne_of_isDigit hd rfl
      exact not_mem_of_category h (Registry.isCodeChar_of_isDigit hd) (isUpper_of_isDigit hd) hplus hc
    rw [placeOf, if_neg (ne_star hstar), if_neg hslash, if_neg hdollar, if_neg hdigit]
    rfl
  | currency code =>
    have hslash := slash_not_mem_of_currency h
    have hdollar : '$' ∈ word.toList := by
      cases h with
      | currency marker => exact marker ▸ List.mem_cons_self
    have hstar : word ≠ "*" := by
      rintro rfl
      cases List.mem_singleton.1 hdollar
    rw [placeOf, if_neg hstar, if_neg hslash, if_pos hdollar]
    rfl

theorem Reads.unique (hw : word ≠ "+") (h : Reads word form) (h' : Reads word other) :
    form = other := by
  have he := reads_iff.1 h
  rw [rank_eq_placeOf hw h, ← rank_eq_placeOf hw h', reads_iff.1 h'] at he
  exact (Option.some_inj.1 he).symm

/-- The word for totals is the short name of the income category too. -/
theorem reads_plus_iff : Reads "+" form ↔ form = .totals ∨ form = .category "Income" := by
  constructor
  · intro h
    have hform := reads_iff.1 h
    cases form with
    | totals => exact .inl rfl
    | category name =>
      right
      have hname : reading? "+" 4 = some (.category "Income") := by decide +kernel
      rw [Form.rank, hname] at hform
      exact (Option.some_inj.1 hform).symm
    | allTime => cases hform
    | limit count => cases hform
    | since date => cases hform
    | currency code => cases hform
  · rintro (rfl | rfl)
    · exact .totals rfl
    · exact reads_category_iff.2 (by decide +kernel)

/-- Tried in another order, the forms of a word give another reading only to "+". -/
theorem findSome?_of_perm {order : List Nat} (hw : word ≠ "+") (hp : order.Perm (List.range 6)) :
    order.findSome? (reading? word) = form? word := by
  cases hf : form? word with
  | none =>
    rw [form?_eq_findSome?, List.findSome?_eq_none_iff] at hf
    rw [List.findSome?_eq_none_iff]
    intro k hk
    exact hf k (hp.mem_iff.1 hk)
  | some form =>
    have hreads := (form?_eq_some_iff.1 hf).reads
    cases hs : order.findSome? (reading? word) with
    | none =>
      have hnone := List.findSome?_eq_none_iff.1 hs form.rank
        (hp.mem_iff.2 (List.mem_range.2 form.rank_lt))
      rw [reads_iff.1 hreads] at hnone
      cases hnone
    | some other =>
      obtain ⟨k, hk, hother⟩ := List.exists_of_findSome?_eq_some hs
      have hrank := rank_of_reading? (List.mem_range.1 (hp.mem_iff.1 hk)) hother
      rw [← hrank] at hother
      rw [(reads_iff.2 hother).unique hw hreads]

/-- A word other than "+" can be read as one form at most, so that it means the same in whatever order
the forms are tried. The word "+" can be read as the word for totals, which it means, and as the
short name of the income category, and as nothing else. -/
theorem reads_unambiguous (word : String) :
    ((∀ form other, Reads word form → Reads word other → form = other) ↔ word ≠ "+") ∧
      ((∀ order : List Nat, order.Perm (List.range 6) →
        order.findSome? (reading? word) = form? word) ↔ word ≠ "+") ∧
      (∀ form, Reads "+" form ↔ form = .totals ∨ form = .category "Income") ∧
      Means "+" .totals := by
  refine ⟨?_, ?_, fun form => reads_plus_iff, means_totals⟩
  · constructor
    · rintro h rfl
      cases h .totals (.category "Income") (reads_plus_iff.2 (.inl rfl))
        (reads_plus_iff.2 (.inr rfl))
    · intro hw form other h h'
      exact h.unique hw h'
  · constructor
    · rintro h rfl
      have hswapped := h [4, 0, 1, 2, 3, 5] (by decide)
      have hcategory : [4, 0, 1, 2, 3, 5].findSome? (reading? "+") = some (.category "Income") := by
        decide +kernel
      rw [hcategory, form?_eq_some_iff.2 means_totals] at hswapped
      cases hswapped
    · intro hw order hp
      exact findSome?_of_perm hw hp

end Listing

end PersonalLedger
