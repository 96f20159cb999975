import Mathlib.Data.List.Nodup
import PersonalLedger.Proofs.Text.Words
import PersonalLedger.Registry

namespace PersonalLedger.Registry

open Text

variable {α : Type} {f : α → String} {xs : List α} {x : α} {key : String}

theorem key_of_find? (h : xs.find? (f · == key) = some x) : f x = key := by
  have hkey := List.find?_some h
  exact beq_iff_eq.1 hkey

/-- Where no two items have one key, an item is found by its key. -/
theorem find?_key_eq_some_iff (hn : (xs.map f).Nodup) :
    xs.find? (f · == key) = some x ↔ x ∈ xs ∧ f x = key := by
  constructor
  · intro h
    exact ⟨List.mem_of_find?_eq_some h, key_of_find? h⟩
  · rintro ⟨hx, rfl⟩
    cases hy : xs.find? (f · == f x) with
    | none =>
      have hne := List.find?_eq_none.1 hy x hx
      exact absurd (beq_self_eq_true (f x)) hne
    | some y =>
      rw [List.inj_on_of_nodup_map hn (List.mem_of_find?_eq_some hy) hx (key_of_find? hy)]

variable {code word : String} {category : Category} {currency : Currency}

theorem category?_eq_some_iff :
    category? code = some category ↔ category ∈ categories ∧ category.shortName = lookupKey code :=
  find?_key_eq_some_iff (by decide)

theorem currency?_eq_some_iff :
    currency? code = some currency ↔ currency ∈ currencies ∧ currency.code = lookupKey code :=
  find?_key_eq_some_iff (by decide)

theorem marker_eq_supported_iff : marker word = .supported currency ↔
    ∃ code : String, word.toList = '$' :: code.toList ∧ currency? code = some currency := by
  rw [marker]
  split
  · next c rest hw =>
    have hcode (code : String) : word.toList = '$' :: code.toList ↔ code = .ofList (c :: rest) := by
      rw [hw, List.cons_inj_right, ← String.toList_inj, String.toList_ofList, eq_comm]
    simp only [hcode, exists_eq_left]
    cases currency? (.ofList (c :: rest)) with
    | some found => rw [Marker.supported.injEq, Option.some_inj]
    | none => simp only [reduceCtorEq]
  · next hne =>
    constructor
    · intro h
      cases h
    · rintro ⟨code, hcode, hfound⟩
      -- no currency has the empty code
      cases hl : code.toList with
      | nil =>
        have hempty : code = "" := by rw [← String.toList_inj, hl]; rfl
        have hnone : currency? "" = none := by decide
        rw [hempty, hnone] at hfound
        cases hfound
      | cons c rest =>
        rw [hl] at hcode
        exact absurd hcode (hne c rest)

/-- Whether a word is a dollar sign with something behind it. -/
def IsMarker (word : String) : Prop := ∃ code : String, code ≠ "" ∧ word.toList = '$' :: code.toList

theorem marker_of_currency?_eq_none (hne : code ≠ "") (hw : word.toList = '$' :: code.toList)
    (h : currency? code = none) : marker word = .unsupported code := by
  cases hl : code.toList with
  | nil => exact absurd (String.toList_eq_nil_iff.1 hl) hne
  | cons c rest =>
    have hcode : String.ofList (c :: rest) = code := by rw [← hl, String.ofList_toList]
    rw [hl] at hw
    rw [marker, hw]
    simp only [hcode, h]

theorem marker_of_not_isMarker (h : ¬ IsMarker word) : marker word = .absent := by
  rw [marker]
  split
  · next c rest hw =>
    refine absurd ⟨.ofList (c :: rest), ?_, ?_⟩ h
    · exact mt String.ofList_eq_empty_iff.1 (List.cons_ne_nil c rest)
    · rw [hw, String.toList_ofList]
  · rfl

/-- Whether two texts differ at most in the case of their ASCII letters. -/
def SameLetters (code name : String) : Prop :=
  code.toList.map Char.toUpper = name.toList.map Char.toUpper

instance (code name : String) : Decidable (SameLetters code name) :=
  inferInstanceAs (Decidable (_ = _))

/-- What the characters of all codes are: in ASCII, not blank and not in lower case. -/
def IsCodeChar (c : Char) : Prop := c.toNat < 128 ∧ isBlank c = false ∧ c.toUpper = c

instance : DecidablePred IsCodeChar := fun _ => inferInstanceAs (Decidable (_ ∧ _ ∧ _))

structure IsName (name : String) : Prop where
  nonempty : name ≠ ""
  chars : ∀ c ∈ name.toList, IsCodeChar c

theorem isName_iff (name : String) :
    (name ≠ "" ∧ name.toList.all (fun c => decide (IsCodeChar c)) = true) ↔ IsName name := by
  simp only [List.all_eq_true, decide_eq_true_eq]
  exact ⟨fun h => ⟨h.1, h.2⟩, fun h => ⟨h.nonempty, h.chars⟩⟩

instance : DecidablePred IsName := fun name => decidable_of_iff _ (isName_iff name)

theorem isName_of_category (hc : category ∈ categories) : IsName category.shortName := by
  revert category
  decide

theorem isName_of_currency (hc : currency ∈ currencies) : IsName currency.code := by
  revert currency
  decide

variable {c : Char} {name : String}

theorem upperOf_of_lt (h : c.toNat < 128) : upperOf c = [c.toUpper] := by
  rw [upperOf.eq_def]
  split
  all_goals first | rfl | exact absurd h (by decide)

theorem toUpper_cases (c : Char) : (97 ≤ c.toNat ∧ c.toNat ≤ 122) ∨ c.toUpper = c := by
  by_cases h : c.val ≥ 'a'.val ∧ c.val ≤ 'z'.val
  · exact .inl h
  · exact .inr (dif_neg h)

theorem of_isCodeChar_toUpper (h : IsCodeChar c.toUpper) :
    upperOf c = [c.toUpper] ∧ isBlank c = false := by
  obtain ⟨hlt, hblank, -⟩ := h
  rcases toUpper_cases c with hc | hc
  · exact ⟨upperOf_of_lt (by omega), isBlank_of_lt (by omega) (by omega)⟩
  · rw [hc] at hlt hblank
    exact ⟨upperOf_of_lt hlt, hblank⟩

section

variable (hs : SameLetters code name) (hn : IsName name)

include hs hn

theorem map_toUpper_code : code.toList.map Char.toUpper = name.toList := by
  rw [hs]
  calc name.toList.map Char.toUpper
      = name.toList.map id := List.map_congr_left fun c hc => (hn.chars c hc).2.2
    _ = name.toList := List.map_id _

theorem isCodeChar_toUpper (hc : c ∈ code.toList) : IsCodeChar c.toUpper := by
  apply hn.chars
  rw [← map_toUpper_code hs hn]
  exact List.mem_map_of_mem hc

theorem lookupKey_of_sameLetters : lookupKey code = name := by
  have hblank : ∀ c ∈ code.toList, isBlank c = false := fun c hc =>
    (of_isCodeChar_toUpper (isCodeChar_toUpper hs hn hc)).2
  have hupper : upper code.toList = code.toList.map Char.toUpper := by
    rw [upper, List.map_eq_flatMap]
    exact List.flatMap_congr fun c hc =>
      (of_isCodeChar_toUpper (isCodeChar_toUpper hs hn hc)).1
  rw [lookupKey, trim_eq_self hblank, hupper, map_toUpper_code hs hn, String.ofList_toList]

theorem isWord_of_sameLetters : IsWord code.toList := by
  refine ⟨?_, fun c hc => (of_isCodeChar_toUpper (isCodeChar_toUpper hs hn hc)).2⟩
  intro hnil
  have h := map_toUpper_code hs hn
  rw [hnil, List.map_nil] at h
  exact hn.nonempty (String.toList_eq_nil_iff.1 h.symm)

end

theorem category?_of_sameLetters (hc : category ∈ categories)
    (hs : SameLetters code category.shortName) : category? code = some category :=
  category?_eq_some_iff.2 ⟨hc, (lookupKey_of_sameLetters hs (isName_of_category hc)).symm⟩

theorem currency?_of_sameLetters (hc : currency ∈ currencies)
    (hs : SameLetters code currency.code) : currency? code = some currency :=
  currency?_eq_some_iff.2 ⟨hc, (lookupKey_of_sameLetters hs (isName_of_currency hc)).symm⟩

end PersonalLedger.Registry
