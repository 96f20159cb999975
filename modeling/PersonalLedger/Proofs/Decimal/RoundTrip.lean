import Mathlib.Data.List.TakeWhile
import PersonalLedger.Decimal.Printer
import PersonalLedger.Decimal.Reader
import PersonalLedger.Proofs.Text.Numeral

namespace PersonalLedger.Decimal

open Text

variable {value places : Nat} {begun : Bool} {cs rest : List Char}

theorem le_ofDigitChars (cs : List Char) (value : Nat) :
    value ≤ Nat.ofDigitChars 10 cs value := by
  rw [Nat.ofDigitChars_eq_ofDigitChars_zero]
  exact Nat.le_trans (Nat.le_mul_of_pos_left value (Nat.pow_pos (by decide))) (Nat.le_add_right _ _)

/-- Digits before the point are read one after the other while they fit. -/
theorem readDigits_append (hd : ∀ c ∈ cs, c.isDigit = true)
    (hv : Nat.ofDigitChars 10 cs value < limit) :
    readDigits value 0 false begun (cs ++ rest) =
      readDigits (Nat.ofDigitChars 10 cs value) 0 false (begun || !cs.isEmpty) rest := by
  induction cs generalizing value begun with
  | nil => rw [List.nil_append, Nat.ofDigitChars_nil, List.isEmpty_nil, Bool.not_true, Bool.or_false]
  | cons c cs ih =>
    rw [Nat.ofDigitChars_cons] at hv
    have hn : ¬ limit ≤ 10 * value + (c.toNat - '0'.toNat) :=
      Nat.not_le.2 (Nat.lt_of_le_of_lt (le_ofDigitChars cs _) hv)
    have hc := digit?_eq_some (hd c List.mem_cons_self)
    rw [List.cons_append, readDigits]
    simp only [hc, hn, Bool.false_and, Bool.false_eq_true, ↓reduceIte]
    rw [ih (fun d hm => hd d (List.mem_cons_of_mem c hm)) hv, Nat.ofDigitChars_cons,
      List.isEmpty_cons, Bool.not_false, Bool.or_true, Bool.true_or]

theorem readDigits_places (hd : ∀ c ∈ cs, c.isDigit = true)
    (hv : Nat.ofDigitChars 10 cs value < limit) (hp : places + cs.length ≤ maxScale)
    (hb : begun = true ∨ cs ≠ []) :
    readDigits value places true begun cs =
      some (Nat.ofDigitChars 10 cs value, places + cs.length) := by
  induction cs generalizing value places begun with
  | nil =>
    have hb : begun = true := hb.resolve_right fun h => h rfl
    rw [readDigits, if_pos hb, Nat.ofDigitChars_nil, List.length_nil, Nat.add_zero]
  | cons c cs ih =>
    rw [Nat.ofDigitChars_cons] at hv
    have hn : ¬ limit ≤ 10 * value + (c.toNat - '0'.toNat) :=
      Nat.not_le.2 (Nat.lt_of_le_of_lt (le_ofDigitChars cs _) hv)
    have hc := digit?_eq_some (hd c List.mem_cons_self)
    rw [List.length_cons] at hp
    rw [readDigits]
    simp only [hc, hn, ↓reduceIte, Bool.true_and, decide_eq_true_eq]
    -- At place 28 nothing may follow, and here nothing does.
    by_cases hm : maxScale ≤ places + 1
    · have hnil : cs = [] := List.length_eq_zero_iff.1 (by omega)
      subst hnil
      rw [if_pos hm, Nat.ofDigitChars_cons, Nat.ofDigitChars_nil]
      rfl
    · rw [if_neg hm, ih (fun d hm => hd d (List.mem_cons_of_mem c hm)) hv (by omega) (.inl rfl),
        Nat.ofDigitChars_cons, List.length_cons, Nat.add_assoc, Nat.add_comm 1]

theorem readDigits_pointText {mantissa scale : Nat} (hm : mantissa < limit)
    (hs : scale ≤ maxScale) :
    readDigits 0 0 false false (pointText mantissa scale) = some (mantissa, scale) := by
  have hq : Nat.ofDigitChars 10 (natText (mantissa / 10 ^ scale)) 0 = mantissa / 10 ^ scale :=
    ofDigitChars_natText _
  have hlt : Nat.ofDigitChars 10 (natText (mantissa / 10 ^ scale)) 0 < limit := by
    rw [hq]
    exact Nat.lt_of_le_of_lt (Nat.div_le_self _ _) hm
  rw [pointText, readDigits_append (fun _ => isDigit_of_mem_natText) hlt, hq,
    List.isEmpty_eq_false_iff.2 (natText_ne_nil _), Bool.not_false, Bool.or_true]
  by_cases h0 : scale = 0
  · rw [if_pos h0, readDigits, if_pos rfl, h0, Nat.pow_zero, Nat.div_one]
  · have hl := length_padded (Nat.pos_of_ne_zero h0)
      (Nat.mod_lt mantissa (Nat.pow_pos (n := scale) (by decide : 0 < 10)))
    have hv : Nat.ofDigitChars 10 (padded scale (mantissa % 10 ^ scale)) (mantissa / 10 ^ scale) =
        mantissa := by
      rw [Nat.ofDigitChars_eq_ofDigitChars_zero, hl, ofDigitChars_padded]
      exact Nat.div_add_mod mantissa (10 ^ scale)
    rw [if_neg h0, readDigits]
    have hdot : digit? '.' = none := rfl
    simp only [hdot, Bool.not_false, Bool.and_true, decide_true, ↓reduceIte]
    rw [readDigits_places (fun _ => isDigit_of_mem_padded) (by rw [hv]; exact hm)
      (by rw [hl]; omega) (.inl rfl), hv, hl, Nat.zero_add]

/-- The decimal as it is read: a zero has no sign. -/
def readBack (d : Decimal) : Decimal := { d with negative := d.negative && d.mantissa != 0 }

theorem readBack_eq_self {d : Decimal} (h : d.negative = true → d.mantissa ≠ 0) :
    d.readBack = d := by
  obtain ⟨negative, mantissa, scale, hm, hs⟩ := d
  cases negative with
  | false => rfl
  | true => simp only [readBack, Bool.true_and, bne_iff_ne.2 (h rfl)]

theorem coefficient_readBack (d : Decimal) : d.readBack.coefficient = d.coefficient := by
  by_cases h : d.mantissa = 0
  · simp only [coefficient, readBack, h, Int.ofNat_eq_natCast, Int.natCast_zero, Int.neg_zero,
      ite_self]
  · rw [readBack_eq_self fun _ => h]

theorem ofReading_eq_some (d : Decimal) :
    ofReading d.negative (d.mantissa, d.scale) = some d.readBack := by
  have hs : d.scale % (maxScale + 1) = d.scale := Nat.mod_eq_of_lt (Nat.lt_succ_of_le d.scale_le)
  rw [ofReading, hs, ofParts?, dif_pos ⟨d.mantissa_lt, d.scale_le⟩]
  rfl

theorem plain?_text (d : Decimal) : plain? d.text = some d.readBack := by
  have hr := readDigits_pointText d.mantissa_lt d.scale_le
  have ho := ofReading_eq_some d
  rw [text, signText]
  cases hn : d.negative with
  | true =>
    rw [hn] at ho
    rw [if_pos rfl, List.singleton_append, plain?, hr]
    exact ho
  | false =>
    rw [hn] at ho
    rw [if_neg Bool.false_ne_true, List.nil_append]
    -- The first character is a digit, so there is no sign to look past.
    cases hp : pointText d.mantissa d.scale with
    | nil => exact absurd hp (List.append_ne_nil_of_left_ne_nil (natText_ne_nil _) _)
    | cons c cs =>
      have hc : c.isDigit = true := by
        cases ht : natText (d.mantissa / 10 ^ d.scale) with
        | nil => exact absurd ht (natText_ne_nil _)
        | cons c' cs' =>
          rw [pointText, ht, List.cons_append] at hp
          rw [← (List.cons.inj hp).1]
          exact isDigit_of_mem_natText (ht ▸ List.mem_cons_self)
      rw [plain?]
      · rw [← hp, hr]
        exact ho
      · rintro rest ⟨⟩
        cases hc
      · rintro rest ⟨⟩
        cases hc

theorem isDigit_or_eq_of_mem_pointText {value places : Nat} {c : Char}
    (h : c ∈ pointText value places) : c.isDigit = true ∨ c = '.' := by
  rw [pointText] at h
  rcases List.mem_append.1 h with h | h
  · exact .inl (isDigit_of_mem_natText h)
  · split at h
    · cases h
    · rcases List.mem_cons.1 h with h | h
      · exact .inr h
      · exact .inl (isDigit_of_mem_padded h)

theorem mem_signText {d : Decimal} {c : Char} (h : c ∈ d.signText) : c = '-' := by
  rw [signText] at h
  split at h
  · exact List.mem_singleton.1 h
  · cases h

theorem of_mem_fixedText {d : Decimal} {places : Nat} {c : Char} (h : c ∈ d.fixedText places) :
    c.isDigit = true ∨ c = '.' ∨ c = '-' := by
  rcases List.mem_append.1 h with h | h
  · exact .inr (.inr (mem_signText h))
  · rcases isDigit_or_eq_of_mem_pointText h with h | h
    · exact .inl h
    · exact .inr (.inl h)

theorem not_mem_fixedText {c : Char} (hd : c.isDigit = false) (hp : c ≠ '.') (hm : c ≠ '-')
    (d : Decimal) (places : Nat) : c ∉ d.fixedText places := by
  intro h
  rcases of_mem_fixedText h with h | h | h
  · exact ne_of_isDigit h hd rfl
  · exact hp h
  · exact hm h

theorem isExponentMark_of_mem_text {d : Decimal} {c : Char} (h : c ∈ d.text) :
    isExponentMark c = false := by
  rcases List.mem_append.1 h with h | h
  · rw [mem_signText h]
    rfl
  · rcases isDigit_or_eq_of_mem_pointText h with h | rfl
    · rw [isExponentMark, beq_eq_false_iff_ne.2 (ne_of_isDigit h rfl),
        beq_eq_false_iff_ne.2 (ne_of_isDigit h rfl)]
      rfl
    · rfl

/-- A decimal is read back as it was written, except for the sign of a zero. -/
theorem read?_text (d : Decimal) : read? d.text = some d.readBack := by
  have hall : ∀ c ∈ d.text, (!isExponentMark c) = true := by
    intro c hc
    rw [isExponentMark_of_mem_text hc]
    rfl
  have hd : d.text.dropWhile (!isExponentMark ·) = [] := List.dropWhile_eq_nil_iff.2 hall
  have ht : d.text.takeWhile (!isExponentMark ·) = d.text := List.takeWhile_eq_self_iff.2 hall
  rw [read?, hd, ht]
  exact plain?_text d

variable {d d' : Decimal} {negative : Bool} {mantissa scale exponent : Nat}

theorem negative_of_ofParts? (h : ofParts? negative mantissa scale = some d) :
    d.negative = negative := by
  rw [ofParts?] at h
  split at h
  · cases h
    rfl
  · cases h

theorem negative_of_shiftRight? (h : d.shiftRight? exponent = some d') :
    d'.negative = d.negative := by
  rw [shiftRight?] at h
  split at h
  · cases h
  · split at h
    · exact negative_of_ofParts? h
    · exact negative_of_ofParts? h

theorem negative_of_shiftLeft? (h : d.shiftLeft? exponent = some d') :
    d'.negative = d.negative := by
  rw [shiftLeft?] at h
  split at h
  · exact negative_of_ofParts? h
  · split at h
    · cases h
    · exact negative_of_ofParts? h

theorem negative_of_shift? (h : d.shift? cs = some d') : d'.negative = d.negative := by
  rw [shift?.eq_def] at h
  split at h
  · obtain ⟨exponent, -, h⟩ := Option.bind_eq_some_iff.1 h
    exact negative_of_shiftRight? h
  · obtain ⟨exponent, -, h⟩ := Option.bind_eq_some_iff.1 h
    exact negative_of_shiftLeft? h

theorem negative_of_plain? (hm : '-' ∉ cs) (h : plain? cs = some d) : d.negative = false := by
  rw [plain?.eq_def] at h
  split at h
  · exact absurd List.mem_cons_self hm
  · obtain ⟨reading, -, h⟩ := Option.bind_eq_some_iff.1 h
    exact negative_of_ofParts? h
  · obtain ⟨reading, -, h⟩ := Option.bind_eq_some_iff.1 h
    exact negative_of_ofParts? h

theorem negative_of_read? (hm : '-' ∉ cs) (h : read? cs = some d) : d.negative = false := by
  have hm : '-' ∉ cs.takeWhile (!isExponentMark ·) :=
    fun hmem => hm ((List.takeWhile_prefix _).subset hmem)
  rw [read?] at h
  split at h
  · exact negative_of_plain? hm h
  · obtain ⟨plain, hplain, h⟩ := Option.bind_eq_some_iff.1 h
    rw [negative_of_shift? h]
    exact negative_of_plain? hm hplain

end PersonalLedger.Decimal
