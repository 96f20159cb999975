import PersonalLedger.Text.Numeral

namespace PersonalLedger.Text

variable {n width : Nat} {cs : List Char} {c : Char}

theorem isDigit_of_mem_natText (h : c ∈ natText n) : c.isDigit = true :=
  Nat.isDigit_of_mem_toDigits (by decide) (by decide) h

theorem natText_ne_nil (n : Nat) : natText n ≠ [] := Nat.toDigits_ne_nil

theorem ofDigitChars_natText (n : Nat) : Nat.ofDigitChars 10 (natText n) 0 = n :=
  Nat.ofDigitChars_ten_toDigits

theorem natText_inj {m : Nat} (h : natText m = natText n) : m = n := by
  rw [← ofDigitChars_natText m, h, ofDigitChars_natText]

theorem isDigit_of_mem_padded (h : c ∈ padded width n) : c.isDigit = true := by
  rcases List.mem_append.1 h with h | h
  · rw [List.eq_of_mem_replicate h]
    rfl
  · exact isDigit_of_mem_natText h

theorem padded_ne_nil (width n : Nat) : padded width n ≠ [] :=
  List.append_ne_nil_of_right_ne_nil _ (natText_ne_nil n)

theorem length_padded (hw : 0 < width) (hn : n < 10 ^ width) : (padded width n).length = width := by
  have hl : (natText n).length ≤ width := (Nat.length_toDigits_le_iff (by decide) hw).2 hn
  rw [padded, List.length_append, List.length_replicate]
  omega

theorem ofDigitChars_padded (width n : Nat) : Nat.ofDigitChars 10 (padded width n) 0 = n := by
  rw [padded, Nat.ofDigitChars_append, Nat.ofDigitChars_replicate_zero, Nat.mul_zero,
    ofDigitChars_natText]

theorem digits?_eq_some (hne : cs ≠ []) (hd : ∀ c ∈ cs, c.isDigit = true) :
    digits? cs = some (Nat.ofDigitChars 10 cs 0) := by
  have he : cs.isEmpty = false := List.isEmpty_eq_false_iff.2 hne
  rw [digits?, he, List.all_eq_true.2 hd]
  rfl

theorem digits?_padded (width n : Nat) : digits? (padded width n) = some n := by
  rw [digits?_eq_some (padded_ne_nil width n) fun _ => isDigit_of_mem_padded, ofDigitChars_padded]

theorem digit?_eq_some (h : c.isDigit = true) : digit? c = some (c.toNat - '0'.toNat) := by
  rw [digit?, if_pos h]

theorem ne_of_isDigit {d : Char} (hc : c.isDigit = true) (hd : d.isDigit = false) : c ≠ d := by
  rintro rfl
  rw [hc] at hd
  cases hd

theorem not_mem_of_forall_isDigit {d : Char} (h : ∀ c ∈ cs, c.isDigit = true)
    (hd : d.isDigit = false) : d ∉ cs := fun hm => ne_of_isDigit (h d hm) hd rfl

theorem isDigit_or_eq_of_mem_intText {z : Int} (h : c ∈ intText z) :
    c.isDigit = true ∨ c = '-' := by
  rw [intText] at h
  split at h
  · rcases List.mem_cons.1 h with h | h
    · exact .inr h
    · exact .inl (isDigit_of_mem_natText h)
  · exact .inl (isDigit_of_mem_natText h)

theorem not_mem_intText (hd : c.isDigit = false) (hm : c ≠ '-') (z : Int) : c ∉ intText z := by
  intro h
  rcases isDigit_or_eq_of_mem_intText h with h | h
  · exact ne_of_isDigit h hd rfl
  · exact hm h

theorem natText_ne_minus (m n : Nat) : natText m ≠ '-' :: natText n := by
  intro h
  have hm : '-' ∈ natText m := h ▸ List.mem_cons_self
  exact Bool.false_ne_true (isDigit_of_mem_natText hm)

theorem intText_inj {y z : Int} (h : intText y = intText z) : y = z := by
  rw [intText, intText] at h
  split at h <;> split at h
  · have := natText_inj (List.cons.inj h).2
    omega
  · exact absurd h.symm (natText_ne_minus _ _)
  · exact absurd h (natText_ne_minus _ _)
  · have := natText_inj h
    omega

/-- Whether a text is ASCII digits of a number, at least one and with zeros before them or not. -/
structure Digits (cs : List Char) (n : Nat) : Prop where
  nonempty : cs ≠ []
  isDigit : ∀ c ∈ cs, c.isDigit = true
  value : Nat.ofDigitChars 10 cs 0 = n

theorem digits?_eq_some_iff : digits? cs = some n ↔ Digits cs n := by
  constructor
  · intro h
    rw [digits?] at h
    split at h
    · next hd =>
      rw [Bool.and_eq_true, Bool.not_eq_true', List.isEmpty_eq_false_iff, List.all_eq_true] at hd
      exact ⟨hd.1, hd.2, Option.some_inj.1 h⟩
    · cases h
  · intro h
    rw [digits?_eq_some h.nonempty h.isDigit, h.value]

theorem digits_padded (width n : Nat) : Digits (padded width n) n :=
  digits?_eq_some_iff.1 (digits?_padded width n)

/-- Whether a text is a numeral of an integer: its digits, after at most one sign. -/
inductive Spells : List Char → Int → Prop where
  | bare {cs : List Char} {n : Nat} (digits : Digits cs n) : Spells cs n
  | plus {cs : List Char} {n : Nat} (digits : Digits cs n) : Spells ('+' :: cs) n
  | minus {cs : List Char} {n : Nat} (digits : Digits cs n) : Spells ('-' :: cs) (-n)

theorem Digits.isDigit_head (h : Digits (c :: cs) n) : c.isDigit = true :=
  h.isDigit c List.mem_cons_self

theorem integer?_eq_some_iff {z : Int} :
    integer? cs = some z ↔ Spells cs z ∧ -2 ^ 63 ≤ z ∧ z < 2 ^ 63 := by
  rw [integer?.eq_def, Option.filter_eq_some_iff, Bool.and_eq_true, decide_eq_true_eq, decide_eq_true_eq]
  apply and_congr_left
  intro _
  split
  · next rest =>
    rw [Option.map_eq_some_iff]
    constructor
    · rintro ⟨n, hn, rfl⟩
      exact .plus (digits?_eq_some_iff.1 hn)
    · intro h
      cases h with
      | bare digits => cases digits.isDigit_head
      | @plus _ n digits => exact ⟨n, digits?_eq_some_iff.2 digits, rfl⟩
  · next rest =>
    rw [Option.map_eq_some_iff]
    constructor
    · rintro ⟨n, hn, rfl⟩
      exact .minus (digits?_eq_some_iff.1 hn)
    · intro h
      cases h with
      | bare digits => cases digits.isDigit_head
      | @minus _ n digits => exact ⟨n, digits?_eq_some_iff.2 digits, rfl⟩
  · next hplus hminus =>
    rw [Option.map_eq_some_iff]
    constructor
    · rintro ⟨n, hn, rfl⟩
      exact .bare (digits?_eq_some_iff.1 hn)
    · intro h
      cases h with
      | @bare _ n digits => exact ⟨n, digits?_eq_some_iff.2 digits, rfl⟩
      | plus => exact absurd rfl (hplus _)
      | minus => exact absurd rfl (hminus _)

theorem natural?_eq_some_iff {bound : Nat} (h0 : 0 < n) :
    natural? bound cs = some n ↔ Spells cs n ∧ n < bound := by
  rw [natural?.eq_def, Option.filter_eq_some_iff, decide_eq_true_eq]
  apply and_congr_left
  intro _
  generalize hz : (n : Int) = z
  split
  · next rest =>
    rw [digits?_eq_some_iff]
    constructor
    · intro h
      rw [← hz]
      exact .plus h
    · intro h
      cases h with
      | bare digits => cases digits.isDigit_head
      | plus digits =>
        cases Int.ofNat.inj hz
        exact digits
  · next cs hplus =>
    rw [digits?_eq_some_iff]
    constructor
    · intro h
      rw [← hz]
      exact .bare h
    · intro h
      cases h with
      | bare digits =>
        cases Int.ofNat.inj hz
        exact digits
      | plus => exact absurd rfl (hplus _)
      | minus => omega

end PersonalLedger.Text
