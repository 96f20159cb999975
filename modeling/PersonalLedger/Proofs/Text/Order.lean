import Mathlib.Data.List.Forall2
import PersonalLedger.Proofs.Text.Numeral

namespace PersonalLedger.Text

theorem ofList_lt_ofList_iff {a b : List Char} : String.ofList a < String.ofList b ↔ a < b := by
  change (String.ofList a).toList < (String.ofList b).toList ↔ a < b
  rw [String.toList_ofList, String.toList_ofList]

theorem lt_or_eq_or_gt (s t : String) : s < t ∨ s = t ∨ t < s := by
  by_cases hlt : s < t
  · exact .inl hlt
  · by_cases hgt : t < s
    · exact .inr (.inr hgt)
    · exact .inr (.inl (String.le_antisymm (String.not_lt.1 hgt) (String.not_lt.1 hlt)))

theorem append_lt_append_iff {α : Type} [LT α] [Std.Irrefl (α := α) (· < ·)] {a b x y : List α}
    (h : a.length = b.length) :
    a ++ x < b ++ y ↔ a < b ∨ a = b ∧ x < y := by
  induction a generalizing b with
  | nil =>
    cases b with
    | nil => simp only [List.nil_append, List.lt_irrefl, true_and, false_or]
    | cons d b => cases h
  | cons c a ih =>
    cases b with
    | nil => cases h
    | cons d b =>
      have ih := ih (Nat.succ.inj h)
      simp only [List.cons_append, List.cons_lt_cons_iff, List.cons.injEq, ih]
      constructor
      · rintro (hlt | ⟨he, hlt | ⟨hab, hxy⟩⟩)
        · exact .inl (.inl hlt)
        · exact .inl (.inr ⟨he, hlt⟩)
        · exact .inr ⟨⟨he, hab⟩, hxy⟩
      · rintro ((hlt | ⟨he, hlt⟩) | ⟨⟨he, hab⟩, hxy⟩)
        · exact .inl hlt
        · exact .inr ⟨he, .inl hlt⟩
        · exact .inr ⟨he, .inr ⟨hab, hxy⟩⟩

theorem digitValue_lt {c : Char} (h : c.isDigit = true) : c.toNat - '0'.toNat < 10 := by
  have hc := Char.isDigit_iff_toNat.1 h
  have h0 : '0'.toNat = 48 := rfl
  have h9 : '9'.toNat = 57 := rfl
  omega

theorem digit_lt_iff {c d : Char} (hc : c.isDigit = true) (hd : d.isDigit = true) :
    c < d ↔ c.toNat - '0'.toNat < d.toNat - '0'.toNat := by
  have hc := Char.isDigit_iff_toNat.1 hc
  have hd := Char.isDigit_iff_toNat.1 hd
  have hlt : c < d ↔ c.toNat < d.toNat := Iff.rfl
  rw [hlt]
  omega

theorem digit_eq_iff {c d : Char} (hc : c.isDigit = true) (hd : d.isDigit = true) :
    c = d ↔ c.toNat - '0'.toNat = d.toNat - '0'.toNat := by
  have hc := Char.isDigit_iff_toNat.1 hc
  have hd := Char.isDigit_iff_toNat.1 hd
  rw [← Char.toNat_inj]
  omega

theorem ofDigitChars_cons (c : Char) (cs : List Char) :
    Nat.ofDigitChars 10 (c :: cs) 0 =
      10 ^ cs.length * (c.toNat - '0'.toNat) + Nat.ofDigitChars 10 cs 0 := by
  rw [Nat.ofDigitChars_cons, Nat.ofDigitChars_eq_ofDigitChars_zero, Nat.mul_zero, Nat.zero_add]

theorem ofDigitChars_lt {cs : List Char} (h : ∀ c ∈ cs, c.isDigit = true) :
    Nat.ofDigitChars 10 cs 0 < 10 ^ cs.length := by
  induction cs with
  | nil => exact Nat.one_pos
  | cons c cs ih =>
    have hc := digitValue_lt (h c List.mem_cons_self)
    have ih := ih fun d hd => h d (List.mem_cons_of_mem c hd)
    rw [ofDigitChars_cons, List.length_cons]
    have hm := Nat.mul_le_mul_left (10 ^ cs.length) (Nat.le_of_lt_succ hc)
    omega

theorem mul_add_lt_iff {p v w x y : Nat} (hx : x < p) (hy : y < p) :
    p * v + x < p * w + y ↔ v < w ∨ v = w ∧ x < y := by
  rcases Nat.lt_trichotomy v w with hlt | rfl | hlt
  · have hm := Nat.mul_le_mul_left p (Nat.succ_le_of_lt hlt)
    rw [Nat.mul_succ] at hm
    omega
  · omega
  · have hm := Nat.mul_le_mul_left p (Nat.succ_le_of_lt hlt)
    rw [Nat.mul_succ] at hm
    omega

/-- Digits of one length are ordered like the numbers they write. -/
theorem digits_lt_iff {a b : List Char} (h : a.length = b.length)
    (ha : ∀ c ∈ a, c.isDigit = true) (hb : ∀ c ∈ b, c.isDigit = true) :
    a < b ↔ Nat.ofDigitChars 10 a 0 < Nat.ofDigitChars 10 b 0 := by
  induction a generalizing b with
  | nil =>
    cases b with
    | nil => simp only [List.lt_irrefl, Nat.lt_irrefl]
    | cons d b => cases h
  | cons c a ih =>
    cases b with
    | nil => cases h
    | cons d b =>
      have hl := Nat.succ.inj h
      obtain ⟨hc, ha⟩ := List.forall_mem_cons.1 ha
      obtain ⟨hd, hb⟩ := List.forall_mem_cons.1 hb
      have hx := ofDigitChars_lt ha
      have hy := ofDigitChars_lt hb
      rw [← hl] at hy
      rw [List.cons_lt_cons_iff, ih hl ha hb, digit_lt_iff hc hd, digit_eq_iff hc hd,
        ofDigitChars_cons, ofDigitChars_cons, ← hl, mul_add_lt_iff hx hy]

theorem padded_lt_iff {width m n : Nat} (hw : 0 < width) (hm : m < 10 ^ width)
    (hn : n < 10 ^ width) : padded width m < padded width n ↔ m < n := by
  have hl : (padded width m).length = (padded width n).length := by
    rw [length_padded hw hm, length_padded hw hn]
  rw [digits_lt_iff hl (fun _ => isDigit_of_mem_padded) (fun _ => isDigit_of_mem_padded),
    ofDigitChars_padded, ofDigitChars_padded]

theorem padded_inj {width m n : Nat} : padded width m = padded width n ↔ m = n := by
  constructor
  · intro h
    rw [← ofDigitChars_padded width m, h, ofDigitChars_padded]
  · exact congrArg (padded width)

/-- The numbers, each written with a width and closed by a character. -/
def columns : List (Nat × Char) → List Nat → List Char
  | (width, close) :: layout, n :: ns => padded width n ++ close :: columns layout ns
  | _, _ => []

def Fits (layout : List (Nat × Char)) (ns : List Nat) : Prop :=
  List.Forall₂ (fun p n => 0 < p.1 ∧ n < 10 ^ p.1) layout ns

theorem length_columns {layout : List (Nat × Char)} {ns : List Nat} (h : Fits layout ns) :
    (columns layout ns).length = layout.foldr (fun p n => p.1 + 1 + n) 0 := by
  induction h with
  | nil => rfl
  | @cons p n layout ns hp _ ih =>
    rw [columns, List.length_append, List.length_cons, length_padded hp.1 hp.2, ih, List.foldr_cons]
    omega

theorem mem_columns {layout : List (Nat × Char)} {ns : List Nat} {c : Char}
    (h : c ∈ columns layout ns) : c.isDigit = true ∨ c ∈ layout.map (·.2) := by
  induction layout generalizing ns with
  | nil => cases h
  | cons p layout ih =>
    cases ns with
    | nil => cases h
    | cons n ns =>
      rw [columns] at h
      rw [List.map_cons, List.mem_cons]
      rcases List.mem_append.1 h with h | h
      · exact .inl (isDigit_of_mem_padded h)
      · rcases List.mem_cons.1 h with h | h
        · exact .inr (.inl h)
        · rcases ih h with hd | hm
          · exact .inl hd
          · exact .inr (.inr hm)

theorem columns_lt_iff {layout : List (Nat × Char)} {ms ns : List Nat} (hm : Fits layout ms)
    (hn : Fits layout ns) : columns layout ms < columns layout ns ↔ ms < ns := by
  induction hm generalizing ns with
  | nil =>
    cases hn
    simp only [List.lt_irrefl]
  | @cons p m layout ms hp _ ih =>
    obtain ⟨width, close⟩ := p
    obtain ⟨hw, hm⟩ := hp
    cases hn with
    | @cons _ n _ ns hp hns =>
      obtain ⟨-, hn⟩ := hp
      have hl : (padded width m).length = (padded width n).length := by
        rw [length_padded hw hm, length_padded hw hn]
      have hc : ¬ close < close := Char.lt_irrefl close
      rw [columns, columns, append_lt_append_iff hl, padded_lt_iff hw hm hn, padded_inj,
        List.cons_lt_cons_iff, List.cons_lt_cons_iff, ih hns]
      simp only [hc, false_or, true_and]

end PersonalLedger.Text
