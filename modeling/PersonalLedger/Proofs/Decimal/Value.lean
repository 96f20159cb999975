import Mathlib.Algebra.Order.Field.Basic
import Mathlib.Algebra.Order.Ring.Rat
import Mathlib.Data.Rat.Cast.Defs
import PersonalLedger.Decimal.Printer

namespace PersonalLedger.Decimal

open Text

def value (d : Decimal) : ℚ := d.coefficient / 10 ^ d.scale

variable {a b : Decimal}

theorem natAbs_coefficient (d : Decimal) : d.coefficient.natAbs = d.mantissa := by
  rw [coefficient]
  split
  · exact Int.natAbs_neg _
  · rfl

theorem value_eq_iff :
    a.value = b.value ↔ a.coefficient * 10 ^ b.scale = b.coefficient * 10 ^ a.scale := by
  have ha : (10 : ℚ) ^ a.scale ≠ 0 := pow_ne_zero _ (by decide)
  have hb : (10 : ℚ) ^ b.scale ≠ 0 := pow_ne_zero _ (by decide)
  rw [value, value, div_eq_div_iff ha hb]
  exact_mod_cast Iff.rfl

theorem value_eq_zero_iff {d : Decimal} : d.value = 0 ↔ d.mantissa = 0 := by
  have h : (10 : ℚ) ^ d.scale ≠ 0 := pow_ne_zero _ (by decide)
  rw [value, div_eq_zero_iff, or_iff_left h, Int.cast_eq_zero, ← Int.natAbs_eq_zero,
    natAbs_coefficient]

theorem mantissa_mul_of_value_eq (h : a.value = b.value) :
    a.mantissa * 10 ^ b.scale = b.mantissa * 10 ^ a.scale := by
  have hz := congrArg Int.natAbs (value_eq_iff.1 h)
  rw [Int.natAbs_mul, Int.natAbs_mul, natAbs_coefficient, natAbs_coefficient] at hz
  exact hz

theorem coefficient_neg_iff {d : Decimal} :
    d.coefficient < 0 ↔ d.negative = true ∧ d.mantissa ≠ 0 := by
  rw [coefficient]
  cases d.negative with
  | true =>
    rw [if_pos rfl, Int.ofNat_eq_natCast, and_iff_right rfl]
    omega
  | false =>
    rw [if_neg Bool.false_ne_true]
    exact ⟨fun h => by omega, fun h => absurd h.1 Bool.false_ne_true⟩

theorem value_neg_iff {d : Decimal} : d.value < 0 ↔ d.negative = true ∧ d.mantissa ≠ 0 := by
  have h : (0 : ℚ) < 10 ^ d.scale := pow_pos (by decide) _
  rw [value, div_lt_iff₀ h, zero_mul, Int.cast_lt_zero, coefficient_neg_iff]

theorem negative_eq_of_value_eq (h : a.value = b.value) (h0 : a.value ≠ 0) :
    a.negative = b.negative := by
  have ha : a.value < 0 ↔ a.negative = true := by
    rw [value_neg_iff, and_iff_left (mt value_eq_zero_iff.2 h0)]
  have hb : b.value < 0 ↔ b.negative = true := by
    rw [value_neg_iff, and_iff_left (mt value_eq_zero_iff.2 (h ▸ h0))]
  rw [Bool.eq_iff_iff, ← ha, ← hb, h]

theorem mantissaAt_eq_div (d : Decimal) (places : Nat) :
    d.mantissaAt places = d.mantissa * 10 ^ places / 10 ^ d.scale := by
  have hp (n : Nat) : 0 < 10 ^ n := Nat.pow_pos (by decide)
  rw [mantissaAt]
  split
  · next h =>
    obtain ⟨k, rfl⟩ := Nat.exists_eq_add_of_le h
    rw [Nat.add_sub_cancel_left, Nat.pow_add, Nat.mul_left_comm, Nat.mul_div_cancel_left _ (hp _)]
  · next h =>
    obtain ⟨k, hk⟩ := Nat.exists_eq_add_of_le (Nat.le_of_not_le h)
    rw [hk, Nat.add_sub_cancel_left, Nat.pow_add, Nat.mul_comm d.mantissa,
      Nat.mul_div_mul_left _ _ (hp _)]

theorem mantissaAt_eq_of_value_eq (h : a.value = b.value) (places : Nat) :
    a.mantissaAt places = b.mantissaAt places := by
  have hp (n : Nat) : 0 < 10 ^ n := Nat.pow_pos (by decide)
  have hm := mantissa_mul_of_value_eq h
  rw [mantissaAt_eq_div, mantissaAt_eq_div]
  calc a.mantissa * 10 ^ places / 10 ^ a.scale
      = a.mantissa * 10 ^ places * 10 ^ b.scale / (10 ^ a.scale * 10 ^ b.scale) :=
        (Nat.mul_div_mul_right _ _ (hp _)).symm
    _ = b.mantissa * 10 ^ places * 10 ^ a.scale / (10 ^ b.scale * 10 ^ a.scale) := by
        rw [Nat.mul_right_comm, hm, Nat.mul_right_comm, Nat.mul_comm (10 ^ a.scale)]
    _ = b.mantissa * 10 ^ places / 10 ^ b.scale := Nat.mul_div_mul_right _ _ (hp _)

theorem signText_inj : a.signText = b.signText ↔ a.negative = b.negative := by
  rw [signText, signText]
  cases a.negative <;> cases b.negative <;> decide

/-- Decimals of one value have one text, except that the minus sign of a zero is shown. -/
theorem fixedText_eq_iff_of_value_eq (h : a.value = b.value) (places : Nat) :
    a.fixedText places = b.fixedText places ↔ (a.value = 0 → a.negative = b.negative) := by
  rw [fixedText, fixedText, mantissaAt_eq_of_value_eq h, List.append_cancel_right_eq, signText_inj]
  constructor
  · intro hn _
    exact hn
  · intro hn
    by_cases h0 : a.value = 0
    · exact hn h0
    · exact negative_eq_of_value_eq h h0

end PersonalLedger.Decimal
