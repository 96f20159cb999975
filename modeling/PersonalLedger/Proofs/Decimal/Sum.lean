import PersonalLedger.Decimal.Sum
import PersonalLedger.Proofs.Decimal.Value

namespace PersonalLedger.Decimal

variable {a b : Decimal} {places : Nat}

theorem roundHalfEven_zero (n : Nat) : roundHalfEven n 0 = n := by
  have hrest : n % 10 ^ 0 = 0 := Nat.mod_one n
  simp only [roundHalfEven, hrest, Nat.pow_zero, Nat.div_one]
  rfl

theorem exists_fit?_eq_some {n : Int} (hn : n.natAbs < 2 ^ 96) (hp : places ≤ 28) :
    ∃ c, fit? (decide (n < 0)) n.natAbs 0 places = some c ∧ c.coefficient = n ∧
      c.scale = places := by
  have hparts : ofParts? (decide (n < 0)) (roundHalfEven n.natAbs 0) places =
      some ⟨decide (n < 0), n.natAbs, places, hn, hp⟩ := by
    simp only [roundHalfEven_zero, ofParts?, dif_pos (And.intro hn hp)]
  refine ⟨⟨decide (n < 0), n.natAbs, places, hn, hp⟩, ?_, ?_, rfl⟩
  · cases places with
    | zero => exact hparts
    | succ places => rw [fit?, hparts, Option.some_or]
  · simp only [coefficient, decide_eq_true_eq, Int.ofNat_eq_natCast]
    split <;> omega

theorem cast_coefficient_mul (h : a.scale ≤ places) :
    ((a.coefficient * 10 ^ (places - a.scale) : Int) : ℚ) = a.value * 10 ^ places := by
  have h10 : (10 : ℚ) ^ a.scale ≠ 0 := pow_ne_zero _ (by decide)
  obtain ⟨k, rfl⟩ := Nat.exists_eq_add_of_le h
  rw [Nat.add_sub_cancel_left, value, pow_add, ← mul_assoc, div_mul_cancel₀ _ h10]
  push_cast
  rfl

/-- Brought to one scale, the mantissas of two decimals add up to that of their sum. -/
theorem cast_aligned (ha : a.scale ≤ places) (hb : b.scale ≤ places) :
    ((a.coefficient * 10 ^ (places - a.scale) + b.coefficient * 10 ^ (places - b.scale) : Int) : ℚ) =
      (a.value + b.value) * 10 ^ places := by
  rw [Int.cast_add, cast_coefficient_mul ha, cast_coefficient_mul hb, add_mul]

theorem natAbs_lt_of_abs_mul_lt {n : Int} {x : ℚ} {scale : Nat} (hn : (n : ℚ) = x * 10 ^ scale)
    (hle : scale ≤ places) (h : |x| * 10 ^ places < 2 ^ 96) : n.natAbs < 2 ^ 96 := by
  have hnonneg : (0 : ℚ) ≤ 10 ^ scale := pow_nonneg (by decide) _
  have hpow : (10 : ℚ) ^ scale ≤ 10 ^ places := pow_le_pow_right₀ (by decide) hle
  have hlt : ((n.natAbs : ℕ) : ℚ) < 2 ^ 96 := by
    calc ((n.natAbs : ℕ) : ℚ)
        = |x| * 10 ^ scale := by
          rw [Nat.cast_natAbs, Int.cast_abs, hn, abs_mul, abs_of_nonneg hnonneg]
      _ ≤ |x| * 10 ^ places := mul_le_mul_of_nonneg_left hpow (abs_nonneg x)
      _ < 2 ^ 96 := h
  exact_mod_cast hlt

/-- The sum of two decimals is exact if it fits with as many places as both have at most. -/
theorem exists_add?_eq_some (ha : a.scale ≤ places) (hb : b.scale ≤ places)
    (h : |a.value + b.value| * 10 ^ places < 2 ^ 96) :
    ∃ c, a.add? b = some c ∧ c.scale ≤ places ∧ c.value = a.value + b.value := by
  rw [add?]
  by_cases ha0 : a.mantissa = 0
  · rw [if_pos ha0]
    exact ⟨b, rfl, hb, by rw [value_eq_zero_iff.2 ha0, zero_add]⟩
  by_cases hb0 : b.mantissa = 0
  · rw [if_neg ha0, if_pos hb0]
    exact ⟨a, rfl, ha, by rw [value_eq_zero_iff.2 hb0, add_zero]⟩
  simp only [if_neg ha0, if_neg hb0]
  generalize hscale : max a.scale b.scale = scale
  have hle : scale ≤ places := hscale ▸ max_le ha hb
  have h28 : scale ≤ 28 := hscale ▸ max_le a.scale_le b.scale_le
  generalize hn : a.coefficient * 10 ^ (scale - a.scale) +
    b.coefficient * 10 ^ (scale - b.scale) = n
  have hvalue : (n : ℚ) = (a.value + b.value) * 10 ^ scale := by
    rw [← hn, cast_aligned (hscale ▸ le_max_left _ _) (hscale ▸ le_max_right _ _)]
  have hfits : n.natAbs < 2 ^ 96 := natAbs_lt_of_abs_mul_lt hvalue hle h
  obtain ⟨c, hc, hcn, hcs⟩ := exists_fit?_eq_some hfits h28
  refine ⟨c, hc, hcs ▸ hle, ?_⟩
  have h10 : (10 : ℚ) ^ scale ≠ 0 := pow_ne_zero _ (by decide)
  rw [value, hcn, hcs, hvalue, mul_div_cancel_right₀ _ h10]

end PersonalLedger.Decimal
