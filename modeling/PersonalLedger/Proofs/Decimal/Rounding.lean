import Mathlib.Algebra.Ring.Int.Parity
import Mathlib.Tactic.Linarith
import PersonalLedger.Proofs.Decimal.Sum

namespace PersonalLedger.Decimal

variable {x : ℚ} {n m : ℤ} {count dropped scale : Nat} {negative : Bool} {a b c d : Decimal}

/-- Whether an integer is nearest to a number, and the even one where two are. -/
structure Nearest (x : ℚ) (n : ℤ) : Prop where
  near : |x - n| ≤ 1 / 2
  even : |x - n| = 1 / 2 → Even n

namespace Nearest

theorem intCast (n : ℤ) : Nearest n n where
  near := by
    rw [sub_self, abs_zero]
    norm_num
  even := by
    rw [sub_self, abs_zero]
    norm_num

theorem neg (h : Nearest x n) : Nearest (-x) (-n) := by
  have he : |-x - ((-n : ℤ) : ℚ)| = |x - n| := by
    rw [Int.cast_neg, neg_sub_neg, abs_sub_comm]
  exact ⟨he ▸ h.near, fun hx => (h.even (he ▸ hx)).neg⟩

theorem abs (h : Nearest x n) : Nearest |x| |n| := by
  have hnear := abs_le.1 h.near
  rcases le_total 0 x with hx | hx
  · have hn : (-1 : ℚ) < n := by linarith
    have hn : -1 < n := by exact_mod_cast hn
    rw [abs_of_nonneg hx, abs_of_nonneg (by omega)]
    exact h
  · have hn : (n : ℚ) < 1 := by linarith
    have hn : n < 1 := by exact_mod_cast hn
    rw [abs_of_nonpos hx, abs_of_nonpos (by omega)]
    exact h.neg

theorem below (h0 : 0 ≤ x) (h : x ≤ 1 / 2) (heven : x = 1 / 2 → Even n) : Nearest (n + x) n := by
  have hx : |(n : ℚ) + x - n| = x := by rw [add_sub_cancel_left, abs_of_nonneg h0]
  exact ⟨hx.trans_le h, fun hhalf => heven (hx.symm.trans hhalf)⟩

theorem above (h0 : 0 ≤ x) (h : x ≤ 1 / 2) (heven : x = 1 / 2 → Even n) : Nearest (n - x) n := by
  have hx : |(n : ℚ) - x - n| = x := by rw [sub_sub_cancel_left, abs_neg, abs_of_nonneg h0]
  exact ⟨hx.trans_le h, fun hhalf => heven (hx.symm.trans hhalf)⟩

theorem le_of_half_le (h : Nearest x n) (hm : (m : ℚ) - 1 / 2 ≤ x)
    (heven : x = m - 1 / 2 → Even m) : m ≤ n := by
  have hnear := abs_le.1 h.near
  by_contra hlt
  have hlt : (n : ℚ) + 1 ≤ m := by exact_mod_cast Int.not_le.1 hlt
  -- The number is half way between the two, which are neighbours, and both are even.
  have hnm : n + 1 = m := by
    have hnm : (n : ℚ) + 1 = m := by linarith
    exact_mod_cast hnm
  have hx : x - n = 1 / 2 := by linarith
  have hn : Even n := h.even (by rw [hx]; norm_num)
  have hsucc : Even (n + 1) := hnm ▸ heven (by linarith)
  exact Int.not_even_iff_odd.2 hn.add_one hsucc

theorem le_iff (h : Nearest x n) (hm : Even m) : m ≤ n ↔ (m : ℚ) - 1 / 2 ≤ x := by
  constructor
  · intro hle
    have hle : (m : ℚ) ≤ n := Int.cast_le.2 hle
    linarith [(abs_le.1 h.near).1]
  · intro hle
    exact h.le_of_half_le hle fun _ => hm

theorem le_of_nearest (h : Nearest x n) (h' : Nearest x m) : m ≤ n := by
  apply h.le_of_half_le
  · linarith [(abs_le.1 h'.near).1]
  · intro hx
    apply h'.even
    rw [hx, sub_sub_cancel_left, abs_neg]
    norm_num

theorem unique (h : Nearest x n) (h' : Nearest x m) : n = m :=
  Int.le_antisymm (h'.le_of_nearest h) (h.le_of_nearest h')

end Nearest

theorem nearest_add_part {k : ℕ} (h0 : 0 ≤ x) (h1 : x ≤ 1) :
    Nearest (k + x) ((if 1 / 2 < x ∨ x = 1 / 2 ∧ k % 2 = 1 then k + 1 else k : ℕ) : ℤ) := by
  split
  · next hup =>
    have hhalf : 1 / 2 ≤ x := by
      rcases hup with h | h
      · exact h.le
      · exact h.1.ge
    have hnext : (k : ℚ) + x = ((k + 1 : ℕ) : ℤ) - (1 - x) := by
      rw [Int.cast_natCast, Nat.cast_add, Nat.cast_one]
      linarith
    rw [hnext]
    apply Nearest.above (by linarith) (by linarith)
    intro h
    have hodd := (hup.resolve_left (by linarith)).2
    exact (Int.even_coe_nat _).2 (Nat.odd_iff.2 hodd).add_one
  · next hdown =>
    rw [not_or, not_lt] at hdown
    apply Nearest.below h0 hdown.1
    intro h
    have hodd : ¬ k % 2 = 1 := fun hodd => hdown.2 ⟨h, hodd⟩
    exact (Int.even_coe_nat _).2 (Nat.even_iff.2 (Nat.mod_two_ne_one.1 hodd))

theorem nearest_roundHalfEven (n count : Nat) :
    Nearest ((n : ℚ) / 10 ^ count) (roundHalfEven n count : ℕ) := by
  have hpos : (0 : ℚ) < 10 ^ count := pow_pos (by decide) _
  have hrest : n % 10 ^ count < 10 ^ count := Nat.mod_lt n (Nat.pow_pos (by decide))
  have hn := Nat.div_add_mod n (10 ^ count)
  rw [roundHalfEven]
  generalize n / 10 ^ count = quotient at hn ⊢
  generalize n % 10 ^ count = rest at hn hrest ⊢
  have hx : (n : ℚ) / 10 ^ count = quotient + rest / 10 ^ count := by
    rw [← hn, Nat.cast_add, Nat.cast_mul, Nat.cast_pow, Nat.cast_ofNat, add_div,
      mul_div_cancel_left₀ _ hpos.ne']
  have h0 : (0 : ℚ) ≤ rest / 10 ^ count := div_nonneg (Nat.cast_nonneg rest) hpos.le
  have h1 : (rest : ℚ) / 10 ^ count ≤ 1 := by
    rw [div_le_one hpos]
    exact_mod_cast hrest.le
  -- Twice the rest against the divisor is the part against a half.
  have hlt : 10 ^ count < 2 * rest ↔ (1 : ℚ) / 2 < rest / 10 ^ count := by
    rw [lt_div_iff₀ hpos, one_div_mul_eq_div, div_lt_iff₀' (by decide)]
    exact_mod_cast Iff.rfl
  have heq : 10 ^ count = 2 * rest ↔ (rest : ℚ) / 10 ^ count = 1 / 2 := by
    rw [div_eq_div_iff hpos.ne' (by decide), mul_comm, one_mul, eq_comm]
    exact_mod_cast Iff.rfl
  simp only [hlt, heq, Bool.or_eq_true, Bool.and_eq_true, decide_eq_true_eq, beq_iff_eq]
  rw [hx]
  exact nearest_add_part h0 h1

/-- Whether a decimal is a number, rounded: it is nearest among those with as many places, and unless
it is the number itself there is no room for one place more. -/
structure Rounds (x : ℚ) (d : Decimal) : Prop where
  nearest : Nearest (x * 10 ^ d.scale) d.coefficient
  full : d.value = x ∨ 2 ^ 96 - 1 / 2 ≤ |x| * 10 ^ (d.scale + 1)

theorem value_mul_pow (d : Decimal) : d.value * 10 ^ d.scale = d.coefficient := by
  have h : (10 : ℚ) ^ d.scale ≠ 0 := pow_ne_zero _ (by decide)
  rw [value, div_mul_cancel₀ _ h]

theorem rounds_self (d : Decimal) : Rounds d.value d where
  nearest := by
    rw [value_mul_pow]
    exact .intCast d.coefficient
  full := .inl rfl

namespace Rounds

theorem abs_sub_le_half (h : Rounds x d) : |d.value - x| ≤ 1 / 2 := by
  have hpow : (1 : ℚ) ≤ 10 ^ d.scale := one_le_pow₀ (by decide)
  have hdist : |d.value - x| * 10 ^ d.scale = |x * 10 ^ d.scale - d.coefficient| := by
    rw [← value_mul_pow, ← sub_mul, abs_mul, abs_of_nonneg (zero_le_one.trans hpow), abs_sub_comm]
  calc |d.value - x|
      ≤ |d.value - x| * 10 ^ d.scale := le_mul_of_one_le_right (abs_nonneg _) hpow
    _ ≤ 1 / 2 := hdist ▸ h.nearest.near

theorem abs_mul_lt (h : Rounds x d) : |x| * 10 ^ d.scale < 2 ^ 96 - 1 / 2 := by
  have hpow : (0 : ℚ) < 10 ^ d.scale := pow_pos (by decide) _
  have hn : ¬ 2 ^ 96 ≤ |d.coefficient| := by
    rw [Int.abs_eq_natAbs, natAbs_coefficient, not_le]
    exact_mod_cast d.mantissa_lt
  rw [h.nearest.abs.le_iff (by decide), not_le, abs_mul, abs_of_pos hpow] at hn
  exact_mod_cast hn

theorem abs_lt (h : Rounds x d) : |x| < 2 ^ 96 - 1 / 2 := by
  have hpow : (1 : ℚ) ≤ 10 ^ d.scale := one_le_pow₀ (by decide)
  exact (le_mul_of_one_le_right (abs_nonneg x) hpow).trans_lt h.abs_mul_lt

theorem scale_le_of_full (h : Rounds x d) (hfull : 2 ^ 96 - 1 / 2 ≤ |x| * 10 ^ (scale + 1)) :
    d.scale ≤ scale := by
  by_contra hlt
  have hpow : (10 : ℚ) ^ (scale + 1) ≤ 10 ^ d.scale :=
    pow_le_pow_right₀ (by decide) (Nat.lt_of_not_le hlt)
  have hle := mul_le_mul_of_nonneg_left hpow (abs_nonneg x)
  exact not_lt.2 (hfull.trans hle) h.abs_mul_lt

theorem value_eq (h : Rounds d.value c) : c.value = d.value := by
  rcases h.full with h0 | hfull
  · exact h0
  have hn := cast_coefficient_mul ((rounds_self d).scale_le_of_full hfull)
  have hnear := h.nearest
  rw [← hn] at hnear
  have h10 : (10 : ℚ) ^ c.scale ≠ 0 := pow_ne_zero _ (by decide)
  rw [value, hnear.unique (.intCast _), hn, mul_div_cancel_right₀ _ h10]

theorem unique (h : Rounds x c) (h' : Rounds x d) : c.value = d.value := by
  rcases h.full with rfl | hfull
  · exact h'.value_eq.symm
  rcases h'.full with rfl | hfull'
  · exact h.value_eq
  have hscale := Nat.le_antisymm (h.scale_le_of_full hfull') (h'.scale_le_of_full hfull)
  have hnear := h'.nearest
  rw [← hscale] at hnear
  rw [value, value, h.nearest.unique hnear, hscale]

end Rounds

theorem le_roundHalfEven_iff (n count : Nat) :
    2 ^ 96 ≤ roundHalfEven n count ↔ (2 : ℚ) ^ 96 - 1 / 2 ≤ n / 10 ^ count := by
  have h := (nearest_roundHalfEven n count).le_iff (m := 2 ^ 96) (by decide)
  rw [Int.cast_pow, Int.cast_ofNat] at h
  rw [← h]
  exact_mod_cast Iff.rfl

theorem ofParts?_eq_none_iff {mantissa : Nat} (hs : scale ≤ 28) :
    ofParts? negative mantissa scale = none ↔ 2 ^ 96 ≤ mantissa := by
  rw [ofParts?, dite_eq_right_iff]
  simp only [hs, and_true, reduceCtorEq, imp_false, Nat.not_lt]

theorem ofParts?_eq_some {mantissa : Nat} (h : ofParts? negative mantissa scale = some c) :
    c.negative = negative ∧ c.mantissa = mantissa ∧ c.scale = scale := by
  rw [ofParts?] at h
  split at h
  · cases h
    exact ⟨rfl, rfl, rfl⟩
  · cases h

theorem fit?_eq_none_iff {n : Nat} (hs : scale ≤ 28) :
    fit? negative n dropped scale = none ↔ 2 ^ 96 ≤ roundHalfEven n (dropped + scale) := by
  induction scale generalizing dropped with
  | zero => rw [fit?, ofParts?_eq_none_iff hs, Nat.add_zero]
  | succ scale ih =>
    rw [fit?, Option.or_eq_none_iff, ofParts?_eq_none_iff hs, ih (Nat.le_of_succ_le hs),
      Nat.add_right_comm, ← Nat.add_assoc]
    apply and_iff_right_of_imp
    rw [le_roundHalfEven_iff, le_roundHalfEven_iff]
    intro h
    have hpow : (10 : ℚ) ^ dropped ≤ 10 ^ (dropped + scale + 1) :=
      pow_le_pow_right₀ (by decide) (by omega)
    exact h.trans (div_le_div_of_nonneg_left (Nat.cast_nonneg n) (pow_pos (by decide) _) hpow)

theorem exists_of_fit? {n : Nat} (hs : scale ≤ 28) (h : fit? negative n dropped scale = some c) :
    ∃ count, c.scale + count = scale ∧ c.negative = negative ∧
      c.mantissa = roundHalfEven n (dropped + count) ∧
        ∀ k < count, 2 ^ 96 ≤ roundHalfEven n (dropped + k) := by
  induction scale generalizing dropped with
  | zero =>
    obtain ⟨hn, hm, hc⟩ := ofParts?_eq_some h
    exact ⟨0, hc, hn, hm, fun k hk => absurd hk (Nat.not_lt_zero k)⟩
  | succ scale ih =>
    rw [fit?, Option.or_eq_some_iff] at h
    rcases h with h | ⟨hnone, h⟩
    · obtain ⟨hn, hm, hc⟩ := ofParts?_eq_some h
      exact ⟨0, hc, hn, hm, fun k hk => absurd hk (Nat.not_lt_zero k)⟩
    · obtain ⟨count, hc, hn, hm, hfull⟩ := ih (Nat.le_of_succ_le hs) h
      refine ⟨count + 1, by omega, hn, by rw [hm, Nat.add_assoc, Nat.add_comm 1], ?_⟩
      intro k hk
      cases k with
      | zero => exact (ofParts?_eq_none_iff hs).1 hnone
      | succ k =>
        rw [Nat.add_comm k, ← Nat.add_assoc]
        exact hfull k (Nat.lt_of_succ_lt_succ hk)

theorem nearest_coefficient (hn : c.negative = decide (n < 0))
    (hm : c.mantissa = roundHalfEven n.natAbs count) :
    Nearest ((n : ℚ) / 10 ^ count) c.coefficient := by
  have h := nearest_roundHalfEven n.natAbs count
  rw [← hm] at h
  rw [coefficient, hn]
  by_cases h0 : n < 0
  · have hcast : (n : ℚ) = -(n.natAbs : ℕ) := by
      rw [← Int.cast_natCast, Int.ofNat_natAbs_of_nonpos h0.le, Int.cast_neg, neg_neg]
    rw [if_pos (decide_eq_true h0), hcast, neg_div]
    exact h.neg
  · have hcast : (n : ℚ) = (n.natAbs : ℕ) := by
      rw [← Int.cast_natCast, Int.natAbs_of_nonneg (Int.not_lt.1 h0)]
    rw [if_neg (by rw [decide_eq_false h0]; exact Bool.false_ne_true), hcast]
    exact h

theorem rounds_of_fit? (hs : scale ≤ 28)
    (h : fit? (decide (n < 0)) n.natAbs 0 scale = some c) : Rounds (n / 10 ^ scale) c := by
  obtain ⟨count, rfl, hneg, hm, hfull⟩ := exists_of_fit? hs h
  simp only [Nat.zero_add] at hm hfull
  have hnear := nearest_coefficient hneg hm
  have h10 : (10 : ℚ) ^ c.scale ≠ 0 := pow_ne_zero _ (by decide)
  refine ⟨?_, ?_⟩
  · rw [pow_add, div_mul_eq_mul_div, mul_comm, mul_div_mul_left _ _ h10]
    exact hnear
  · cases count with
    | zero =>
      left
      rw [pow_zero, div_one] at hnear
      rw [value, hnear.unique (.intCast n), Nat.add_zero]
    | succ k =>
      right
      have hk := (le_roundHalfEven_iff _ _).1 (hfull k k.lt_succ_self)
      have hpos : (0 : ℚ) ≤ 10 ^ (c.scale + (k + 1)) := pow_nonneg (by decide) _
      have hpow : (10 : ℚ) ^ (c.scale + (k + 1)) = 10 ^ (c.scale + 1) * 10 ^ k := by
        rw [← pow_add, Nat.add_assoc, Nat.add_comm 1]
      have h10 : (10 : ℚ) ^ (c.scale + 1) ≠ 0 := pow_ne_zero _ (by decide)
      rw [abs_div, abs_of_nonneg hpos, hpow, div_mul_eq_mul_div, mul_comm,
        mul_div_mul_left _ _ h10, ← Int.cast_abs, Int.abs_eq_natAbs, Int.cast_natCast]
      exact hk

theorem add?_eq_fit? (ha : a.mantissa ≠ 0) (hb : b.mantissa ≠ 0) :
    ∃ n : ℤ, ∃ scale, scale ≤ 28 ∧ a.value + b.value = n / 10 ^ scale ∧
      a.add? b = fit? (decide (n < 0)) n.natAbs 0 scale := by
  let scale := max a.scale b.scale
  let sum := a.coefficient * 10 ^ (scale - a.scale) + b.coefficient * 10 ^ (scale - b.scale)
  refine ⟨sum, scale, max_le a.scale_le b.scale_le, ?_, ?_⟩
  · have h10 : (10 : ℚ) ^ scale ≠ 0 := pow_ne_zero _ (by decide)
    have hsum : (sum : ℚ) = (a.value + b.value) * 10 ^ scale :=
      cast_aligned (le_max_left _ _) (le_max_right _ _)
    rw [hsum, mul_div_cancel_right₀ _ h10]
  · rw [add?, if_neg ha, if_neg hb]

theorem rounds_of_add? (h : a.add? b = some c) : Rounds (a.value + b.value) c := by
  by_cases ha : a.mantissa = 0
  · rw [add?, if_pos ha] at h
    cases h
    rw [value_eq_zero_iff.2 ha, zero_add]
    exact rounds_self b
  by_cases hb : b.mantissa = 0
  · rw [add?, if_neg ha, if_pos hb] at h
    cases h
    rw [value_eq_zero_iff.2 hb, add_zero]
    exact rounds_self a
  obtain ⟨n, scale, hs, hvalue, hadd⟩ := add?_eq_fit? ha hb
  rw [hvalue]
  exact rounds_of_fit? hs (hadd ▸ h)

/-- A sum overflows exactly if it is at most half a unit below 2^96, or more, in size. -/
theorem add?_eq_none_iff : a.add? b = none ↔ 2 ^ 96 - 1 / 2 ≤ |a.value + b.value| := by
  by_cases ha : a.mantissa = 0
  · rw [add?, if_pos ha, value_eq_zero_iff.2 ha, zero_add]
    exact iff_of_false (Option.some_ne_none b) (not_le.2 (rounds_self b).abs_lt)
  by_cases hb : b.mantissa = 0
  · rw [add?, if_neg ha, if_pos hb, value_eq_zero_iff.2 hb, add_zero]
    exact iff_of_false (Option.some_ne_none a) (not_le.2 (rounds_self a).abs_lt)
  obtain ⟨n, scale, hs, hvalue, hadd⟩ := add?_eq_fit? ha hb
  have hpos : (0 : ℚ) ≤ 10 ^ scale := pow_nonneg (by decide) _
  rw [hadd, fit?_eq_none_iff hs, Nat.zero_add, le_roundHalfEven_iff, hvalue, abs_div,
    abs_of_nonneg hpos, ← Int.cast_abs, Int.abs_eq_natAbs, Int.cast_natCast]

end PersonalLedger.Decimal
