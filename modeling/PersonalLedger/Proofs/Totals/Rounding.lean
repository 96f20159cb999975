import PersonalLedger.Proofs.Decimal.Rounding
import PersonalLedger.Proofs.Totals.Overflow

namespace PersonalLedger.Totals

variable {amounts before : List Decimal} {total total' : Decimal}

/-- Whether a total comes about from amounts, one after the other, by rounding each sum. -/
inductive Accrues : List Decimal → Decimal → Prop where
  | nil : Accrues [] .zero
  | concat {amounts : List Decimal} {amount total total' : Decimal} (run : Accrues amounts total)
    (rounds : Decimal.Rounds (total.value + amount.value) total') :
    Accrues (amounts ++ [amount]) total'

theorem accrues_of_sum? (h : sum? amounts = some total) : Accrues amounts total := by
  induction amounts using List.reverseRecOn generalizing total with
  | nil =>
    cases h
    exact .nil
  | append_singleton amounts amount ih =>
    rw [sum?_concat, Option.bind_eq_some_iff] at h
    obtain ⟨before, hsum, hadd⟩ := h
    exact .concat (ih hsum) (Decimal.rounds_of_add? hadd)

theorem value_zero : Decimal.zero.value = 0 := Decimal.value_eq_zero_iff.2 rfl

theorem sum_value_concat (amounts : List Decimal) (amount : Decimal) :
    ((amounts ++ [amount]).map Decimal.value).sum =
      (amounts.map Decimal.value).sum + amount.value := by
  rw [List.map_append, List.sum_append, List.map_singleton, List.sum_singleton]

namespace Accrues

/-- What comes about by rounding is added up, and to the same value. -/
theorem exists_sum?_eq_some (h : Accrues amounts total) :
    ∃ sum, sum? amounts = some sum ∧ sum.value = total.value := by
  induction h with
  | nil => exact ⟨.zero, rfl, rfl⟩
  | @concat amounts amount total total' _ rounds ih =>
    obtain ⟨sum, hsum, hvalue⟩ := ih
    rw [sum?_concat, hsum, Option.bind_some]
    rw [← hvalue] at rounds
    cases hadd : sum.add? amount with
    | none => exact absurd rounds.abs_lt (not_lt.2 (Decimal.add?_eq_none_iff.1 hadd))
    | some sum' => exact ⟨sum', rfl, (Decimal.rounds_of_add? hadd).unique rounds⟩

theorem eq_zero (h : Accrues amounts total) (hnil : amounts = []) : total = .zero := by
  cases h with
  | nil => rfl
  | concat => exact absurd hnil (List.concat_ne_nil _ _)

/-- Each amount but the first may move the total by half a unit. -/
theorem abs_sub_sum_le (h : Accrues amounts total) (hne : amounts ≠ []) :
    |total.value - (amounts.map Decimal.value).sum| ≤ (amounts.length - 1) / 2 := by
  induction h with
  | nil => exact absurd rfl hne
  | @concat amounts amount total total' run rounds ih =>
    rw [sum_value_concat, List.length_append, List.length_singleton, Nat.cast_add, Nat.cast_one,
      add_sub_cancel_right]
    by_cases hnil : amounts = []
    · rw [run.eq_zero hnil, value_zero, zero_add] at rounds
      rw [rounds.value_eq, hnil, List.map_nil, List.sum_nil, zero_add, sub_self, abs_zero]
      norm_num
    · have hstep := rounds.abs_sub_le_half
      have hrun := ih hnil
      calc |total'.value - ((amounts.map Decimal.value).sum + amount.value)|
          ≤ |total'.value - (total.value + amount.value)| +
              |total.value - (amounts.map Decimal.value).sum| := by
            have h := abs_sub_le total'.value (total.value + amount.value)
              ((amounts.map Decimal.value).sum + amount.value)
            rwa [add_sub_add_right_eq_sub] at h
        _ ≤ 1 / 2 + (amounts.length - 1) / 2 := add_le_add hstep hrun
        _ = amounts.length / 2 := by rw [← add_div, add_sub_cancel]

theorem value_eq_sum (h : Accrues amounts total)
    (hd : ∀ before, before <+: amounts → ∃ d : Decimal, d.value = (before.map Decimal.value).sum) :
    total.value = (amounts.map Decimal.value).sum := by
  induction h with
  | nil => exact value_zero
  | @concat amounts amount total total' run rounds ih =>
    have hrun := ih fun before hp => hd before (hp.trans (List.prefix_append amounts [amount]))
    obtain ⟨d, hd⟩ := hd _ List.prefix_rfl
    rw [sum_value_concat, ← hrun] at hd ⊢
    rw [← hd] at rounds ⊢
    exact rounds.value_eq

end Accrues

variable {keyOf : Entry → GroupKey} {entries : List Entry}

theorem exists_ofEntries_eq_error_iff_accrues : (∃ f, ofEntries keyOf entries = .error f) ↔
    ∃ before e total, before ++ [e] <+: entries ∧
      Accrues (amountsOf keyOf before (keyOf e)) total ∧
        2 ^ 96 - 1 / 2 ≤ |total.value + e.amount.value| := by
  constructor
  · rintro ⟨f, hf⟩
    obtain ⟨before, e, he, -⟩ := ofEntries_eq_error_iff.1 hf
    obtain ⟨groups, hg⟩ := he.addable.exists_ofEntries_eq_ok
    have hsum := (covers_of_ofEntries hg).sum (keyOf e)
    have hover := he.overflows
    rw [(covers_of_ofEntries hg).runningSum?_eq, Decimal.add?_eq_none_iff] at hover
    exact ⟨before, e, _, he.at_entry, accrues_of_sum? hsum, hover⟩
  · rintro ⟨before, e, total, hp, hrun, hbound⟩
    obtain ⟨sum, hsum, hvalue⟩ := hrun.exists_sum?_eq_some
    rw [← hvalue, ← Decimal.add?_eq_none_iff] at hbound
    refine exists_ofEntries_eq_error_iff.2 ⟨before, e, hp, ?_⟩
    rw [runningSum?_eq, hsum, Option.bind_some, hbound]

/-- Totals that are not refused are those of the keys of the entries, and come about from the amounts
by rounding each sum on the way. They are off by at most half a unit for each amount but the first,
and exact if decimals hold the exact sums on the way. They are refused exactly if at some entry the
total so far and the amount are together half a unit below 2^96, or more, in size. -/
theorem ofEntries_accrues (keyOf : Entry → GroupKey) (entries : List Entry) :
    (∀ groups, ofEntries keyOf entries = .ok groups →
        (∀ key, key ∈ groups.map (·.key) ↔ key ∈ entries.map keyOf) ∧
        ∀ g ∈ groups, Accrues (amountsOf keyOf entries g.key) g.total ∧
          |g.total.value - ((amountsOf keyOf entries g.key).map Decimal.value).sum| ≤
            (g.count - 1) / 2 ∧
          ((∀ before, before <+: amountsOf keyOf entries g.key →
              ∃ d : Decimal, d.value = (before.map Decimal.value).sum) →
            g.total.value = ((amountsOf keyOf entries g.key).map Decimal.value).sum)) ∧
      ((∃ f, ofEntries keyOf entries = .error f) ↔
        ∃ before e total, before ++ [e] <+: entries ∧
          Accrues (amountsOf keyOf before (keyOf e)) total ∧
            2 ^ 96 - 1 / 2 ≤ |total.value + e.amount.value|) := by
  refine ⟨?_, exists_ofEntries_eq_error_iff_accrues⟩
  intro groups hg
  have hc := covers_of_ofEntries hg
  refine ⟨hc.keys, ?_⟩
  intro g hm
  have hrun : Accrues (amountsOf keyOf entries g.key) g.total := accrues_of_sum? (hc.sum_of_mem hm)
  have hne : amountsOf keyOf entries g.key ≠ [] := mt List.map_eq_nil_iff.1 (hc.counted_ne_nil hm)
  have hcount : g.count = (amountsOf keyOf entries g.key).length := by
    rw [hc.count_of_mem hm, amountsOf, List.length_map]
  refine ⟨hrun, ?_, hrun.value_eq_sum⟩
  rw [hcount]
  exact hrun.abs_sub_sum_le hne

open GroupKey in
/-- A cent is added to a total of 28 digits and a half, and the total stays as it is. -/
theorem ofEntries_inexact :
    let entry (id : Int) (amount : Decimal) : Entry :=
      { id, user := 1, category := "Groceries", amount, currency := "NZD", notes := "",
        time := .ofSeconds 1742032800, hash := "" }
    let large : Decimal := ⟨false, 79228162514264337593543950335, 1, by decide, by decide⟩
    let entries := [entry 1 large, entry 2 ⟨false, 1, 2, by decide, by decide⟩]
    ofEntries byCategory entries = .ok [⟨⟨"Groceries", none⟩, large, 2⟩] ∧
      large.value ≠ ((amountsOf byCategory entries ⟨"Groceries", none⟩).map Decimal.value).sum := by
  intro entry large entries
  exact ⟨by decide +kernel, by decide +kernel⟩

end PersonalLedger.Totals
