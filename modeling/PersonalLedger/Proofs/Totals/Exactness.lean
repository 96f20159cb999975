import Mathlib.Algebra.Order.BigOperators.Group.List
import Mathlib.Algebra.Order.BigOperators.Group.Multiset
import Mathlib.Data.List.Sort
import PersonalLedger.Proofs.Decimal.Sum
import PersonalLedger.Proofs.Totals.Overflow

namespace PersonalLedger.Totals

variable {amounts amounts' : List Decimal} {places : Nat}

/-- Whether amounts have at most so many places and, without their signs, fit together into one
mantissa with these places. -/
structure FitsAt (places : Nat) (amounts : List Decimal) : Prop where
  scale_le : ∀ a ∈ amounts, a.scale ≤ places
  sum_lt : (amounts.map fun a => |a.value|).sum * 10 ^ places < 2 ^ 96

theorem sum_abs_le_of_sublist (hs : amounts'.Sublist amounts) :
    (amounts'.map fun a => |a.value|).sum ≤ (amounts.map fun a => |a.value|).sum := by
  apply (hs.map _).sum_le_sum
  intro x hx
  obtain ⟨a, -, rfl⟩ := List.mem_map.1 hx
  exact abs_nonneg a.value

theorem mul_pow_lt_of_le {x y : ℚ} (hle : x ≤ y) (h : y * 10 ^ places < 2 ^ 96) :
    x * 10 ^ places < 2 ^ 96 := by
  have hpow : (0 : ℚ) ≤ 10 ^ places := pow_nonneg (by decide) _
  exact lt_of_le_of_lt (mul_le_mul_of_nonneg_right hle hpow) h

theorem FitsAt.of_sublist (h : FitsAt places amounts) (hs : amounts'.Sublist amounts) :
    FitsAt places amounts' where
  scale_le := fun a ha => h.scale_le a (hs.subset ha)
  sum_lt := mul_pow_lt_of_le (sum_abs_le_of_sublist hs) h.sum_lt

theorem abs_sum_le (amounts : List Decimal) :
    |(amounts.map Decimal.value).sum| ≤ (amounts.map fun a => |a.value|).sum := by
  have h := Multiset.abs_sum_le_sum_abs (s := (amounts.map Decimal.value : Multiset ℚ))
  rw [Multiset.sum_coe, Multiset.map_coe, Multiset.sum_coe, List.map_map] at h
  exact h

theorem FitsAt.exists_sum?_eq_some (h : FitsAt places amounts) :
    ∃ total, sum? amounts = some total ∧ total.scale ≤ places ∧
      total.value = (amounts.map Decimal.value).sum := by
  induction amounts using List.reverseRecOn with
  | nil => exact ⟨.zero, rfl, Nat.zero_le places, Decimal.value_eq_zero_iff.2 rfl⟩
  | append_singleton amounts a ih =>
    obtain ⟨total, hsum, hscale, hvalue⟩ := ih (h.of_sublist (List.sublist_append_left _ _))
    have hall : total.value + a.value = ((amounts ++ [a]).map Decimal.value).sum := by
      rw [List.map_append, List.sum_append, List.map_singleton, List.sum_singleton, hvalue]
    have hlt : |total.value + a.value| * 10 ^ places < 2 ^ 96 :=
      mul_pow_lt_of_le (hall ▸ abs_sum_le _) h.sum_lt
    have ha := h.scale_le a (List.mem_append_right _ List.mem_cons_self)
    obtain ⟨total', hadd, hscale', hvalue'⟩ := Decimal.exists_add?_eq_some hscale ha hlt
    refine ⟨total', ?_, hscale', hvalue'.trans hall⟩
    rw [sum?_concat, hsum, Option.bind_some, hadd]

def largestScale (amounts : List Decimal) : Nat := (amounts.map (·.scale)).foldr max 0

/-- Whether amounts fit together into one mantissa, even if none of them takes away from another. -/
def Fit (amounts : List Decimal) : Prop :=
  (amounts.map fun a => |a.value|).sum * 10 ^ largestScale amounts ≤ 2 ^ 96 - 1

instance : Decidable (Fit amounts) := inferInstanceAs (Decidable (_ ≤ _))

theorem scale_le_largestScale {a : Decimal} (h : a ∈ amounts) :
    a.scale ≤ largestScale amounts := by
  induction amounts with
  | nil => cases h
  | cons b amounts ih =>
    rw [largestScale, List.map_cons, List.foldr_cons, ← largestScale]
    rcases List.mem_cons.1 h with rfl | h
    · exact Nat.le_max_left _ _
    · exact (ih h).trans (Nat.le_max_right _ _)

theorem Fit.fitsAt (h : Fit amounts) : FitsAt (largestScale amounts) amounts where
  scale_le := fun _ => scale_le_largestScale
  sum_lt := h.trans_lt (sub_one_lt _)

theorem Fit.of_perm (h : Fit amounts) (hp : amounts'.Perm amounts) : Fit amounts' := by
  have hscale : largestScale amounts' = largestScale amounts := (hp.map _).foldr_eq 0
  rw [Fit, hscale, (hp.map _).sum_eq]
  exact h

variable {keyOf : Entry → GroupKey} {entries entries' : List Entry} {groups : List Group}

theorem counted_perm (keyOf : Entry → GroupKey) (h : entries'.Perm entries) (key : GroupKey) :
    (counted keyOf entries' key).Perm (counted keyOf entries key) := h.filter _

theorem amountsOf_perm (keyOf : Entry → GroupKey) (h : entries'.Perm entries) (key : GroupKey) :
    (amountsOf keyOf entries' key).Perm (amountsOf keyOf entries key) :=
  (counted_perm keyOf h key).map _

theorem Covers.keys_eq_of_perm {groups' : List Group} (hc : Covers keyOf entries groups)
    (hc' : Covers keyOf entries' groups') (hp : entries'.Perm entries) :
    groups'.map (·.key) = groups.map (·.key) := by
  have hrise : (groups.map (·.key)).Pairwise fun a b => a.lt b = true :=
    List.pairwise_map.2 hc.rising
  have hrise' : (groups'.map (·.key)).Pairwise fun a b => a.lt b = true :=
    List.pairwise_map.2 hc'.rising
  apply hrise'.eq_of_mem_iff hrise
  intro key
  rw [hc.keys, hc'.keys, (hp.map keyOf).mem_iff]

/-- The key, the count and the value of the total of each group. -/
def summary (groups : List Group) : List (GroupKey × Nat × ℚ) :=
  groups.map fun g => (g.key, g.count, g.total.value)

section Fit

variable (h : ∀ e ∈ entries, Fit (amountsOf keyOf entries (keyOf e)))

include h

theorem fit_of_perm (hp : entries'.Perm entries) :
    ∀ e ∈ entries', Fit (amountsOf keyOf entries' (keyOf e)) := by
  intro e he
  exact (h e (hp.mem_iff.1 he)).of_perm (amountsOf_perm keyOf hp (keyOf e))

theorem addable_of_fit : Addable keyOf entries := by
  intro before e hp
  have he : e ∈ entries := hp.subset (List.mem_append_right _ List.mem_cons_self)
  have hs : (amountsOf keyOf (before ++ [e]) (keyOf e)).Sublist
      (amountsOf keyOf entries (keyOf e)) := (hp.sublist.filter _).map _
  obtain ⟨total, hsum, -, -⟩ := ((h e he).fitsAt.of_sublist hs).exists_sum?_eq_some
  rw [runningSum?, hsum]
  exact Option.some_ne_none total

theorem value_of_fit (hc : Covers keyOf entries groups) {g : Group} (hg : g ∈ groups) :
    g.total.value = ((amountsOf keyOf entries g.key).map Decimal.value).sum := by
  obtain ⟨e, he, hk⟩ := List.mem_map.1 ((hc.keys g.key).1 (List.mem_map_of_mem hg))
  obtain ⟨total, hsum, -, hvalue⟩ := (hk ▸ h e he).fitsAt.exists_sum?_eq_some
  rw [amountsOf, hc.sum_of_mem hg] at hsum
  cases hsum
  exact hvalue

theorem summary_of_fit (hc : Covers keyOf entries groups) :
    summary groups = (groups.map (·.key)).map fun key =>
      (key, (counted keyOf entries key).length,
        ((amountsOf keyOf entries key).map Decimal.value).sum) := by
  rw [summary, List.map_map]
  apply List.map_congr_left
  intro g hg
  rw [Function.comp_apply, hc.count_of_mem hg, value_of_fit h hc hg]

end Fit

/-- Where the amounts of every key fit into one mantissa together, totals are exact, and entries in
any other order have the same keys with the same counts and totals of the same value. -/
theorem ofEntries_exact (h : ∀ e ∈ entries, Fit (amountsOf keyOf entries (keyOf e))) :
    ∃ groups, ofEntries keyOf entries = .ok groups ∧
      (∀ g ∈ groups, g.total.value = ((amountsOf keyOf entries g.key).map Decimal.value).sum) ∧
      ∀ entries', entries'.Perm entries →
        ∃ groups', ofEntries keyOf entries' = .ok groups' ∧ summary groups' = summary groups := by
  obtain ⟨groups, hg⟩ := (addable_of_fit h).exists_ofEntries_eq_ok
  have hc := covers_of_ofEntries hg
  refine ⟨groups, hg, fun g => value_of_fit h hc, ?_⟩
  intro entries' hp
  -- whether amounts fit says nothing of their order, so the other order has totals as well
  have h' := fit_of_perm h hp
  obtain ⟨groups', hg'⟩ := (addable_of_fit h').exists_ofEntries_eq_ok
  have hc' := covers_of_ofEntries hg'
  refine ⟨groups', hg', ?_⟩
  rw [summary_of_fit h hc, summary_of_fit h' hc', hc.keys_eq_of_perm hc' hp]
  apply List.map_congr_left
  intro key _
  have hamounts := (amountsOf_perm keyOf hp key).map Decimal.value
  rw [(counted_perm keyOf hp key).length_eq, hamounts.sum_eq]

open GroupKey in
/-- One group ends right at the bound, and the other has amounts of three scales and both signs. -/
theorem ofEntries_exact_dinner :
    let entry (id : Int) (category : String) (amount : Decimal) : Entry :=
      { id, user := 1, category, amount, currency := "NZD", notes := "",
        time := .ofSeconds 1742032800, hash := "" }
    let entries := [entry 1 "Dinner" ⟨false, 450, 2, by decide, by decide⟩,
      entry 2 "Rent" ⟨false, 2 ^ 96 - 2, 0, by decide, by decide⟩,
      entry 3 "Dinner" ⟨true, 1125, 3, by decide, by decide⟩,
      entry 4 "Rent" ⟨true, 1, 0, by decide, by decide⟩,
      entry 5 "Dinner" ⟨false, 3, 0, by decide, by decide⟩]
    (∀ e ∈ entries, Fit (amountsOf byCategory entries (byCategory e))) ∧
      ∃ groups, ofEntries byCategory entries = .ok groups ∧
        summary groups =
          [(⟨"Dinner", none⟩, 3, 51 / 8), (⟨"Rent", none⟩, 2, 79228162514264337593543950333)] ∧
        ∃ groups', ofEntries byCategory entries.reverse = .ok groups' ∧
          summary groups' = summary groups := by
  intro entry entries
  have h : ∀ e ∈ entries, Fit (amountsOf byCategory entries (byCategory e)) := by
    decide +kernel
  obtain ⟨groups, hg, -, hperm⟩ := ofEntries_exact h
  have hs : (ofEntries byCategory entries).map summary = .ok
      [(⟨"Dinner", none⟩, 3, 51 / 8), (⟨"Rent", none⟩, 2, 79228162514264337593543950333)] := by
    decide +kernel
  rw [hg] at hs
  exact ⟨h, groups, hg, Except.ok.inj hs, hperm entries.reverse (List.reverse_perm entries)⟩

end PersonalLedger.Totals
