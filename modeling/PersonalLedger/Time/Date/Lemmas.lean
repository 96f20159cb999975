import PersonalLedger.Time.Date

namespace PersonalLedger.Date

def yearLength (year : Int) : Nat := if isLeap year then 366 else 365

theorem isLeap_iff (year : Int) :
    isLeap year = true ↔ year % 4 = 0 ∧ (year % 100 ≠ 0 ∨ year % 400 = 0) := by
  simp [isLeap]

theorem daysBeforeYear_cycle (e : Int) {c q y : Nat} (hc : c ≤ 3) (hq : q ≤ 24) (hy : y ≤ 3) :
    daysBeforeYear (400 * e + (100 * c + 4 * q + y : Nat) + 1) =
      146097 * e + (36524 * c + 1461 * q + 365 * y : Nat) := by
  have h4 : (400 * e + (100 * c + 4 * q + y : Nat)) / 4 = 100 * e + 25 * c + q := by omega
  have h100 : (400 * e + (100 * c + 4 * q + y : Nat)) / 100 = 4 * e + c := by omega
  have h400 : (400 * e + (100 * c + 4 * q + y : Nat)) / 400 = e := by omega
  simp only [daysBeforeYear, Int.add_sub_cancel, h4, h100, h400]
  omega

theorem isLeap_cycle (e : Int) {c q y : Nat} (hc : c ≤ 3) (hq : q ≤ 24) (hy : y ≤ 3) :
    isLeap (400 * e + (100 * c + 4 * q + y : Nat) + 1) = true ↔ y = 3 ∧ (q ≠ 24 ∨ c = 3) := by
  rw [isLeap_iff]
  constructor
  · intro h
    omega
  · rintro ⟨rfl, h⟩
    omega

/-- The year and the number of the day in it are those of the day. -/
theorem yearAndDay_eq (n : Int) :
    daysBeforeYear (yearAndDay n).1 + (yearAndDay n).2 = n ∧
      (yearAndDay n).2 < yearLength (yearAndDay n).1 := by
  obtain ⟨r, hr⟩ : ∃ r : Nat, (n % 146097).toNat = r := ⟨_, rfl⟩
  have hn : n = 146097 * (n / 146097) + r := by omega
  have hr' : r < 146097 := by omega
  simp only [yearAndDay, hr]
  generalize n / 146097 = e at *
  obtain ⟨c, hc⟩ : ∃ c, min (r / 36524) 3 = c := ⟨_, rfl⟩
  obtain ⟨q, hq⟩ : ∃ q, (r - 36524 * c) / 1461 = q := ⟨_, rfl⟩
  obtain ⟨y, hy⟩ : ∃ y, min ((r - 36524 * c) % 1461 / 365) 3 = y := ⟨_, rfl⟩
  simp only [hc, hq, hy]
  have hc3 : c ≤ 3 := by omega
  have hq24 : q ≤ 24 := by omega
  have hy3 : y ≤ 3 := by omega
  rw [daysBeforeYear_cycle e hc3 hq24 hy3]
  have hl := isLeap_cycle e hc3 hq24 hy3
  refine ⟨by omega, ?_⟩
  simp only [yearLength]
  by_cases h : y = 3 ∧ (q ≠ 24 ∨ c = 3)
  · rw [if_pos (hl.2 h)]
    omega
  · rw [if_neg (mt hl.1 h)]
    omega

theorem daysBeforeYear_succ (y : Int) :
    daysBeforeYear (y + 1) = daysBeforeYear y + yearLength y := by
  simp only [daysBeforeYear, yearLength]
  by_cases h : isLeap y = true
  · have := (isLeap_iff y).1 h
    rw [if_pos h]
    omega
  · have := mt (isLeap_iff y).2 h
    rw [if_neg h]
    omega

theorem daysBeforeYear_lt {y z : Int} (h : y < z) :
    daysBeforeYear y + yearLength y ≤ daysBeforeYear z := by
  obtain ⟨k, rfl⟩ : ∃ k : Nat, z = y + 1 + k := ⟨(z - y - 1).toNat, by omega⟩
  rw [← daysBeforeYear_succ]
  clear h
  induction k with
  | zero => simp
  | succ k ih =>
    have hs := daysBeforeYear_succ (y + 1 + k)
    have : y + 1 + ((k + 1 : Nat) : Int) = y + 1 + k + 1 := by omega
    rw [this]
    omega

theorem yearAndDay_unique {y : Int} {k : Nat} (h : k < yearLength y) :
    yearAndDay (daysBeforeYear y + k) = (y, k) := by
  obtain ⟨hd, hk⟩ := yearAndDay_eq (daysBeforeYear y + k)
  generalize yearAndDay (daysBeforeYear y + k) = p at *
  obtain ⟨z, l⟩ := p
  simp only at hd hk
  rcases Int.lt_trichotomy y z with hlt | rfl | hlt
  · have := daysBeforeYear_lt hlt
    omega
  · have : l = k := by omega
    rw [this]
  · have := daysBeforeYear_lt hlt
    omega

theorem monthAndDay_eq : ∀ leap : Bool, ∀ k < 366, k < (if leap then 366 else 365) →
    (1 ≤ (monthAndDay 1 (monthLengths leap) k).2 ∧
      (monthAndDay 1 (monthLengths leap) k).2 ≤
        monthLength leap (monthAndDay 1 (monthLengths leap) k).1) ∧
      daysBeforeMonth leap (monthAndDay 1 (monthLengths leap) k).1 +
        ((monthAndDay 1 (monthLengths leap) k).2 - 1) = k := by
  decide +kernel

theorem monthLength_eq_zero (leap : Bool) {month : Nat} (h : 12 < month) :
    monthLength leap month = 0 := by
  have hn : (monthLengths leap)[month - 1]? = none :=
    List.getElem?_eq_none (by simp only [monthLengths, List.length_cons, List.length_nil]; omega)
  rw [monthLength, if_neg (by omega), List.getD_eq_getElem?_getD, hn, Option.getD_none]

theorem monthLength_le (leap : Bool) (month : Nat) : monthLength leap month ≤ 31 := by
  by_cases h : 12 < month
  · rw [monthLength_eq_zero leap h]
    omega
  · have hm : month < 13 := by omega
    clear h
    revert month leap
    decide

theorem month_of_day {leap : Bool} {month day : Nat} (h : 1 ≤ day)
    (hd : day ≤ monthLength leap month) : month < 13 := by
  by_cases hm : 12 < month
  · rw [monthLength_eq_zero leap hm] at hd
    omega
  · omega

theorem monthAndDay_unique : ∀ leap : Bool, ∀ month < 13, ∀ day < 32, 1 ≤ day →
    day ≤ monthLength leap month →
    daysBeforeMonth leap month + (day - 1) < (if leap then 366 else 365) ∧
      monthAndDay 1 (monthLengths leap) (daysBeforeMonth leap month + (day - 1)) = (month, day) := by
  decide +kernel

theorem isValid_written (d : Date) : isValid d.written = true := by
  obtain ⟨-, hk⟩ := yearAndDay_eq (d.days + epochDays)
  have hk' : (yearAndDay (d.days + epochDays)).2 < 366 := by
    unfold yearLength at hk
    split at hk <;> omega
  have h := monthAndDay_eq (isLeap (yearAndDay (d.days + epochDays)).1) _ hk' hk
  rw [isValid, Bool.and_eq_true, decide_eq_true_eq, decide_eq_true_eq]
  exact h.1

theorem written_bounds (d : Date) :
    d.written.month ≤ 12 ∧ 1 ≤ d.written.day ∧ d.written.day ≤ 31 := by
  have h := d.isValid_written
  rw [isValid, Bool.and_eq_true, decide_eq_true_eq, decide_eq_true_eq] at h
  exact ⟨Nat.le_of_lt_succ (month_of_day h.1 h.2), h.1, Nat.le_trans h.2 (monthLength_le _ _)⟩

/-- What a date is written as makes the date again. -/
theorem ofValid_written (d : Date) : ofValid d.written = d := by
  obtain ⟨hy, hk⟩ := yearAndDay_eq (d.days + epochDays)
  have hk' : (yearAndDay (d.days + epochDays)).2 < 366 := by
    unfold yearLength at hk
    split at hk <;> omega
  have h := (monthAndDay_eq (isLeap (yearAndDay (d.days + epochDays)).1) _ hk' hk).2
  simp only [written, ofValid, h, hy, Int.add_sub_cancel]

theorem of?_written (d : Date) : of? d.written.year d.written.month d.written.day = some d := by
  rw [of?, if_pos (isValid_written d), ofValid_written]

/-- A written date that there is comes from the date it makes. -/
theorem written_ofValid {w : YearMonthDay} (h : isValid w = true) : (ofValid w).written = w := by
  obtain ⟨year, month, day⟩ := w
  simp only [isValid, Bool.and_eq_true, decide_eq_true_eq] at h
  have hm := month_of_day h.1 h.2
  have hd : day < 32 := by
    have := monthLength_le (isLeap year) month
    omega
  obtain ⟨hlt, hmd⟩ := monthAndDay_unique (isLeap year) month hm day hd h.1 h.2
  have hy := yearAndDay_unique (y := year) hlt
  simp only [ofValid, written, Int.sub_add_cancel, hy, hmd]

end PersonalLedger.Date
