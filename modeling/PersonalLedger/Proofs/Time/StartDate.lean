import Mathlib.Order.Bounds.Defs
import PersonalLedger.Proofs.Time.Cycle

namespace PersonalLedger

namespace Date

variable {d e : Date} {k : Nat}

theorem daysBeforeMonth_succ : ∀ leap : Bool, ∀ month < 12,
    daysBeforeMonth leap (month + 1) = daysBeforeMonth leap month + monthLength leap month := by
  decide

theorem le_monthLength : ∀ leap : Bool, ∀ month < 13, month ≠ 0 → 28 ≤ monthLength leap month := by
  decide

theorem daysBeforeMonth_december (year : Int) :
    daysBeforeMonth (isLeap year) 12 + 31 = yearLength year := by
  rw [yearLength]
  cases isLeap year with
  | true => rfl
  | false => rfl

theorem dayOfMonth_ofValid {w : YearMonthDay} (h : isValid w = true) :
    (ofValid w).dayOfMonth = w.day := by
  rw [dayOfMonth, written_ofValid h]

theorem back_le_back_iff {l : Nat} : d.back k ≤ d.back l ↔ l ≤ k := by
  change d.days - k ≤ d.days - l ↔ l ≤ k
  omega

theorem back_lt_iff : d.back k < d ↔ 0 < k := by
  change d.days - k < d.days ↔ 0 < k
  omega

theorem exists_back (h : e ≤ d) : ∃ k : Nat, e = d.back k := by
  have hle : e.days ≤ d.days := h
  refine ⟨(d.days - e.days).toNat, ?_⟩
  rw [back, Int.toNat_of_nonneg (by omega), Int.sub_sub_self]

/-- Earlier dates of a month have smaller days. -/
theorem back_eq_ofValid (h : k < d.dayOfMonth) :
    d.back k = ofValid { d.written with day := d.dayOfMonth - k } := by
  have hd := congrArg days d.ofValid_written
  rw [dayOfMonth] at h ⊢
  rw [back, ← hd]
  simp only [ofValid, Date.mk.injEq]
  omega

theorem dayOfMonth_back (h : k < d.dayOfMonth) : (d.back k).dayOfMonth = d.dayOfMonth - k := by
  have hw := d.isValid_written
  rw [back_eq_ofValid h, dayOfMonth_ofValid]
  rw [dayOfMonth] at h ⊢
  simp only [isValid, Bool.and_eq_true, decide_eq_true_eq] at hw ⊢
  omega

theorem exists_monthEnd (d : Date) : ∃ year, ∃ month < 13, month ≠ 0 ∧
    d.back d.dayOfMonth = ofValid ⟨year, month, monthLength (isLeap year) month⟩ := by
  have hw := d.isValid_written
  have hd := congrArg days d.ofValid_written
  rw [dayOfMonth, back, ← hd]
  generalize d.written = w at hw
  obtain ⟨year, month, day⟩ := w
  simp only [isValid, Bool.and_eq_true, decide_eq_true_eq] at hw
  have hmonth := month_of_day hw.1 hw.2
  have hpos : month ≠ 0 := by
    rintro rfl
    have hlength : monthLength (isLeap year) 0 = 0 := rfl
    omega
  obtain rfl | hlt : month = 1 ∨ 1 < month := by omega
  · have hyear := daysBeforeYear_succ (year - 1)
    have hdecember := daysBeforeMonth_december (year - 1)
    have hlength : monthLength (isLeap (year - 1)) 12 = 31 := rfl
    have hjanuary : daysBeforeMonth (isLeap year) 1 = 0 := rfl
    rw [Int.sub_add_cancel] at hyear
    refine ⟨year - 1, 12, by decide, by decide, ?_⟩
    simp only [ofValid, hlength, hjanuary, Date.mk.injEq]
    omega
  · obtain ⟨m, rfl⟩ : ∃ m, month = m + 1 := Nat.exists_eq_succ_of_ne_zero hpos
    have hm := daysBeforeMonth_succ (isLeap year) m (by omega)
    have hlength := le_monthLength (isLeap year) m (by omega) (by omega)
    refine ⟨year, m, by omega, by omega, ?_⟩
    simp only [ofValid, Date.mk.injEq]
    omega

theorem le_dayOfMonth_back (d : Date) : 28 ≤ (d.back d.dayOfMonth).dayOfMonth := by
  obtain ⟨year, month, hmonth, hpos, he⟩ := d.exists_monthEnd
  have hlength := le_monthLength (isLeap year) month hmonth hpos
  rw [he, dayOfMonth_ofValid]
  · exact hlength
  · simp only [isValid, Bool.and_eq_true, decide_eq_true_eq]
    omega

end Date

namespace Cycle

variable {d e : Date}

/-- From the 28th on, the last 28th up to a date is that of its month. -/
theorem isGreatest_back (h : startDay ≤ d.dayOfMonth) :
    IsGreatest {e : Date | e ≤ d ∧ e.dayOfMonth = 28} (d.back (d.dayOfMonth - startDay : Nat)) := by
  rw [startDay] at h ⊢
  constructor
  · refine ⟨Int.sub_le_self d.days (Int.natCast_nonneg _), ?_⟩
    rw [Date.dayOfMonth_back (by omega)]
    omega
  · rintro e ⟨hle, he⟩
    obtain ⟨k, rfl⟩ := Date.exists_back hle
    rw [Date.back_le_back_iff]
    by_contra hk
    rw [Date.dayOfMonth_back (by omega)] at he
    omega

theorem isGreatest_of_startDate? (h : startDate? d = some e) :
    IsGreatest {e : Date | e < d ∧ e.dayOfMonth = 28} e := by
  have hpos := d.dayOfMonth_pos
  rcases startDate?_cases h with ⟨hday, rfl⟩ | ⟨hday, rfl⟩
  · obtain ⟨⟨-, h28⟩, hlast⟩ := isGreatest_back (Nat.le_of_lt hday)
    refine ⟨⟨Date.back_lt_iff.2 (Nat.sub_pos_of_lt hday), h28⟩, ?_⟩
    rintro e ⟨hlt, he⟩
    exact hlast ⟨Int.le_of_lt hlt, he⟩
  · obtain ⟨⟨hle, h28⟩, hlast⟩ := isGreatest_back d.le_dayOfMonth_back
    refine ⟨⟨Int.lt_of_le_of_lt hle (Date.back_lt_iff.2 hpos), h28⟩, ?_⟩
    rintro e ⟨hlt, he⟩
    obtain ⟨k, rfl⟩ := Date.exists_back (Int.le_of_lt hlt)
    refine hlast ⟨Date.back_le_back_iff.2 ?_, he⟩
    -- up to the 28th, the dates before `d` in its own month have smaller days than 28
    by_contra hk
    have hk0 := Date.back_lt_iff.1 hlt
    rw [startDay] at hday
    rw [Date.dayOfMonth_back (Nat.not_le.1 hk)] at he
    omega

theorem exists_startDate?_of_year (h : 1 ≤ d.written.year ∧ d.written.year ≤ 9999) :
    ∃ e, startDate? d = some e ∧ 0 ≤ e.written.year ∧ e.written.year ≤ 9999 := by
  have hyear : 0 ≤ d.written.year ∧ d.written.year ≤ 9999 := ⟨Int.le_of_lt h.1, h.2⟩
  have hdays := Date.plainYear_iff.1 hyear
  obtain ⟨e, he⟩ := exists_startDate?_of_plainYear hyear
  have hbounds := startDate?_bounds he
  have hfirst := mt Date.year_lt_iff.2 (Int.not_lt.2 h.1)
  have h1 : Date.daysBeforeYear 1 = 0 := by decide
  rw [h1, Date.epochDays] at hfirst
  refine ⟨e, he, ?_⟩
  rw [Date.plainYear_iff]
  omega

/-- From 29 January of the first year that can be told, the cycle of a date starts on the last 28th
before it. That is between one and 31 days earlier, and of two dates, the cycle of the later one
starts no earlier. -/
theorem startDate_last (hf : Date.ofValid ⟨-262143, 1, 29⟩ ≤ d) (hl : d ≤ Date.last) :
    ∃ start, startDate? d = some start ∧
      IsGreatest {e : Date | e < d ∧ e.dayOfMonth = 28} start ∧
      (d.days - 31 ≤ start.days ∧ start.days ≤ d.days - 1) ∧
      ∀ later, d ≤ later → later ≤ Date.last →
        ∃ start', startDate? later = some start' ∧ start ≤ start' := by
  obtain ⟨start, hs⟩ := exists_startDate? hf hl
  have hgreatest := isGreatest_of_startDate? hs
  refine ⟨start, hs, hgreatest, ?_, ?_⟩
  · obtain ⟨hfirst, hlast⟩ := startDate?_bounds hs
    exact ⟨hfirst, Int.le_sub_one_of_lt hlast⟩
  · intro later hle hl'
    obtain ⟨start', hs'⟩ := exists_startDate? (Int.le_trans hf hle) hl'
    refine ⟨start', hs', (isGreatest_of_startDate? hs').2 ⟨?_, hgreatest.1.2⟩⟩
    exact Int.lt_of_lt_of_le hgreatest.1.1 hle

/-- The first date that has a start, the day before it. -/
theorem startDate_last_january :
    let d := Date.ofValid ⟨-262143, 1, 29⟩
    d ≤ Date.last ∧ startDate? d = some (.ofValid ⟨-262143, 1, 28⟩) ∧
      ∃ start, startDate? d = some start ∧
        IsGreatest {e : Date | e < d ∧ e.dayOfMonth = 28} start ∧
        (d.days - 31 ≤ start.days ∧ start.days ≤ d.days - 1) ∧
        ∀ later, d ≤ later → later ≤ Date.last →
          ∃ start', startDate? later = some start' ∧ start ≤ start' := by
  intro d
  have hl : d ≤ Date.last := by decide
  exact ⟨hl, by decide +kernel, startDate_last (Int.le_refl _) hl⟩

/-- The day before has none: the 28th before it is in a year that cannot be told. -/
theorem startDate_untold :
    let d := Date.ofValid ⟨-262143, 1, 28⟩
    Date.first ≤ d ∧ d ≤ Date.last ∧ startDate? d = none := by
  decide +kernel

end Cycle

end PersonalLedger
