import PersonalLedger.Proofs.Time.Order
import PersonalLedger.Time.Cycle

namespace PersonalLedger

namespace Date

theorem dayOfMonth_pos (d : Date) : 1 ≤ d.dayOfMonth := d.written_bounds.2.1

theorem dayOfMonth_le (d : Date) : d.dayOfMonth ≤ 31 := d.written_bounds.2.2

end Date

namespace Zone

theorem offsetAt_fixed (offset second : Int) : (fixed offset).offsetAt second = offset := by
  rw [offsetAt, fixed]
  split <;> rfl

theorem readings_fixed (offset shown : Int) :
    (fixed offset).readings shown = [shown - offset] := by
  by_cases h : shown - offset < 0
  · simp only [readings, fixed, h, Int.not_le.2 h, decide_true, decide_false, List.filter_cons,
      List.filter_nil, ↓reduceIte, Bool.false_eq_true, List.append_nil]
  · simp only [readings, fixed, h, Int.not_lt.1 h, decide_true, decide_false, List.filter_cons,
      List.filter_nil, ↓reduceIte, Bool.false_eq_true, List.nil_append]

theorem earliest?_fixed {offset shown : Int} (h : Instant.tells (shown - offset) = true) :
    (fixed offset).earliest? shown = some (shown - offset) := by
  rw [earliest?, readings_fixed, List.all_cons, h, List.all_nil]
  rfl

theorem midnight_fixed {offset : Int} {date : Date}
    (h : Instant.tells (86400 * date.days - offset) = true) :
    (fixed offset).midnight date = Instant.ofSeconds (86400 * date.days - offset) := by
  rw [midnight, earliest?_fixed h, Option.getD_some]

structure WithinDay (z : Zone) : Prop where
  before : z.before.natAbs < 86400
  after : z.after.natAbs < 86400

/-- How the clock of a zone is read as a second: by the offset before the change or by the one after
it, whichever fits first, and as UTC where neither fits. -/
inductive ReadAs (z : Zone) (shown : Int) : Int → Prop where
  | before (fits : shown - z.before < z.change) : ReadAs z shown (shown - z.before)
  | after (late : z.change ≤ shown - z.before) (fits : z.change ≤ shown - z.after) :
    ReadAs z shown (shown - z.after)
  | skipped (late : z.change ≤ shown - z.before) (early : shown - z.after < z.change) :
    ReadAs z shown shown

theorem readAs_head?_readings (z : Zone) (shown : Int) :
    z.ReadAs shown ((z.readings shown).head?.getD shown) := by
  rw [readings, List.filter_singleton, List.filter_singleton]
  by_cases hfits : shown - z.before < z.change
  · rw [decide_eq_true hfits]
    exact .before hfits
  · have hlate := Int.not_lt.1 hfits
    rw [decide_eq_false hfits]
    by_cases hfits : z.change ≤ shown - z.after
    · rw [decide_eq_true hfits]
      exact .after hlate hfits
    · rw [decide_eq_false hfits]
      exact .skipped hlate (Int.not_le.1 hfits)

theorem mem_readings_cases {z : Zone} {shown second : Int} (h : second ∈ z.readings shown) :
    second = shown - z.before ∨ second = shown - z.after := by
  rcases List.mem_append.1 h with h | h
  · exact .inl (List.mem_singleton.1 (List.mem_filter.1 h).1)
  · exact .inr (List.mem_singleton.1 (List.mem_filter.1 h).1)

theorem exists_readAs_midnight (z : Zone) (date : Date)
    (hb : Instant.tells (86400 * date.days - z.before) = true)
    (ha : Instant.tells (86400 * date.days - z.after) = true) :
    ∃ second, z.midnight date = Instant.ofSeconds second ∧
      z.ReadAs (86400 * date.days) second := by
  have htold : (z.readings (86400 * date.days)).all Instant.tells = true := by
    rw [List.all_eq_true]
    intro second h
    rcases mem_readings_cases h with rfl | rfl
    · exact hb
    · exact ha
  rw [midnight, earliest?, if_pos htold]
  exact ⟨_, rfl, z.readAs_head?_readings _⟩

end Zone

theorem Instant.tells_iff {second : Int} :
    tells second = true ↔ -8334601228800 ≤ second ∧ second ≤ 8210266876799 := by
  have hf : firstSecond = -8334601228800 := by decide
  have hl : lastSecond = 8210266876799 := by decide
  rw [tells, hf, hl, Bool.and_eq_true, decide_eq_true_eq, decide_eq_true_eq]

namespace Date

variable {d e : Date} {k : Nat}

theorem days_first : first.days = -96465292 := by decide

theorem days_last : last.days = 95026236 := by decide

theorem back?_eq_some_iff :
    d.back? k = some e ↔ (first ≤ d.back k ∧ d.back k ≤ last) ∧ e = d.back k := by
  rw [back?, Option.ite_none_right_eq_some, Option.some_inj, eq_comm (a := e)]

theorem back?_of_le (hl : d ≤ last) (hk : first.days + k ≤ d.days) :
    d.back? k = some (d.back k) := by
  have hl : d.days ≤ last.days := hl
  refine back?_eq_some_iff.2 ⟨⟨?_, ?_⟩, rfl⟩
  · change first.days ≤ d.days - k
    omega
  · change d.days - k ≤ last.days
    omega

end Date

namespace Cycle

variable {d e : Date}

/-- The start of a cycle is found in one step in the month of the date, or in two by way of the last
day of the month before. -/
theorem startDate?_cases (h : startDate? d = some e) :
    (startDay < d.dayOfMonth ∧ e = d.back (d.dayOfMonth - startDay : Nat)) ∨
      (d.dayOfMonth ≤ startDay ∧
        e = (d.back d.dayOfMonth).back ((d.back d.dayOfMonth).dayOfMonth - startDay : Nat)) := by
  rw [startDate?] at h
  by_cases hday : startDay < d.dayOfMonth
  · rw [if_pos hday] at h
    exact .inl ⟨hday, (Date.back?_eq_some_iff.1 h).2⟩
  · rw [if_neg hday] at h
    obtain ⟨monthEnd, hend, h⟩ := Option.bind_eq_some_iff.1 h
    obtain ⟨-, rfl⟩ := Date.back?_eq_some_iff.1 hend
    exact .inr ⟨Nat.not_lt.1 hday, (Date.back?_eq_some_iff.1 h).2⟩

theorem startDate?_bounds (h : startDate? d = some e) :
    d.days - 31 ≤ e.days ∧ e.days < d.days := by
  have hpos := d.dayOfMonth_pos
  have hle := d.dayOfMonth_le
  have hend := (d.back d.dayOfMonth).dayOfMonth_le
  rcases startDate?_cases h with ⟨hday, rfl⟩ | ⟨hday, rfl⟩
  · simp only [Date.back, startDay] at hday ⊢
    omega
  · simp only [Date.back, startDay] at hday hend ⊢
    omega

theorem dayOfMonth_january : ∀ k < 3,
    (⟨Date.first.days + 28 + (k : Nat)⟩ : Date).dayOfMonth = 29 + k := by
  decide +kernel

theorem exists_startDate? (hf : Date.ofValid ⟨-262143, 1, 29⟩ ≤ d) (hl : d ≤ Date.last) :
    ∃ e, startDate? d = some e := by
  have hf : Date.first.days + 28 ≤ d.days := hf
  have hpos := d.dayOfMonth_pos
  have hle := d.dayOfMonth_le
  have hend := (d.back d.dayOfMonth).dayOfMonth_le
  rw [startDate?]
  by_cases hday : startDay < d.dayOfMonth
  · rw [if_pos hday]
    exact ⟨_, Date.back?_of_le hl (by rw [startDay]; omega)⟩
  · rw [if_neg hday]
    rw [startDay] at hday ⊢
    have hlate : Date.first.days + 31 ≤ d.days := by
      -- on the last three days of January the 28th is in the month of the date
      by_contra hlt
      obtain ⟨k, hk⟩ : ∃ k : Nat, d.days = Date.first.days + 28 + k :=
        ⟨(d.days - Date.first.days - 28).toNat, by omega⟩
      have hd : d = ⟨Date.first.days + 28 + k⟩ := congrArg Date.mk hk
      rw [hd, dayOfMonth_january k (by omega)] at hday
      omega
    have hmonth := Date.back?_of_le hl (k := d.dayOfMonth) (by omega)
    have hmonthLast : d.back d.dayOfMonth ≤ Date.last := by
      change d.days - d.dayOfMonth ≤ Date.last.days
      have hl : d.days ≤ Date.last.days := hl
      omega
    refine ⟨_, Option.bind_eq_some_iff.2 ⟨_, hmonth, Date.back?_of_le hmonthLast ?_⟩⟩
    change Date.first.days + _ ≤ d.days - d.dayOfMonth
    omega

theorem exists_startDate?_of_plainYear (h : 0 ≤ d.written.year ∧ d.written.year ≤ 9999) :
    ∃ e, startDate? d = some e := by
  have hdays := Date.plainYear_iff.1 h
  refine exists_startDate? ?_ ?_
  · change Date.first.days + 28 ≤ d.days
    rw [Date.days_first]
    omega
  · change d.days ≤ Date.last.days
    rw [Date.days_last]
    omega

theorem getD_startDate?_bounds (d : Date) :
    d.days - 31 ≤ ((startDate? d).getD d).days ∧ ((startDate? d).getD d).days ≤ d.days := by
  cases h : startDate? d with
  | none =>
    rw [Option.getD_none]
    omega
  | some e =>
    have := startDate?_bounds h
    rw [Option.getD_some]
    omega

theorem start_eq {m : Moment} (h : startDate? m.date = some d) : start m = m.zone.midnight d := by
  rw [start, h, Option.getD_some]

theorem nanos_start (m : Moment) : (start m).nanos = 0 := rfl

theorem start_le_of_fixed {m : Moment} {offset : Int} (hz : m.zone = .fixed offset)
    (ht : m.instant.IsPlain) : (start m).seconds ≤ m.instant.seconds := by
  have hdate : m.date = ⟨(m.instant.seconds + offset) / 86400⟩ := by
    rw [Moment.date, Zone.localDate, Zone.localSeconds, hz, Zone.offsetAt_fixed]
  have hb := getD_startDate?_bounds m.date
  have hp := Instant.isPlain_iff.1 ht
  rw [start]
  generalize (startDate? m.date).getD m.date = date at hb ⊢
  rw [hdate] at hb
  simp only at hb
  have htells : Instant.tells (86400 * date.days - offset) = true := by
    rw [Instant.tells_iff]
    omega
  rw [hz, Zone.midnight_fixed htells, Instant.ofSeconds]
  simp only
  omega

/-- Midnight of a day before the date of a moment is before the moment, by whatever offset it is
read. -/
theorem lt_of_readAs {m : Moment} (hz : m.zone.WithinDay) {date : Date} (hd : date < m.date)
    {second : Int} (h : m.zone.ReadAs (86400 * date.days) second) :
    second < m.instant.seconds := by
  have hday : 86400 * date.days + 86400 ≤ m.zone.localSeconds m.instant := by
    have hd : date.days < m.zone.localSeconds m.instant / 86400 := hd
    omega
  have hb := hz.before
  have ha := hz.after
  rw [Zone.localSeconds, Zone.offsetAt] at hday
  cases h with
  | before fits =>
    split at hday <;> omega
  | after late fits =>
    -- Before the change, the earlier offset would have read that midnight.
    split at hday <;> omega
  | skipped late early =>
    split at hday <;> omega

theorem start_seconds_lt {m : Moment} (hz : m.zone.WithinDay)
    (hy : 0 ≤ m.date.written.year ∧ m.date.written.year ≤ 9999) :
    (start m).seconds < m.instant.seconds := by
  have hdays := Date.plainYear_iff.1 hy
  obtain ⟨date, hdate⟩ := exists_startDate?_of_plainYear hy
  have hstart := startDate?_bounds hdate
  have hb := hz.before
  have ha := hz.after
  obtain ⟨second, hmidnight, hread⟩ := m.zone.exists_readAs_midnight date
    (Instant.tells_iff.2 (by omega)) (Instant.tells_iff.2 (by omega))
  rw [start_eq hdate, hmidnight]
  exact lt_of_readAs hz hstart.2 hread

end Cycle

end PersonalLedger
