import Mathlib.Order.Bounds.Defs
import PersonalLedger.Proofs.Time.Cycle

namespace PersonalLedger

namespace Zone

variable {z : Zone} {date date' : Date} {t : Instant} {shown second : Int}

theorem mem_readings_iff : second ∈ z.readings shown ↔ second + z.offsetAt second = shown := by
  rw [readings, List.mem_append, List.mem_filter, List.mem_filter, List.mem_singleton,
    List.mem_singleton, decide_eq_true_eq, decide_eq_true_eq, offsetAt]
  split <;> omega

theorem readings_sorted (z : Zone) (shown : Int) : (z.readings shown).Pairwise (· < ·) := by
  rw [readings, List.pairwise_append]
  refine ⟨(List.pairwise_singleton _ _).filter _, (List.pairwise_singleton _ _).filter _, ?_⟩
  intro first hfirst second hsecond
  have hearly := of_decide_eq_true (List.mem_filter.1 hfirst).2
  have hlate := of_decide_eq_true (List.mem_filter.1 hsecond).2
  exact Int.lt_of_lt_of_le hearly hlate

/-- Whether the clock of the zone shows midnight of a date at an instant. -/
def ShowsMidnight (z : Zone) (date : Date) (t : Instant) : Prop :=
  z.localSeconds t = 86400 * date.days ∧ t.nanos = 0

instance : Decidable (z.ShowsMidnight date t) := inferInstanceAs (Decidable (_ ∧ _))

theorem showsMidnight_iff :
    z.ShowsMidnight date t ↔ t.seconds ∈ z.readings (86400 * date.days) ∧ t.nanos = 0 := by
  rw [ShowsMidnight, localSeconds, mem_readings_iff]

theorem showsMidnight_ofSeconds (h : second ∈ z.readings (86400 * date.days)) :
    z.ShowsMidnight date (.ofSeconds second) :=
  showsMidnight_iff.2 ⟨h, rfl⟩

theorem localDate_of_showsMidnight (h : z.ShowsMidnight date t) : z.localDate t = date := by
  rw [localDate, h.1, Int.mul_ediv_cancel_left _ (by decide)]

theorem showsMidnight_fixed {offset : Int}
    (h : Instant.tells (86400 * date.days - offset) = true) :
    (fixed offset).ShowsMidnight date ((fixed offset).midnight date) := by
  rw [midnight_fixed h]
  refine ⟨?_, rfl⟩
  rw [localSeconds, offsetAt_fixed]
  exact Int.sub_add_cancel _ offset

/-- A midnight that exists is found, unless one of its instants cannot be told. -/
theorem isLeast_midnight (hex : ∃ t, z.ShowsMidnight date t)
    (htold : ∀ t, z.ShowsMidnight date t → Instant.tells t.seconds = true) :
    IsLeast {t | z.ShowsMidnight date t} (z.midnight date) := by
  obtain ⟨t, ht⟩ := hex
  have hmem := (showsMidnight_iff.1 ht).1
  have hall : (z.readings (86400 * date.days)).all Instant.tells = true :=
    List.all_eq_true.2 fun second h => htold _ (showsMidnight_ofSeconds h)
  have hsorted := z.readings_sorted (86400 * date.days)
  rw [midnight, earliest?, if_pos hall]
  cases hr : z.readings (86400 * date.days) with
  | nil =>
    rw [hr] at hmem
    cases hmem
  | cons first rest =>
    rw [List.head?_cons, Option.getD_some]
    constructor
    · exact showsMidnight_ofSeconds (hr ▸ List.mem_cons_self)
    · intro t ht
      have hmem := (showsMidnight_iff.1 ht).1
      rw [hr] at hsorted hmem
      rcases List.mem_cons.1 hmem with he | hrest
      · exact .inr ⟨he.symm, Nat.zero_le _⟩
      · exact .inl (List.rel_of_pairwise_cons hsorted hrest)

theorem midnight_cases (z : Zone) (date : Date) : ∃ second,
    z.midnight date = .ofSeconds second ∧
      (z.ReadAs (86400 * date.days) second ∨ second = 86400 * date.days) := by
  rw [midnight, earliest?]
  split
  · exact ⟨_, rfl, .inl (z.readAs_head?_readings _)⟩
  · exact ⟨_, rfl, .inr rfl⟩

/-- By whatever offsets, times shown a day or more apart are read in their order. -/
theorem lt_of_readAs_of_add_le (hz : z.WithinDay) {shown' second' : Int}
    (h : shown + 86400 ≤ shown') (hread : z.ReadAs shown second ∨ second = shown)
    (hread' : z.ReadAs shown' second' ∨ second' = shown') : second < second' := by
  have hb := hz.before
  have ha := hz.after
  -- before the change are only times up to some point; else a day outweighs any offset
  rcases hread with (⟨fits⟩ | ⟨late, fits⟩ | ⟨late, early⟩) | rfl <;>
    rcases hread' with (⟨fits'⟩ | ⟨late', fits'⟩ | ⟨late', early'⟩) | rfl <;> omega

theorem midnight_lt_midnight (hz : z.WithinDay) (h : date < date') :
    z.midnight date < z.midnight date' := by
  have hday : 86400 * date.days + 86400 ≤ 86400 * date'.days := by
    have hlt : date.days < date'.days := h
    omega
  obtain ⟨second, he, hread⟩ := z.midnight_cases date
  obtain ⟨second', he', hread'⟩ := z.midnight_cases date'
  rw [he, he']
  exact .inl (lt_of_readAs_of_add_le hz hday hread hread')

/-- Of the dates that can be told, all but the first have midnights that can be told. -/
theorem tells_of_showsMidnight (hz : z.WithinDay) (hfirst : Date.ofValid ⟨-262143, 1, 1⟩ < date)
    (hlast : date ≤ Date.ofValid ⟨262142, 12, 31⟩) (h : z.ShowsMidnight date t) :
    Instant.tells t.seconds = true := by
  have hf : (Date.ofValid ⟨-262143, 1, 1⟩).days < date.days := hfirst
  have hl : date.days ≤ (Date.ofValid ⟨262142, 12, 31⟩).days := hlast
  have hf' : (Date.ofValid ⟨-262143, 1, 1⟩).days = -96465292 := by decide
  have hl' : (Date.ofValid ⟨262142, 12, 31⟩).days = 95026236 := by decide
  have hb := hz.before
  have ha := hz.after
  rw [Instant.tells_iff]
  rcases mem_readings_cases (showsMidnight_iff.1 h).1 with he | he <;> omega

/-- The midnight of a date is the first instant at which the clock shows it, if it does so at all and
these instants can be told. All of them can for each date that can be told but the first, which is
1 January of the year -262143. Whether or not midnights are shown, once or twice, the midnight of a
later date is later. -/
theorem midnight_first (hz : z.WithinDay) :
    (∀ date, (∃ t, z.ShowsMidnight date t) →
      (∀ t, z.ShowsMidnight date t → Instant.tells t.seconds = true) →
        IsLeast {t | z.ShowsMidnight date t} (z.midnight date)) ∧
      (∀ date, Date.ofValid ⟨-262143, 1, 1⟩ < date → date ≤ Date.ofValid ⟨262142, 12, 31⟩ →
        ∀ t, z.ShowsMidnight date t → Instant.tells t.seconds = true) ∧
      ∀ date date', date < date' → z.midnight date < z.midnight date' := by
  refine ⟨fun date => isLeast_midnight, ?_, fun date date' => midnight_lt_midnight hz⟩
  intro date hfirst hlast t
  exact tells_of_showsMidnight hz hfirst hlast

/-- The clock is put back by an hour at half past midnight of 28 February 2025. -/
theorem midnight_first_repeated :
    let z : Zone := ⟨3600, 0, 1740699000⟩
    let date : Date := ⟨20147⟩
    let t : Instant := .ofSeconds 1740697200
    let t' : Instant := .ofSeconds 1740700800
    (z.WithinDay ∧ z.ShowsMidnight date t ∧ z.ShowsMidnight date t') ∧
      IsLeast {t | z.ShowsMidnight date t} (z.midnight date) ∧ z.midnight date = t ∧
        z.midnight ⟨20146⟩ < z.midnight date ∧ z.midnight date < z.midnight ⟨20148⟩ := by
  intro z date t t'
  have hz : z.WithinDay := ⟨by decide, by decide⟩
  have ht : z.ShowsMidnight date t := by decide
  have ht' : z.ShowsMidnight date t' := by decide
  obtain ⟨hleast, htold, hlt⟩ := midnight_first hz
  have hdate := htold date (by decide) (by decide)
  exact ⟨⟨hz, ht, ht'⟩, hleast date ⟨t, ht⟩ hdate, by decide, hlt ⟨20146⟩ date (by decide),
    hlt date ⟨20148⟩ (by decide)⟩

/-- The clock is put back by two hours at half past midnight of the first date that can be told. It
shows this midnight at an instant that can be told and at an earlier one that cannot, so the midnight
in UTC is taken, when the clock shows one o'clock. -/
theorem midnight_untold :
    let z : Zone := ⟨3600, -3600, -8334601227000⟩
    let date : Date := .ofValid ⟨-262143, 1, 1⟩
    let t : Instant := .ofSeconds (-8334601225200)
    z.WithinDay ∧ z.ShowsMidnight date t ∧ Instant.tells t.seconds = true ∧
      z.midnight date = .ofSeconds (-8334601228800) ∧ ¬ z.ShowsMidnight date (z.midnight date) := by
  refine ⟨⟨by decide, by decide⟩, by decide, by decide, by decide, by decide⟩

end Zone

end PersonalLedger
