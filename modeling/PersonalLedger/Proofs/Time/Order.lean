import PersonalLedger.Proofs.Text.Order
import PersonalLedger.Proofs.Time.RoundTrip

namespace PersonalLedger

namespace Date

variable {d e : Date} {y : Int}

theorem year_lt_iff : d.written.year < y ↔ d.days + epochDays < daysBeforeYear y := by
  obtain ⟨hd, hk⟩ := yearAndDay_eq (d.days + epochDays)
  have hw : d.written.year = (yearAndDay (d.days + epochDays)).1 := rfl
  rw [hw]
  constructor
  · intro h
    have := daysBeforeYear_lt h
    omega
  · intro h
    by_contra hn
    rcases Int.lt_or_eq_of_le (Int.not_lt.1 hn) with hlt | he
    · have := daysBeforeYear_lt hlt
      omega
    · rw [he] at h
      omega

theorem plainYear_iff : (0 ≤ d.written.year ∧ d.written.year ≤ 9999) ↔
    -719528 ≤ d.days ∧ d.days < 2932897 := by
  have hfirst := year_lt_iff (d := d) (y := 0)
  have hlast := year_lt_iff (d := d) (y := 10000)
  have h0 : daysBeforeYear 0 = -366 := by decide
  have h1 : daysBeforeYear 10000 = 3652059 := by decide
  rw [h0, epochDays] at hfirst
  rw [h1, epochDays] at hlast
  omega

theorem daysBeforeMonth_lt : ∀ leap : Bool, ∀ n < 13, ∀ m < n,
    daysBeforeMonth leap m + monthLength leap m ≤ daysBeforeMonth leap n := by
  decide

theorem monthAndDay_lt (hy : d.written.year = e.written.year) (h : d < e) :
    d.written.month < e.written.month ∨
      d.written.month = e.written.month ∧ d.written.day < e.written.day := by
  have hd := congrArg days d.ofValid_written
  have he := congrArg days e.ofValid_written
  have hvd := d.isValid_written
  have hve := e.isValid_written
  have hlt : d.days < e.days := h
  simp only [ofValid] at hd he
  simp only [isValid, Bool.and_eq_true, decide_eq_true_eq] at hvd hve
  rw [hy] at hd hvd
  rcases Nat.lt_trichotomy d.written.month e.written.month with hm | hm | hm
  · exact .inl hm
  · rw [hm] at hd
    exact .inr ⟨hm, by omega⟩
  · have hb := daysBeforeMonth_lt (isLeap e.written.year) _ (month_of_day hvd.1 hvd.2) _ hm
    omega

theorem year_le_of_lt (h : d < e) : d.written.year ≤ e.written.year := by
  have hlt : d.days < e.days := h
  by_contra hn
  have he := year_lt_iff.1 (Int.not_le.1 hn)
  have hd := mt year_lt_iff.2 (Int.lt_irrefl d.written.year)
  omega

end Date

namespace Instant

variable {t u : Instant}

theorem toMicros_lt_iff : t.toMicros < u.toMicros ↔
    t.seconds < u.seconds ∨ t.seconds = u.seconds ∧ t.nanos / 1000 < u.nanos / 1000 := by
  change t.seconds < u.seconds ∨ t.seconds = u.seconds ∧
    t.nanos / 1000 * 1000 < u.nanos / 1000 * 1000 ↔ _
  rw [Nat.mul_lt_mul_right (by decide)]

theorem toMicros_le_iff : t.toMicros ≤ u.toMicros ↔
    t.seconds < u.seconds ∨ t.seconds = u.seconds ∧ t.nanos / 1000 ≤ u.nanos / 1000 := by
  change t.seconds < u.seconds ∨ t.seconds = u.seconds ∧
    t.nanos / 1000 * 1000 ≤ u.nanos / 1000 * 1000 ↔ _
  rw [Nat.mul_le_mul_right_iff (by decide)]

theorem toMicros_eq_iff : t.toMicros = u.toMicros ↔
    t.seconds = u.seconds ∧ t.nanos / 1000 = u.nanos / 1000 := by
  rw [toMicros, toMicros, mk.injEq, Nat.mul_left_inj (by decide)]

theorem toMicros_lt_or_eq_or_gt (t u : Instant) :
    t.toMicros < u.toMicros ∨ t.toMicros = u.toMicros ∨ u.toMicros < t.toMicros := by
  rw [toMicros_lt_iff, toMicros_eq_iff, toMicros_lt_iff]
  generalize t.nanos / 1000 = a
  generalize u.nanos / 1000 = b
  omega

theorem not_toMicros_le : ¬ t.toMicros ≤ u.toMicros ↔ u.toMicros < t.toMicros := by
  rw [toMicros_le_iff, toMicros_lt_iff]
  generalize t.nanos / 1000 = a
  generalize u.nanos / 1000 = b
  omega

theorem year_lt_iff {y : Int} :
    t.year < y ↔ t.seconds < 86400 * (Date.daysBeforeYear y - Date.epochDays) := by
  have h := Date.year_lt_iff (d := ⟨t.seconds / 86400⟩) (y := y)
  rw [year, h]
  simp only
  omega

theorem isPlain_iff : t.IsPlain ↔ -62167219200 ≤ t.seconds ∧ t.seconds < 253402300800 := by
  have h := Date.plainYear_iff (d := ⟨t.seconds / 86400⟩)
  rw [IsPlain, year, h]
  simp only
  omega

theorem toMicros_lt_of_year_lt (h : t.year < u.year) : t.toMicros < u.toMicros := by
  have ht := year_lt_iff.1 h
  have hu := mt year_lt_iff.2 (Int.lt_irrefl u.year)
  rw [toMicros_lt_iff]
  omega

end Instant

namespace Timestamp

open Text

/-- The widths of the numbers in the text of a row, and what closes each. -/
def rowLayout : List (Nat × Char) :=
  [(4, '-'), (2, '-'), (2, 'T'), (2, ':'), (2, ':'), (2, '.'), (6, 'Z')]

def dateNumbers (d : Date) : List Nat := [d.written.year.toNat, d.written.month, d.written.day]

def clockNumbers (t : Instant) : List Nat :=
  let second := (t.seconds % 86400).toNat
  [second / 3600, second / 60 % 60, second % 60 + if 1000000000 ≤ t.nanos then 1 else 0,
    t.nanos % 1000000000 / 1000]

def rowNumbers (t : Instant) : List Nat := dateNumbers ⟨t.seconds / 86400⟩ ++ clockNumbers t

variable {t u : Instant}

theorem text_eq_columns (h : t.IsPlain) :
    text .micros 0 t = columns rowLayout (rowNumbers t) := by
  obtain ⟨h0, h1⟩ := h
  rw [Instant.year] at h0 h1
  simp only [text, dateText, yearText, clockText, fractionText, offsetText, Int.add_zero, rowLayout,
    rowNumbers, dateNumbers, clockNumbers, columns, if_pos (And.intro h0 h1), List.append_assoc,
    List.cons_append, List.nil_append, decide_eq_true_eq, ↓reduceIte]

theorem fits_rowNumbers (h : t.IsPlain) : Fits rowLayout (rowNumbers t) := by
  obtain ⟨h0, h1⟩ := h
  rw [Instant.year] at h0 h1
  have hlt := t.nanos_lt
  obtain ⟨d, hd⟩ : ∃ d : Date, d = ⟨t.seconds / 86400⟩ := ⟨_, rfl⟩
  obtain ⟨hmonth, -, hday⟩ := d.written_bounds
  simp only [Fits, rowLayout, rowNumbers, dateNumbers, clockNumbers, ← hd, List.cons_append,
    List.nil_append, List.forall₂_cons, List.forall₂_nil_left_iff]
  rw [← hd] at h0 h1
  refine ⟨?_, ?_, ?_, ?_, ?_, ?_, ?_, trivial⟩
  · omega
  · omega
  · omega
  · omega
  · omega
  · split <;> omega
  · omega

theorem fraction_lt {m n : Nat} (second : Nat) (h : m / 1000 < n / 1000) (hn : n < 2000000000) :
    second + (if 1000000000 ≤ m then 1 else 0) < second + (if 1000000000 ≤ n then 1 else 0) ∨
      second + (if 1000000000 ≤ m then 1 else 0) = second + (if 1000000000 ≤ n then 1 else 0) ∧
        m % 1000000000 / 1000 < n % 1000000000 / 1000 := by
  by_cases hm : 1000000000 ≤ m
  · have hn' : 1000000000 ≤ n := by omega
    rw [if_pos hm, if_pos hn']
    exact .inr ⟨rfl, by omega⟩
  · rw [if_neg hm]
    by_cases hn' : 1000000000 ≤ n
    · rw [if_pos hn']
      exact .inl (Nat.lt_succ_self _)
    · rw [if_neg hn', Nat.mod_eq_of_lt (Nat.not_le.1 hm), Nat.mod_eq_of_lt (Nat.not_le.1 hn')]
      exact .inr ⟨rfl, h⟩

theorem clock_lt {a b x : Nat} (y : Nat) (h : a < b) (hx : a % 60 = 59 ∨ x = 0) :
    a / 3600 < b / 3600 ∨ a / 3600 = b / 3600 ∧ (a / 60 % 60 < b / 60 % 60 ∨
      a / 60 % 60 = b / 60 % 60 ∧ a % 60 + x < b % 60 + y) := by
  have ha : a / 3600 = a / 60 / 60 := (Nat.div_div_eq_div_mul a 60 60).symm
  have hb : b / 3600 = b / 60 / 60 := (Nat.div_div_eq_div_mul b 60 60).symm
  by_cases hm : a / 60 = b / 60
  · -- the later second of the minute is 59 at most, so `a` is not followed by a leap second
    have hs : a % 60 + x < b % 60 + y := by omega
    rw [ha, hb, hm]
    exact .inr ⟨rfl, .inr ⟨rfl, hs⟩⟩
  · have hm : a / 60 < b / 60 := by omega
    rw [ha, hb]
    by_cases hh : a / 60 / 60 = b / 60 / 60
    · exact .inr ⟨hh, .inl (by omega)⟩
    · exact .inl (by omega)

theorem clockNumbers_lt (hd : t.seconds / 86400 = u.seconds / 86400)
    (h : t.toMicros < u.toMicros) : clockNumbers t < clockNumbers u := by
  rw [Instant.toMicros_lt_iff] at h
  simp only [clockNumbers, List.cons_lt_cons_iff]
  rcases h with hs | ⟨hs, hn⟩
  · have hlt : (t.seconds % 86400).toNat < (u.seconds % 86400).toNat := by omega
    have hleap : (t.seconds % 86400).toNat % 60 = 59 ∨
        (if 1000000000 ≤ t.nanos then 1 else 0) = 0 := by
      by_cases hl : 1000000000 ≤ t.nanos
      · have := t.leap hl
        exact .inl (by omega)
      · exact .inr (if_neg hl)
    rcases clock_lt (if 1000000000 ≤ u.nanos then 1 else 0) hlt hleap with
      hh | ⟨hh, hm | ⟨hm, hsec⟩⟩
    · exact .inl hh
    · exact .inr ⟨hh, .inl hm⟩
    · exact .inr ⟨hh, .inr ⟨hm, .inl hsec⟩⟩
  · rw [hs]
    refine .inr ⟨rfl, .inr ⟨rfl, ?_⟩⟩
    rcases fraction_lt _ hn u.nanos_lt with hsec | ⟨hsec, hf⟩
    · exact .inl hsec
    · exact .inr ⟨hsec, .inl hf⟩

theorem dateNumbers_lt {d e : Date} (hd : 0 ≤ d.written.year) (h : d < e) :
    dateNumbers d < dateNumbers e := by
  simp only [dateNumbers, List.cons_lt_cons_iff]
  rcases Int.lt_or_eq_of_le (Date.year_le_of_lt h) with hy | hy
  · exact .inl (by omega)
  · rcases Date.monthAndDay_lt hy h with hm | ⟨hm, hlt⟩
    · exact .inr ⟨by rw [hy], .inl hm⟩
    · exact .inr ⟨by rw [hy], .inr ⟨hm, .inl hlt⟩⟩

theorem rowNumbers_lt (ht : t.IsPlain) (h : t.toMicros < u.toMicros) :
    rowNumbers t < rowNumbers u := by
  have hl : (dateNumbers ⟨t.seconds / 86400⟩).length = (dateNumbers ⟨u.seconds / 86400⟩).length :=
    rfl
  rw [rowNumbers, rowNumbers, append_lt_append_iff hl]
  by_cases hd : t.seconds / 86400 = u.seconds / 86400
  · rw [hd]
    exact .inr ⟨rfl, clockNumbers_lt hd h⟩
  · have hs := Instant.toMicros_lt_iff.1 h
    have hlt : (⟨t.seconds / 86400⟩ : Date) < ⟨u.seconds / 86400⟩ := by
      change t.seconds / 86400 < u.seconds / 86400
      omega
    exact .inl (dateNumbers_lt ht.1 hlt)

theorem rowNumbers_eq (h : t.toMicros = u.toMicros) : rowNumbers t = rowNumbers u := by
  obtain ⟨hs, hn⟩ := Instant.toMicros_eq_iff.1 h
  have hl : 1000000000 ≤ t.nanos ↔ 1000000000 ≤ u.nanos := by omega
  have hf : t.nanos % 1000000000 / 1000 = u.nanos % 1000000000 / 1000 := by omega
  simp only [rowNumbers, clockNumbers, hs, hl, hf]

theorem rowNumbers_lt_iff (ht : t.IsPlain) (hu : u.IsPlain) :
    rowNumbers t < rowNumbers u ↔ t.toMicros < u.toMicros := by
  constructor
  · intro h
    rcases Instant.toMicros_lt_or_eq_or_gt t u with hlt | he | hgt
    · exact hlt
    · rw [rowNumbers_eq he] at h
      exact absurd h (List.lt_irrefl _)
    · exact absurd (rowNumbers_lt hu hgt) (List.lt_asymm h)
  · exact rowNumbers_lt ht

/-- Outside the years 0 to 9999 a text starts with a sign, and signs come before digits. -/
theorem text_lt_of_not_isPlain (ht : ¬ t.IsPlain) (hu : u.IsPlain) :
    text .micros 0 t < text .micros 0 u := by
  obtain ⟨s, x, hs, hx⟩ := text_eq_sign_cons ht .micros
  obtain ⟨c, y, hc, hy⟩ : ∃ c y, c.isDigit = true ∧ text .micros 0 u = c :: y := by
    rw [text_eq_columns hu, rowLayout, rowNumbers, dateNumbers, List.cons_append, columns]
    cases hp : padded 4 (Date.written ⟨u.seconds / 86400⟩).year.toNat with
    | nil => exact absurd hp (padded_ne_nil _ _)
    | cons c y => exact ⟨c, _, isDigit_of_mem_padded (hp ▸ List.mem_cons_self), rfl⟩
  have hc := Char.isDigit_iff_toNat.1 hc
  rw [hx, hy, List.cons_lt_cons_iff]
  refine .inl ?_
  change s.toNat < c.toNat
  refine Nat.lt_of_lt_of_le ?_ hc.1
  rcases hs with rfl | rfl
  · decide
  · decide

end Timestamp

namespace Instant

variable {t u : Instant}

theorem rowText_lt_of_not_isPlain (ht : ¬ t.IsPlain) (hu : u.IsPlain) : t.rowText < u.rowText := by
  rw [rowText, rowText, Text.ofList_lt_ofList_iff]
  exact Timestamp.text_lt_of_not_isPlain ht hu

theorem rowText_lt_iff_of_isPlain (ht : t.IsPlain) (hu : u.IsPlain) :
    t.rowText < u.rowText ↔ t.toMicros < u.toMicros := by
  rw [rowText, rowText, Text.ofList_lt_ofList_iff, Timestamp.text_eq_columns ht,
    Timestamp.text_eq_columns hu,
    Text.columns_lt_iff (Timestamp.fits_rowNumbers ht) (Timestamp.fits_rowNumbers hu),
    Timestamp.rowNumbers_lt_iff ht hu]

/-- Up to year 9999, row texts are ordered like times if one of them is that of a row. -/
theorem rowText_lt_iff (ht : t.year ≤ 9999) (hu : u.year ≤ 9999) (h : t.IsPlain ∨ u.IsPlain) :
    t.rowText < u.rowText ↔ t.toMicros < u.toMicros := by
  by_cases hpt : t.IsPlain
  · by_cases hpu : u.IsPlain
    · exact rowText_lt_iff_of_isPlain hpt hpu
    · -- `u` is of a year before 0, and its text starts with a minus sign
      have hlt : u.year < t.year := by
        rw [IsPlain] at hpt hpu
        omega
      have hm := toMicros_lt_of_year_lt hlt
      have hr := rowText_lt_of_not_isPlain hpu hpt
      constructor
      · intro h
        exact absurd hr (String.lt_asymm h)
      · intro h
        rw [toMicros_lt_iff] at h hm
        omega
  · have hpu := h.resolve_left hpt
    have hlt : t.year < u.year := by
      rw [IsPlain] at hpt hpu
      omega
    exact ⟨fun _ => toMicros_lt_of_year_lt hlt, fun _ => rowText_lt_of_not_isPlain hpt hpu⟩

theorem rowText_le_iff (ht : t.year ≤ 9999) (hu : u.year ≤ 9999) (h : t.IsPlain ∨ u.IsPlain) :
    t.rowText ≤ u.rowText ↔ t.toMicros ≤ u.toMicros := by
  rw [← String.not_lt, rowText_lt_iff hu ht h.symm, ← not_toMicros_le, Classical.not_not]

theorem rowText_eq_iff (ht : t.IsPlain) (hu : u.IsPlain) :
    t.rowText = u.rowText ↔ t.toMicros = u.toMicros := by
  constructor
  · intro h
    have hn : ¬ t.toMicros < u.toMicros := by
      rw [← rowText_lt_iff_of_isPlain ht hu, h]
      exact String.lt_irrefl _
    have hn' : ¬ u.toMicros < t.toMicros := by
      rw [← rowText_lt_iff_of_isPlain hu ht, h]
      exact String.lt_irrefl _
    rcases toMicros_lt_or_eq_or_gt t u with hlt | he | hgt
    · exact absurd hlt hn
    · exact he
    · exact absurd hgt hn'
  · intro h
    rw [rowText, rowText, Timestamp.text_eq_columns ht, Timestamp.text_eq_columns hu,
      Timestamp.rowNumbers_eq h]

end Instant

end PersonalLedger
