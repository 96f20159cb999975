import PersonalLedger.Proofs.Command.Form
import PersonalLedger.Proofs.Text.Words
import PersonalLedger.Time.Date.Lemmas

namespace PersonalLedger

theorem Date.of?_eq_some_iff {year : Int} {month day : Nat} {date : Date} :
    of? year month day = some date ↔ date.written = ⟨year, month, day⟩ := by
  constructor
  · intro h
    rw [of?, Option.ite_none_right_eq_some, Option.some_inj] at h
    rw [← h.2, written_ofValid h.1]
  · intro h
    have hd := date.of?_written
    rwa [h] at hd

namespace Listing

open Text

/-- Whether a text writes a day or a month: one or two digits, maybe with blanks before them. -/
inductive WritesNumber : List Char → Nat → Prop where
  | mk {blanks digits : List Char} {n : Nat} (blank : IsBlank blanks) (number : Digits digits n)
    (short : digits.length ≤ 2) : WritesNumber (blanks ++ digits) n

/-- Whether a text writes a year, maybe with blanks before it: without a sign it has at most four
digits. -/
inductive WritesYear : List Char → Int → Prop where
  | mk {blanks digits : List Char} {year : Int} (blank : IsBlank blanks)
    (number : Spells digits year)
    (short : (∀ c ∈ digits, c.isDigit = true) → digits.length ≤ 4) :
    WritesYear (blanks ++ digits) year

/-- Whether a text writes a date: day, month and year with slashes between them. -/
inductive WritesDate : List Char → YearMonthDay → Prop where
  | mk {days months years : List Char} {d : YearMonthDay} (day : WritesNumber days d.day)
    (month : WritesNumber months d.month) (year : WritesYear years d.year) :
    WritesDate (days ++ '/' :: (months ++ '/' :: years)) d

variable {cs rest : List Char} {n : Nat} {year : Int} {word : String} {date : Date}

theorem writesNumber_of_takeNumber (h : takeNumber 2 cs = some (n, rest)) :
    ∃ number, WritesNumber number n ∧ cs = number ++ rest := by
  rw [takeNumber, Option.map_eq_some_iff] at h
  obtain ⟨m, hm, he⟩ := h
  cases he
  have hblank : IsBlank (cs.takeWhile isBlank) := fun c hc => List.mem_takeWhile_imp hc
  have hprefix : ((trimStart cs).take 2).takeWhile Char.isDigit <+: trimStart cs :=
    (List.takeWhile_prefix _).trans (List.take_prefix _ _)
  have hlength : (((trimStart cs).take 2).takeWhile Char.isDigit).length ≤ 2 :=
    (List.takeWhile_prefix _).length_le.trans (List.length_take_le _ _)
  refine ⟨_, .mk hblank (digits?_eq_some_iff.1 hm) hlength, ?_⟩
  rw [List.append_assoc, List.prefix_iff_eq_append.1 hprefix]
  exact List.takeWhile_append_dropWhile.symm

theorem takeNumber_of_writesNumber (h : WritesNumber cs n) (rest : List Char) :
    takeNumber 2 (cs ++ '/' :: rest) = some (n, '/' :: rest) := by
  obtain ⟨hb, hd, hs⟩ := h
  next blanks digits =>
  have hstart : trimStart (digits ++ '/' :: rest) = digits ++ '/' :: rest := by
    cases digits with
    | nil => exact absurd rfl hd.nonempty
    | cons c digits => exact trimStart_cons (isBlank_of_isDigit hd.isDigit_head) _
  have hdigits : ((digits ++ '/' :: rest).take 2).takeWhile Char.isDigit = digits := by
    rw [List.take_append, List.take_of_length_le hs, List.takeWhile_append_of_pos hd.isDigit]
    cases 2 - digits.length with
    | zero => exact List.append_nil digits
    | succ k => exact List.append_nil digits
  rw [takeNumber, List.append_assoc, trimStart_append hb, hstart, hdigits,
    digits?_eq_some_iff.2 hd, List.drop_left]
  rfl

theorem trimStart_of_spells (h : Spells cs year) : trimStart cs = cs := by
  cases h with
  | bare digits =>
    cases cs with
    | nil => rfl
    | cons c cs => exact trimStart_cons (isBlank_of_isDigit digits.isDigit_head) cs
  | plus => exact trimStart_cons rfl _
  | minus => exact trimStart_cons rfl _

theorem writesYear_of_year? (h : year? cs = some year) : WritesYear cs year := by
  have hcs : cs.takeWhile isBlank ++ trimStart cs = cs := List.takeWhile_append_dropWhile
  have hb : IsBlank (cs.takeWhile isBlank) := fun c hc => List.mem_takeWhile_imp hc
  rw [year?.eq_def, Option.filter_eq_some_iff] at h
  have hyear := h.1
  rw [← hcs]
  split at hyear
  · next digits hd =>
    obtain ⟨n, hn, rfl⟩ := Option.map_eq_some_iff.1 hyear
    rw [hd]
    refine .mk hb (.minus (digits?_eq_some_iff.1 hn)) ?_
    intro hall
    cases hall '-' List.mem_cons_self
  · next digits hd =>
    obtain ⟨n, hn, rfl⟩ := Option.map_eq_some_iff.1 hyear
    rw [hd]
    refine .mk hb (.plus (digits?_eq_some_iff.1 hn)) ?_
    intro hall
    cases hall '+' List.mem_cons_self
  · next digits _ _ =>
    rw [Option.ite_none_right_eq_some] at hyear
    obtain ⟨hshort, hyear⟩ := hyear
    obtain ⟨n, hn, rfl⟩ := Option.map_eq_some_iff.1 hyear
    exact .mk hb (.bare (digits?_eq_some_iff.1 hn)) fun _ => hshort

theorem year?_of_writesYear (h : WritesYear cs year) (hy : Instant.tellsYear year = true) :
    year? cs = some year := by
  obtain ⟨hb, hn, hshort⟩ := h
  rw [year?.eq_def, trimStart_append hb, trimStart_of_spells hn, Option.filter_eq_some_iff]
  refine ⟨?_, hy⟩
  cases hn with
  | bare digits =>
    have hd := digits?_eq_some_iff.2 digits
    split
    · cases digits.isDigit_head
    · cases digits.isDigit_head
    · rw [if_pos (hshort digits.isDigit), hd]
      rfl
  | plus digits => exact congrArg (Option.map Int.ofNat) (digits?_eq_some_iff.2 digits)
  | minus digits =>
    exact congrArg (Option.map fun n => -Int.ofNat n) (digits?_eq_some_iff.2 digits)

theorem year?_eq_some_iff :
    year? cs = some year ↔ WritesYear cs year ∧ Instant.tellsYear year = true := by
  constructor
  · intro h
    refine ⟨writesYear_of_year? h, ?_⟩
    rw [year?.eq_def, Option.filter_eq_some_iff] at h
    exact h.2
  · rintro ⟨h, hy⟩
    exact year?_of_writesYear h hy

theorem date?_eq_some_iff : date? word = some date ↔
    WritesDate word.toList date.written ∧ Instant.tellsYear date.written.year = true := by
  simp only [date?, bind]
  constructor
  · intro h
    obtain ⟨⟨day, cs⟩, hday, h⟩ := Option.bind_eq_some_iff.1 h
    split at h
    · next rest he =>
      cases he
      obtain ⟨⟨month, cs⟩, hmonth, h⟩ := Option.bind_eq_some_iff.1 h
      split at h
      · next rest he =>
        cases he
        obtain ⟨year, hyear, h⟩ := Option.bind_eq_some_iff.1 h
        obtain ⟨days, hdays, hword⟩ := writesNumber_of_takeNumber hday
        obtain ⟨months, hmonths, rfl⟩ := writesNumber_of_takeNumber hmonth
        obtain ⟨hyears, htold⟩ := year?_eq_some_iff.1 hyear
        rw [Date.of?_eq_some_iff.1 h, hword]
        exact ⟨.mk hdays hmonths hyears, htold⟩
      · cases h
    · cases h
  · rintro ⟨h, hy⟩
    have hdate := date.of?_written
    generalize date.written = d at h hy hdate
    generalize word.toList = cs at h
    cases h with
    | mk day month year =>
      rw [takeNumber_of_writesNumber day]
      simp only [Option.bind_some, takeNumber_of_writesNumber month,
        year?_eq_some_iff.2 ⟨year, hy⟩, hdate]

end Listing

end PersonalLedger
