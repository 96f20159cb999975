import PersonalLedger.Entry
import PersonalLedger.Proofs.Decimal.RoundTrip
import PersonalLedger.Time.Date.Lemmas

namespace PersonalLedger

def Instant.year (t : Instant) : Int := (Date.written ⟨t.seconds / 86400⟩).year

/-- Whether the year of the instant is written with four digits and no sign. -/
def Instant.IsPlain (t : Instant) : Prop := 0 ≤ t.year ∧ t.year ≤ 9999

instance (t : Instant) : Decidable t.IsPlain := inferInstanceAs (Decidable (_ ∧ _))

namespace Timestamp

open Text

variable {count n : Nat} {rest : List Char}

theorem takeNumber_padded (hc : 0 < count) (hn : n < 10 ^ count) (rest : List Char) :
    takeNumber count (padded count n ++ rest) = some (n, rest) := by
  have hl := length_padded hc hn
  rw [takeNumber, if_pos (by rw [List.length_append]; omega), List.take_left' hl,
    List.drop_left' hl, digits?_padded]
  rfl

theorem takeFraction_micros (hn : n < 10 ^ 6) (rest : List Char)
    (hr : rest.head?.all fun c => !c.isDigit) :
    takeFraction ('.' :: (padded 6 n ++ rest)) = some (n * 1000, rest) := by
  have hd : ∀ c ∈ padded 6 n, c.isDigit = true := fun _ => isDigit_of_mem_padded
  have hl : (padded 6 n).length = 6 := length_padded (by decide) hn
  have htake : (padded 6 n ++ rest).takeWhile Char.isDigit = padded 6 n := by
    rw [List.takeWhile_append_of_pos hd]
    cases rest with
    | nil => rw [List.takeWhile_nil, List.append_nil]
    | cons c rest =>
      rw [List.takeWhile_cons_of_neg (by simpa using hr), List.append_nil]
  have hdrop : (padded 6 n ++ rest).dropWhile Char.isDigit = rest := by
    rw [List.dropWhile_append_of_pos hd]
    cases rest with
    | nil => rw [List.dropWhile_nil]
    | cons c rest => rw [List.dropWhile_cons_of_neg (by simpa using hr)]
  have hk : (padded 6 n).take 9 = padded 6 n := List.take_of_length_le (by omega)
  have he : (padded 6 n).isEmpty = false := List.isEmpty_eq_false_iff.2 (padded_ne_nil 6 n)
  simp only [takeFraction, htake, hdrop, he, hk, hl, ofDigitChars_padded, Bool.false_eq_true,
    ↓reduceIte]

theorem instant?_eq_some {minute offset : Int} {second nanos : Nat} {t : Instant}
    (hs : minute + min second 59 - offset = t.seconds)
    (hn : (if second = 60 then nanos + 1000000000 else nanos) = t.nanos) :
    instant? minute second nanos offset = some t := by
  obtain ⟨seconds, n, hlt, hleap⟩ := t
  simp only at hs hn
  subst hs hn
  rw [instant?, dif_pos ⟨hlt, hleap⟩]

theorem instant?_clock (t : Instant) :
    let second := (t.seconds % 86400).toNat
    instant? (86400 * (t.seconds / 86400) +
        (3600 * (second / 3600) + 60 * (second / 60 % 60) : Nat))
      (second % 60 + if decide (1000000000 ≤ t.nanos) then 1 else 0)
      (t.nanos % 1000000000 / 1000 * 1000) 0 = some t.toMicros := by
  intro second
  have hs : (second : Int) = t.seconds % 86400 := Int.toNat_of_nonneg (by omega)
  have hlt := t.nanos_lt
  cases hd : decide (1000000000 ≤ t.nanos) with
  | true =>
    have h : 1000000000 ≤ t.nanos := of_decide_eq_true hd
    have hm := t.leap h
    have h60 : second % 60 + 1 = 60 := by omega
    apply instant?_eq_some <;> simp only [Instant.toMicros, ↓reduceIte, h60] <;> omega
  | false =>
    have h : ¬ 1000000000 ≤ t.nanos := of_decide_eq_false hd
    have h60 : second % 60 ≠ 60 := by omega
    apply instant?_eq_some <;>
      simp only [Instant.toMicros, Bool.false_eq_true, ↓reduceIte, Nat.add_zero, h60] <;> omega

theorem read?_text {t : Instant} (h : t.IsPlain) :
    read? (text .micros 0 t) = some (t.toMicros, 0) := by
  obtain ⟨d, hd⟩ : ∃ d : Date, d = ⟨t.seconds / 86400⟩ := ⟨_, rfl⟩
  have hclock := instant?_clock t
  have hdate := Date.of?_written d
  rw [Instant.IsPlain, Instant.year, ← hd] at h
  obtain ⟨hmonth, -, hday⟩ := d.written_bounds
  have hyear : ((d.written.year.toNat : Nat) : Int) = d.written.year := Int.toNat_of_nonneg h.1
  have hsecond : (t.seconds % 86400).toNat < 86400 := by omega
  have hdays : t.seconds / 86400 = d.days := by rw [hd]
  simp only [text, dateText, clockText, yearText, fractionText, offsetText, Int.add_zero, ← hd,
    if_pos h, ↓reduceIte, List.append_assoc, List.cons_append]
  simp only [hdays] at hclock
  generalize (t.seconds % 86400).toNat = second at *
  have h60 : (second % 60 + if decide (1000000000 ≤ t.nanos) = true then 1 else 0) < 61 := by
    split <;> omega
  generalize (second % 60 + if decide (1000000000 ≤ t.nanos) = true then 1 else 0) = shown at *
  have hY := takeNumber_padded (n := d.written.year.toNat) (by decide : 0 < 4) (by omega)
  have hM := takeNumber_padded (n := d.written.month) (by decide : 0 < 2) (by omega)
  have hD := takeNumber_padded (n := d.written.day) (by decide : 0 < 2) (by omega)
  have hH := takeNumber_padded (n := second / 3600) (by decide : 0 < 2) (by omega)
  have hm := takeNumber_padded (n := second / 60 % 60) (by decide : 0 < 2) (by omega)
  have hs := takeNumber_padded (n := shown) (by decide : 0 < 2) (by omega)
  have hfraction := takeFraction_micros (n := t.nanos % 1000000000 / 1000) (by omega) ['Z'] rfl
  simp only [read?, hY, hM, hD, hH, hm, hs, skip, beq_self_eq_true, Bool.true_or,
    ↓reduceIte, bind, Option.bind, hyear, hdate, hfraction, offset?]
  rw [if_pos (by simp only [Bool.and_eq_true, decide_eq_true_eq]; omega), hclock]

theorem text_eq_sign_cons {t : Instant} (h : ¬ t.IsPlain) (precision : Precision) :
    ∃ sign rest, (sign = '-' ∨ sign = '+') ∧ text precision 0 t = sign :: rest := by
  rw [Instant.IsPlain, Instant.year] at h
  simp only [text, dateText, yearText, Int.add_zero, if_neg h, List.cons_append]
  refine ⟨_, _, ?_, rfl⟩
  split
  · exact .inl rfl
  · exact .inr rfl

theorem takeNumber_cons_eq_none {c : Char} (hc : c.isDigit = false) (count : Nat)
    (rest : List Char) : takeNumber (count + 1) (c :: rest) = none := by
  rw [takeNumber, List.take_succ_cons, digits?, List.all_cons, hc, Bool.false_and, Bool.and_false,
    if_neg Bool.false_ne_true, Option.map_none, ite_self]

/-- A year is read from four digits, so a time outside the years 0 to 9999 is not read at all. -/
theorem read?_text_eq_none {t : Instant} (h : ¬ t.IsPlain) (precision : Precision) :
    read? (text precision 0 t) = none := by
  obtain ⟨sign, rest, hs, ht⟩ := text_eq_sign_cons h precision
  have hd : sign.isDigit = false := by
    rcases hs with rfl | rfl
    · rfl
    · rfl
  rw [read?, ht, takeNumber_cons_eq_none hd 3 rest]
  rfl

end Timestamp

namespace Entry

/-- The entry as it is read from its row. -/
def readBack (e : Entry) : Entry :=
  { e with amount := e.amount.readBack, time := e.time.toMicros }

theorem read?_amount_toRow (e : Entry) :
    Decimal.read? e.toRow.amount.toList = some e.amount.readBack := by
  rw [toRow, String.toList_ofList]
  exact Decimal.read?_text e.amount

theorem read_toRow {e : Entry} (h : e.time.IsPlain) : e.toRow.read = .ok e.readBack := by
  have ht : Timestamp.read? e.toRow.time.toList = some (e.time.toMicros, 0) := by
    rw [toRow, Instant.rowText, String.toList_ofList]
    exact Timestamp.read?_text h
  rw [Row.read, read?_amount_toRow, ht]
  rfl

theorem read_toRow_eq_error {e : Entry} (h : ¬ e.time.IsPlain) :
    e.toRow.read = .error (e.toRow.fault "timestamp" e.time.rowText) := by
  have ht : Timestamp.read? e.toRow.time.toList = none := by
    rw [toRow, Instant.rowText, String.toList_ofList]
    exact Timestamp.read?_text_eq_none h .micros
  rw [Row.read, read?_amount_toRow, ht]
  rfl

theorem isPlain_of_read_toRow {e e' : Entry} (h : e.toRow.read = .ok e') : e.time.IsPlain := by
  by_contra hn
  rw [read_toRow_eq_error hn] at h
  cases h

end Entry

end PersonalLedger
