import PersonalLedger.Proofs.Text.Bytes
import PersonalLedger.Proofs.Time.Order

namespace PersonalLedger

open Text

namespace Timestamp

variable {t : Instant}

theorem toNat_lt_of_mem_text {c : Char} (h : t.IsPlain) (hc : c ∈ text .micros 0 t) :
    c.toNat < 128 := by
  rw [text_eq_columns h] at hc
  have hl : (rowLayout.map (·.2)).all (fun d => decide (d.toNat < 128)) = true := by decide
  rcases mem_columns hc with hd | hm
  · have := (Char.isDigit_iff_toNat.1 hd).2
    have h9 : '9'.toNat = 57 := rfl
    omega
  · exact of_decide_eq_true (List.all_eq_true.1 hl c hm)

theorem length_text (h : t.IsPlain) : (text .micros 0 t).length = 27 := by
  rw [text_eq_columns h, length_columns (fits_rowNumbers h)]
  rfl

end Timestamp

namespace Instant

variable {t u : Instant}

theorem length_bytes_rowText (h : t.IsPlain) : (bytes t.rowText).length = 27 := by
  rw [rowText, length_bytes_ofList fun _ => Timestamp.toNat_lt_of_mem_text h,
    Timestamp.length_text h]

/-- In the years 0 to 9999, texts of rows are of one length, they come before, at and behind each
other like the times in whole microseconds, and each is read as the time it was written for. Leap
seconds are among these times. -/
theorem rowText_order (ht : t.IsPlain) (hu : u.IsPlain) :
    (bytes t.rowText).length = 27 ∧
      (bytes t.rowText < bytes u.rowText ↔ t.toMicros < u.toMicros) ∧
      (bytes t.rowText = bytes u.rowText ↔ t.toMicros = u.toMicros) ∧
      (bytes u.rowText < bytes t.rowText ↔ u.toMicros < t.toMicros) ∧
      Timestamp.read? t.rowText.toList = some (t.toMicros, 0) := by
  refine ⟨length_bytes_rowText ht, ?_, ?_, ?_, ?_⟩
  · rw [bytes_lt_iff, rowText_lt_iff_of_isPlain ht hu]
  · rw [bytes_inj, rowText_eq_iff ht hu]
  · rw [bytes_lt_iff, rowText_lt_iff_of_isPlain hu ht]
  · rw [rowText, String.toList_ofList, Timestamp.read?_text ht]

/-- The last nanosecond of a leap second, and the midnight behind it. -/
theorem rowText_order_leap :
    let t : Instant := ⟨1483228799, 1999999999, by decide, by decide⟩
    let u := ofSeconds 1483228800
    (t.IsPlain ∧ u.IsPlain ∧ t.rowText = "2016-12-31T23:59:60.999999Z" ∧
        u.rowText = "2017-01-01T00:00:00.000000Z") ∧
      (bytes t.rowText).length = 27 ∧
      (bytes t.rowText < bytes u.rowText ↔ t.toMicros < u.toMicros) ∧
      (bytes t.rowText = bytes u.rowText ↔ t.toMicros = u.toMicros) ∧
      (bytes u.rowText < bytes t.rowText ↔ u.toMicros < t.toMicros) ∧
      Timestamp.read? t.rowText.toList = some (t.toMicros, 0) := by
  intro t u
  have ht : t.IsPlain := by decide
  have hu : u.IsPlain := by decide
  exact ⟨⟨ht, hu, by decide +kernel, by decide +kernel⟩, rowText_order ht hu⟩

end Instant

end PersonalLedger
