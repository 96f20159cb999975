import Mathlib.Order.Bounds.Defs
import PersonalLedger.Proofs.Decimal.Value
import PersonalLedger.Proofs.Fingerprint.Encoding

namespace PersonalLedger

open Text

namespace DedupWindow

variable {w : DedupWindow} {t u : Instant}

theorem start_le (w : DedupWindow) (t : Instant) : w.start t ≤ t.seconds :=
  Int.ediv_mul_le _ (Int.natCast_ne_zero.2 (Nat.ne_of_gt w.seconds_pos))

theorem le_start_iff {k : Int} (hk : (w.seconds : Int) ∣ k) : k ≤ w.start t ↔ k ≤ t.seconds := by
  constructor
  · intro h
    exact Int.le_trans h (w.start_le t)
  · intro h
    have hw : (0 : Int) < w.seconds := Int.natCast_pos.2 w.seconds_pos
    obtain ⟨m, rfl⟩ := hk
    rw [Int.mul_comm] at h ⊢
    exact Int.mul_le_mul_of_nonneg_right (Int.le_ediv_of_mul_le hw h) (Int.le_of_lt hw)

theorem dvd_start (w : DedupWindow) (t : Instant) : (w.seconds : Int) ∣ w.start t :=
  Int.dvd_mul_left _ _

theorem isGreatest_start (w : DedupWindow) (t : Instant) :
    IsGreatest {k : Int | (w.seconds : Int) ∣ k ∧ k ≤ t.seconds} (w.start t) := by
  refine ⟨⟨w.dvd_start t, w.start_le t⟩, ?_⟩
  intro k hk
  exact (le_start_iff hk.1).2 hk.2

/-- Two times fall into one window if no window starts between them. -/
theorem start_eq_start_iff : w.start t = w.start u ↔
    ∀ k : Int, (w.seconds : Int) ∣ k → (k ≤ t.seconds ↔ k ≤ u.seconds) := by
  constructor
  · intro h k hk
    rw [← le_start_iff hk, h, le_start_iff hk]
  · intro h
    apply Int.le_antisymm
    · rw [le_start_iff (w.dvd_start t), ← h _ (w.dvd_start t)]
      exact w.start_le t
    · rw [le_start_iff (w.dvd_start u), h _ (w.dvd_start u)]
      exact w.start_le u

end DedupWindow

namespace Fingerprint

theorem separator_not_mem_of_bytes {s : String} (h : 0x1f ∉ bytes s) : separator ∉ s.toList :=
  fun hm => h (mem_bytes_of_mem (by decide) hm)

/-- If the byte that closes a field is in neither category nor currency, the digested bytes tell all
fields apart. Amounts of one value have one text, unless they are zeros of different signs. A window
starts at the last multiple of its width, which is one second instead of none, so times are told
apart where a window starts between them. -/
theorem bytes_tell (seconds : Nat) :
    (∀ f g : Fields, 0x1f ∉ bytes f.category → 0x1f ∉ bytes f.currency →
        0x1f ∉ bytes g.category → 0x1f ∉ bytes g.currency →
        (f.bytes (.ofSeconds seconds) = g.bytes (.ofSeconds seconds) ↔
          f.category = g.category ∧ f.amount.fixedText 2 = g.amount.fixedText 2 ∧
            f.notes = g.notes ∧
            (DedupWindow.ofSeconds seconds).start f.time =
              (DedupWindow.ofSeconds seconds).start g.time ∧
            f.user = g.user ∧ f.position = g.position ∧ f.currency = g.currency)) ∧
      (∀ a b : Decimal, a.value = b.value →
        (a.fixedText 2 = b.fixedText 2 ↔ (a.value = 0 → a.negative = b.negative))) ∧
      (∀ t : Instant,
        IsGreatest {k : Int | ((max seconds 1 : Nat) : Int) ∣ k ∧ k ≤ t.seconds}
          ((DedupWindow.ofSeconds seconds).start t)) ∧
      ∀ t u : Instant,
        (DedupWindow.ofSeconds seconds).start t = (DedupWindow.ofSeconds seconds).start u ↔
          ∀ k : Int, ((max seconds 1 : Nat) : Int) ∣ k → (k ≤ t.seconds ↔ k ≤ u.seconds) := by
  refine ⟨?_, ?_, (DedupWindow.ofSeconds seconds).isGreatest_start, ?_⟩
  · intro f g hfc hfu hgc hgu
    have hf : f.Separable := ⟨separator_not_mem_of_bytes hfc, separator_not_mem_of_bytes hfu⟩
    have hg : g.Separable := ⟨separator_not_mem_of_bytes hgc, separator_not_mem_of_bytes hgu⟩
    rw [bytes_eq_iff_repeats hf hg]
    constructor
    · rintro ⟨hcategory, hamount, hnotes, htime, huser, hposition, hcurrency⟩
      exact ⟨hcategory, hamount, hnotes, start_eq_iff.2 htime, huser, hposition, hcurrency⟩
    · rintro ⟨hcategory, hamount, hnotes, hstart, huser, hposition, hcurrency⟩
      exact ⟨hcategory, hamount, hnotes, start_eq_iff.1 hstart, huser, hposition, hcurrency⟩
  · intro a b h
    exact Decimal.fixedText_eq_iff_of_value_eq h 2
  · intro t u
    exact DedupWindow.start_eq_start_iff

/-- The first and the last second of a minute before the epoch, one amount with different places, and
notes that hold the separator. -/
theorem bytes_tell_minute :
    let w := DedupWindow.ofSeconds 60
    let a : Decimal := ⟨false, 45, 1, by decide, by decide⟩
    let b : Decimal := ⟨false, 4500, 3, by decide, by decide⟩
    let f : Fields := ⟨"Groceries", a, "x\x1f7", .ofSeconds (-60), 7, 0, "NZD"⟩
    let g : Fields := ⟨"Groceries", b, "x\x1f7", .ofSeconds (-1), 7, 0, "NZD"⟩
    (0x1f ∉ bytes f.category ∧ 0x1f ∉ bytes f.currency ∧
        0x1f ∉ bytes g.category ∧ 0x1f ∉ bytes g.currency) ∧
      (a.value = b.value ∧ a.fixedText 2 = b.fixedText 2) ∧ w.start f.time = w.start g.time ∧
      f.bytes w = g.bytes w := by
  intro w a b f g
  obtain ⟨hbytes, htext, -, hstart⟩ := bytes_tell 60
  have hcategory : 0x1f ∉ bytes "Groceries" := by decide +kernel
  have hcurrency : 0x1f ∉ bytes "NZD" := by decide +kernel
  have hvalue : a.value = b.value := Decimal.value_eq_iff.2 (by decide)
  have hamount : a.fixedText 2 = b.fixedText 2 := (htext a b hvalue).2 fun _ => rfl
  have hwindow : w.start f.time = w.start g.time := by
    rw [hstart]
    intro k hk
    have hk : (60 : Int) ∣ k := hk
    change k ≤ -60 ↔ k ≤ -1
    omega
  exact ⟨⟨hcategory, hcurrency, hcategory, hcurrency⟩, ⟨hvalue, hamount⟩, hwindow,
    (hbytes f g hcategory hcurrency hcategory hcurrency).2
      ⟨rfl, hamount, rfl, hwindow, rfl, rfl, rfl⟩⟩

/-- An amount that is rounded to a zero with a minus sign has the value of the plain zero, but not
its text, and a fingerprint of its own. -/
theorem fixedText_ne_of_signed_zero :
    ∃ a b : Decimal, Decimal.read? "-0.4e-28".toList = some a ∧
      Decimal.read? "0".toList = some b ∧ a.value = b.value ∧
      a.fixedText 2 = "-0.00".toList ∧ b.fixedText 2 = "0.00".toList ∧
      hash (.ofSeconds 1) ⟨"Groceries", a, "", .ofSeconds 1742032800, 7, 0, "NZD"⟩ ≠
        hash (.ofSeconds 1) ⟨"Groceries", b, "", .ofSeconds 1742032800, 7, 0, "NZD"⟩ := by
  exact ⟨⟨true, 0, 28, by decide, by decide⟩, .zero, by decide +kernel, by decide +kernel,
    Decimal.value_eq_iff.2 (by decide), by decide +kernel, by decide +kernel, by decide +kernel⟩

end Fingerprint

end PersonalLedger
