import PersonalLedger.Proofs.Ledger.Repetition
import PersonalLedger.Proofs.Ledger.Standing

namespace PersonalLedger

open Fingerprint Text

namespace Decimal

def minus (d : Decimal) : Decimal := { d with negative := true }

theorem fixedText_minus {d : Decimal} (h : d.negative = false) (places : Nat) :
    d.minus.fixedText places = '-' :: d.fixedText places := by
  rw [fixedText, fixedText, signText, signText, h, if_neg Bool.false_ne_true, List.nil_append]
  rfl

theorem minus_readBack {d : Decimal} (h : d.negative = true) : d.readBack.minus = d := by
  rw [minus, readBack, ← h]

theorem text_eq_minus_cons {d : Decimal} (h : d.negative = true) : ∃ rest, d.text = '-' :: rest := by
  rw [text, signText, if_pos h]
  exact ⟨_, rfl⟩

theorem negative_of_text_eq_minus_cons {d : Decimal} {rest : List Char}
    (h : d.text = '-' :: rest) : d.negative = true := by
  cases hn : d.negative with
  | true => rfl
  | false =>
    rw [text, signText, hn, if_neg Bool.false_ne_true, List.nil_append] at h
    have hm : '-' ∈ pointText d.mantissa d.scale := h ▸ List.mem_cons_self
    rcases isDigit_or_eq_of_mem_pointText hm with hd | hd
    · cases hd
    · cases hd

end Decimal

def Row.HoldsSignedZero (r : Row) : Prop :=
  ∃ rest d, r.amount.toList = '-' :: rest ∧ Decimal.read? r.amount.toList = some d ∧ d.mantissa = 0

theorem Entry.holdsSignedZero_toRow {e : Entry} :
    e.toRow.HoldsSignedZero ↔ e.amount.negative = true ∧ e.amount.mantissa = 0 := by
  have ht : e.toRow.amount.toList = e.amount.text := by rw [toRow, String.toList_ofList]
  have hr := e.read?_amount_toRow
  constructor
  · rintro ⟨rest, d, hs, hd, hz⟩
    rw [hr] at hd
    cases hd
    rw [ht] at hs
    exact ⟨Decimal.negative_of_text_eq_minus_cons hs, hz⟩
  · rintro ⟨hn, hz⟩
    obtain ⟨rest, hs⟩ := Decimal.text_eq_minus_cons hn
    rw [← ht] at hs
    exact ⟨rest, e.amount.readBack, hs, hr, hz⟩

theorem Fingerprint.bytes_ne {w : DedupWindow} {f g : Fields} (hf : separator ∉ f.category.toList)
    (hg : separator ∉ g.category.toList) (h : f.amount.fixedText 2 ≠ g.amount.fixedText 2) :
    f.bytes w ≠ g.bytes w := by
  intro hb
  rw [bytes_eq_iff, text_eq, text_eq] at hb
  obtain ⟨-, hb⟩ := front_inj hf hg hb
  obtain ⟨ha, -⟩ := front_inj (separator_not_mem_fixedText _ _) (separator_not_mem_fixedText _ _) hb
  exact h ha

/-- What an entry is digested with if its amount has a minus sign. -/
def Draft.minusFields (d : Draft) (position : Nat) : Fields :=
  { d.fields position with amount := d.amount.minus }

namespace Entry

variable {w : DedupWindow} {e : Entry}

theorem hash_fields_readBack (h : e.amount.readBack = e.amount) (position : Nat) :
    hash w (e.readBack.fields position) = hash w (e.fields position) := by
  -- a window starts at a whole second, so what is cut off the time is not digested
  have hf : e.readBack.fields position = { e.fields position with time := e.time.toMicros } := by
    rw [Draft.fields, readBack, h]
    rfl
  rw [hf]
  rfl

theorem hash_minusFields_readBack (h : e.amount.negative = true) (position : Nat) :
    hash w (e.readBack.minusFields position) = hash w (e.fields position) := by
  have hf : e.readBack.minusFields position = { e.fields position with time := e.time.toMicros } := by
    rw [Draft.minusFields, readBack, Decimal.minus_readBack h]
    rfl
  rw [hf]
  rfl

theorem bytes_minusFields_ne (hc : separator ∉ e.category.toList) (h : e.amount.negative = false)
    (i position : Nat) : (e.fields i).bytes w ≠ (e.minusFields position).bytes w := by
  apply bytes_ne
  · exact hc
  · exact hc
  · rw [Draft.minusFields, Decimal.fixedText_minus h]
    exact (List.cons_ne_self _ _).symm

end Entry

theorem Effect.registered_of_added {w : DedupWindow} {s t : Store} {m : Submission} {reply : Reply}
    (h : Effect w s m t reply) {e : Entry} (he : e ∈ reply.added) :
    ∃ c ∈ Registry.categories, c.name = e.category := by
  obtain ⟨body, request, -, parsed, added⟩ := h.exists_request_of_mem_added he
  obtain ⟨-, hc, -⟩ := Ledger.of_mem_drafts (Store.toDraft_mem_of_numbered (added ▸ he))
  rw [hc]
  exact (AddRequest.registered_of_parse parsed).1

namespace Journal

variable {w : DedupWindow} {defaultCurrency : String} {ms : List Submission}

/-- After submissions of the years 0 to 9999 each row can be read, and has a registered category. Its
fingerprint is made anew from what is read and a position. Only where the amount is a zero with a
minus sign, what is digested is different: the sign has to be put back. -/
theorem fingerprint_run (w : DedupWindow) (defaultCurrency : String)
    (ht : ∀ m ∈ ms, m.now.instant.IsPlain) {r : Row}
    (hr : r ∈ (run w defaultCurrency ms).store.rows) :
    ∃ e position, r.read = .ok e ∧ (∃ c ∈ Registry.categories, c.name = e.category) ∧
      (¬ r.HoldsSignedZero → r.hash = hash w (e.fields position)) ∧
      (r.HoldsSignedZero → r.hash = hash w (e.minusFields position) ∧
        ∀ i, (e.fields i).bytes w ≠ (e.minusFields position).bytes w) := by
  have hall : ∀ i e, Reported (run w defaultCurrency ms).log i e → e.time.IsPlain ∧
      (∃ c ∈ Registry.categories, c.name = e.category) ∧ e.hash = hash w (e.fields i) := by
    apply forall_reported
    intro s m hm i e he
    have heffect := effect_answer w s m
    have hmem := List.mem_of_getElem? he
    refine ⟨?_, heffect.registered_of_added hmem, (heffect.hash_of_added he).1⟩
    rw [(heffect.of_mem_added hmem).2]
    exact ht m hm
  rw [(balanced_run w defaultCurrency ms).rows] at hr
  obtain ⟨e, he, rfl⟩ := List.mem_map.1 hr
  obtain ⟨position, hrep⟩ := exists_reported_of_mem_outstanding he
  obtain ⟨hplain, ⟨c, hc, hname⟩, hhash⟩ := hall position e hrep
  refine ⟨e.readBack, position, Entry.read_toRow hplain, ⟨c, hc, hname⟩, ?_, ?_⟩
  · intro hz
    rw [Entry.holdsSignedZero_toRow, not_and] at hz
    rw [Entry.hash_toRow, hhash, Entry.hash_fields_readBack (Decimal.readBack_eq_self hz)]
  · intro hz
    obtain ⟨hn, hz⟩ := Entry.holdsSignedZero_toRow.1 hz
    refine ⟨?_, ?_⟩
    · rw [Entry.hash_toRow, hhash, Entry.hash_minusFields_readBack hn]
    · intro i
      apply Entry.bytes_minusFields_ne
      · have hsep := separator_not_mem_category c hc
        rw [hname] at hsep
        exact hsep
      · simp only [Entry.readBack, Decimal.readBack, hz, bne_self_eq_false, Bool.and_false]

/-- An entry of the second before the epoch, and one whose amount is rounded to a zero with a sign. -/
theorem fingerprint_run_lunch :
    let j := run (.ofSeconds 60) "NZD"
      [lunch "add G 4.50 lunch" (-1), lunch "add G -0.4e-28" 1742032800]
    j.store.rows.length = 2 ∧
      ∀ r ∈ j.store.rows,
        ∃ e position, r.read = .ok e ∧ (∃ c ∈ Registry.categories, c.name = e.category) ∧
          (¬ r.HoldsSignedZero → r.hash = hash (.ofSeconds 60) (e.fields position)) ∧
          (r.HoldsSignedZero → r.hash = hash (.ofSeconds 60) (e.minusFields position) ∧
            ∀ i, (e.fields i).bytes (.ofSeconds 60) ≠
              (e.minusFields position).bytes (.ofSeconds 60)) := by
  intro j
  refine ⟨by decide +kernel, ?_⟩
  intro r hr
  exact fingerprint_run (.ofSeconds 60) "NZD" (by decide) hr

/-- The fingerprint of a zero with a sign is not that of what is read at the only position of its
batch, and at no position are the same bytes digested. -/
theorem hash_ne_of_signed_zero :
    ∃ r e, (run (.ofSeconds 1) "NZD" [lunch "add G -0.4e-28" 1742032800]).store.rows = [r] ∧
      r.read = .ok e ∧ r.hash ≠ hash (.ofSeconds 1) (e.fields 0) ∧
      r.hash = hash (.ofSeconds 1) (e.minusFields 0) ∧
      ∀ i, (e.fields i).bytes (.ofSeconds 1) ≠ (e.minusFields 0).bytes (.ofSeconds 1) := by
  refine ⟨⟨1, 7, "Groceries", "-0.0000000000000000000000000000", "NZD", "",
    "2025-03-15T10:00:00.000000Z",
    "93432a75b19591037ea431e85f711dddf1209c8e041b2e6d2cbd821023b47bd4"⟩,
    ⟨⟨7, "Groceries", ⟨false, 0, 28, by decide, by decide⟩, "NZD", "", .ofSeconds 1742032800,
      "93432a75b19591037ea431e85f711dddf1209c8e041b2e6d2cbd821023b47bd4"⟩, 1⟩, ?_, ?_, ?_, ?_, ?_⟩
  · decide +kernel
  · decide +kernel
  · decide +kernel
  · decide +kernel
  · intro i
    exact Entry.bytes_minusFields_ne (by decide) rfl i 0

end Journal

end PersonalLedger
