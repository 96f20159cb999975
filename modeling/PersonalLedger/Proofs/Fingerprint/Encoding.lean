import PersonalLedger.Fingerprint
import PersonalLedger.Proofs.Decimal.RoundTrip
import PersonalLedger.Proofs.Text.Bytes
import PersonalLedger.Registry

namespace PersonalLedger.Fingerprint

open Text

theorem bytes_eq_iff {w : DedupWindow} {f g : Fields} :
    f.bytes w = g.bytes w ↔ f.text w = g.text w :=
  bytes_inj.trans String.ofList_inj

theorem front_inj {c : Char} {a b x y : List Char} (ha : c ∉ a) (hb : c ∉ b)
    (h : a ++ c :: x = b ++ c :: y) : a = b ∧ x = y := by
  induction a generalizing b with
  | nil =>
    cases b with
    | nil => exact ⟨rfl, (List.cons.inj h).2⟩
    | cons d b => exact absurd ((List.cons.inj h).1 ▸ List.mem_cons_self) hb
  | cons d a ih =>
    cases b with
    | nil => exact absurd ((List.cons.inj h).1 ▸ List.mem_cons_self) ha
    | cons e b =>
      obtain ⟨rfl, ht⟩ := List.cons.inj h
      obtain ⟨rfl, hx⟩ := ih (fun hm => ha (List.mem_cons_of_mem d hm))
        (fun hm => hb (List.mem_cons_of_mem d hm)) ht
      exact ⟨rfl, hx⟩

theorem back_inj {c : Char} {a b x y : List Char} (ha : c ∉ a) (hb : c ∉ b)
    (h : x ++ c :: a = y ++ c :: b) : x = y ∧ a = b := by
  have hr := congrArg List.reverse h
  simp only [List.reverse_append, List.reverse_cons, List.append_assoc,
    List.singleton_append] at hr
  obtain ⟨hab, hxy⟩ := front_inj (mt List.mem_reverse.1 ha) (mt List.mem_reverse.1 hb) hr
  exact ⟨List.reverse_inj.1 hxy, List.reverse_inj.1 hab⟩

theorem separator_not_mem_natText (n : Nat) : separator ∉ natText n :=
  not_mem_of_forall_isDigit (fun _ => isDigit_of_mem_natText) rfl

theorem separator_not_mem_intText (z : Int) : separator ∉ intText z :=
  not_mem_intText rfl (by decide) z

theorem separator_not_mem_fixedText (places : Nat) (d : Decimal) :
    separator ∉ d.fixedText places :=
  Decimal.not_mem_fixedText rfl (by decide) (by decide) d places

structure Fields.Separable (f : Fields) : Prop where
  category : separator ∉ f.category.toList
  currency : separator ∉ f.currency.toList

theorem text_eq (w : DedupWindow) (f : Fields) :
    f.text w = f.category.toList ++ separator :: (f.amount.fixedText 2 ++ separator ::
      (((((f.notes.toList ++ separator :: intText (w.start f.time)) ++
        separator :: intText f.user) ++ separator :: natText f.position) ++
          separator :: f.currency.toList) ++ separator :: [])) := by
  simp only [Fields.text, Fields.texts, List.flatMap_cons, List.flatMap_nil, List.append_assoc,
    List.cons_append, List.nil_append]

theorem texts_eq_of_text_eq {w : DedupWindow} {f g : Fields} (hf : f.Separable) (hg : g.Separable)
    (h : f.text w = g.text w) : f.texts w = g.texts w := by
  rw [text_eq, text_eq] at h
  obtain ⟨hcategory, h⟩ := front_inj hf.category hg.category h
  obtain ⟨hamount, h⟩ := front_inj (separator_not_mem_fixedText _ _)
    (separator_not_mem_fixedText _ _) h
  obtain ⟨h, -⟩ := back_inj List.not_mem_nil List.not_mem_nil h
  obtain ⟨h, hcurrency⟩ := back_inj hf.currency hg.currency h
  obtain ⟨h, hposition⟩ := back_inj (separator_not_mem_natText _) (separator_not_mem_natText _) h
  obtain ⟨h, huser⟩ := back_inj (separator_not_mem_intText _) (separator_not_mem_intText _) h
  obtain ⟨hnotes, hstart⟩ := back_inj (separator_not_mem_intText _) (separator_not_mem_intText _) h
  simp only [Fields.texts, hcategory, hamount, hnotes, hstart, huser, hposition, hcurrency]

/-- Whether the two are the same submission of an amount: the amounts agree in two places, and the
times fall into the same window. -/
structure Fields.Repeats (w : DedupWindow) (f g : Fields) : Prop where
  category : f.category = g.category
  amount : f.amount.fixedText 2 = g.amount.fixedText 2
  notes : f.notes = g.notes
  time : f.time.seconds / w.seconds = g.time.seconds / w.seconds
  user : f.user = g.user
  position : f.position = g.position
  currency : f.currency = g.currency

theorem start_eq_iff {w : DedupWindow} {t u : Instant} :
    w.start t = w.start u ↔ t.seconds / w.seconds = u.seconds / w.seconds :=
  Int.mul_eq_mul_right_iff (Int.natCast_ne_zero.2 (Nat.ne_of_gt w.seconds_pos))

theorem texts_eq_iff {w : DedupWindow} {f g : Fields} :
    f.texts w = g.texts w ↔ f.Repeats w g := by
  constructor
  · intro h
    simp only [Fields.texts, List.cons.injEq, and_true] at h
    obtain ⟨hcategory, hamount, hnotes, hstart, huser, hposition, hcurrency⟩ := h
    exact ⟨String.toList_inj.1 hcategory, hamount, String.toList_inj.1 hnotes,
      start_eq_iff.1 (intText_inj hstart), intText_inj huser, natText_inj hposition,
      String.toList_inj.1 hcurrency⟩
  · rintro ⟨hcategory, hamount, hnotes, htime, huser, hposition, hcurrency⟩
    simp only [Fields.texts, hcategory, hamount, hnotes, start_eq_iff.2 htime, huser, hposition,
      hcurrency]

/-- The bytes tell every field, up to what makes a repetition. -/
theorem bytes_eq_iff_repeats {w : DedupWindow} {f g : Fields} (hf : f.Separable)
    (hg : g.Separable) : f.bytes w = g.bytes w ↔ f.Repeats w g := by
  rw [bytes_eq_iff, ← texts_eq_iff]
  constructor
  · exact texts_eq_of_text_eq hf hg
  · intro h
    rw [Fields.text, Fields.text, h]

theorem separator_not_mem_category : ∀ c ∈ Registry.categories, separator ∉ c.name.toList := by
  decide +kernel

theorem separator_not_mem_currency : ∀ c ∈ Registry.currencies, separator ∉ c.code.toList := by
  decide +kernel

end PersonalLedger.Fingerprint
