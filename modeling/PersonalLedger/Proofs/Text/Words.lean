import Mathlib.Data.List.DropRight
import PersonalLedger.Text.Blank

namespace PersonalLedger.Text

variable {c : Char} {cs blanks : List Char}

def IsBlank (cs : List Char) : Prop := ∀ c ∈ cs, isBlank c = true

instance : DecidablePred IsBlank := fun _ => decidable_of_iff _ List.all_eq_true

theorem isBlank_of_lt (hl : 0x20 < c.toNat) (hu : c.toNat < 0x85) : isBlank c = false := by
  rw [isBlank, ← Bool.not_eq_true]
  simp only [Bool.or_eq_true, Bool.and_eq_true, decide_eq_true_eq, beq_iff_eq]
  omega

theorem isBlank_of_isDigit (h : c.isDigit = true) : isBlank c = false := by
  obtain ⟨hl, hu⟩ := Char.isDigit_iff_toNat.1 h
  exact isBlank_of_lt (Nat.lt_of_lt_of_le (by decide) hl) (Nat.lt_of_le_of_lt hu (by decide))

theorem trimStart_append (h : IsBlank blanks) (cs : List Char) :
    trimStart (blanks ++ cs) = trimStart cs :=
  List.dropWhile_append_of_pos h

theorem trimStart_cons (h : isBlank c = false) (cs : List Char) : trimStart (c :: cs) = c :: cs :=
  List.dropWhile_cons_of_neg (Bool.eq_false_iff.1 h)

theorem trimStart_cons_blank (h : isBlank c = true) (cs : List Char) :
    trimStart (c :: cs) = trimStart cs :=
  List.dropWhile_cons_of_pos h

theorem trimEnd_eq_nil_iff : trimEnd cs = [] ↔ IsBlank cs := List.rdropWhile_eq_nil_iff

theorem trimEnd_cons_of_not_isBlank (h : ¬ IsBlank (c :: cs)) :
    trimEnd (c :: cs) = c :: trimEnd cs := by
  rw [trimEnd, List.reverse_cons, List.dropWhile_append]
  split
  · next he =>
    have hcs : trimEnd cs = [] := by rw [trimEnd, List.isEmpty_iff.1 he, List.reverse_nil]
    have hc : ¬ isBlank c = true := by
      intro hc
      exact h (List.forall_mem_cons.2 ⟨hc, trimEnd_eq_nil_iff.1 hcs⟩)
    rw [List.dropWhile_cons_of_neg hc, hcs, List.reverse_singleton]
  · rw [List.reverse_append, List.reverse_singleton, trimEnd]
    rfl

theorem trimEnd_cons (h : isBlank c = false) (cs : List Char) :
    trimEnd (c :: cs) = c :: trimEnd cs := by
  apply trimEnd_cons_of_not_isBlank
  intro hb
  exact Bool.eq_false_iff.1 h (hb c List.mem_cons_self)

theorem trimStart_trimEnd (cs : List Char) : trimStart (trimEnd cs) = trim cs := by
  induction cs with
  | nil => rfl
  | cons c cs ih =>
    cases hc : isBlank c with
    | false => rw [trim, trimStart_cons hc, trimEnd_cons hc, trimStart_cons hc]
    | true =>
      rw [trim, trimStart_cons_blank hc, ← trim, ← ih]
      by_cases hb : IsBlank (c :: cs)
      · have hcs : IsBlank cs := (List.forall_mem_cons.1 hb).2
        rw [trimEnd_eq_nil_iff.2 hb, trimEnd_eq_nil_iff.2 hcs]
      · rw [trimEnd_cons_of_not_isBlank hb, trimStart_cons_blank hc]

theorem trimStart_trimStart (cs : List Char) : trimStart (trimStart cs) = trimStart cs :=
  List.dropWhile_idempotent isBlank cs

theorem trimEnd_trimEnd (cs : List Char) : trimEnd (trimEnd cs) = trimEnd cs :=
  List.rdropWhile_idempotent isBlank cs

theorem trimStart_trim (cs : List Char) : trimStart (trim cs) = trim cs := by
  rw [← trimStart_trimEnd, trimStart_trimStart]

theorem trimEnd_trim (cs : List Char) : trimEnd (trim cs) = trim cs := by
  rw [trim, trimEnd_trimEnd]

theorem trim_append (h : IsBlank blanks) (cs : List Char) : trim (blanks ++ cs) = trim cs := by
  rw [trim, trimStart_append h, trim]

theorem trimEnd_eq_self_of_suffix {ds : List Char} (hs : ds <:+ cs) (h : trimEnd cs = cs) :
    trimEnd ds = ds := by
  apply List.rdropWhile_eq_self_iff.2
  intro hne
  rw [hs.getLast hne]
  exact List.rdropWhile_eq_self_iff.1 h _

theorem trim_eq_nil_iff : trim cs = [] ↔ IsBlank cs := by
  constructor
  · intro h
    rw [← trimStart_trimEnd] at h
    have hb : IsBlank (trimEnd cs) := List.dropWhile_eq_nil_iff.1 h
    rw [← trimEnd_eq_nil_iff, trimEnd_trimEnd, trimEnd_eq_nil_iff] at hb
    exact hb
  · intro h
    have hs : trimStart cs = [] := List.dropWhile_eq_nil_iff.2 h
    rw [trim, hs]
    rfl

theorem trim_eq_self (h : ∀ c ∈ cs, isBlank c = false) : trim cs = cs := by
  induction cs with
  | nil => rfl
  | cons c cs ih =>
    obtain ⟨hc, hcs⟩ := List.forall_mem_cons.1 h
    have hstart : trimStart cs = cs := by
      cases cs with
      | nil => rfl
      | cons d cs => exact trimStart_cons (hcs d List.mem_cons_self) cs
    have hcs := ih hcs
    rw [trim, hstart] at hcs
    rw [trim, trimStart_cons hc, trimEnd_cons hc, hcs]

theorem trim_subset (cs : List Char) : trim cs ⊆ cs := by
  intro c hc
  have hstart : c ∈ trimStart cs := (List.rdropWhile_prefix isBlank (trimStart cs)).subset hc
  exact (List.dropWhile_suffix isBlank).subset hstart

theorem length_trimStart_le (cs : List Char) : (trimStart cs).length ≤ cs.length :=
  (List.dropWhile_suffix isBlank).length_le

theorem length_trim_le (cs : List Char) : (trim cs).length ≤ cs.length :=
  ((List.rdropWhile_prefix isBlank (trimStart cs)).length_le).trans (length_trimStart_le cs)

theorem wordsOf_cons_blank (h : isBlank c = true) (cs : List Char) :
    wordsOf (c :: cs) = wordsOf cs := by
  rw [wordsOf, if_pos h]

theorem wordsOf_trimStart (cs : List Char) : wordsOf (trimStart cs) = wordsOf cs := by
  induction cs with
  | nil => rfl
  | cons c cs ih =>
    cases hc : isBlank c with
    | false => rw [trimStart_cons hc]
    | true => rw [trimStart_cons_blank hc, wordsOf_cons_blank hc, ih]

theorem wordsOf_eq_nil (h : IsBlank cs) : wordsOf cs = [] := by
  induction cs with
  | nil => rfl
  | cons c cs ih =>
    obtain ⟨hc, hcs⟩ := List.forall_mem_cons.1 h
    rw [wordsOf_cons_blank hc, ih hcs]

theorem startsWord_eq_false (h : IsBlank cs) : startsWord cs = false := by
  cases cs with
  | nil => rfl
  | cons c cs => rw [startsWord, h c List.mem_cons_self, Bool.not_true]

theorem startsWord_trimEnd (cs : List Char) : startsWord (trimEnd cs) = startsWord cs := by
  by_cases hb : IsBlank cs
  · rw [trimEnd_eq_nil_iff.2 hb, startsWord_eq_false hb, startsWord]
  · cases cs with
    | nil => rfl
    | cons c cs => rw [trimEnd_cons_of_not_isBlank hb, startsWord, startsWord]

theorem wordsOf_trimEnd (cs : List Char) : wordsOf (trimEnd cs) = wordsOf cs := by
  induction cs with
  | nil => rfl
  | cons c cs ih =>
    by_cases hb : IsBlank (c :: cs)
    · rw [trimEnd_eq_nil_iff.2 hb, wordsOf_eq_nil hb, wordsOf]
    · rw [trimEnd_cons_of_not_isBlank hb, wordsOf, wordsOf, ih, startsWord_trimEnd]

theorem wordsOf_trim (cs : List Char) : wordsOf (trim cs) = wordsOf cs := by
  rw [trim, wordsOf_trimEnd, wordsOf_trimStart]

theorem splitAtBlank_cons (h : isBlank c = false) (cs : List Char) :
    splitAtBlank (c :: cs) = (c :: (splitAtBlank cs).1, (splitAtBlank cs).2) := by
  simp only [splitAtBlank, List.takeWhile_cons, List.dropWhile_cons, h, Bool.not_false, ↓reduceIte]

theorem splitAtBlank_of_startsWord_eq_false (h : startsWord cs = false) :
    (splitAtBlank cs).1 = [] ∧ wordsOf (splitAtBlank cs).2 = wordsOf cs := by
  cases cs with
  | nil => exact ⟨rfl, rfl⟩
  | cons c cs =>
    have hc : isBlank c = true := by rwa [startsWord, Bool.not_eq_false'] at h
    simp only [splitAtBlank, List.takeWhile_cons, List.dropWhile_cons, hc, Bool.not_true,
      Bool.false_eq_true, ↓reduceIte, List.drop_succ_cons, List.drop_zero, wordsOf_cons_blank,
      true_and]

theorem wordsOf_eq_cons (h : startsWord cs = true) :
    wordsOf cs = (splitAtBlank cs).1 :: wordsOf (splitAtBlank cs).2 := by
  induction cs with
  | nil => cases h
  | cons c cs ih =>
    have hc : isBlank c = false := by rwa [startsWord, Bool.not_eq_true'] at h
    rw [wordsOf, if_neg (Bool.eq_false_iff.1 hc), splitAtBlank_cons hc]
    cases hs : startsWord cs with
    | true => rw [if_pos rfl, ih hs]
    | false =>
      obtain ⟨hword, hrest⟩ := splitAtBlank_of_startsWord_eq_false hs
      rw [if_neg Bool.false_ne_true, hword, hrest]

theorem startsWord_trimStart (h : trimStart cs ≠ []) : startsWord (trimStart cs) = true := by
  induction cs with
  | nil => exact absurd rfl h
  | cons c cs ih =>
    cases hc : isBlank c with
    | false => rw [trimStart_cons hc, startsWord, hc, Bool.not_false]
    | true =>
      rw [trimStart_cons_blank hc] at h ⊢
      exact ih h

/-- A text without words is blank; any other is cut at the end of its first word. -/
theorem wordsOf_cases (cs : List Char) :
    (trim cs = [] ∧ wordsOf cs = []) ∨
      wordsOf cs = (splitAtBlank (trim cs)).1 :: wordsOf (splitAtBlank (trim cs)).2 := by
  by_cases h : trim cs = []
  · left
    rw [← wordsOf_trim, h]
    exact ⟨rfl, rfl⟩
  · right
    rw [← wordsOf_trim]
    apply wordsOf_eq_cons
    rw [← trimStart_trimEnd] at h ⊢
    exact startsWord_trimStart h

theorem words_cases (text : String) :
    (trim text.toList = [] ∧ words text = []) ∨
      words text = String.ofList (splitAtBlank (trim text.toList)).1 ::
        words (String.ofList (splitAtBlank (trim text.toList)).2) := by
  rcases wordsOf_cases text.toList with ⟨ht, hw⟩ | hw
  · left
    rw [words, hw]
    exact ⟨ht, rfl⟩
  · right
    rw [words, hw, words, String.toList_ofList, List.map_cons]

structure IsWord (cs : List Char) : Prop where
  nonempty : cs ≠ []
  unbroken : ∀ c ∈ cs, isBlank c = false

theorem isWord_iff : (cs ≠ [] ∧ cs.all (!isBlank ·) = true) ↔ IsWord cs := by
  simp only [List.all_eq_true, Bool.not_eq_true']
  exact ⟨fun h => ⟨h.1, h.2⟩, fun h => ⟨h.nonempty, h.unbroken⟩⟩

instance : DecidablePred IsWord := fun _ => decidable_of_iff _ isWord_iff

/-- Whether a text is these words in order, with blanks between them and maybe around them. -/
inductive Spaced : List (List Char) → List Char → Prop where
  | blanks {cs : List Char} (h : IsBlank cs) : Spaced [] cs
  | word {blanks cs : List Char} {words : List (List Char)} (before : IsBlank blanks)
    (word : List Char) (ends : startsWord cs = false) (rest : Spaced words cs) :
    Spaced (word :: words) (blanks ++ (word ++ cs))

variable {word : List Char} {words : List (List Char)}

theorem wordsOf_append_blanks (h : IsBlank blanks) (cs : List Char) :
    wordsOf (blanks ++ cs) = wordsOf cs := by
  rw [← wordsOf_trimStart, trimStart_append h, wordsOf_trimStart]

theorem wordsOf_append_word (hw : IsWord word) (hs : startsWord cs = false) :
    wordsOf (word ++ cs) = word :: wordsOf cs := by
  obtain ⟨hne, hword⟩ := hw
  induction word with
  | nil => exact absurd rfl hne
  | cons c word ih =>
    obtain ⟨hc, hword⟩ := List.forall_mem_cons.1 hword
    rw [List.cons_append, wordsOf, if_neg (Bool.eq_false_iff.1 hc)]
    cases word with
    | nil => rw [List.nil_append, hs, if_neg Bool.false_ne_true]
    | cons d word =>
      have hd : startsWord (d :: word ++ cs) = true := by
        rw [List.cons_append, startsWord, hword d List.mem_cons_self, Bool.not_false]
      rw [hd, if_pos rfl, ih (List.cons_ne_nil d word) hword]

theorem wordsOf_of_spaced (h : Spaced words cs) (hw : ∀ word ∈ words, IsWord word) :
    wordsOf cs = words := by
  induction h with
  | blanks h => exact wordsOf_eq_nil h
  | word before word ends _ ih =>
    obtain ⟨hword, hrest⟩ := List.forall_mem_cons.1 hw
    rw [wordsOf_append_blanks before, wordsOf_append_word hword ends, ih hrest]

theorem Spaced.word_append (word : List Char) (ends : startsWord cs = false)
    (rest : Spaced words cs) : Spaced (word :: words) (word ++ cs) :=
  .word (show IsBlank [] from List.forall_mem_nil _) word ends rest

theorem Spaced.cons_blank (h : Spaced words cs) (hc : isBlank c = true) :
    Spaced words (c :: cs) := by
  cases h with
  | blanks h => exact .blanks (List.forall_mem_cons.2 ⟨hc, h⟩)
  | word before word ends rest => exact .word (List.forall_mem_cons.2 ⟨hc, before⟩) word ends rest

theorem Spaced.cons_of_startsWord (h : Spaced (word :: words) cs) (hs : startsWord cs = true) :
    Spaced ((c :: word) :: words) (c :: cs) := by
  generalize hws : word :: words = ws at h
  cases h with
  | blanks h => cases hws
  | @word blanks rest _ before _ ends spaced =>
    cases hws
    cases blanks with
    | nil => exact .word_append (c :: word) ends spaced
    | cons b blanks =>
      rw [List.cons_append, startsWord, before b List.mem_cons_self] at hs
      cases hs

theorem spaced_wordsOf (cs : List Char) :
    Spaced (wordsOf cs) cs ∧ ∀ word ∈ wordsOf cs, IsWord word := by
  induction cs with
  | nil => exact ⟨.blanks (List.forall_mem_nil _), List.forall_mem_nil _⟩
  | cons c cs ih =>
    obtain ⟨hspaced, hwords⟩ := ih
    cases hc : isBlank c with
    | true =>
      rw [wordsOf_cons_blank hc]
      exact ⟨hspaced.cons_blank hc, hwords⟩
    | false =>
      rw [wordsOf, if_neg (Bool.eq_false_iff.1 hc)]
      cases hs : startsWord cs with
      | true =>
        have he := wordsOf_eq_cons hs
        rw [he] at hspaced hwords ⊢
        obtain ⟨hfirst, hwords⟩ := List.forall_mem_cons.1 hwords
        have hword : IsWord (c :: (splitAtBlank cs).1) :=
          ⟨List.cons_ne_nil _ _, List.forall_mem_cons.2 ⟨hc, hfirst.unbroken⟩⟩
        exact ⟨hspaced.cons_of_startsWord hs, List.forall_mem_cons.2 ⟨hword, hwords⟩⟩
      | false =>
        have hword : IsWord [c] :=
          ⟨List.cons_ne_nil _ _, List.forall_mem_cons.2 ⟨hc, List.forall_mem_nil _⟩⟩
        rw [if_neg Bool.false_ne_true]
        exact ⟨.word_append [c] hs hspaced, List.forall_mem_cons.2 ⟨hword, hwords⟩⟩

theorem wordsOf_eq_iff : wordsOf cs = words ↔ Spaced words cs ∧ ∀ word ∈ words, IsWord word := by
  constructor
  · rintro rfl
    exact spaced_wordsOf cs
  · rintro ⟨hspaced, hwords⟩
    exact wordsOf_of_spaced hspaced hwords

theorem words_of_spaced {text : String} {words : List String}
    (hspaced : Spaced (words.map String.toList) text.toList)
    (hwords : ∀ word ∈ words, IsWord word.toList) : Text.words text = words := by
  have hw : ∀ word ∈ words.map String.toList, IsWord word := by
    intro cs hcs
    obtain ⟨word, hword, rfl⟩ := List.mem_map.1 hcs
    exact hwords word hword
  rw [Text.words, wordsOf_of_spaced hspaced hw, List.map_map]
  exact List.map_id'' (fun _ => String.ofList_toList) words

end PersonalLedger.Text
