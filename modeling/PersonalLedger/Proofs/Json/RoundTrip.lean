import PersonalLedger.Json.Printer
import PersonalLedger.Json.Reader
import PersonalLedger.Proofs.Text.Order

namespace PersonalLedger.Json

open Text

theorem hexDigit?_digitChar : ∀ d < 16, hexDigit? (Nat.digitChar d) = some d := by decide

def prepend (c : Char) : List Char × List Char → List Char × List Char
  | (read, rest) => (c :: read, rest)

theorem readString_cons {c : Char} (hq : c ≠ '"') (hb : c ≠ '\\') (hc : ¬c.toNat < 0x20)
    (cs : List Char) :
    readString .plain (c :: cs) = (readString .plain cs).map (prepend c) := by
  rw [readString, if_neg hq, if_neg hb, if_neg hc]
  rfl

theorem readString_code (high low : Nat) (hh : high < 2) (hl : low < 16) (cs : List Char) :
    readString .plain ('\\' :: 'u' :: '0' :: '0' :: high.digitChar :: low.digitChar :: cs) =
      (readString .plain cs).map (prepend (Char.ofNat (16 * high + low))) := by
  have hhigh : isHigh (16 * high + low) = false := by
    rw [isHigh, decide_eq_false (by omega), Bool.false_and]
  have hlow : isLow (16 * high + low) = false := by
    rw [isLow, decide_eq_false (by omega), Bool.false_and]
  calc _
    _ = readString (.code none 2 0) (high.digitChar :: low.digitChar :: cs) := rfl
    _ = readString (.code none 3 (16 * 0 + high)) (low.digitChar :: cs) := by
      rw [readString, hexDigit?_digitChar high (by omega)]
      rfl
    _ = _ := by
      rw [readString, hexDigit?_digitChar low hl, Nat.mul_zero, Nat.zero_add]
      dsimp only
      rw [if_neg (by decide), hhigh, hlow]
      rfl

theorem readString_stringChar (c : Char) (cs : List Char) :
    readString .plain (stringChar c ++ cs) = (readString .plain cs).map (prepend c) := by
  unfold stringChar
  split
  · rfl
  · rfl
  · rfl
  · rfl
  · rfl
  · rfl
  · rfl
  · next hq hb _ _ _ _ _ =>
    have hc : Char.ofNat c.toNat = c := Char.ofNat_toNat c
    split_ifs with hl hh
    · have h := readString_code 0 c.toNat (by decide) hl cs
      rw [Nat.mul_zero, Nat.zero_add, hc] at h
      rw [Nat.toDigits_of_lt_base hl]
      exact h
    · have h := readString_code 1 (c.toNat % 16) (by decide) (Nat.mod_lt _ (by decide)) cs
      have hd : c.toNat / 16 = 1 := by omega
      rw [show 16 * 1 + c.toNat % 16 = c.toNat by omega, hc] at h
      rw [Nat.toDigits_of_base_le (by decide) (by omega), hd]
      exact h
    · exact readString_cons hq hb hh cs

theorem readString_flatMap (s rest : List Char) :
    readString .plain (s.flatMap stringChar ++ '"' :: rest) = some (s, rest) := by
  induction s with
  | nil => rfl
  | cons c s ih =>
    rw [List.flatMap_cons, List.append_assoc, readString_stringChar, ih]
    rfl

/-- Whether a number may stand before the text, which goes on with no digit, point or exponent. -/
def EndsNumber (rest : List Char) : Prop :=
  ∀ c ∈ rest.head?, c.isDigit = false ∧ c ≠ '.' ∧ c ≠ 'e' ∧ c ≠ 'E'

variable {rest : List Char}

theorem endsNumber_nil : EndsNumber [] := by
  intro c hc
  cases hc

theorem endsNumber_cons {c : Char}
    (h : c.isDigit = false ∧ c ≠ '.' ∧ c ≠ 'e' ∧ c ≠ 'E') (cs : List Char) :
    EndsNumber (c :: cs) := by
  intro d hd
  cases hd
  exact h

theorem EndsNumber.takeWhile (h : EndsNumber rest) : rest.takeWhile Char.isDigit = [] := by
  cases rest with
  | nil => rfl
  | cons c cs =>
    apply List.takeWhile_cons_of_neg
    rw [(h c rfl).1]
    exact Bool.false_ne_true

theorem EndsNumber.dropWhile (h : EndsNumber rest) : rest.dropWhile Char.isDigit = rest := by
  cases rest with
  | nil => rfl
  | cons c cs =>
    apply List.dropWhile_cons_of_neg
    rw [(h c rfl).1]
    exact Bool.false_ne_true

theorem EndsNumber.takeFraction (h : EndsNumber rest) : takeFraction rest = some ([], rest) := by
  unfold Json.takeFraction
  split
  · exact absurd rfl (h '.' rfl).2.1
  · rfl

theorem EndsNumber.takeExponent (h : EndsNumber rest) : takeExponent rest = some (none, rest) := by
  cases rest with
  | nil => rfl
  | cons c cs =>
    have he : (c = 'e' || c = 'E') = false := by
      rw [decide_eq_false (h c rfl).2.2.1, decide_eq_false (h c rfl).2.2.2, Bool.or_false]
    unfold Json.takeExponent
    dsimp only
    rw [he]
    rfl

theorem length_natText_of_head? {n : Nat} (h : (natText n).head? = some '0') :
    (natText n).length = 1 := by
  cases hn : natText n with
  | nil => exact absurd hn (natText_ne_nil n)
  | cons c cs =>
    rw [hn] at h
    cases h
    cases cs with
    | nil => rfl
    | cons d ds =>
      have hd : ∀ x ∈ d :: ds, x.isDigit = true := by
        intro x hx
        apply isDigit_of_mem_natText (n := n)
        rw [hn]
        exact List.mem_cons_of_mem _ hx
      have hlt : n < 10 ^ (d :: ds).length := by
        rw [← ofDigitChars_natText n, hn, ofDigitChars_cons, Nat.sub_self, Nat.mul_zero,
          Nat.zero_add]
        exact ofDigitChars_lt hd
      have hl := (Nat.length_toDigits_le_iff (by decide) (Nat.succ_pos _)).2 hlt
      rw [← natText, hn] at hl
      exact absurd hl (Nat.not_succ_le_self _)

theorem readUnsigned_natText {negative : Bool} {n : Nat} {value : Json} (h : EndsNumber rest)
    (hv : ∀ written, ofParts negative (natText n) [] none written = some value) :
    readUnsigned negative (natText n ++ rest) = some (value, rest) := by
  have hd : ∀ c ∈ natText n, c.isDigit = true := fun _ => isDigit_of_mem_natText
  have hz : ((natText n).isEmpty ||
      (natText n).head? == some '0' && decide (1 < (natText n).length)) = false := by
    rw [List.isEmpty_eq_false_iff.2 (natText_ne_nil n), Bool.false_or, Bool.and_eq_false_iff]
    by_cases h0 : (natText n).head? = some '0'
    · right
      rw [length_natText_of_head? h0]
      rfl
    · left
      exact beq_eq_false_iff_ne.2 h0
  rw [readUnsigned, List.takeWhile_append_of_pos hd, h.takeWhile, List.append_nil,
    List.dropWhile_append_of_pos hd, h.dropWhile]
  dsimp only
  rw [hz, if_neg Bool.false_ne_true, h.takeFraction, Option.bind_eq_bind, Option.bind_some]
  dsimp only
  rw [h.takeExponent, Option.bind_eq_bind, Option.bind_some]
  dsimp only
  rw [hv]
  rfl

theorem readNumber_natText_append (n : Nat) (rest : List Char) :
    readNumber (natText n ++ rest) = readUnsigned false (natText n ++ rest) := by
  unfold readNumber
  split
  · next cs hcs =>
    cases hn : natText n with
    | nil => exact absurd hn (natText_ne_nil n)
    | cons c ds =>
      rw [hn, List.cons_append] at hcs
      have hc : c.isDigit = true := by
        apply isDigit_of_mem_natText (n := n)
        rw [hn]
        exact List.mem_cons_self
      exact absurd (List.cons.inj hcs).1 (ne_of_isDigit hc rfl)
  · rfl

theorem readNumber_intText {n : Int} (hl : -2 ^ 63 ≤ n) (hu : n < 2 ^ 64) (h : EndsNumber rest) :
    readNumber (intText n ++ rest) = some (.whole n, rest) := by
  rw [intText]
  split
  · apply readUnsigned_natText h
    intro written
    have hn : 0 < n.natAbs ∧ n.natAbs ≤ 2 ^ 63 := by omega
    have he : -(n.natAbs : Int) = n := by omega
    rw [ofParts, ofDigitChars_natText, he]
    simp [hn]
  · rw [readNumber_natText_append]
    apply readUnsigned_natText h
    intro written
    have hn : n.natAbs < 2 ^ 64 := by omega
    have he : (n.natAbs : Int) = n := by omega
    rw [ofParts, ofDigitChars_natText, he]
    simp [hn]

/-- Values that are read as they are written: their numbers are integers of 64 bits, their objects
have every key once, and they are nested less than `depth` deep. -/
inductive Legible : (depth : Nat) → Json → Prop
  | null {depth} : Legible depth .null
  | bool {depth} (b : Bool) : Legible depth (.bool b)
  | whole {depth n} (hl : -2 ^ 63 ≤ n) (hu : n < 2 ^ 64) : Legible depth (.whole n)
  | text {depth} (s : String) : Legible depth (.text s)
  | array {depth items} (h : ∀ item ∈ items, Legible (depth + 1) item) :
    Legible (depth + 2) (.array items)
  | object {depth fields} (hk : (fields.map (·.1)).Nodup)
    (h : ∀ field ∈ fields, Legible (depth + 1) field.2) : Legible (depth + 2) (.object fields)

/-- Whether a value is read from its text on a level, whatever stands behind it. -/
def Reads (depth level : Nat) (v : Json) : Prop :=
  ∀ fuel rest, (textAt level v).length ≤ fuel → EndsNumber rest →
    readValue (fuel + 1) depth (textAt level v ++ rest) = some (v, rest)

theorem skipSpace_newLine (level : Nat) (cs : List Char) :
    skipSpace (newLine level ++ cs) = skipSpace cs := by
  apply List.dropWhile_append_of_pos
  intro c hc
  rcases List.mem_cons.1 hc with hc | hc
  · rw [hc]
    rfl
  · rw [List.eq_of_mem_replicate hc]
    rfl

theorem skipSpace_cons {c : Char} (h : isSpace c = false) (cs : List Char) :
    skipSpace (c :: cs) = c :: cs := by
  apply List.dropWhile_cons_of_neg
  rw [h]
  exact Bool.false_ne_true

theorem readValue_congr {cs ds : List Char} (h : skipSpace cs = skipSpace ds) (fuel depth : Nat) :
    readValue fuel depth cs = readValue fuel depth ds := by
  cases fuel with
  | zero => rfl
  | succ fuel =>
    unfold readValue
    rw [h]

theorem readValue_space (fuel depth : Nat) (cs : List Char) :
    readValue fuel depth (' ' :: cs) = readValue fuel depth cs :=
  readValue_congr (List.dropWhile_cons_of_pos rfl) fuel depth

theorem readItems_congr {cs ds : List Char} (h : skipSpace cs = skipSpace ds) (fuel depth : Nat) :
    readItems fuel depth cs = readItems fuel depth ds := by
  cases fuel with
  | zero => rfl
  | succ fuel =>
    unfold readItems
    rw [readValue_congr h]

theorem readFields_congr {cs ds : List Char} (h : skipSpace cs = skipSpace ds) (fuel depth : Nat) :
    readFields fuel depth cs = readFields fuel depth ds := by
  cases fuel with
  | zero => rfl
  | succ fuel =>
    unfold readFields
    rw [h]

theorem isSpace_of_isDigit {c : Char} (h : c.isDigit = true) : isSpace c = false := by
  rw [isSpace, beq_eq_false_iff_ne.2 (ne_of_isDigit h rfl),
    beq_eq_false_iff_ne.2 (ne_of_isDigit h rfl), beq_eq_false_iff_ne.2 (ne_of_isDigit h rfl),
    beq_eq_false_iff_ne.2 (ne_of_isDigit h rfl)]
  rfl

theorem exists_intText_eq_cons (n : Int) :
    ∃ c cs, intText n = c :: cs ∧ (c.isDigit = true ∨ c = '-') := by
  cases hn : intText n with
  | nil =>
    rw [intText] at hn
    split at hn
    · cases hn
    · exact absurd hn (natText_ne_nil _)
  | cons c cs =>
    refine ⟨c, cs, rfl, isDigit_or_eq_of_mem_intText (z := n) ?_⟩
    rw [hn]
    exact List.mem_cons_self

theorem readValue_number {c : Char} (h : c.isDigit = true ∨ c = '-') (fuel depth : Nat)
    (cs : List Char) : readValue (fuel + 1) depth (c :: cs) = readNumber (c :: cs) := by
  have hs : isSpace c = false := by
    rcases h with h | rfl
    · exact isSpace_of_isDigit h
    · rfl
  unfold readValue
  rw [skipSpace_cons hs]
  split
  case h_7 => rfl
  -- The other values start with neither a digit nor a minus sign.
  all_goals
    next hc =>
      obtain ⟨rfl, -⟩ := List.cons.inj hc
      rcases h with h | h
      · cases h
      · cases h

/-- The text of a value starts with a character that is no space and closes no array. -/
theorem exists_textAt_eq_cons {depth : Nat} {v : Json} (h : Legible depth v) (level : Nat) :
    ∃ c cs, textAt level v = c :: cs ∧ isSpace c = false ∧ c ≠ ']' := by
  cases h with
  | null => exact ⟨_, _, rfl, rfl, by decide⟩
  | bool b =>
    cases b with
    | false => exact ⟨_, _, rfl, rfl, by decide⟩
    | true => exact ⟨_, _, rfl, rfl, by decide⟩
  | whole =>
    rename_i n _ _
    obtain ⟨c, cs, hn, hc⟩ := exists_intText_eq_cons n
    refine ⟨c, cs, hn, ?_⟩
    rcases hc with hc | rfl
    · exact ⟨isSpace_of_isDigit hc, ne_of_isDigit hc rfl⟩
    · exact ⟨rfl, by decide⟩
  | text s => exact ⟨_, _, rfl, rfl, by decide⟩
  | array =>
    rename_i items _
    cases items with
    | nil => exact ⟨_, _, rfl, rfl, by decide⟩
    | cons item items => exact ⟨_, _, by rw [textAt]; rfl, rfl, by decide⟩
  | object =>
    rename_i fields _ _
    cases fields with
    | nil => exact ⟨_, _, by rw [textAt], rfl, by decide⟩
    | cons field fields => exact ⟨_, _, by rw [textAt]; rfl, rfl, by decide⟩

theorem readValue_array {c : Char} (hs : isSpace c = false) (hc : c ≠ ']')
    (fuel depth level : Nat) (cs : List Char) :
    readValue (fuel + 1) (depth + 2) ('[' :: (newLine level ++ c :: cs)) =
      (readItems fuel (depth + 1) (c :: cs)).map fun (items, rest) => (.array items, rest) := by
  have hd : ¬depth + 2 ≤ 1 := by omega
  simp only [readValue, skipSpace_cons (c := '[') rfl, if_neg hd, skipSpace_newLine,
    skipSpace_cons hs]
  split
  · next heq => exact absurd (List.cons.inj heq).1 hc
  · rfl

theorem readValue_object (fuel depth level : Nat) (cs : List Char) :
    readValue (fuel + 1) (depth + 2) ('\x7b' :: (newLine level ++ '"' :: cs)) =
      (readFields fuel (depth + 1) ('"' :: cs)).map fun (fields, rest) =>
        (.object (lastOfEach fields), rest) := by
  have hd : ¬depth + 2 ≤ 1 := by omega
  simp only [readValue, skipSpace_cons (c := '\x7b') rfl, if_neg hd, skipSpace_newLine,
    skipSpace_cons (c := '"') rfl]
  rfl

variable {depth level fuel : Nat}

theorem endsNumber_newLine (level : Nat) (cs : List Char) : EndsNumber (newLine level ++ cs) :=
  endsNumber_cons (by decide) _

theorem itemsText_cons_append (item : Json) (items : List Json) (cs : List Char) :
    itemsText level (item :: items) ++ cs =
      ',' :: (newLine level ++ (textAt level item ++ (itemsText level items ++ cs))) := by
  rw [itemsText]
  simp only [List.append_assoc, List.cons_append]

theorem fieldsText_cons_append (key : String) (value : Json) (fields : List (String × Json))
    (cs : List Char) :
    fieldsText level ((key, value) :: fields) ++ cs =
      ',' :: (newLine level ++ (stringText key ++ (':' :: ' ' ::
        (textAt level value ++ (fieldsText level fields ++ cs))))) := by
  rw [fieldsText]
  simp only [List.append_assoc, List.cons_append, List.nil_append]

section Step

variable {item value : Json} {key : String} {cs behind rest : List Char}

theorem readItems_last (h : readValue fuel depth cs = some (item, behind))
    (hb : skipSpace behind = ']' :: rest) :
    readItems (fuel + 1) depth cs = some ([item], rest) := by
  simp only [readItems, h, hb]

theorem readItems_more (h : readValue fuel depth cs = some (item, behind))
    (hb : skipSpace behind = ',' :: rest) :
    readItems (fuel + 1) depth cs =
      (readItems fuel depth rest).map fun (items, rest) => (item :: items, rest) := by
  simp only [readItems, h, hb]

theorem stringText_append (s : String) (cs : List Char) :
    stringText s ++ cs = '"' :: (s.toList.flatMap stringChar ++ '"' :: cs) := by
  rw [stringText, List.append_assoc]
  rfl

theorem readFields_last (h : readValue fuel depth cs = some (value, behind))
    (hb : skipSpace behind = '\x7d' :: rest) :
    readFields (fuel + 1) depth (stringText key ++ ':' :: ' ' :: cs) =
      some ([(key, value)], rest) := by
  rw [← readValue_space] at h
  rw [stringText_append]
  simp only [readFields, skipSpace_cons (c := '"') rfl, skipSpace_cons (c := ':') rfl,
    readString_flatMap, h, hb, String.ofList_toList]

theorem readFields_more (h : readValue fuel depth cs = some (value, behind))
    (hb : skipSpace behind = ',' :: rest) :
    readFields (fuel + 1) depth (stringText key ++ ':' :: ' ' :: cs) =
      (readFields fuel depth rest).map fun (fields, rest) => ((key, value) :: fields, rest) := by
  rw [← readValue_space] at h
  rw [stringText_append]
  simp only [readFields, skipSpace_cons (c := '"') rfl, skipSpace_cons (c := ':') rfl,
    readString_flatMap, h, hb, String.ofList_toList]

end Step

theorem readItems_itemsText {item : Json} {items : List Json}
    (h : ∀ v ∈ item :: items, Reads depth level v)
    (hf : (textAt level item).length + (itemsText level items).length ≤ fuel) (outer : Nat)
    (rest : List Char) :
    readItems (fuel + 2) depth
      (textAt level item ++ (itemsText level items ++ (newLine outer ++ ']' :: rest))) =
        some (item :: items, rest) := by
  induction items generalizing item fuel with
  | nil =>
    have hitem := h item List.mem_cons_self fuel (newLine outer ++ ']' :: rest) (by omega)
      (endsNumber_newLine _ _)
    rw [itemsText, List.nil_append, readItems_last hitem (skipSpace_newLine _ _)]
  | cons next items ih =>
    have hitem := h item List.mem_cons_self fuel (',' :: (newLine level ++ (textAt level next ++
      (itemsText level items ++ (newLine outer ++ ']' :: rest))))) (by omega)
      (endsNumber_cons (by decide) _)
    -- an item takes one step of fuel, for which its comma pays
    rw [itemsText, List.length_append, List.length_append, List.length_cons] at hf
    obtain ⟨fuel, rfl⟩ : ∃ f, fuel = f + 1 := Nat.exists_eq_add_one.2 (by omega)
    have hl : (textAt level next).length + (itemsText level items).length ≤ fuel := by omega
    have hnext := ih (fun v hv => h v (List.mem_cons_of_mem _ hv)) hl
    rw [itemsText_cons_append, readItems_more hitem (skipSpace_cons rfl _),
      readItems_congr (skipSpace_newLine _ _), hnext]
    rfl

theorem readFields_fieldsText {key : String} {value : Json} {fields : List (String × Json)}
    (h : ∀ field ∈ (key, value) :: fields, Reads depth level field.2)
    (hf : (textAt level value).length + (fieldsText level fields).length ≤ fuel) (outer : Nat)
    (rest : List Char) :
    readFields (fuel + 2) depth (stringText key ++ (':' :: ' ' ::
      (textAt level value ++ (fieldsText level fields ++ (newLine outer ++ '\x7d' :: rest))))) =
        some ((key, value) :: fields, rest) := by
  have hl : (textAt level value).length ≤ fuel := by omega
  induction fields generalizing key value fuel with
  | nil =>
    have hvalue := h _ List.mem_cons_self fuel (newLine outer ++ '\x7d' :: rest) hl
      (endsNumber_newLine _ _)
    rw [fieldsText, List.nil_append, readFields_last hvalue (skipSpace_newLine _ _)]
  | cons next fields ih =>
    have hvalue := h _ List.mem_cons_self fuel (',' :: (newLine level ++ (stringText next.1 ++
      (':' :: ' ' :: (textAt level next.2 ++ (fieldsText level fields ++
        (newLine outer ++ '\x7d' :: rest))))))) hl (endsNumber_cons (by decide) _)
    rw [fieldsText] at hf
    simp only [List.length_append, List.length_cons] at hf
    obtain ⟨fuel, rfl⟩ : ∃ f, fuel = f + 1 := Nat.exists_eq_add_one.2 (by omega)
    have hnext := @ih fuel next.1 next.2
      (fun field hfield => h field (List.mem_cons_of_mem _ hfield)) (by omega) (by omega)
    rw [fieldsText_cons_append, readFields_more hvalue (skipSpace_cons rfl _),
      readFields_congr (skipSpace_newLine _ _), hnext]
    rfl

theorem lastOfEach_eq_self {fields : List (String × Json)} (h : (fields.map (·.1)).Nodup) :
    lastOfEach fields = fields := by
  induction fields with
  | nil => rfl
  | cons field fields ih =>
    rw [List.map_cons, List.nodup_cons] at h
    have hany : fields.any (·.1 == field.1) = false := by
      rw [List.any_eq_false]
      intro f hf heq
      apply h.1
      rw [← beq_iff_eq.1 heq]
      exact List.mem_map_of_mem hf
    rw [lastOfEach, hany, ih h.2]
    rfl

theorem Legible.reads {v : Json} (h : Legible depth v) (level : Nat) : Reads depth level v := by
  -- the items and fields of a legible value are legible, one level deeper
  induction h generalizing level with
  | null =>
    intro fuel rest _ _
    rfl
  | bool b =>
    intro fuel rest _ _
    cases b with
    | false => rfl
    | true => rfl
  | @whole _ n hl hu =>
    intro fuel rest _ hr
    obtain ⟨c, cs, hn, hc⟩ := exists_intText_eq_cons n
    rw [textAt, ← readNumber_intText hl hu hr, hn]
    exact readValue_number hc _ _ _
  | text s =>
    intro fuel rest _ _
    rw [textAt, stringText_append]
    simp only [readValue, skipSpace_cons (c := '"') rfl, readString_flatMap, Option.map_some,
      String.ofList_toList]
  | @array depth items h ih =>
    intro fuel rest hf _
    cases items with
    | nil => rfl
    | cons item items =>
      obtain ⟨c, cs, hcs, hs, hc⟩ := exists_textAt_eq_cons (h item List.mem_cons_self) (level + 1)
      rw [textAt] at hf ⊢
      simp only [List.length_append, List.length_cons] at hf
      obtain ⟨fuel, rfl⟩ : ∃ f, fuel = f + 2 := ⟨fuel - 2, by omega⟩
      have hl : (textAt (level + 1) item).length + (itemsText (level + 1) items).length ≤ fuel := by
        omega
      have hitems := readItems_itemsText (fun v hv => ih v hv (level + 1)) hl level rest
      simp only [List.append_assoc, List.cons_append, List.nil_append]
      rw [hcs, List.cons_append] at hitems ⊢
      rw [readValue_array hs hc, hitems]
      rfl
  | @object depth fields hk h ih =>
    intro fuel rest hf _
    cases fields with
    | nil => rfl
    | cons field fields =>
      obtain ⟨key, value⟩ := field
      rw [textAt] at hf ⊢
      simp only [List.length_append, List.length_cons] at hf
      obtain ⟨fuel, rfl⟩ : ∃ f, fuel = f + 2 := ⟨fuel - 2, by omega⟩
      have hl : (textAt (level + 1) value).length + (fieldsText (level + 1) fields).length ≤
          fuel := by omega
      have hfields := readFields_fieldsText (fun f hf => ih f hf (level + 1)) hl level rest
      simp only [List.append_assoc, List.cons_append, List.nil_append]
      rw [stringText_append] at hfields ⊢
      rw [readValue_object, hfields, Option.map_some]
      dsimp only
      rw [lastOfEach_eq_self hk]

theorem read?_render {v : Json} (h : Legible maxDepth v) : read? v.render = some v := by
  have hlength : (textAt 0 v).length ≤ 2 * (textAt 0 v).length + 1 := by omega
  have hread := h.reads 0 _ [] hlength endsNumber_nil
  rw [List.append_nil] at hread
  rw [read?, render, String.toList_ofList, hread]
  rfl

end PersonalLedger.Json
