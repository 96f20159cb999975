import PersonalLedger.Command.Amount
import PersonalLedger.Proofs.Decimal.RoundTrip
import PersonalLedger.Proofs.Text.Words
import PersonalLedger.Proofs.Traverse

namespace PersonalLedger

open Text

namespace Amount

variable {c : Char} {cs text piece : List Char} {word : String} {amounts : List Decimal}
  {amount : Decimal} {e : Failure}

theorem pieces_ne_nil (cs : List Char) : pieces cs ≠ [] := by
  cases cs with
  | nil => exact List.cons_ne_nil _ _
  | cons c cs =>
    rw [pieces]
    split
    · exact List.cons_ne_nil _ _
    · split
      · exact List.cons_ne_nil _ _
      · exact List.cons_ne_nil _ _

theorem pieces_cons_minus (cs : List Char) : pieces ('-' :: cs) = [] :: pieces cs := by
  rw [pieces, if_pos rfl]

theorem exists_pieces_cons (hc : c ≠ '-') (cs : List Char) : ∃ piece others,
    pieces cs = piece :: others ∧ pieces (c :: cs) = (c :: piece) :: others := by
  obtain ⟨piece, others, hp⟩ := List.exists_cons_of_ne_nil (pieces_ne_nil cs)
  refine ⟨piece, others, hp, ?_⟩
  rw [pieces, if_neg hc, hp]

theorem pieces_eq_splitOn (cs : List Char) : pieces cs = cs.splitOn '-' := by
  induction cs with
  | nil => rfl
  | cons c cs ih =>
    rw [List.splitOn_cons_eq_if_modifyHead, ← ih]
    by_cases hc : c = '-'
    · rw [hc, pieces_cons_minus, beq_self_eq_true, if_pos rfl]
    · obtain ⟨piece, others, hp, hcons⟩ := exists_pieces_cons hc cs
      rw [hcons, hp, if_neg (mt beq_iff_eq.1 hc), List.modifyHead_cons]

theorem length_pieces (cs : List Char) : (pieces cs).length = cs.count '-' + 1 := by
  induction cs with
  | nil => rfl
  | cons c cs ih =>
    by_cases hc : c = '-'
    · rw [hc, pieces_cons_minus, List.length_cons, ih, List.count_cons_self]
    · obtain ⟨piece, others, hp, hcons⟩ := exists_pieces_cons hc cs
      rw [hcons, List.length_cons, List.count_cons_of_ne hc, ← ih, hp, List.length_cons]

theorem of_mem_pieces (hp : piece ∈ pieces cs) (hc : c ∈ piece) : c ∈ cs ∧ c ≠ '-' := by
  induction cs generalizing piece with
  | nil =>
    rw [List.mem_singleton.1 hp] at hc
    cases hc
  | cons d cs ih =>
    by_cases hd : d = '-'
    · rw [hd, pieces_cons_minus] at hp
      rcases List.mem_cons.1 hp with rfl | hp
      · cases hc
      · obtain ⟨hmem, hne⟩ := ih hp hc
        exact ⟨List.mem_cons_of_mem d hmem, hne⟩
    · obtain ⟨first, others, hcs, hcons⟩ := exists_pieces_cons hd cs
      rw [hcs] at ih
      rw [hcons] at hp
      rcases List.mem_cons.1 hp with rfl | hp
      · rcases List.mem_cons.1 hc with rfl | hc
        · exact ⟨List.mem_cons_self, hd⟩
        · obtain ⟨hmem, hne⟩ := ih List.mem_cons_self hc
          exact ⟨List.mem_cons_of_mem d hmem, hne⟩
      · obtain ⟨hmem, hne⟩ := ih (List.mem_cons_of_mem first hp) hc
        exact ⟨List.mem_cons_of_mem d hmem, hne⟩

theorem pieces_map {f : Char → Char} (hf : ∀ c, f c = '-' ↔ c = '-') (cs : List Char) :
    pieces (cs.map f) = (pieces cs).map (List.map f) := by
  induction cs with
  | nil => rfl
  | cons c cs ih =>
    rw [List.map_cons]
    by_cases hc : c = '-'
    · rw [hc, (hf '-').2 rfl, pieces_cons_minus, pieces_cons_minus, ih]
      rfl
    · obtain ⟨piece, others, hp, hcons⟩ := exists_pieces_cons hc cs
      obtain ⟨piece', others', hp', hcons'⟩ := exists_pieces_cons (mt (hf c).1 hc) (cs.map f)
      rw [ih, hp, List.map_cons] at hp'
      obtain ⟨rfl, rfl⟩ := List.cons.inj hp'
      rw [hcons, hcons', List.map_cons, List.map_cons]

def point (c : Char) : Char := if c = ',' then '.' else c

theorem point_eq_minus_iff (c : Char) : point c = '-' ↔ c = '-' := by
  rw [point]
  split
  · next h =>
    rw [h]
    decide
  · exact Iff.rfl

theorem normalized_of_unbroken (h : ∀ c ∈ cs, isBlank c = false) : normalized cs = cs.map point := by
  rw [normalized, trim_eq_self h]
  rfl

theorem one_eq_ok_iff : one cs = .ok amount ↔ Decimal.read? (normalized cs) = some amount := by
  rw [one]
  cases Decimal.read? (normalized cs) with
  | some found => rw [Except.ok.injEq, Option.some_inj]
  | none => simp only [reduceCtorEq]

theorem one_eq_error_iff :
    one cs = .error e ↔ Decimal.read? (normalized cs) = none ∧ e = .invalidAmount (.ofList cs) := by
  rw [one]
  cases Decimal.read? (normalized cs) with
  | some found => simp only [reduceCtorEq, false_and]
  | none => rw [Except.error.injEq, and_iff_right rfl, eq_comm]

def inner (word : String) : List Char := word.toList.filter (!isParenthesis ·)

def HasParenthesis (word : String) : Prop := '(' ∈ word.toList ∨ ')' ∈ word.toList

instance : Decidable (HasParenthesis word) := inferInstanceAs (Decidable (_ ∨ _))

def Reads (piece : List Char) (amount : Decimal) : Prop :=
  Decimal.read? (normalized piece) = some amount

theorem isParenthesis_iff : isParenthesis c = true ↔ c = '(' ∨ c = ')' := by
  rw [isParenthesis, Bool.or_eq_true, beq_iff_eq, beq_iff_eq]

theorem any_isParenthesis_iff : word.toList.any isParenthesis = true ↔ HasParenthesis word := by
  simp only [List.any_eq_true, isParenthesis_iff, HasParenthesis]
  constructor
  · rintro ⟨c, hc, rfl | rfl⟩
    · exact .inl hc
    · exact .inr hc
  · rintro (h | h)
    · exact ⟨'(', h, .inl rfl⟩
    · exact ⟨')', h, .inr rfl⟩

theorem parse_eq_of_not_hasParenthesis (hp : ¬ HasParenthesis word) :
    parse word = (one word.toList).map ([·]) :=
  if_neg (mt any_isParenthesis_iff.1 hp)

theorem parse_eq_of_hasParenthesis (hp : HasParenthesis word) :
    parse word =
      if IsBlank (inner word) then .error (.invalidAmount word) else (pieces (inner word)).mapM one := by
  have hparse : parse word = if (trim (inner word)).isEmpty then .error (.invalidAmount word)
      else (pieces (inner word)).mapM one :=
    if_pos (any_isParenthesis_iff.2 hp)
  rw [hparse]
  simp only [List.isEmpty_iff, trim_eq_nil_iff]

theorem parse_eq_ok_iff (hp : HasParenthesis word) : parse word = .ok amounts ↔
    ¬ IsBlank (inner word) ∧ List.Forall₂ Reads (pieces (inner word)) amounts := by
  rw [parse_eq_of_hasParenthesis hp]
  split
  · next h => simp only [reduceCtorEq, h, not_true_eq_false, false_and]
  · next h =>
    simp only [h, not_false_eq_true, true_and, mapM_eq_ok_iff, one_eq_ok_iff]
    rfl

theorem parse_eq_error_iff (hp : HasParenthesis word) : parse word = .error e ↔
    (IsBlank (inner word) ∧ e = .invalidAmount word) ∨
      (¬ IsBlank (inner word) ∧ ∃ before piece after,
        pieces (inner word) = before ++ piece :: after ∧ (∀ p ∈ before, ∃ amount, Reads p amount) ∧
          (∀ amount, ¬ Reads piece amount) ∧ e = .invalidAmount (.ofList piece)) := by
  rw [parse_eq_of_hasParenthesis hp]
  split
  · next h =>
    simp only [h, not_true_eq_false, true_and, false_and, or_false, Except.error.injEq, eq_comm]
  · next h =>
    simp only [h, not_false_eq_true, true_and, false_and, false_or, mapM_eq_error_iff,
      one_eq_ok_iff, one_eq_error_iff, Option.eq_none_iff_forall_ne_some]
    rfl

theorem ne_nil_of_parse (h : parse word = .ok amounts) : amounts ≠ [] := by
  by_cases hp : HasParenthesis word
  · have hl := ((parse_eq_ok_iff hp).1 h).2.length_eq
    rintro rfl
    exact pieces_ne_nil _ (List.eq_nil_of_length_eq_zero hl)
  · rw [parse_eq_of_not_hasParenthesis hp] at h
    cases ho : one word.toList with
    | error e =>
      rw [ho] at h
      cases h
    | ok amount =>
      rw [ho] at h
      cases h
      exact List.cons_ne_nil _ _

theorem exists_of_parse_eq_error (h : parse word = .error e) : ∃ text, e = .invalidAmount text := by
  by_cases hp : HasParenthesis word
  · rcases (parse_eq_error_iff hp).1 h with ⟨-, rfl⟩ | ⟨-, before, piece, after, -, -, -, rfl⟩
    · exact ⟨word, rfl⟩
    · exact ⟨.ofList piece, rfl⟩
  · rw [parse_eq_of_not_hasParenthesis hp] at h
    cases ho : one word.toList with
    | error found =>
      rw [ho] at h
      cases h
      exact ⟨.ofList word.toList, (one_eq_error_iff.1 ho).2⟩
    | ok amount =>
      rw [ho] at h
      cases h

theorem toList_ne_nil_of_parse (h : parse word = .ok amounts) : word.toList ≠ [] := by
  intro hnil
  obtain rfl := String.toList_eq_nil_iff.1 hnil
  cases h

/-- The amounts one after the other, each with all its places, and minus signs between them. -/
def batchText (amounts : List Decimal) : List Char :=
  ['-'].intercalate (amounts.map Decimal.text)

/-- The ways to type a text: a comma may stand for any point, and parentheses may stand anywhere. -/
inductive Spelling : List Char → List Char → Prop where
  | nil : Spelling [] []
  | same {text cs : List Char} (c : Char) (rest : Spelling text cs) : Spelling (c :: text) (c :: cs)
  | comma {text cs : List Char} (rest : Spelling text cs) : Spelling ('.' :: text) (',' :: cs)
  | parenthesis {text cs : List Char} {c : Char} (hc : c = '(' ∨ c = ')') (rest : Spelling text cs) :
    Spelling text (c :: cs)

/-- Without its parentheses, and with points for its commas, a typed text is the text meant. -/
theorem Spelling.map_point (h : Spelling text cs) (hp : ∀ c ∈ text, isParenthesis c = false)
    (hc : ',' ∉ text) : (cs.filter (!isParenthesis ·)).map point = text := by
  induction h with
  | nil => rfl
  | same c _ ih =>
    obtain ⟨hfirst, hp⟩ := List.forall_mem_cons.1 hp
    have hne : c ≠ ',' := (List.ne_of_not_mem_cons hc).symm
    rw [List.filter_cons_of_pos (by rw [hfirst, Bool.not_false]), List.map_cons,
      ih hp (List.not_mem_of_not_mem_cons hc), point, if_neg hne]
  | comma _ ih =>
    obtain ⟨-, hp⟩ := List.forall_mem_cons.1 hp
    rw [List.filter_cons_of_pos rfl, List.map_cons, ih hp (List.not_mem_of_not_mem_cons hc)]
    rfl
  | parenthesis hparen _ ih =>
    rw [List.filter_cons_of_neg (by rw [isParenthesis_iff.2 hparen]; decide), ih hp hc]

theorem mem_intercalate {sep : List Char} {texts : List (List Char)}
    (h : c ∈ sep.intercalate texts) : c ∈ sep ∨ ∃ text ∈ texts, c ∈ text := by
  induction texts with
  | nil => cases h
  | cons first texts ih =>
    cases texts with
    | nil =>
      rw [List.intercalate_singleton] at h
      exact .inr ⟨first, List.mem_cons_self, h⟩
    | cons second texts =>
      rw [List.intercalate_cons_cons] at h
      rcases List.mem_append.1 h with h | h
      · rcases List.mem_append.1 h with h | h
        · exact .inr ⟨first, List.mem_cons_self, h⟩
        · exact .inl h
      · rcases ih h with h | ⟨text, ht, h⟩
        · exact .inl h
        · exact .inr ⟨text, List.mem_cons_of_mem first ht, h⟩

theorem isDigit_or_eq_of_mem_text {d : Decimal} (hn : d.negative = false) (h : c ∈ d.text) :
    c.isDigit = true ∨ c = '.' := by
  rw [Decimal.text, Decimal.signText, hn, if_neg Bool.false_ne_true, List.nil_append] at h
  exact Decimal.isDigit_or_eq_of_mem_pointText h

section

variable (hn : ∀ d ∈ amounts, d.negative = false)

include hn

theorem of_mem_batchText (h : c ∈ batchText amounts) : c.isDigit = true ∨ c = '.' ∨ c = '-' := by
  rcases mem_intercalate h with h | ⟨text, ht, h⟩
  · exact .inr (.inr (List.mem_singleton.1 h))
  · obtain ⟨d, hd, rfl⟩ := List.mem_map.1 ht
    rcases isDigit_or_eq_of_mem_text (hn d hd) h with h | h
    · exact .inl h
    · exact .inr (.inl h)

theorem isParenthesis_of_mem_batchText (h : c ∈ batchText amounts) : isParenthesis c = false := by
  rcases of_mem_batchText hn h with h | rfl | rfl
  · rw [isParenthesis, beq_eq_false_iff_ne.2 (ne_of_isDigit h rfl),
      beq_eq_false_iff_ne.2 (ne_of_isDigit h rfl), Bool.or_false]
  · rfl
  · rfl

theorem comma_notMem_batchText : ',' ∉ batchText amounts := by
  intro h
  have h := of_mem_batchText hn h
  revert h
  decide

theorem isBlank_of_mem_batchText (h : c ∈ batchText amounts) : isBlank c = false := by
  rcases of_mem_batchText hn h with h | rfl | rfl
  · exact isBlank_of_isDigit h
  · rfl
  · rfl

theorem pieces_batchText (hne : amounts ≠ []) :
    pieces (batchText amounts) = amounts.map Decimal.text := by
  rw [pieces_eq_splitOn, batchText, List.splitOn_intercalate '-']
  · intro text ht hm
    obtain ⟨d, hd, rfl⟩ := List.mem_map.1 ht
    have h := isDigit_or_eq_of_mem_text (hn d hd) hm
    revert h
    decide
  · exact mt List.map_eq_nil_iff.1 hne

end

theorem forall₂_reads_iff {ps : List (List Char)} : List.Forall₂ Reads ps amounts ↔
    ps.map (fun piece => Decimal.read? (normalized piece)) = amounts.map some := by
  rw [← List.forall₂_eq_eq_eq, List.forall₂_map_left_iff, List.forall₂_map_right_iff]
  rfl

theorem isBlank_point (c : Char) : isBlank (point c) = isBlank c := by
  rw [point]
  split
  · next h =>
    rw [h]
    rfl
  · rfl

theorem not_reads_nil : ¬ Reads [] amount := by
  intro h
  cases h

section

variable (hn : ∀ d ∈ amounts, d.negative = false)
  (hs : Spelling (batchText amounts) word.toList)

include hn hs

theorem map_point_inner : (inner word).map point = batchText amounts :=
  hs.map_point (fun _ => isParenthesis_of_mem_batchText hn) (comma_notMem_batchText hn)

theorem isBlank_of_mem_inner (hc : c ∈ inner word) : isBlank c = false := by
  have hmem : point c ∈ batchText amounts := by
    rw [← map_point_inner hn hs]
    exact List.mem_map_of_mem hc
  rw [← isBlank_point]
  exact isBlank_of_mem_batchText hn hmem

theorem forall₂_reads_inner (hne : amounts ≠ []) :
    List.Forall₂ Reads (pieces (inner word)) amounts := by
  have hnormal : ∀ piece ∈ pieces (inner word), normalized piece = piece.map point := by
    intro piece hp
    apply normalized_of_unbroken
    intro c hc
    exact isBlank_of_mem_inner hn hs (of_mem_pieces hp hc).1
  have htexts : (pieces (inner word)).map (List.map point) = amounts.map Decimal.text := by
    rw [← pieces_map point_eq_minus_iff, map_point_inner hn hs, pieces_batchText hn hne]
  have hread : ∀ d ∈ amounts, Decimal.read? d.text = some d := by
    intro d hd
    have hself : d.readBack = d := Decimal.readBack_eq_self fun h => by
      rw [hn d hd] at h
      cases h
    rw [Decimal.read?_text, hself]
  rw [forall₂_reads_iff]
  calc (pieces (inner word)).map (fun piece => Decimal.read? (normalized piece))
      = (pieces (inner word)).map (fun piece => Decimal.read? (piece.map point)) :=
        List.map_congr_left fun piece hp => congrArg _ (hnormal piece hp)
    _ = ((pieces (inner word)).map (List.map point)).map Decimal.read? := by
        rw [List.map_map]
        rfl
    _ = amounts.map fun d => Decimal.read? d.text := by
        rw [htexts, List.map_map]
        rfl
    _ = amounts.map some := List.map_congr_left hread

theorem parse_of_spelling (hp : HasParenthesis word) (hne : amounts ≠ []) :
    parse word = .ok amounts := by
  have hreads := forall₂_reads_inner hn hs hne
  refine (parse_eq_ok_iff hp).2 ⟨?_, hreads⟩
  intro hblank
  cases hi : inner word with
  | nil =>
    -- nothing between the parentheses would be one piece without digits
    rw [hi] at hreads
    cases hreads with
    | cons h _ => exact not_reads_nil h
  | cons c cs =>
    have hc : c ∈ inner word := by
      rw [hi]
      exact List.mem_cons_self
    have hfalse := isBlank_of_mem_inner hn hs hc
    rw [hblank c hc] at hfalse
    cases hfalse

end

theorem count_inner (word : String) : (inner word).count '-' = word.toList.count '-' :=
  List.count_filter rfl

theorem minus_notMem_normalized (hp : piece ∈ pieces cs) : '-' ∉ normalized piece := by
  intro hm
  obtain ⟨c, hmem, he⟩ := List.mem_map.1 hm
  have hc : c = '-' := (point_eq_minus_iff c).1 he
  exact (of_mem_pieces hp (trim_subset piece hmem)).2 hc

theorem of_parse (hp : HasParenthesis word) (h : parse word = .ok amounts) :
    amounts.length = word.toList.count '-' + 1 ∧ ∀ d ∈ amounts, d.negative = false := by
  obtain ⟨-, hreads⟩ := (parse_eq_ok_iff hp).1 h
  refine ⟨?_, ?_⟩
  · rw [← hreads.length_eq, length_pieces, count_inner]
  · intro d hd
    have hd := List.mem_map_of_mem (f := some) hd
    rw [← forall₂_reads_iff.1 hreads] at hd
    obtain ⟨piece, hpiece, hread⟩ := List.mem_map.1 hd
    exact Decimal.negative_of_read? (minus_notMem_normalized hpiece) hread

/-- A word with a parenthesis is read as the amounts, none of them negative, that it spells. If it
is read, then as one amount more than it has minus signs, none of them negative; if it is refused,
then for its first piece that is no decimal, or as a whole where nothing but blanks is between the
parentheses. -/
theorem parse_batch (hp : HasParenthesis word) :
    (∀ amounts : List Decimal, amounts ≠ [] → (∀ d ∈ amounts, d.negative = false) →
      Spelling (batchText amounts) word.toList → parse word = .ok amounts) ∧
    (∀ amounts : List Decimal, parse word = .ok amounts →
      amounts.length = word.toList.count '-' + 1 ∧ ∀ d ∈ amounts, d.negative = false) ∧
    ∀ e : Failure, parse word = .error e ↔
      (IsBlank (inner word) ∧ e = .invalidAmount word) ∨
        (¬ IsBlank (inner word) ∧ ∃ before piece after,
          (inner word).splitOn '-' = before ++ piece :: after ∧
            (∀ p ∈ before, ∃ amount, Reads p amount) ∧ (∀ amount, ¬ Reads piece amount) ∧
            e = .invalidAmount (.ofList piece)) := by
  refine ⟨?_, fun _ => of_parse hp, ?_⟩
  · intro amounts hne hn hs
    exact parse_of_spelling hn hs hp hne
  · intro e
    rw [← pieces_eq_splitOn]
    exact parse_eq_error_iff hp

theorem parse_batch_two : HasParenthesis "1,25-(2.75" ∧
    parse "1,25-(2.75" =
      .ok [⟨false, 125, 2, by decide, by decide⟩, ⟨false, 275, 2, by decide, by decide⟩] := by
  refine ⟨by decide, ?_⟩
  apply (parse_batch (by decide)).1 _ (List.cons_ne_nil _ _) (by decide)
  exact .same '1' <| .comma <| .same '2' <| .same '5' <| .same '-' <| .parenthesis (.inl rfl) <|
    .same '2' <| .same '.' <| .same '7' <| .same '5' .nil

end Amount

end PersonalLedger
