import PersonalLedger.Message
import PersonalLedger.Proofs.Ledger.Effect
import PersonalLedger.Proofs.Text.Words

namespace PersonalLedger

open Text

/-- Whether two commands say the same: the texts behind `add` may differ in their blanks. -/
inductive Command.SameWords : Command → Command → Prop where
  | same (command : Command) : SameWords command command
  | add {body body' : String} (words : words body = words body') : SameWords (add body) (add body')

theorem Command.sameWords_parse {text text' : String} (h : words text = words text') :
    (parse text).SameWords (parse text') := by
  rcases words_cases text with ⟨ht, hw⟩ | hw
  · rcases words_cases text' with ⟨ht', -⟩ | hw'
    · rw [parse, parse, ht, ht']
      exact .same _
    · rw [← h, hw] at hw'
      cases hw'
  · rcases words_cases text' with ⟨-, hw'⟩ | hw'
    · rw [← h, hw] at hw'
      cases hw'
    · rw [hw, hw'] at h
      obtain ⟨hword, hbody⟩ := List.cons.inj h
      simp only [parse, hword, hbody]
      split
      · exact .add hbody
      · exact .add hbody
      all_goals exact .same _

theorem AddRequest.parse_of_words_eq {body body' : String} (h : words body = words body') :
    parse body = parse body' ∨
      ∃ detail detail', parse body = .error (.invalidFormat detail) ∧
        parse body' = .error (.invalidFormat detail') := by
  rw [parse, parse, ← h]
  split
  · exact .inl rfl
  · exact .inr ⟨_, _, rfl, rfl⟩

/-- Whether replies are the same to their reader: of what went wrong only the text for the user
counts. -/
structure Reply.ReadsLike (reply reply' : Reply) : Prop where
  kind : reply.kind = reply'.kind
  userError : reply.userError = reply'.userError
  outcome : ∀ o, reply.result = .ok o ↔ reply'.result = .ok o

theorem Reply.ReadsLike.refl (reply : Reply) : reply.ReadsLike reply := ⟨rfl, rfl, fun _ => .rfl⟩

theorem Reply.readsLike_invalidFormat (kind : CommandKind) (detail detail' : String) :
    ReadsLike ⟨kind, .error (.invalidFormat detail)⟩ ⟨kind, .error (.invalidFormat detail')⟩ where
  kind := rfl
  userError := rfl
  outcome := by
    intro o
    constructor
    · intro h
      cases h
    · intro h
      cases h

theorem Command.SameWords.run {command command' : Command} (h : command.SameWords command')
    (w : DedupWindow) (s : Store) (now : Moment) (user : Int) :
    (Ledger.run w s command now user).1 = (Ledger.run w s command' now user).1 ∧
      Reply.ReadsLike ⟨command.kind, (Ledger.run w s command now user).2⟩
        ⟨command'.kind, (Ledger.run w s command' now user).2⟩ := by
  cases h with
  | same => exact ⟨rfl, .refl _⟩
  | add hwords =>
    rw [Ledger.run, Ledger.run, kind, kind]
    rcases AddRequest.parse_of_words_eq hwords with hp | ⟨detail, detail', hp, hp'⟩
    · rw [Ledger.add, hp, ← Ledger.add]
      exact ⟨rfl, .refl _⟩
    · rw [Ledger.add_of_parse_error hp, Ledger.add_of_parse_error hp']
      exact ⟨rfl, Reply.readsLike_invalidFormat _ _ _⟩

theorem Ledger.dispatch_of_words_eq {text text' : String} (h : words text = words text')
    (w : DedupWindow) (s : Store) (now : Moment) (user : Int) :
    (dispatch w s text now user).1 = (dispatch w s text' now user).1 ∧
      (dispatch w s text now user).2.ReadsLike (dispatch w s text' now user).2 := by
  rw [dispatch_eq, dispatch_eq]
  dsimp only
  exact (Command.sameWords_parse h).run w s now user

namespace Message

def IsMark (c : Char) : Prop := c = '!' ∨ c = '/'

instance : DecidablePred IsMark := fun c => inferInstanceAs (Decidable (c = '!' ∨ c = '/'))

theorem unprefixed_cons {mark : Char} (h : IsMark mark) (cs : List Char) :
    unprefixed (mark :: cs) = cs := by
  rcases h with rfl | rfl
  · rfl
  · rfl

theorem unprefixed_eq_self {cs : List Char} (h : ∀ c ∈ cs.head?, ¬ IsMark c) :
    unprefixed cs = cs := by
  rw [unprefixed.eq_def]
  split
  · exact absurd (.inl rfl) (h _ rfl)
  · exact absurd (.inr rfl) (h _ rfl)
  · rfl

theorem unprefixed_suffix (cs : List Char) : unprefixed cs <:+ cs := by
  rw [unprefixed.eq_def]
  split
  · exact List.suffix_cons _ _
  · exact List.suffix_cons _ _
  · exact List.suffix_rfl

theorem of_prepare {raw text : String} (h : prepare raw = .ok text) :
    text.toList = trimStart (unprefixed (trim raw.toList)) ∧ text.toList ≠ [] ∧
      raw.length ≤ maxLength := by
  rw [prepare] at h
  split at h
  · cases h
  · next hne =>
    split at h
    · cases h
    · next hl =>
      cases h
      rw [String.toList_ofList]
      exact ⟨rfl, fun he => hne (List.isEmpty_iff.2 he), Nat.not_lt.1 hl⟩

theorem prepare_of_eq {raw raw' : String}
    (h : trimStart (unprefixed (trim raw.toList)) = trimStart (unprefixed (trim raw'.toList)))
    (hl : raw.length ≤ maxLength) (hl' : raw'.length ≤ maxLength) :
    prepare raw = prepare raw' := by
  simp only [prepare, h, if_neg (Nat.not_lt.2 hl), if_neg (Nat.not_lt.2 hl')]

/-- An accepted text is the end of a trimmed message, so that it ends without a blank. -/
theorem suffix_of_prepare {raw text : String} (h : prepare raw = .ok text) :
    text.toList <:+ trim raw.toList := by
  rw [(of_prepare h).1]
  exact (List.dropWhile_suffix isBlank).trans (unprefixed_suffix _)

theorem trim_of_prepare {raw text : String} (h : prepare raw = .ok text) :
    trim text.toList = text.toList := by
  have hstart : trimStart text.toList = text.toList := by
    rw [(of_prepare h).1, trimStart_trimStart]
  have hend : trimEnd text.toList = text.toList :=
    trimEnd_eq_self_of_suffix (suffix_of_prepare h) (trimEnd_trim _)
  rw [trim, hstart, hend]

theorem length_of_prepare {raw text : String} (h : prepare raw = .ok text) :
    text.length ≤ maxLength := by
  obtain ⟨-, -, hl⟩ := of_prepare h
  calc text.length
    _ ≤ (trim raw.toList).length := (suffix_of_prepare h).length_le
    _ ≤ raw.length := length_trim_le _
    _ ≤ maxLength := hl

section Marked

variable {raw : String} {mark : Char} {before after : List Char}

theorem trim_marked (hm : IsMark mark) (hb : IsBlank before) (cs : List Char) :
    trim (before ++ mark :: cs) = mark :: trimEnd cs := by
  have hc : isBlank mark = false := by
    rcases hm with rfl | rfl
    · rfl
    · rfl
  rw [trim_append hb, trim, trimStart_cons hc, trimEnd_cons hc]

theorem prepare_marked (hm : IsMark mark) (hb : IsBlank before) (ha : IsBlank after)
    (hraw : ∀ c ∈ (trim raw.toList).head?, ¬ IsMark c)
    (hl : (before ++ mark :: (after ++ raw.toList)).length ≤ maxLength) :
    prepare (String.ofList (before ++ mark :: (after ++ raw.toList))) = prepare raw := by
  apply prepare_of_eq
  · rw [String.toList_ofList, trim_marked hm hb, unprefixed_cons hm, trimStart_trimEnd,
      trim_append ha, unprefixed_eq_self hraw, trimStart_trim]
  · rw [String.length_ofList]
    exact hl
  · rw [List.length_append, List.length_cons, List.length_append, String.length_toList] at hl
    omega

end Marked

/-- Texts with the same words are answered in the same way. A mark before a message that has none
changes nothing, as long as the whole is not too long. What is accepted is a trimmed text, neither
empty nor too long. -/
theorem answer_words (w : DedupWindow) (s : Store) (now : Moment) (user : Int) :
    (∀ text text', words text = words text' →
        (Ledger.dispatch w s text now user).1 = (Ledger.dispatch w s text' now user).1 ∧
          (Ledger.dispatch w s text now user).2.ReadsLike
            (Ledger.dispatch w s text' now user).2) ∧
      (∀ raw mark before after, IsMark mark → IsBlank before → IsBlank after →
        (∀ c ∈ (trim raw.toList).head?, ¬ IsMark c) →
        (before ++ mark :: (after ++ raw.toList)).length ≤ maxLength →
        prepare (String.ofList (before ++ mark :: (after ++ raw.toList))) = prepare raw) ∧
      ∀ raw text, prepare raw = .ok text →
        text ≠ "" ∧ trim text.toList = text.toList ∧ text.length ≤ maxLength := by
  refine ⟨?_, ?_, ?_⟩
  · intro text text' h
    exact Ledger.dispatch_of_words_eq h w s now user
  · intro raw mark before after hm hb ha hraw hl
    exact prepare_marked hm hb ha hraw hl
  · intro raw text h
    refine ⟨?_, trim_of_prepare h, length_of_prepare h⟩
    rintro rfl
    exact (of_prepare h).2.1 rfl

/-- The blank in the notes is a no-break space, which separates words too. -/
theorem answer_words_lunch :
    let now : Moment := ⟨.ofSeconds 1742032800, .fixed 0⟩
    let reply := fun text => (Ledger.dispatch (.ofSeconds 1) (.empty "NZD") text now 1).2
    prepare " add G 5 late\u00a0lunch " = .ok "add G 5 late\u00a0lunch" ∧
      prepare " ! add G 5 late\u00a0lunch " = prepare " add G 5 late\u00a0lunch " ∧
      (reply "add G 5 late\u00a0lunch").ReadsLike (reply "add\tG 5  late lunch") ∧
      trim "add G 5 late\u00a0lunch".toList = "add G 5 late\u00a0lunch".toList := by
  intro now reply
  have hp : prepare " add G 5 late\u00a0lunch " = .ok "add G 5 late\u00a0lunch" := by
    decide +kernel
  obtain ⟨hwords, hmark, htext⟩ := answer_words (.ofSeconds 1) (.empty "NZD") now 1
  refine ⟨hp, ?_, ?_, (htext _ _ hp).2.1⟩
  · apply hmark " add G 5 late\u00a0lunch " '!' [' '] [] (.inl rfl)
    · decide
    · decide
    · have hfirst : (trim " add G 5 late\u00a0lunch ".toList).head? = some 'a' := by decide +kernel
      rw [hfirst]
      rintro c ⟨⟩
      decide
    · decide +kernel
  · exact (hwords _ _ (by decide +kernel)).2

end Message

end PersonalLedger
