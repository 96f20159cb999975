import PersonalLedger.Command.RemoveRequest
import PersonalLedger.Proofs.Text.Numeral
import PersonalLedger.Proofs.Traverse

namespace PersonalLedger.RemoveRequest

open Text

variable {word : String} {words : List String} {ids : List Int} {id : Int}

/-- Whether a word names an id: it is a numeral of a signed 64-bit integer. -/
structure Names (word : String) (id : Int) : Prop where
  spells : Spells word.toList id
  least : -2 ^ 63 ≤ id
  most : id < 2 ^ 63

theorem readId_eq_ok_iff : readId word = .ok id ↔ Names word id := by
  have hi : integer? word.toList = some id ↔ Names word id := by
    rw [integer?_eq_some_iff]
    exact ⟨fun h => ⟨h.1, h.2.1, h.2.2⟩, fun h => ⟨h.spells, h.least, h.most⟩⟩
  rw [← hi, readId]
  cases integer? word.toList with
  | none => exact ⟨fun h => (nomatch h), fun h => (nomatch h)⟩
  | some n => rw [Except.ok.injEq, Option.some_inj]

theorem readId_eq_error {e : Failure} (h : readId word = .error e) :
    ∃ detail, e = .invalidFormat detail := by
  rw [readId] at h
  split at h
  · cases h
  · cases h
    exact ⟨_, rfl⟩

theorem mapM_readId_eq_ok_iff : words.mapM readId = .ok ids ↔ List.Forall₂ Names words ids := by
  simp only [mapM_eq_ok_iff, readId_eq_ok_iff]

theorem firstMentions_filter (p : Int → Bool) (ids : List Int) :
    firstMentions (ids.filter p) = (firstMentions ids).filter p := by
  induction ids with
  | nil => rfl
  | cons first ids ih =>
    rw [firstMentions, List.filter_cons, List.filter_cons]
    split
    · rw [firstMentions, ih, List.filter_comm]
    · next hp =>
      rw [ih, List.filter_filter]
      apply List.filter_congr
      intro id _
      by_cases hid : id = first
      · rw [hid, Bool.eq_false_iff.2 hp, Bool.false_and]
      · rw [bne_iff_ne.2 hid, Bool.and_true]

theorem firstMentions_eq_eraseDups (ids : List Int) : firstMentions ids = ids.eraseDups := by
  -- on the length: both leave the first id and go on with a part of the others
  induction hn : ids.length using Nat.strongRecOn generalizing ids with
  | ind n ih =>
    cases ids with
    | nil => rw [firstMentions, List.eraseDups_nil]
    | cons first ids =>
      have hlt : (ids.filter (· != first)).length < n := by
        have := List.length_filter_le (· != first) ids
        rw [List.length_cons] at hn
        omega
      rw [firstMentions, ← firstMentions_filter, ih _ hlt _ rfl, List.eraseDups_cons]
      rfl

theorem mem_firstMentions : id ∈ firstMentions ids ↔ id ∈ ids := by
  rw [firstMentions_eq_eraseDups, List.mem_eraseDups]

theorem firstMentions_nodup (ids : List Int) : (firstMentions ids).Nodup := by
  induction ids with
  | nil => exact .nil
  | cons first ids ih =>
    rw [firstMentions, List.nodup_cons]
    refine ⟨?_, ih.filter _⟩
    intro h
    have hne := (List.mem_filter.1 h).2
    rw [bne_self_eq_false] at hne
    cases hne

theorem parse_of_names (hne : words ≠ []) (h : List.Forall₂ Names words ids) :
    parse words = .ok ids.eraseDups := by
  rw [parse, List.isEmpty_eq_false_iff.2 hne, if_neg Bool.false_ne_true,
    mapM_readId_eq_ok_iff.2 h, ← firstMentions_eq_eraseDups]
  rfl

theorem parse_eq_of_names {others : List String} {ids' : List Int} (hne : words ≠ [])
    (h : List.Forall₂ Names words ids) (h' : List.Forall₂ Names others ids')
    (he : ids'.eraseDups = ids.eraseDups) : parse others = parse words := by
  have hne' : others ≠ [] := by
    rintro rfl
    cases h'
    cases h with
    | nil => exact hne rfl
    | cons =>
      rw [List.eraseDups_cons] at he
      cases he
  rw [parse_of_names hne h, parse_of_names hne' h', he]

theorem parse_eq_error (h : words = [] ∨ ∃ word ∈ words, ∀ id, ¬ Names word id) :
    ∃ detail, parse words = .error (.invalidFormat detail) := by
  by_cases hne : words = []
  · rw [hne]
    exact ⟨_, rfl⟩
  · obtain ⟨word, hw, hn⟩ := h.resolve_left hne
    cases hr : words.mapM readId with
    | ok ids =>
      obtain ⟨id, hid⟩ := exists_of_mapM_eq_ok hr hw
      exact absurd (readId_eq_ok_iff.1 hid) (hn id)
    | error e =>
      obtain ⟨first, -, he⟩ := exists_mem_of_mapM_eq_error hr
      obtain ⟨detail, rfl⟩ := readId_eq_error he
      refine ⟨detail, ?_⟩
      rw [parse, List.isEmpty_eq_false_iff.2 hne, if_neg Bool.false_ne_true, hr]
      rfl

/-- A request for ids, however often it names them, is one for as many ids as there are. -/
theorem parse_of_mem_iff {words : List String} {ids all : List Int}
    (hr : words.mapM readId = .ok ids) (hn : all.Nodup) (hne : all ≠ [])
    (h : ∀ id, id ∈ ids ↔ id ∈ all) :
    ∃ asked, parse words = .ok asked ∧ asked.length = all.length ∧ ∀ id, id ∈ asked ↔ id ∈ all := by
  have hmem : ∀ id, id ∈ firstMentions ids ↔ id ∈ all := by
    intro id
    rw [mem_firstMentions, h]
  have hw : words.isEmpty = false := by
    cases words with
    | nil =>
      cases hr
      exact absurd (List.eq_nil_iff_forall_not_mem.2 fun id hm => List.not_mem_nil ((h id).2 hm)) hne
    | cons => rfl
  refine ⟨firstMentions ids, ?_, ?_, hmem⟩
  · rw [parse, hw, if_neg Bool.false_ne_true, hr]
    rfl
  · apply List.Perm.length_eq
    exact (List.perm_ext_iff_of_nodup (firstMentions_nodup ids) hn).2 hmem

end PersonalLedger.RemoveRequest
