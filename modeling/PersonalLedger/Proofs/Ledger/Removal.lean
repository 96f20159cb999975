import PersonalLedger.Proofs.Command.RemoveRequest
import PersonalLedger.Proofs.Ledger.Listing
import PersonalLedger.Proofs.Store.Ownership

namespace PersonalLedger

open RemoveRequest Store

namespace Store

variable {s : Store} {user : Int} {ids : List Int} {es : List Entry}

theorem mem_ids_named {id : Int} :
    id ∈ (s.named ids user).map (·.id) ↔ id ∈ ids ∧ id ∈ (s.rowsOf user).map (·.id) := by
  rw [named_eq_filter_rowsOf, List.mem_map, List.mem_map]
  constructor
  · rintro ⟨r, hr, rfl⟩
    obtain ⟨hr, hi⟩ := List.mem_filter.1 hr
    exact ⟨List.contains_iff_mem.1 hi, r, hr, rfl⟩
  · rintro ⟨hi, r, hr, rfl⟩
    exact ⟨r, List.mem_filter.2 ⟨hr, List.contains_iff_mem.2 hi⟩, rfl⟩

theorem exists_findByIds_eq_ok (hread : ∀ r ∈ s.rowsOf user, ∃ e, r.read = .ok e)
    (hl : ids.length < maxValues) : ∃ es, s.findByIds ids user = .ok es := by
  have hnamed : ∀ r ∈ s.named ids user, ∃ e, r.read = .ok e := by
    intro r hr
    rw [named_eq_filter_rowsOf] at hr
    exact hread r (List.mem_of_mem_filter hr)
  obtain ⟨es, hes⟩ := exists_mapM_eq_ok hnamed
  exact ⟨es, findByIds_eq_ok_iff.2 ⟨hl, hes⟩⟩

section Found

variable (h : s.findByIds ids user = .ok es)

include h

theorem mem_ids_found {id : Int} :
    id ∈ es.map (·.id) ↔ id ∈ ids ∧ id ∈ (s.rowsOf user).map (·.id) := by
  rw [ids_readAll (findByIds_eq_ok_iff.1 h).2, mem_ids_named]

theorem mem_found_iff {e : Entry} :
    e ∈ es ↔ ∃ r ∈ s.rowsOf user, r.id ∈ ids ∧ r.read = .ok e := by
  have hr := (findByIds_eq_ok_iff.1 h).2
  rw [named_eq_filter_rowsOf] at hr
  constructor
  · intro he
    obtain ⟨r, hm, hre⟩ := exists_mem_of_mapM_eq_ok hr he
    obtain ⟨hm, hi⟩ := List.mem_filter.1 hm
    exact ⟨r, hm, List.contains_iff_mem.1 hi, hre⟩
  · rintro ⟨r, hm, hi, hre⟩
    exact mem_of_mapM_eq_ok hr (List.mem_filter.2 ⟨hm, List.contains_iff_mem.2 hi⟩) hre

theorem found_sorted : es.Pairwise (·.id < ·.id) := by
  have hs := ids_readAll (findByIds_eq_ok_iff.1 h).2
  have hn : (s.named ids user).Pairwise (·.id < ·.id) := s.rising.sublist List.filter_sublist
  rw [← List.pairwise_map, hs]
  exact List.pairwise_map.2 hn

theorem delete_found :
    s.delete (es.map fun e => (e.id, e.user)) =
      s.filterRows fun r => ¬ (r.user = user ∧ r.id ∈ ids) := by
  have hkeys : ∀ r ∈ s.rows,
      (r.id, r.user) ∈ es.map (fun e => (e.id, e.user)) ↔ r.user = user ∧ r.id ∈ ids := by
    intro r hr
    constructor
    · intro hm
      obtain ⟨e, he, hp⟩ := List.mem_map.1 hm
      obtain ⟨hid, huser⟩ := Prod.mk.inj hp
      have hids := (mem_ids_found h).1 (List.mem_map_of_mem he)
      exact ⟨huser ▸ (exists_row_of_mem_found h he).1, hid ▸ hids.1⟩
    · rintro ⟨hu, hi⟩
      have hm : r ∈ s.named ids user := mem_named.2 ⟨hr, hu, hi⟩
      obtain ⟨e, he⟩ := exists_of_mapM_eq_ok (findByIds_eq_ok_iff.1 h).2 hm
      have hfound := mem_of_mapM_eq_ok (findByIds_eq_ok_iff.1 h).2 hm he
      refine List.mem_map.2 ⟨e, hfound, ?_⟩
      rw [Row.id_of_read_eq_ok he, Row.user_of_read_eq_ok he]
  rw [delete]
  apply filterRows_congr
  intro r hr
  rw [List.contains_eq_mem, decide_not, decide_eq_decide.2 (hkeys r hr)]

end Found

end Store

namespace Ledger

variable {s : Store} {user : Int} {words : List String} {ids : List Int} {es : List Entry}

theorem remove_of_parse_error {e : Failure} (h : RemoveRequest.parse words = .error e) :
    remove s words user = (s, .error e) := by
  rw [remove, h]

theorem remove_of_missing (hp : RemoveRequest.parse words = .ok ids)
    (hf : s.findByIds ids user = .ok es) (hm : ids.filter (· ∉ es.map (·.id)) ≠ []) :
    remove s words user = (s, .error (.notFound (ids.filter (· ∉ es.map (·.id))))) := by
  have hmissing : (ids.filter fun id => !es.any (·.id == id)) =
      ids.filter (· ∉ es.map (·.id)) := by
    apply List.filter_congr
    intro id _
    have hany : es.any (·.id == id) = true ↔ id ∈ es.map (·.id) := by
      simp only [List.any_eq_true, beq_iff_eq, List.mem_map]
    rw [Bool.eq_iff_iff, Bool.not_eq_true', Bool.eq_false_iff, decide_eq_true_eq, Ne, hany]
  rw [remove, hp]
  simp only [hf, hmissing, List.isEmpty_eq_false_iff.2 hm, Bool.false_eq_true, ↓reduceIte]

section Readable

variable (hread : ∀ r ∈ s.rowsOf user, ∃ e, r.read = .ok e)
  (hp : RemoveRequest.parse words = .ok ids) (hl : ids.length < maxValues)

include hread hp hl

theorem remove_foreign (hm : ids.filter (· ∉ (s.rowsOf user).map (·.id)) ≠ []) :
    remove s words user =
      (s, .error (.notFound (ids.filter (· ∉ (s.rowsOf user).map (·.id))))) := by
  obtain ⟨es, hf⟩ := exists_findByIds_eq_ok hread hl
  have hsame : ids.filter (· ∉ es.map (·.id)) = ids.filter (· ∉ (s.rowsOf user).map (·.id)) := by
    apply List.filter_congr
    intro id hid
    rw [decide_eq_decide, mem_ids_found hf, and_iff_right hid]
  rw [← hsame] at hm ⊢
  exact remove_of_missing hp hf hm

theorem remove_own (hm : ids.filter (· ∉ (s.rowsOf user).map (·.id)) = []) :
    ∃ es, s.findByIds ids user = .ok es ∧
      remove s words user =
        (s.filterRows fun r => ¬ (r.user = user ∧ r.id ∈ ids), .ok (.removed es)) := by
  obtain ⟨es, hf⟩ := exists_findByIds_eq_ok hread hl
  refine ⟨es, hf, ?_⟩
  rw [← delete_found hf]
  apply remove_of_found hp hf
  intro id hid
  rw [mem_ids_found hf, and_iff_right hid]
  have hnot := List.filter_eq_nil_iff.1 hm id hid
  rw [decide_eq_true_eq, not_not] at hnot
  exact hnot

end Readable

end Ledger

namespace Submission

variable {w : DedupWindow} {s : Store} {m : Submission}

/-- An `rm` by a sender whose rows can all be read. Without a word, or with one that names no id, it
is refused. If the sender has no entry under some of the ids named, it fails with these, each once
and in the order of first mention, and nothing is removed. Else it reports the entries named, each
once and in the order of their ids, and just their rows are gone. How often an id is named and how it
is spelled makes no difference. -/
theorem answer_remove (hread : ∀ r ∈ s.rowsOf m.user, ∃ e, r.read = .ok e)
    {words : List String} (hc : Command.parse m.text = .remove words) :
    ((words = [] ∨ ∃ word ∈ words, ∀ id, ¬ Names word id) →
        ∃ detail, m.answer w s = (s, ⟨.remove, .error (.invalidFormat detail)⟩)) ∧
      ∀ ids, words ≠ [] → List.Forall₂ Names words ids →
        (ids.eraseDups.length < maxValues →
          let missing := ids.eraseDups.filter (· ∉ (s.rowsOf m.user).map (·.id))
          (missing ≠ [] → m.answer w s = (s, ⟨.remove, .error (.notFound missing)⟩)) ∧
          (missing = [] → ∃ es,
            m.answer w s =
                (s.filterRows fun r => ¬ (r.user = m.user ∧ r.id ∈ ids),
                  ⟨.remove, .ok (.removed es)⟩) ∧
              es.Pairwise (·.id < ·.id) ∧
              ∀ e, e ∈ es ↔ ∃ r ∈ s.rowsOf m.user, r.id ∈ ids ∧ r.read = .ok e)) ∧
        ∀ (m' : Submission) (words' : List String) (ids' : List Int), m'.user = m.user →
          Command.parse m'.text = .remove words' → List.Forall₂ Names words' ids' →
            ids'.eraseDups = ids.eraseDups → m'.answer w s = m.answer w s := by
  rw [answer_of_remove hc]
  constructor
  · intro h
    obtain ⟨detail, hp⟩ := parse_eq_error h
    exact ⟨detail, by rw [Ledger.remove_of_parse_error hp]⟩
  · intro ids hne hnames
    have hp := parse_of_names hne hnames
    refine ⟨?_, ?_⟩
    · intro hl missing
      constructor
      · intro hm
        rw [Ledger.remove_foreign hread hp hl hm]
      · intro hm
        obtain ⟨es, hf, he⟩ := Ledger.remove_own hread hp hl hm
        simp only [List.mem_eraseDups] at he
        refine ⟨es, by rw [he], found_sorted hf, ?_⟩
        intro e
        rw [mem_found_iff hf]
        simp only [List.mem_eraseDups]
    · intro m' words' ids' hu hc' hnames' hids
      have hp' := parse_eq_of_names hne hnames hnames' hids
      rw [answer_of_remove hc', hu, Ledger.remove, Ledger.remove, hp']

open Operation in
/-- The sender asks for an entry of someone else, whose row cannot be read, and for one that nobody
has; its own entry is named in two spellings. -/
theorem answer_remove_foreign :
    let s := run (.empty "NZD") [getOrCreateUser 1, getOrCreateUser 2,
      create [purchase 1 1742032800 400 "a", purchase 2 1742032800 200 "b"],
      overwrite 2 .amount "much"]
    let m := ask "rm 9 +1 2 -0 001 2" 1742032860
    let words := ["9", "+1", "2", "-0", "001", "2"]
    let w : DedupWindow := .ofSeconds 60
    ((∀ r ∈ s.rowsOf m.user, ∃ e, r.read = .ok e) ∧
        Command.parse m.text = .remove words ∧ List.Forall₂ Names words [9, 1, 2, 0, 1, 2]) ∧
      m.answer w s = (s, ⟨.remove, .error (.notFound [9, 2, 0])⟩) := by
  intro s m words w
  have hrows : s.rowsOf m.user = [((purchase 1 1742032800 400 "a").withId 1).toRow] := by
    decide +kernel
  have hread : ∀ r ∈ s.rowsOf m.user, ∃ e, r.read = .ok e := by
    intro r hr
    rw [hrows, List.mem_singleton] at hr
    rw [hr]
    exact ⟨_, Entry.read_toRow (by decide)⟩
  have hc : Command.parse m.text = .remove words := by decide +kernel
  have hnames : List.Forall₂ Names words [9, 1, 2, 0, 1, 2] :=
    mapM_readId_eq_ok_iff.1 (by decide +kernel)
  have hm : [9, 1, 2, 0, 1, 2].eraseDups.filter (· ∉ (s.rowsOf m.user).map (·.id)) =
      [9, 2, 0] := by
    rw [hrows]
    decide
  have h := (((answer_remove (w := w) hread hc).2 _ (by decide) hnames).1 (by decide)).1
  rw [hm] at h
  exact ⟨⟨hread, hc, hnames⟩, h (by decide)⟩

end Submission

end PersonalLedger
