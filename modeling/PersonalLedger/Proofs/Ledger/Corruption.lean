import PersonalLedger.Proofs.Ledger.Repetition
import PersonalLedger.Proofs.Ledger.Standing

namespace PersonalLedger

open Text

/-- Whether what comes out is no failure of the store. -/
def Storeless {α : Type} (result : Except Failure α) : Prop := ∀ e, result ≠ .error (.storage e)

namespace Storeless

variable {α β : Type} {result : Except Failure α}

theorem ok (a : α) : Storeless (.ok a) := by
  intro e h
  cases h

theorem map (h : Storeless result) (f : α → β) : Storeless (result.map f) := by
  intro e he
  cases result with
  | error f =>
    cases he
    exact h e rfl
  | ok a => cases he

theorem bind (h : Storeless result) {f : α → Except Failure β} (hf : ∀ a, Storeless (f a)) :
    Storeless (result >>= f) := by
  intro e he
  cases result with
  | error f =>
    cases he
    exact h e rfl
  | ok a => exact hf a e he

theorem mapM {f : α → Except Failure β} (hf : ∀ a, Storeless (f a)) (items : List α) :
    Storeless (items.mapM f) := by
  intro e he
  obtain ⟨a, -, ha⟩ := exists_mem_of_mapM_eq_error he
  exact hf a e ha

theorem foldlM {f : β → α → Except Failure β} (hf : ∀ b a, Storeless (f b a)) (items : List α)
    (b : β) : Storeless (items.foldlM f b) := by
  induction items generalizing b with
  | nil => exact ok b
  | cons a items ih =>
    rw [List.foldlM_cons]
    exact (hf b a).bind ih

end Storeless

theorem Amount.storeless_one (cs : List Char) : Storeless (one cs) := by
  intro e h
  rw [one] at h
  split at h
  · cases h
  · cases h

theorem Amount.storeless_parse (word : String) : Storeless (parse word) := by
  rw [parse]
  simp only
  split
  · split
    · intro e h
      cases h
    · exact .mapM storeless_one _
  · exact (storeless_one _).map _

theorem AddRequest.storeless_notesAndCurrency (extra : List String) :
    Storeless (notesAndCurrency extra) := by
  intro e h
  rw [notesAndCurrency] at h
  split at h
  · cases h
  · cases h
  · cases h
  · cases h

theorem AddRequest.storeless_parse (body : String) : Storeless (parse body) := by
  rw [parse]
  split
  · next code amounts extra _ =>
    cases Registry.category? code with
    | none =>
      intro e h
      cases h
    | some category =>
      apply (Amount.storeless_parse amounts).bind
      intro values
      apply (storeless_notesAndCurrency extra).bind
      intro p
      exact .ok _
  · intro e h
    cases h

theorem RemoveRequest.storeless_parse (words : List String) : Storeless (parse words) := by
  have hread : ∀ word, Storeless (readId word) := by
    intro word e h
    rw [readId] at h
    split at h
    · cases h
    · cases h
  rw [parse]
  split
  · intro e h
    cases h
  · exact (Storeless.mapM hread words).map _

theorem Listing.storeless_parse (now : Moment) (words : List String) :
    Storeless (parse now words) := by
  rw [parse]
  apply Storeless.map
  apply Storeless.mapM
  intro word e h
  split at h
  · cases h
  · cases h

theorem ConfigRequest.storeless_parse (words : List String) : Storeless (parse words) := by
  intro e h
  rw [parse] at h
  split at h
  · cases h
  · cases h
  · cases h
  · cases h

theorem Ledger.storeless_totals (l : Listing) (es : List Entry) : Storeless (totals l es) := by
  rw [totals]
  split
  · apply Storeless.map
    apply Storeless.foldlM
    intro groups entry e h
    split at h
    · cases h
    · cases h
  · exact .ok none

namespace Ledger

variable {w : DedupWindow} {s : Store} {user : Int} {detail : String}

theorem exists_of_checkNew_eq_error {ds : List Draft} {e : StoreError}
    (h : checkNew s user ds = .error (.storage e)) :
    ∃ r ∈ s.rows, r.user = user ∧ r.read = .error e := by
  induction ds with
  | nil => cases h
  | cons d ds ih =>
    rw [checkNew] at h
    cases hf : s.findByHash d.hash user with
    | error e' =>
      rw [hf] at h
      cases h
      obtain ⟨r, hr, he⟩ := Store.exists_of_findByHash_eq_error hf
      obtain ⟨hm, -, hu⟩ := Store.mem_hashed.1 hr
      exact ⟨r, hm, hu, he⟩
    | ok found =>
      rw [hf] at h
      cases found with
      | none => exact ih h
      | some e' => cases h

theorem record_ne_corrupt (s : Store) (ds : List Draft) (detail : String) :
    (record s ds).2 ≠ .error (.storage (.corrupt detail)) := by
  intro h
  rw [record, Store.create] at h
  cases hc : s.createFrom ds with
  | ok p =>
    rw [hc] at h
    cases h
  | error e =>
    rw [hc] at h
    rcases Store.createFrom_error hc with rfl | rfl
    · cases h
    · cases h

theorem exists_of_add_eq_corrupt {body : String} {time : Instant}
    (h : (add w s body time user).2 = .error (.storage (.corrupt detail))) :
    ∃ r ∈ s.rows, r.user = user ∧ r.read = .error (.corrupt detail) := by
  cases hp : AddRequest.parse body with
  | error e =>
    rw [add_of_parse_error hp] at h
    cases h
    exact absurd hp (AddRequest.storeless_parse body _)
  | ok request =>
    rw [add_of_parse hp] at h
    cases hc : checkNew (s.getOrCreateUser user).1 user
        (drafts w request (s.getOrCreateUser user).2.currency time user) with
    | error e =>
      rw [hc] at h
      cases h
      have hr := exists_of_checkNew_eq_error hc
      rw [Store.rows_getOrCreateUser] at hr
      exact hr
    | ok =>
      rw [hc] at h
      exact absurd h (record_ne_corrupt _ _ detail)

theorem exists_of_remove_eq_corrupt {words : List String}
    (h : (remove s words user).2 = .error (.storage (.corrupt detail))) :
    ∃ ids, RemoveRequest.parse words = .ok ids ∧
      ∃ r ∈ s.named ids user, r.read = .error (.corrupt detail) := by
  rw [remove] at h
  cases hp : RemoveRequest.parse words with
  | error e =>
    rw [hp] at h
    cases h
    exact absurd hp (RemoveRequest.storeless_parse words _)
  | ok ids =>
    refine ⟨ids, rfl, ?_⟩
    cases hf : s.findByIds ids user with
    | error e =>
      simp only [hp, hf] at h
      cases h
      exact Store.exists_of_findByIds_eq_corrupt hf
    | ok es =>
      simp only [hp, hf] at h
      split at h
      · cases h
      · cases h

theorem remove_eq_corrupt {words : List String} {ids : List Int}
    (hp : RemoveRequest.parse words = .ok ids) (hl : ids.length < Store.maxValues) {r : Row}
    (hr : r ∈ s.named ids user) (h : ∀ e, r.read ≠ .ok e) :
    ∃ detail, remove s words user = (s, .error (.storage (.corrupt detail))) := by
  obtain ⟨detail, hf⟩ := Store.findByIds_eq_corrupt hl hr h
  refine ⟨detail, ?_⟩
  rw [remove, hp]
  simp only [hf]

theorem exists_of_list_eq_corrupt {words : List String} {now : Moment}
    (h : list s words now user = .error (.storage (.corrupt detail))) :
    ∃ r ∈ s.rows, r.user = user ∧ r.read = .error (.corrupt detail) := by
  cases hl : Listing.parse now words with
  | error e =>
    rw [list_of_parse_error hl] at h
    cases h
    exact absurd hl (Listing.storeless_parse now words _)
  | ok l =>
    cases hq : s.query ⟨user, l.category, l.currency, l.window⟩ with
    | error e =>
      rw [list_of_query_error hl hq] at h
      cases h
      exact Store.exists_of_query_eq_error hq
    | ok es =>
      rw [list_of_query hl hq] at h
      exact absurd h ((storeless_totals l es).map _ _)

theorem storeless_config (s : Store) (words : List String) (user : Int) :
    Storeless (config s words user).2 := by
  intro e h
  rw [config] at h
  split at h
  · next e' hp =>
    cases h
    exact ConfigRequest.storeless_parse words _ hp
  · cases h
  · split at h
    · cases h
    · cases h

end Ledger

def Reply.TellsCorrupt (reply : Reply) : Prop :=
  ∃ detail, reply.result = .error (.storage (.corrupt detail))

namespace Submission

variable {w : DedupWindow} {s : Store} {m : Submission}

theorem exists_of_tellsCorrupt (h : (m.answer w s).2.TellsCorrupt) :
    ∃ r ∈ s.rows, r.user = m.user ∧ ∀ e, r.read ≠ .ok e := by
  obtain ⟨detail, h⟩ := h
  have hrow : ∃ r ∈ s.rows, r.user = m.user ∧ r.read = .error (.corrupt detail) := by
    rw [answer, Ledger.dispatch] at h
    cases hc : Command.parse m.text with
    | add body =>
      rw [hc] at h
      exact Ledger.exists_of_add_eq_corrupt h
    | remove words =>
      rw [hc] at h
      obtain ⟨ids, -, r, hr, he⟩ := Ledger.exists_of_remove_eq_corrupt h
      obtain ⟨hm, hu, -⟩ := Store.mem_named.1 hr
      exact ⟨r, hm, hu, he⟩
    | list words =>
      rw [hc] at h
      exact Ledger.exists_of_list_eq_corrupt h
    | help topic =>
      rw [hc] at h
      cases h
    | config words =>
      rw [hc] at h
      exact absurd h (Ledger.storeless_config s words m.user _)
    | unknown word =>
      rw [hc] at h
      cases h
  obtain ⟨r, hm, hu, he⟩ := hrow
  exact ⟨r, hm, hu, Row.read_ne_ok he⟩

theorem tellsCorrupt_of_remove_iff {words : List String}
    (hc : Command.parse m.text = .remove words) {ids : List Int}
    (hp : RemoveRequest.parse words = .ok ids) (hl : ids.length < Store.maxValues) :
    (m.answer w s).2.TellsCorrupt ↔
      ∃ r ∈ s.rows, r.user = m.user ∧ r.id ∈ ids ∧ ∀ e, r.read ≠ .ok e := by
  rw [answer_of_remove hc]
  constructor
  · rintro ⟨detail, h⟩
    obtain ⟨ids', hp', r, hr, he⟩ := Ledger.exists_of_remove_eq_corrupt h
    rw [hp] at hp'
    cases hp'
    obtain ⟨hm, hu, hi⟩ := Store.mem_named.1 hr
    exact ⟨r, hm, hu, hi, Row.read_ne_ok he⟩
  · rintro ⟨r, hm, hu, hi, h⟩
    obtain ⟨detail, hd⟩ := Ledger.remove_eq_corrupt hp hl (Store.mem_named.2 ⟨hm, hu, hi⟩) h
    exact ⟨detail, congrArg Prod.snd hd⟩

end Submission

theorem Entry.read_toRow_iff {e : Entry} : (∃ e', e.toRow.read = .ok e') ↔ e.time.IsPlain := by
  constructor
  · rintro ⟨e', h⟩
    exact isPlain_of_read_toRow h
  · intro h
    exact ⟨e.readBack, read_toRow h⟩

namespace Journal

variable {w : DedupWindow} {defaultCurrency : String} {ms : List Submission}

theorem exists_submission_of_mem_outstanding {e : Entry}
    (h : e ∈ outstanding (run w defaultCurrency ms).log) :
    ∃ m ∈ ms, m.user = e.user ∧ m.now.instant = e.time := by
  obtain ⟨i, hr⟩ := exists_reported_of_mem_outstanding h
  refine forall_reported w defaultCurrency
    (P := fun _ e => ∃ m ∈ ms, m.user = e.user ∧ m.now.instant = e.time) ?_ i e hr
  intro s m hm i e he
  obtain ⟨hu, ht⟩ := (effect_answer w s m).of_mem_added (List.mem_of_getElem? he)
  exact ⟨m, hm, hu.symm, ht.symm⟩

/-- After any submissions, exactly the rows whose times are of the years 0 to 9999 can be read. The
reply to the next submission tells of a corrupt row only if its sender has sent one at another time
before, which has stored an entry that is still there. An `rm` does so exactly if it names such an
entry of its sender. -/
theorem corrupt_run (w : DedupWindow) (defaultCurrency : String) (ms : List Submission)
    (m : Submission) :
    let j := run w defaultCurrency ms
    let reply := (m.answer w j.store).2
    (∀ r ∈ j.store.rows, ∃ e ∈ outstanding j.log, r = e.toRow ∧
        ((∃ e', r.read = .ok e') ↔ e.time.IsPlain)) ∧
      (reply.TellsCorrupt → ∃ e ∈ outstanding j.log, e.user = m.user ∧ ¬ e.time.IsPlain ∧
        ∃ earlier ∈ ms, earlier.user = m.user ∧ earlier.now.instant = e.time) ∧
      ∀ words ids, Command.parse m.text = .remove words → RemoveRequest.parse words = .ok ids →
        ids.length < Store.maxValues →
          (reply.TellsCorrupt ↔
            ∃ e ∈ outstanding j.log, e.user = m.user ∧ e.id ∈ ids ∧ ¬ e.time.IsPlain) := by
  intro j reply
  have hrows : j.store.rows = (outstanding j.log).map Entry.toRow :=
    (balanced_run w defaultCurrency ms).rows
  have hread : ∀ e : Entry, (∀ e', e.toRow.read ≠ .ok e') ↔ ¬ e.time.IsPlain := by
    intro e
    rw [← Entry.read_toRow_iff, not_exists]
  refine ⟨?_, ?_, ?_⟩
  · intro r hr
    rw [hrows] at hr
    obtain ⟨e, he, rfl⟩ := List.mem_map.1 hr
    exact ⟨e, he, rfl, Entry.read_toRow_iff⟩
  · intro h
    obtain ⟨r, hr, hu, hne⟩ := Submission.exists_of_tellsCorrupt h
    rw [hrows] at hr
    obtain ⟨e, he, rfl⟩ := List.mem_map.1 hr
    obtain ⟨earlier, hm, hu', ht⟩ := exists_submission_of_mem_outstanding he
    exact ⟨e, he, hu, (hread e).1 hne, earlier, hm, hu'.trans hu, ht⟩
  · intro words ids hc hp hl
    rw [Submission.tellsCorrupt_of_remove_iff hc hp hl, hrows]
    constructor
    · rintro ⟨r, hr, hu, hi, hne⟩
      obtain ⟨e, he, rfl⟩ := List.mem_map.1 hr
      exact ⟨e, he, hu, hi, (hread e).1 hne⟩
    · rintro ⟨e, he, hu, hi, hp⟩
      exact ⟨e.toRow, List.mem_map_of_mem he, hu, hi, (hread e).2 hp⟩

/-- A text with an offset that is read as a time of year 10000 in UTC. -/
theorem corrupt_after_add :
    ∃ now : Moment, Timestamp.moment? "9999-12-31T23:59:59-01:00" = some now ∧
      ((⟨1, "rm 1", now⟩ : Submission).answer (.ofSeconds 1)
        (run (.ofSeconds 1) "NZD" [⟨1, "add G 1", now⟩]).store).2.result =
          .error (.storage (.corrupt
            "entry 1: invalid timestamp \"+10000-01-01T00:59:59.000000Z\"")) := by
  refine ⟨⟨.ofSeconds 253402304399, .fixed (-3600)⟩, ?_, ?_⟩
  · decide +kernel
  · decide +kernel

end Journal

end PersonalLedger
