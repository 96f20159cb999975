import PersonalLedger.Proofs.Ledger.Journal
import PersonalLedger.Proofs.Ledger.Recording
import PersonalLedger.Proofs.Time.RoundTrip

namespace PersonalLedger

open Fingerprint Ledger

namespace Store

variable {s : Store}

/-- Whether every user has a supported currency, and a new one would. -/
structure Supported (s : Store) : Prop where
  default : Registry.IsCode s.defaultCurrency
  users : ∀ u ∈ s.users, Registry.IsCode u.currency

theorem Supported.isCode_getOrCreateUser (h : s.Supported) (user : Int) :
    Registry.IsCode (s.getOrCreateUser user).2.currency := by
  rw [getOrCreateUser]
  cases hu : s.user? user with
  | none => exact h.default
  | some u => exact h.users u (List.mem_of_find?_eq_some hu)

theorem Supported.getOrCreateUser (h : s.Supported) (user : Int) :
    (s.getOrCreateUser user).1.Supported := by
  rw [getOrCreateUser_fst]
  split
  · exact h
  · refine ⟨h.default, fun u hu => ?_⟩
    rcases List.mem_append.1 hu with hu | hu
    · exact h.users u hu
    · rw [List.mem_singleton.1 hu]
      exact h.default

theorem Supported.updateUser (h : s.Supported) {u : User} (hu : Registry.IsCode u.currency) :
    (s.updateUser u).Supported := by
  rw [Store.updateUser]
  split
  · refine ⟨h.default, fun v hv => ?_⟩
    obtain ⟨v', hv', rfl⟩ := List.mem_map.1 hv
    split
    · exact hu
    · exact h.users v' hv'
  · refine ⟨h.default, fun v hv => ?_⟩
    rcases List.mem_append.1 hv with hv | hv
    · exact h.users v hv
    · rw [List.mem_singleton.1 hv]
      exact hu

end Store

theorem Effect.supported {w : DedupWindow} {s t : Store} {m : Submission} {reply : Reply}
    (h : Effect w s m t reply) (hs : s.Supported) : t.Supported := by
  cases h with
  | kept => exact hs
  | met => exact hs.getOrCreateUser m.user
  | preferred supported =>
    exact (hs.getOrCreateUser m.user).updateUser ⟨_, supported, rfl⟩
  | recorded =>
    have hu := hs.getOrCreateUser m.user
    exact ⟨hu.default, hu.users⟩
  | removed => exact ⟨hs.default, hs.users⟩

def Submission.digested (w : DedupWindow) (s : Store) (m : Submission) : List Fields :=
  match Command.parse m.text with
  | .add body =>
    match AddRequest.parse body with
    | .ok request => batchFields (m.drafts w s request)
    | .error _ => []
  | _ => []

/-- Whether no two different texts among the digested ones have the same fingerprint. -/
def Fingerprint.CollisionFree (w : DedupWindow) (fs : List Fields) : Prop :=
  ∀ f ∈ fs, ∀ g ∈ fs, hash w f = hash w g → f.bytes w = g.bytes w

/-- Whether fields can be told apart by their text and their time can be read from a row. -/
structure Fingerprint.Fields.IsPlain (f : Fields) : Prop where
  separable : f.Separable
  time : f.time.IsPlain

section Digested

variable {w : DedupWindow} {s t : Store} {m : Submission} {reply : Reply} {body : String}
  {request : AddRequest} {f : Fields}

theorem Fingerprint.CollisionFree.hash_eq_iff {fs : List Fields} (h : CollisionFree w fs)
    (hp : ∀ f ∈ fs, f.IsPlain) {g : Fields} (hf : f ∈ fs) (hg : g ∈ fs) :
    hash w f = hash w g ↔ f.Repeats w g := by
  have hb := bytes_eq_iff_repeats (w := w) (hp f hf).separable (hp g hg).separable
  rw [← hb]
  constructor
  · exact h f hf g hg
  · intro he
    rw [hash, hash, he]

theorem Submission.digested_of_parse (hc : Command.parse m.text = .add body)
    (hp : AddRequest.parse body = .ok request) :
    m.digested w s = batchFields (m.drafts w s request) := by
  rw [digested, hc]
  simp only [hp]

theorem Submission.exists_request_of_mem_digested (h : f ∈ m.digested w s) :
    ∃ body request, Command.parse m.text = .add body ∧ AddRequest.parse body = .ok request ∧
      f ∈ batchFields (m.drafts w s request) := by
  rw [digested] at h
  split at h
  · next body hc =>
    split at h
    · next request hp => exact ⟨body, request, hc, hp, h⟩
    · cases h
  · cases h

theorem Submission.isPlain_of_mem_digested (hs : s.Supported) (ht : m.now.instant.IsPlain)
    (h : f ∈ m.digested w s) : f.IsPlain := by
  obtain ⟨body, request, -, hp, hf⟩ := exists_request_of_mem_digested h
  obtain ⟨i, d, hd, rfl⟩ := mem_batchFields.1 hf
  obtain ⟨-, hcategory, -, htime, hcurrency⟩ := of_mem_drafts (List.mem_of_getElem? hd)
  obtain ⟨⟨c, hc, hname⟩, hcode⟩ := AddRequest.registered_of_parse hp
  have hcur : Registry.IsCode d.currency := by
    rw [hcurrency]
    cases hr : request.currency with
    | none => exact hs.isCode_getOrCreateUser m.user
    | some code => exact hcode code hr
  obtain ⟨c', hc', hname'⟩ := hcur
  refine ⟨⟨?_, ?_⟩, ?_⟩
  · rw [Draft.fields, hcategory, ← hname]
    exact separator_not_mem_category c hc
  · rw [Draft.fields, ← hname']
    exact separator_not_mem_currency c' hc'
  · rw [Draft.fields, htime]
    exact ht

theorem Effect.hash_of_added (h : Effect w s m t reply) {i : Nat} {e : Entry}
    (he : reply.added[i]? = some e) :
    e.hash = hash w (e.fields i) ∧ e.fields i ∈ m.digested w s := by
  obtain ⟨body, request, command, parsed, added⟩ :=
    h.exists_request_of_mem_added (List.mem_of_getElem? he)
  have hd := Store.getElem?_numbered (added ▸ he)
  rw [Submission.digested_of_parse command parsed]
  exact ⟨hash_of_getElem?_drafts hd, mem_batchFields.2 ⟨i, e.toDraft, hd, rfl⟩⟩

end Digested

namespace Journal

variable {w : DedupWindow} {defaultCurrency : String} {j : Journal} {m : Submission}
  {ms : List Submission} {fs : List Fields} {request : AddRequest}

/-- What is digested to answer submissions one after the other. -/
def digested (w : DedupWindow) (j : Journal) : List Submission → List Fields
  | [] => []
  | m :: ms => m.digested w j.store ++ digested w (j.submit w m) ms

theorem digested_concat (w : DedupWindow) (j : Journal) (ms : List Submission) (m : Submission) :
    digested w j (ms ++ [m]) =
      digested w j ms ++ m.digested w (ms.foldl (submit w) j).store := by
  induction ms generalizing j with
  | nil => simp only [List.nil_append, digested, List.append_nil, List.foldl_nil]
  | cons m' ms ih => simp only [List.cons_append, digested, ih, List.append_assoc, List.foldl_cons]

def Reported (log : List Exchange) (position : Nat) (e : Entry) : Prop :=
  ∃ x ∈ log, x.reply.added[position]? = some e

instance (log : List Exchange) (position : Nat) (e : Entry) : Decidable (Reported log position e) :=
  inferInstanceAs (Decidable (∃ x ∈ log, _))

theorem exists_reported_of_mem_outstanding {log : List Exchange} {e : Entry}
    (h : e ∈ outstanding log) : ∃ i, Reported log i e := by
  induction log with
  | nil => cases h
  | cons x log ih =>
    rw [outstanding] at h
    rcases List.mem_append.1 h with h | h
    · obtain ⟨i, hi⟩ := List.getElem?_of_mem (List.mem_of_mem_filter h)
      exact ⟨i, x, List.mem_cons_self, hi⟩
    · obtain ⟨i, y, hy, he⟩ := ih h
      exact ⟨i, y, List.mem_cons_of_mem x hy, he⟩

theorem forall_reported (w : DedupWindow) (defaultCurrency : String) {P : Nat → Entry → Prop}
    (h : ∀ s, ∀ m ∈ ms, ∀ i e, (m.answer w s).2.added[i]? = some e → P i e) :
    ∀ i e, Reported (run w defaultCurrency ms).log i e → P i e := by
  induction ms using List.reverseRecOn with
  | nil =>
    rintro i e ⟨x, hx, -⟩
    cases hx
  | append_singleton ms m ih =>
    rintro i e ⟨x, hx, he⟩
    rw [run_concat, submit] at hx
    rcases List.mem_append.1 hx with hx | hx
    · apply ih
      · intro s m' hm'
        exact h s m' (List.mem_append_left _ hm')
      · exact ⟨x, hx, he⟩
    · rw [List.mem_singleton.1 hx] at he
      dsimp only at he
      have hm : m ∈ ms ++ [m] := List.mem_append_right _ (List.mem_singleton_self m)
      exact h (run w defaultCurrency ms).store m hm i e he

/-- All reported entries have the fingerprints of their fields, and these are plain. -/
structure Traced (w : DedupWindow) (fs : List Fields) (j : Journal) : Prop where
  supported : j.store.Supported
  plain : ∀ f ∈ fs, f.IsPlain
  hash : ∀ i e, Reported j.log i e → e.hash = hash w (e.fields i) ∧ e.fields i ∈ fs

theorem Traced.widen (h : Traced w fs j) {gs : List Fields} (hg : ∀ f ∈ gs, f.IsPlain) :
    Traced w (fs ++ gs) j where
  supported := h.supported
  plain := List.forall_mem_append.2 ⟨h.plain, hg⟩
  hash i e hr := ⟨(h.hash i e hr).1, List.mem_append_left _ (h.hash i e hr).2⟩

theorem Traced.of_effect (h : Traced w fs j) (ht : m.now.instant.IsPlain) {t : Store}
    {reply : Reply} (he : Effect w j.store m t reply) :
    Traced w (fs ++ m.digested w j.store) ⟨t, j.log ++ [⟨m, reply⟩]⟩ := by
  have hp : ∀ f ∈ m.digested w j.store, f.IsPlain :=
    fun _ => Submission.isPlain_of_mem_digested h.supported ht
  refine ⟨he.supported h.supported, (h.widen hp).plain, ?_⟩
  rintro i e ⟨x, hx, ha⟩
  rcases List.mem_append.1 hx with hx | hx
  · exact (h.widen hp).hash i e ⟨x, hx, ha⟩
  · rw [List.mem_singleton.1 hx] at ha
    obtain ⟨hh, hf⟩ := he.hash_of_added ha
    exact ⟨hh, List.mem_append_right _ hf⟩

theorem traced_run (w : DedupWindow) (hd : Registry.IsCode defaultCurrency)
    (ht : ∀ m ∈ ms, m.now.instant.IsPlain) :
    Traced w (digested w (start defaultCurrency) ms) (run w defaultCurrency ms) := by
  induction ms using List.reverseRecOn with
  | nil =>
    refine ⟨⟨hd, List.forall_mem_nil _⟩, List.forall_mem_nil _, ?_⟩
    rintro i e ⟨x, hx, -⟩
    cases hx
  | append_singleton ms m ih =>
    rw [List.forall_mem_append] at ht
    rw [digested_concat, run_concat]
    exact (ih ht.1).of_effect (ht.2 m (List.mem_singleton_self m)) (effect_answer w _ m)

theorem Traced.exists_reported (h : Traced w fs j) (hb : j.Balanced) {r : Row}
    (hr : r ∈ j.store.rows) :
    ∃ i e, Reported j.log i e ∧ r = e.toRow ∧ e.hash = Fingerprint.hash w (e.fields i) ∧
      e.fields i ∈ fs := by
  rw [hb.rows] at hr
  obtain ⟨e, he, rfl⟩ := List.mem_map.1 hr
  obtain ⟨i, hi⟩ := exists_reported_of_mem_outstanding he
  exact ⟨i, e, hi, rfl, h.hash i e hi⟩

theorem Traced.readable (h : Traced w fs j) (hb : j.Balanced) :
    ∀ r ∈ j.store.rows, ∃ e, r.read = .ok e := by
  intro r hr
  obtain ⟨i, e, -, rfl, -, hf⟩ := h.exists_reported hb hr
  exact ⟨e.readBack, Entry.read_toRow (h.plain _ hf).time⟩

/-- Whether the amount that a request asks for at a position repeats an entry: the entry was reported
at that position, is still there, and agrees in everything that makes a repetition. -/
structure Recurs (w : DedupWindow) (j : Journal) (m : Submission) (request : AddRequest)
    (position : Nat) (value : Decimal) (e : Entry) : Prop where
  asked : request.amounts[position]? = some value
  reported : Reported j.log position e
  stored : e.toRow ∈ j.store.rows
  user : e.user = m.user
  category : e.category = request.category
  amount : e.amount.fixedText 2 = value.fixedText 2
  notes : e.notes = request.notes
  currency : e.currency = request.currency.getD (j.store.getOrCreateUser m.user).2.currency
  time : e.time.seconds / w.seconds = m.now.instant.seconds / w.seconds

section Batch

variable (h : Traced w fs j) (hb : j.Balanced) (hc : CollisionFree w fs)
  (hd : ∀ f ∈ batchFields (m.drafts w j.store request), f ∈ fs)

include h hc hd

/-- The drafts of one request have different positions, so their fingerprints differ. -/
theorem hashes_drafts_nodup : ((m.drafts w j.store request).map (·.hash)).Nodup := by
  rw [List.nodup_iff_getElem?_ne_getElem?]
  intro k l hkl hl he
  rw [List.length_map] at hl
  rw [List.getElem?_map, List.getElem?_map, List.getElem?_eq_getElem hl,
    List.getElem?_eq_getElem (Nat.lt_trans hkl hl)] at he
  have hk := List.getElem?_eq_getElem (Nat.lt_trans hkl hl)
  have hl := List.getElem?_eq_getElem hl
  have hhash := Option.some.inj he
  simp only [hash_of_getElem?_drafts hk, hash_of_getElem?_drafts hl] at hhash
  have hr := (hc.hash_eq_iff h.plain (hd _ (mem_batchFields.2 ⟨k, _, hk, rfl⟩))
    (hd _ (mem_batchFields.2 ⟨l, _, hl, rfl⟩))).1 hhash
  exact Nat.ne_of_lt hkl hr.position

theorem Recurs.hash_eq {k : Nat} {value : Decimal} {e : Entry}
    (hr : Recurs w j m request k value e) :
    ∃ d ∈ m.drafts w j.store request, e.toRow.hash = d.hash := by
  obtain ⟨hhash, hf⟩ := h.hash k e hr.reported
  have hk := getElem?_drafts w request (j.store.getOrCreateUser m.user).2.currency m.now.instant
    m.user k
  rw [hr.asked, Option.map_some] at hk
  refine ⟨_, List.mem_of_getElem? hk, ?_⟩
  rw [Entry.hash_toRow, hhash, hash_of_getElem?_drafts hk,
    hc.hash_eq_iff h.plain hf (hd _ (mem_batchFields.2 ⟨k, _, hk, rfl⟩))]
  exact ⟨hr.category, hr.amount, hr.notes, hr.time, hr.user, rfl, hr.currency⟩

include hb

/-- A row with the fingerprint of a draft is that of an entry which the draft repeats. -/
theorem recurs_of_hash_eq {k : Nat} {d : Draft} {r : Row}
    (hk : (m.drafts w j.store request)[k]? = some d) (hr : r ∈ j.store.rows)
    (he : r.hash = d.hash) : ∃ e, r = e.toRow ∧ Recurs w j m request k d.amount e := by
  obtain ⟨i, e, hrep, rfl, hhash, hf⟩ := h.exists_reported hb hr
  have hfd := hd _ (mem_batchFields.2 ⟨k, d, hk, rfl⟩)
  rw [Entry.hash_toRow, hhash, hash_of_getElem?_drafts hk] at he
  -- nothing collides, so one fingerprint means one submission of an amount
  obtain ⟨hcategory, hamount, hnotes, htime, huser, hposition, hcurrency⟩ :=
    (hc.hash_eq_iff h.plain hf hfd).1 he
  have hposition : i = k := hposition
  subst hposition
  obtain ⟨value, hvalue, rfl⟩ := of_getElem?_drafts hk
  exact ⟨e, rfl, hvalue, hrep, hr, huser, hcategory, hamount, hnotes, hcurrency, htime⟩

/-- An `add` that can be read is refused as a duplicate if it repeats an entry, and stored as a
whole if it repeats none. -/
theorem answer_add_cases {body : String} (hcmd : Command.parse m.text = .add body)
    (hp : AddRequest.parse body = .ok request) :
    ((∃ position value e, Recurs w j m request position value e) ∧
        ∃ hash, (m.answer w j.store).2.result = .error (.duplicate hash)) ∨
      ((¬ ∃ position value e, Recurs w j m request position value e) ∧
        m.answer w j.store =
          ((j.store.getOrCreateUser m.user).1.extend (m.drafts w j.store request),
            ⟨.add, .ok (.added (Store.numbered j.store.nextId (m.drafts w j.store request)))⟩)) := by
  have hu : ∀ d ∈ m.drafts w j.store request, ∀ r ∈ j.store.rows, r.hash = d.hash →
      r.user = m.user := by
    intro d hmem r hr he
    obtain ⟨k, hk⟩ := List.getElem?_of_mem hmem
    obtain ⟨e, rfl, hrec⟩ := recurs_of_hash_eq h hb hc hd hk hr he
    exact hrec.user
  have hn := hashes_drafts_nodup h hc hd
  rw [Submission.answer_of_add hcmd]
  rcases add_of_readable hp rfl (h.readable hb) hn hu with ⟨⟨d, hmem, r, hr, he⟩, hdup⟩ | ⟨hne, ha⟩
  · obtain ⟨k, hk⟩ := List.getElem?_of_mem hmem
    obtain ⟨e, rfl, hrec⟩ := recurs_of_hash_eq h hb hc hd hk hr he
    exact .inl ⟨⟨k, d.amount, e, hrec⟩, hdup⟩
  · refine .inr ⟨?_, ?_⟩
    · rintro ⟨k, value, e, hrec⟩
      obtain ⟨d, hmem, he⟩ := hrec.hash_eq h hc hd
      exact hne d hmem e.toRow hrec.stored he
    · rw [ha]
      rfl

end Batch

/-- After any run of times of the years 0 to 9999 whose digested texts do not collide, an `add` that
can be read is refused as a duplicate exactly if one of its amounts repeats an entry. Otherwise it
stores an entry for every amount, in order. -/
theorem answer_add_run (w : DedupWindow) (hd : Registry.IsCode defaultCurrency)
    (ht : ∀ m' ∈ ms ++ [m], m'.now.instant.IsPlain)
    (hc : CollisionFree w (digested w (start defaultCurrency) (ms ++ [m]))) {body : String}
    (hcmd : Command.parse m.text = .add body) (hp : AddRequest.parse body = .ok request) :
    let j := run w defaultCurrency ms
    let t := (m.answer w j.store).1
    let reply := (m.answer w j.store).2
    let repeats := ∃ position value e, Recurs w j m request position value e
    ((∃ hash, reply.result = .error (.duplicate hash)) ↔ repeats) ∧
      (¬ repeats →
        ∃ es, reply.result = .ok (.added es) ∧ es.map (·.amount) = request.amounts ∧
          (∀ e ∈ es, e.user = m.user ∧ e.category = request.category ∧ e.notes = request.notes ∧
            e.time = m.now.instant ∧
            e.currency = request.currency.getD (j.store.getOrCreateUser m.user).2.currency) ∧
          t.rows = j.store.rows ++ es.map Entry.toRow) := by
  intro j t reply repeats
  rw [List.forall_mem_append] at ht
  rw [digested_concat] at hc
  have hb : j.Balanced := balanced_run w defaultCurrency ms
  have htr : Traced w (digested w (start defaultCurrency) ms) j := traced_run w hd ht.1
  have hplain : ∀ f ∈ m.digested w j.store, f.IsPlain := fun _ =>
    Submission.isPlain_of_mem_digested htr.supported (ht.2 m (List.mem_singleton_self m))
  have hdig : ∀ f ∈ batchFields (m.drafts w j.store request),
      f ∈ digested w (start defaultCurrency) ms ++ m.digested w j.store := by
    intro f hf
    rw [Submission.digested_of_parse hcmd hp]
    exact List.mem_append_right _ hf
  -- what the `add` digests itself counts too: it is compared with what was stored
  rcases answer_add_cases (htr.widen hplain) hb hc hdig hcmd hp with
    ⟨hrec, hash, hr⟩ | ⟨hrec, ha⟩
  · exact ⟨⟨fun _ => hrec, fun _ => ⟨hash, hr⟩⟩, fun hno => absurd hrec hno⟩
  · have hreply : reply = ⟨.add, .ok (.added
        (Store.numbered j.store.nextId (m.drafts w j.store request)))⟩ := congrArg Prod.snd ha
    have hstore : t = (j.store.getOrCreateUser m.user).1.extend (m.drafts w j.store request) :=
      congrArg Prod.fst ha
    have hdrafts := Store.toDraft_numbered j.store.nextId (m.drafts w j.store request)
    refine ⟨⟨?_, fun h => absurd h hrec⟩, fun _ => ⟨_, by rw [hreply], ?_, ?_, ?_⟩⟩
    · rintro ⟨hash, he⟩
      rw [hreply] at he
      cases he
    · have ha := congrArg (List.map (·.amount)) hdrafts
      rw [List.map_map, Submission.drafts, amounts_drafts] at ha
      exact ha
    · intro e he
      exact of_mem_drafts (Store.toDraft_mem_of_numbered he)
    · rw [hstore, Store.rows_extend, Store.rows_getOrCreateUser, Store.nextId_getOrCreateUser]

def lunch (text : String) (seconds : Int) : Submission :=
  ⟨7, text, ⟨Instant.ofSeconds seconds, Zone.fixed 0⟩⟩

/-- Half a minute later the same amount is a repetition, however it is written. -/
theorem answer_add_run_lunch :
    ∃ hash, ((lunch "a G 12.5 lunch" 1742032830).answer (.ofSeconds 60)
      (run (.ofSeconds 60) "NZD" [lunch "add G 12.50 lunch" 1742032800]).store).2.result =
        .error (.duplicate hash) := by
  have hd : Registry.IsCode "NZD" := ⟨⟨"NZD", "New Zealand Dollar"⟩, by decide, rfl⟩
  have ht : ∀ m ∈ [lunch "add G 12.50 lunch" 1742032800] ++ [lunch "a G 12.5 lunch" 1742032830],
      m.now.instant.IsPlain := by
    decide
  have hb : ∀ f ∈ digested (.ofSeconds 60) (start "NZD")
        ([lunch "add G 12.50 lunch" 1742032800] ++ [lunch "a G 12.5 lunch" 1742032830]),
      ∀ g ∈ digested (.ofSeconds 60) (start "NZD")
        ([lunch "add G 12.50 lunch" 1742032800] ++ [lunch "a G 12.5 lunch" 1742032830]),
      f.bytes (.ofSeconds 60) = g.bytes (.ofSeconds 60) := by
    decide +kernel
  have hcmd : Command.parse (lunch "a G 12.5 lunch" 1742032830).text = .add "G 12.5 lunch" := by
    decide +kernel
  have hp : AddRequest.parse "G 12.5 lunch" =
      .ok ⟨"Groceries", [⟨false, 125, 1, by decide, by decide⟩], "lunch", none⟩ := by
    decide +kernel
  refine (answer_add_run (.ofSeconds 60) hd ht (fun f hf g hg _ => hb f hf g hg) hcmd hp).1.2
    ⟨0, ⟨false, 125, 1, by decide, by decide⟩,
      { user := 7, category := "Groceries", amount := ⟨false, 1250, 2, by decide, by decide⟩,
        currency := "NZD", notes := "lunch", time := Instant.ofSeconds 1742032800, id := 1,
        hash := hash (.ofSeconds 60)
          { category := "Groceries", amount := ⟨false, 1250, 2, by decide, by decide⟩,
            notes := "lunch", time := Instant.ofSeconds 1742032800, user := 7, position := 0,
            currency := "NZD" } }, ?_⟩
  constructor
  all_goals decide +kernel

end Journal

end PersonalLedger
