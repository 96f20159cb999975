import PersonalLedger.Proofs.Command.AddRequest
import PersonalLedger.Proofs.Fingerprint.Encoding
import PersonalLedger.Proofs.Ledger.Effect
import PersonalLedger.Proofs.Store.Reading

namespace PersonalLedger

open Fingerprint Text

def Registry.IsCode (code : String) : Prop := ∃ c ∈ Registry.currencies, c.code = code

namespace AddRequest

variable {body : String} {request : AddRequest}

/-- A request that can be read names a registered category and no unsupported currency. -/
theorem registered_of_parse (h : parse body = .ok request) :
    (∃ c ∈ Registry.categories, c.name = request.category) ∧
      ∀ code, request.currency = some code → Registry.IsCode code := by
  have hasks := parse_eq_ok_iff.1 h
  generalize words body = ws at hasks
  cases hasks with
  | intro found _ ends =>
    refine ⟨⟨_, (Registry.category?_eq_some_iff.1 found).1, rfl⟩, fun code hcode => ?_⟩
    cases ends with
    | absent => cases hcode
    | marker hm =>
      cases hcode
      exact ⟨_, (Registry.currency?_eq_some_iff.1 hm).1, rfl⟩

end AddRequest

def Draft.fields (d : Draft) (position : Nat) : Fields :=
  { category := d.category, amount := d.amount, notes := d.notes, time := d.time, user := d.user,
    position, currency := d.currency }

namespace Ledger

variable {w : DedupWindow} {s : Store} {request : AddRequest} {preferred : String}
  {time : Instant} {user : Int} {ds : List Draft} {d : Draft} {i : Nat}

def batchFields (ds : List Draft) : List Fields := ds.zipIdx.map fun (d, i) => d.fields i

theorem mem_batchFields {f : Fields} :
    f ∈ batchFields ds ↔ ∃ (i : Nat) (d : Draft), ds[i]? = some d ∧ d.fields i = f := by
  rw [batchFields, List.mem_map]
  constructor
  · rintro ⟨⟨d, i⟩, hm, rfl⟩
    exact ⟨i, d, List.mk_mem_zipIdx_iff_getElem?.1 hm, rfl⟩
  · rintro ⟨i, d, hd, rfl⟩
    exact ⟨(d, i), List.mk_mem_zipIdx_iff_getElem?.2 hd, rfl⟩

theorem getElem?_drafts (w : DedupWindow) (request : AddRequest) (preferred : String)
    (time : Instant) (user : Int) (i : Nat) :
    (drafts w request preferred time user)[i]? = request.amounts[i]?.map fun amount =>
      draft w request (request.currency.getD preferred) time user amount i := by
  rw [drafts, List.getElem?_map, List.getElem?_zipIdx, Option.map_map, Nat.zero_add]
  rfl

theorem of_getElem?_drafts (h : (drafts w request preferred time user)[i]? = some d) :
    ∃ amount, request.amounts[i]? = some amount ∧
      d = draft w request (request.currency.getD preferred) time user amount i := by
  rw [getElem?_drafts] at h
  obtain ⟨amount, ha, hd⟩ := Option.map_eq_some_iff.1 h
  exact ⟨amount, ha, hd.symm⟩

theorem hash_of_getElem?_drafts (h : (drafts w request preferred time user)[i]? = some d) :
    d.hash = hash w (d.fields i) := by
  obtain ⟨amount, -, rfl⟩ := of_getElem?_drafts h
  rfl

theorem of_mem_drafts (h : d ∈ drafts w request preferred time user) :
    d.user = user ∧ d.category = request.category ∧ d.notes = request.notes ∧ d.time = time ∧
      d.currency = request.currency.getD preferred := by
  obtain ⟨i, hi⟩ := List.getElem?_of_mem h
  obtain ⟨amount, -, rfl⟩ := of_getElem?_drafts hi
  exact ⟨rfl, rfl, rfl, rfl, rfl⟩

theorem amounts_drafts (w : DedupWindow) (request : AddRequest) (preferred : String)
    (time : Instant) (user : Int) :
    (drafts w request preferred time user).map (·.amount) = request.amounts := by
  apply List.ext_getElem?
  intro i
  rw [List.getElem?_map, getElem?_drafts, Option.map_map]
  exact Option.map_id'

theorem checkNew_cases (hr : ∀ r ∈ s.rows, ∃ e, r.read = .ok e) (user : Int) (ds : List Draft) :
    (checkNew s user ds = .ok () ∧ ∀ d ∈ ds, s.hashed d.hash user = []) ∨
      ∃ d ∈ ds, checkNew s user ds = .error (.duplicate d.hash) ∧ s.hashed d.hash user ≠ [] := by
  induction ds with
  | nil => exact .inl ⟨rfl, List.forall_mem_nil _⟩
  | cons d ds ih =>
    rw [checkNew]
    by_cases hd : s.hashed d.hash user = []
    · simp only [Store.findByHash_eq_none hd]
      rcases ih with ⟨hc, hn⟩ | ⟨d', hm, hc, hn⟩
      · exact .inl ⟨hc, List.forall_mem_cons.2 ⟨hd, hn⟩⟩
      · exact .inr ⟨d', List.mem_cons_of_mem d hm, hc, hn⟩
    · obtain ⟨e, he⟩ := Store.findByHash_eq_some hr hd
      exact .inr ⟨d, List.mem_cons_self, by simp only [he], hd⟩

/-- A request is refused as a duplicate if a fingerprint of its drafts is stored, and stored as a
whole if none is. -/
theorem add_of_readable {body : String} (hp : AddRequest.parse body = .ok request)
    (hd : drafts w request (s.getOrCreateUser user).2.currency time user = ds)
    (hr : ∀ r ∈ s.rows, ∃ e, r.read = .ok e) (hn : (ds.map (·.hash)).Nodup)
    (hu : ∀ d ∈ ds, ∀ r ∈ s.rows, r.hash = d.hash → r.user = user) :
    ((∃ d ∈ ds, ∃ r ∈ s.rows, r.hash = d.hash) ∧
        ∃ hash, (add w s body time user).2 = .error (.duplicate hash)) ∨
      ((∀ d ∈ ds, ∀ r ∈ s.rows, r.hash ≠ d.hash) ∧
        add w s body time user = ((s.getOrCreateUser user).1.extend ds,
          .ok (.added (Store.numbered s.nextId ds)))) := by
  obtain ⟨t, ht⟩ : ∃ t, t = (s.getOrCreateUser user).1 := ⟨_, rfl⟩
  have hrows : t.rows = s.rows := ht ▸ Store.rows_getOrCreateUser s user
  rcases checkNew_cases (hrows ▸ hr) user ds with ⟨hc, hf⟩ | ⟨d, hm, hc, hf⟩
  · right
    have hne : ∀ d ∈ ds, ∀ r ∈ s.rows, r.hash ≠ d.hash := by
      intro d hm r hr' he
      have hmem : r ∈ t.hashed d.hash user :=
        Store.mem_hashed.2 ⟨hrows ▸ hr', he, hu d hm r hr' he⟩
      rw [hf d hm] at hmem
      cases hmem
    have hs : t.Storable ds := by
      refine ⟨?_, hn, ?_⟩
      · intro d hm
        rw [Bool.eq_false_iff, ne_eq, Store.hasHash_eq_true_iff, hrows]
        rintro ⟨r, hr', he⟩
        exact hne d hm r hr' he
      · intro d hm
        rw [(of_mem_drafts (hd ▸ hm)).1, ht]
        exact Store.hasUser_getOrCreateUser s user
    rw [add_of_storable hp hd (ht ▸ hs) (ht ▸ hc), Store.nextId_getOrCreateUser]
    exact ⟨hne, rfl⟩
  · left
    obtain ⟨r, hr'⟩ := List.exists_mem_of_ne_nil _ hf
    obtain ⟨hmem, he, -⟩ := Store.mem_hashed.1 hr'
    rw [add_of_parse hp, hd, ← ht, hc]
    exact ⟨⟨d, hm, r, hrows ▸ hmem, he⟩, d.hash, rfl⟩

end Ledger

end PersonalLedger
