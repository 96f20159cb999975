import PersonalLedger.Proofs.Ledger.Listing
import PersonalLedger.Proofs.Reply.Table

namespace PersonalLedger

open Totals

namespace Listing

theorem totals_of_parse {now : Moment} {words : List String} {l : Listing}
    (h : parse now words = .ok l) (hw : totalsWord ∈ words) : l.totals = true := by
  obtain ⟨fs, hfs, rfl⟩ := parse_eq_ok_iff.1 h
  rw [ofForms_eq]
  exact decide_eq_true ((mem_forms_iff hfs).2 ⟨totalsWord, hw, means_totals⟩)

def keyOf (l : Listing) : Entry → GroupKey :=
  if l.currency.isSome then GroupKey.byCategory else GroupKey.byCategoryAndCurrency

variable {l : Listing} {e : Entry}

theorem category_keyOf (l : Listing) (e : Entry) : (l.keyOf e).category = e.category := by
  rw [keyOf]
  split
  · rfl
  · rfl

theorem currency_keyOf (h : ∀ c ∈ l.currency, e.currency = c) :
    (l.keyOf e).currency = some e.currency ∨
      (l.keyOf e).currency = none ∧ l.currency = some e.currency := by
  rw [keyOf]
  cases hc : l.currency with
  | none => exact .inl rfl
  | some c =>
    right
    rw [h c hc]
    exact ⟨rfl, rfl⟩

end Listing

theorem Ledger.of_totals_eq_ok {l : Listing} {es : List Entry} {gs : Option (List Group)}
    (hl : l.totals = true) (h : totals l es = .ok gs) :
    ∃ groups, ofEntries l.keyOf es = .ok groups ∧ gs = some groups := by
  rw [totals, if_pos hl, ← Listing.keyOf] at h
  dsimp only at h
  cases hg : ofEntries l.keyOf es with
  | error e =>
    rw [hg] at h
    cases h
  | ok groups =>
    rw [hg] at h
    cases h
    exact ⟨groups, rfl, rfl⟩

theorem Store.currency_of_query {s : Store} {q : Query} {es : List Entry}
    (h : s.query q = .ok es) {e : Entry} (he : e ∈ es) : ∀ c ∈ q.currency, e.currency = c := by
  obtain ⟨r, hr, hread⟩ := exists_mem_of_mapM_eq_ok h he
  obtain ⟨amount, time, offset, -, -, rfl⟩ := Row.exists_of_read_eq_ok hread
  have hs := (List.mem_filter.1 (List.mem_mergeSort.1 (List.mem_of_mem_take hr))).2
  exact (selects_iff.1 hs).2.2.2.2

/-- Whether a group is the total of some entries, which have its category and one currency. That is
the currency of the key; a key without one is that of a listing with this currency as its filter. -/
structure Group.IsTotalOf (filter : Option String) (g : Group) (currency : String)
    (part : List Entry) : Prop where
  nonempty : part ≠ []
  count : g.count = part.length
  total : sum? (part.map (·.amount)) = some g.total
  sameCategory : ∀ e ∈ part, e.category = g.key.category
  sameCurrency : ∀ e ∈ part, e.currency = currency
  label : g.key.currency = some currency ∨ g.key.currency = none ∧ filter = some currency

/-- Whether groups are the totals of entries that they share among them: each entry is in the part of
one group, and the groups count all entries. -/
structure Group.Share (filter : Option String) (groups : List Group) (es : List Entry)
    (part : Group → List Entry) (currency : Group → String) : Prop where
  perm : (groups.map part).flatten.Perm es
  disjoint : groups.Pairwise fun g g' => (part g).Disjoint (part g')
  count : countAll groups = es.length
  total : ∀ g ∈ groups, g.IsTotalOf filter (currency g) (part g)

theorem Totals.Covers.exists_isTotalOf {l : Listing} {es : List Entry} {groups : List Group}
    (h : Covers l.keyOf es groups) (hf : ∀ e ∈ es, ∀ c ∈ l.currency, e.currency = c) {g : Group}
    (hg : g ∈ groups) :
    ∃ currency, g.IsTotalOf l.currency currency (counted l.keyOf es g.key) := by
  obtain ⟨e, he⟩ := List.exists_mem_of_ne_nil _ (h.counted_ne_nil hg)
  obtain ⟨hm, hk⟩ := mem_counted.1 he
  have hlabel := Listing.currency_keyOf (hf e hm)
  rw [hk] at hlabel
  refine ⟨e.currency, h.counted_ne_nil hg, h.count_of_mem hg, h.sum_of_mem hg, ?_, ?_, hlabel⟩
  · intro e' he'
    rw [← (mem_counted.1 he').2, Listing.category_keyOf]
  · intro e' he'
    obtain ⟨hm', hk'⟩ := mem_counted.1 he'
    have hlabel' := Listing.currency_keyOf (hf e' hm')
    rw [hk'] at hlabel'
    rcases hlabel with hl | ⟨hl, hc⟩
    · rcases hlabel' with hl' | ⟨hl', -⟩
      · exact Option.some_inj.1 (hl'.symm.trans hl)
      · rw [hl] at hl'
        cases hl'
    · exact hf e' hm' _ hc

theorem Totals.Covers.exists_share {l : Listing} {es : List Entry} {groups : List Group}
    (h : Covers l.keyOf es groups) (hf : ∀ e ∈ es, ∀ c ∈ l.currency, e.currency = c) :
    ∃ part currency, Group.Share l.currency groups es part currency := by
  have hgroups : ∀ g ∈ groups, ∃ currency,
      g.IsTotalOf l.currency currency (counted l.keyOf es g.key) := by
    intro g hg
    exact h.exists_isTotalOf hf hg
  choose! currency hcurrency using hgroups
  refine ⟨fun g => counted l.keyOf es g.key, currency, h.flatten_perm, ?_, h.countAll_eq, hcurrency⟩
  apply h.rising.imp
  intro g g' hlt e he he'
  have hk := (mem_counted.1 he).2
  have hk' := (mem_counted.1 he').2
  exact GroupKey.ne_of_lt hlt (hk.symm.trans hk')

namespace Reply

theorem groupCells_of_isTotalOf {filter : Option String} {g : Group} {currency : String}
    {part : List Entry} (h : g.IsTotalOf filter currency part) :
    groupCells filter g =
      [g.key.category, amountText g.total ++ " " ++ currency, Text.natString g.count] := by
  rcases h.label with hl | ⟨hl, hf⟩
  · rw [groupCells, hl]
    rfl
  · rw [groupCells, hl, hf]
    rfl

theorem mergeSort_of_rising {groups : List Group} (h : Rising groups) :
    (groups.mergeSort fun a b => !b.key.lt a.key) = groups := by
  apply List.mergeSort_of_pairwise
  apply h.imp
  intro g g' hlt
  rw [Bool.not_eq_true']
  exact GroupKey.lt_asymm hlt

theorem render_of_rising {reply : Reply} {l : Listing} {listed : List Entry} {groups : List Group}
    (h : reply.result = .ok (.listed l listed (some groups))) (hne : listed ≠ [])
    (hr : Rising groups) (zone : Zone) :
    reply.render zone = "Totals since " ++ Timestamp.dayText zone l.first ++ "\n" ++
      Table.render ["Category", "Total", "Count"] (groups.map (groupCells l.currency)) := by
  calc reply.render zone
    _ = listText zone l listed (some groups) := render_of_eq_ok zone h
    _ = _ := by rw [listText_groups l hne, groupTable, mergeSort_of_rising hr]

end Reply

namespace Submission

variable {w : DedupWindow} {s : Store} {m : Submission}

/-- A listing that asks for totals has groups that share the listed entries among them. The entries of
a group have its category and one currency, and this is the one that stands next to the total. -/
theorem answer_totals {words : List String} (hc : Command.parse m.text = .list words)
    (hw : Listing.totalsWord ∈ words) {o : Outcome} (h : (m.answer w s).2.result = .ok o) :
    ∃ l listed groups part currency, o = .listed l listed (some groups) ∧
      Group.Share l.currency groups listed part currency ∧
      (listed ≠ [] → ∀ zone, (m.answer w s).2.render zone =
        "Totals since " ++ Timestamp.dayText zone l.first ++ "\n" ++
          Table.render ["Category", "Total", "Count"] (groups.map fun g =>
            [g.key.category, Reply.amountText g.total ++ " " ++ currency g,
              Text.natString g.count])) := by
  have hresult := h
  rw [answer_of_list hc] at h
  obtain ⟨l, listed, gs, hp, hq, ht, rfl⟩ := Ledger.of_list_eq_ok h
  obtain ⟨groups, hg, rfl⟩ := Ledger.of_totals_eq_ok (Listing.totals_of_parse hp hw) ht
  have hcovers := covers_of_ofEntries hg
  obtain ⟨part, currency, hshare⟩ := hcovers.exists_share fun e he => Store.currency_of_query hq he
  refine ⟨l, listed, groups, part, currency, rfl, hshare, ?_⟩
  intro hne zone
  have hcells : groups.map (Reply.groupCells l.currency) = groups.map fun g =>
      [g.key.category, Reply.amountText g.total ++ " " ++ currency g, Text.natString g.count] := by
    apply List.map_congr_left
    intro g hg
    exact Reply.groupCells_of_isTotalOf (hshare.total g hg)
  rw [Reply.render_of_rising hresult hne hcovers.rising, hcells]

open Operation in
/-- The total leaves out the entry in the other currency. -/
theorem answer_totals_dollars :
    let euros : Draft := { purchase 1 1742032801 0 "b" with currency := "EUR" }
    let s := run (.empty "NZD") [getOrCreateUser 1,
      create [purchase 1 1742032800 0 "a", euros]]
    let m := ask "ls + 15/03/2025 $nzd" 1742036400
    let o : Outcome :=
      .listed ⟨.ofSeconds 1741996800, .ofSeconds 1742036400, none, some "NZD", true, 100⟩
        [(purchase 1 1742032800 0 "a").withId 1]
        (some [⟨⟨"Groceries", none⟩, (purchase 1 1742032800 0 "a").amount, 1⟩])
    (m.answer (.ofSeconds 60) s).2.result = .ok o ∧
      ∃ l listed groups part currency, o = .listed l listed (some groups) ∧
        Group.Share l.currency groups listed part currency ∧
        (listed ≠ [] → ∀ zone, (m.answer (.ofSeconds 60) s).2.render zone =
          "Totals since " ++ Timestamp.dayText zone l.first ++ "\n" ++
            Table.render ["Category", "Total", "Count"] (groups.map fun g =>
              [g.key.category, Reply.amountText g.total ++ " " ++ currency g,
                Text.natString g.count])) := by
  intro euros s m o
  have hc : Command.parse m.text = .list ["+", "15/03/2025", "$nzd"] := by decide +kernel
  have h : (m.answer (.ofSeconds 60) s).2.result = .ok o := by decide +kernel
  exact ⟨h, answer_totals hc (by decide) h⟩

end Submission

end PersonalLedger
