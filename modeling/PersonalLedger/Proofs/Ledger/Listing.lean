import PersonalLedger.Proofs.Command.Listing
import PersonalLedger.Proofs.Ledger.Standing

namespace PersonalLedger

namespace Listing

/-- Whether the settings of a user's listing admit an entry. A first date behind year 9999 is no
bound: its text comes before those of rows. -/
structure Admits (l : Listing) (user : Int) (e : Entry) : Prop where
  user : e.user = user
  category : ∀ c ∈ l.category, e.category = c
  currency : ∀ c ∈ l.currency, e.currency = c
  first : l.first.year ≤ 9999 → l.first.toMicros ≤ e.time.toMicros
  last : e.time.toMicros ≤ l.last.toMicros

def query (l : Listing) (user : Int) : Store.Query := ⟨user, l.category, l.currency, l.window⟩

variable {l : Listing} {user : Int} {e : Entry}

theorem selects_toRow_iff (hp : e.time.IsPlain) (hl : l.last.year ≤ 9999) :
    (l.query user).selects e.toRow = true ↔ l.Admits user e := by
  by_cases hf : l.first.year ≤ 9999
  · have hfirst : (l.query user).window.first.year ≤ 9999 := hf
    rw [Store.selects_toRow_iff hp hfirst hl]
    constructor
    · rintro ⟨hu, hfirst, hlast, hcategory, hcurrency⟩
      exact ⟨hu, hcategory, hcurrency, fun _ => hfirst, hlast⟩
    · rintro ⟨hu, hcategory, hcurrency, hfirst, hlast⟩
      exact ⟨hu, hfirst hf, hlast, hcategory, hcurrency⟩
  · -- the text of the first date starts with a plus sign and keeps no row out
    have hn : ¬ l.first.IsPlain := fun h => hf h.2
    have hfirst : l.first.rowText ≤ e.time.rowText :=
      String.not_lt.1 (String.lt_asymm (Instant.rowText_lt_of_not_isPlain hn hp))
    have hlast := Instant.rowText_le_iff hp.2 hl (.inl hp)
    rw [Store.selects_iff]
    constructor
    · rintro ⟨hu, -, h2, hcategory, hcurrency⟩
      exact ⟨hu, hcategory, hcurrency, fun h => absurd h hf, hlast.1 h2⟩
    · rintro ⟨hu, hcategory, hcurrency, -, h2⟩
      exact ⟨hu, hfirst, hlast.2 h2, hcategory, hcurrency⟩

theorem mem_found_query_iff {es : List Entry} (user : Int) (hk : Store.Keepable es)
    (hl : l.last.year ≤ 9999) (e : Entry) :
    e ∈ (l.query user).found es ↔ e ∈ es ∧ l.Admits user e := by
  rw [Store.Query.mem_found]
  apply and_congr_right
  intro he
  exact selects_toRow_iff (hk.plain e he) hl

/-- Entries of the years 0 to 9999 that the settings admit keep to the first date exactly if that is
a bound, or if there are none. -/
theorem forall_first_le_iff {es : List Entry}
    (h : ∀ e ∈ es, e.time.IsPlain ∧ l.Admits user e) :
    (∀ e ∈ es, l.first.toMicros ≤ e.time.toMicros) ↔ l.first.year ≤ 9999 ∨ es = [] := by
  constructor
  · intro hfirst
    by_cases hy : l.first.year ≤ 9999
    · exact .inl hy
    · right
      apply List.eq_nil_iff_forall_not_mem.2
      intro e he
      have hlt : e.time.toMicros < l.first.toMicros :=
        Instant.toMicros_lt_of_year_lt (Int.lt_of_le_of_lt (h e he).1.2 (Int.not_le.1 hy))
      exact Instant.not_toMicros_le.2 hlt (hfirst e he)
  · rintro (hy | rfl) e he
    · exact (h e he).2.first hy
    · cases he

end Listing

theorem Instant.toMicros_toMicros (t : Instant) : t.toMicros.toMicros = t.toMicros := by
  have hn : t.nanos / 1000 * 1000 / 1000 = t.nanos / 1000 := Nat.mul_div_cancel _ (by decide)
  rw [toMicros_eq_iff]
  exact ⟨rfl, hn⟩

theorem Listing.Admits.readBack {l : Listing} {user : Int} {e : Entry} (h : l.Admits user e) :
    l.Admits user e.readBack := by
  have ht : e.readBack.time.toMicros = e.time.toMicros := e.time.toMicros_toMicros
  exact ⟨h.user, h.category, h.currency, by rw [ht]; exact h.first, by rw [ht]; exact h.last⟩

/-- Whether `shown` has what is known about an entry: the amount with its places, the time in whole
microseconds, and the rest as it is. -/
structure Entry.Shows (shown e : Entry) : Prop where
  id : shown.id = e.id
  user : shown.user = e.user
  category : shown.category = e.category
  coefficient : shown.amount.coefficient = e.amount.coefficient
  scale : shown.amount.scale = e.amount.scale
  currency : shown.currency = e.currency
  notes : shown.notes = e.notes
  time : shown.time = e.time.toMicros
  hash : shown.hash = e.hash

theorem Entry.shows_readBack (e : Entry) : e.readBack.Shows e where
  id := rfl
  user := rfl
  category := rfl
  coefficient := e.amount.coefficient_readBack
  scale := rfl
  currency := rfl
  notes := rfl
  time := rfl
  hash := rfl

namespace Reply

variable {reply : Reply} {new : List Entry}

theorem added_of_result (h : reply.result = .ok (.added new)) : reply.added = new := by
  rw [added, h]

theorem removed_of_result_added (h : reply.result = .ok (.added new)) : reply.removed = [] := by
  rw [removed, h]

theorem standing_of_result_added (es : List Entry) (h : reply.result = .ok (.added new)) :
    reply.standing es = es ++ new := by
  rw [standing, removed_of_result_added h, added_of_result h]
  simp only [List.map_nil, List.not_mem_nil, not_false_eq_true, decide_true, List.filter_true]

theorem result_of_added_ne_nil (h : reply.added ≠ []) :
    reply.result = .ok (.added reply.added) := by
  rw [added] at h ⊢
  split at h
  · next es hr => rw [hr]
  · exact absurd rfl h

end Reply

theorem Ledger.list_nil {s : Store} {now : Moment} {user : Int} {es : List Entry}
    (h : s.query ((Listing.initial now).query user) = .ok es) :
    list s [] now user = .ok (.listed (.initial now) es none) := by
  have hp : Listing.parse now [] = .ok (.initial now) := rfl
  rw [list_of_query hp h]
  rfl

namespace Submission

variable {w : DedupWindow} {s : Store} {m : Submission}

theorem of_listed {l : Listing} {es : List Entry} {groups : Option (List Group)}
    (h : (m.answer w s).2.result = .ok (.listed l es groups)) :
    ∃ words, Listing.parse m.now words = .ok l ∧
      s.query (l.query m.user) = .ok es := by
  have hk := kind_of_result h
  cases hc : Command.parse m.text with
  | add => rw [hc] at hk; cases hk
  | remove => rw [hc] at hk; cases hk
  | list words =>
    rw [answer_of_list hc] at h
    obtain ⟨l', es', gs, hp, hq, -, ho⟩ := Ledger.of_list_eq_ok h
    cases ho
    exact ⟨words, hp, hq⟩
  | help => rw [hc] at hk; cases hk
  | config => rw [hc] at hk; cases hk
  | unknown => rw [hc] at hk; cases hk

end Submission

namespace Listing

variable {now : Moment} {offset : Int} {user : Int} {new : List Entry}

section Fixed

variable (hz : now.zone = .fixed offset) (ht : now.instant.IsPlain)

include hz ht

theorem toMicros_first_initial_le : (initial now).first.toMicros ≤ now.instant.toMicros := by
  have hs := Cycle.start_le_of_fixed hz ht
  have hn := Cycle.nanos_start now
  have hfirst : (initial now).first = Cycle.start now := rfl
  rw [hfirst, Instant.toMicros_le_iff]
  omega

theorem year_first_initial_le : (initial now).first.year ≤ 9999 := by
  by_cases hy : (initial now).first.year ≤ 9999
  · exact hy
  · have hlt := Instant.toMicros_lt_of_year_lt (Int.lt_of_le_of_lt ht.2 (Int.not_le.1 hy))
    exact absurd (toMicros_first_initial_le hz ht) (Instant.not_toMicros_le.2 hlt)

theorem wants_initial {e : Entry} (hu : e.user = user) (he : e.time = now.instant) :
    ((initial now).query user).Wants e where
  user := hu
  first := by
    rw [he]
    exact toMicros_first_initial_le hz ht
  last := by
    rw [he, Instant.toMicros_le_iff]
    exact .inr ⟨rfl, Nat.le_refl _⟩
  category := by
    intro c hc
    cases hc
  currency := by
    intro c hc
    cases hc

/-- A plain `ls` starts with the entries of this moment, the last of them first. -/
theorem list_nil_of_keeps {s : Store} {es : List Entry} (hk : s.Keeps (es ++ new))
    (hnew : ∀ e ∈ new, e.user = user ∧ e.time = now.instant) :
    ∃ older : List Entry, Ledger.list s [] now user =
      .ok (.listed (initial now) (((new.reverse ++ older).take defaultLimit).map Entry.readBack)
        none) := by
  have hw : ∀ e ∈ new, ((initial now).query user).Wants e := by
    intro e he
    obtain ⟨hu, htime⟩ := hnew e he
    exact wants_initial hz ht hu htime
  have hend : ∀ e ∈ new, e.time = ((initial now).query user).window.last := by
    intro e he
    exact (hnew e he).2
  have hf : ((initial now).query user).window.first.year ≤ 9999 := year_first_initial_le hz ht
  have hl : ((initial now).query user).window.last.year ≤ 9999 := ht.2
  have hq := hk.query_eq ((initial now).query user)
  rw [hk.found_append hf hl hw hend] at hq
  exact ⟨_, Ledger.list_nil hq⟩

end Fixed

theorem shows_take (new older : List Entry) :
    List.Forall₂ Entry.Shows
      ((((new.reverse ++ older).take defaultLimit).map Entry.readBack).take (min new.length 10))
      (new.reverse.take 10) := by
  have hl : min (min new.length 10) 10 ≤ new.reverse.length := by
    rw [List.length_reverse]
    omega
  have htake : new.reverse.take (min (min new.length 10) 10) = new.reverse.take 10 := by
    rw [List.take_eq_take_iff, List.length_reverse]
    omega
  rw [← List.map_take, List.take_take, defaultLimit, List.take_append_of_le_length hl, htake,
    List.forall₂_map_left_iff, List.forall₂_same]
  intro e _
  exact e.shows_readBack

end Listing

namespace Operation

variable {ops : List Operation} {w : DedupWindow} {m : Submission}

/-- A listing has exactly the newest of the standing entries that its settings admit, up to its
limit. None of them is before the first date exactly if that is of year 9999 at the latest, or if
there are none. -/
theorem answer_listed (defaultCurrency : String) (hp : ∀ op ∈ ops, op.IsPlain)
    (hm : m.now.instant.IsPlain) {l : Listing} {listed : List Entry} {groups : Option (List Group)}
    (h : (m.answer w (run (.empty defaultCurrency) ops)).2.result =
      .ok (.listed l listed groups)) :
    (∀ e ∈ listed, l.Admits m.user e) ∧
      ((∀ e ∈ listed, l.first.toMicros ≤ e.time.toMicros) ↔
        l.first.year ≤ 9999 ∨ listed = []) ∧
      ∃ admitted : List Entry,
        (∀ e, e ∈ admitted ↔ e ∈ entries defaultCurrency ops ∧ l.Admits m.user e) ∧
          admitted.Pairwise Entry.Precedes ∧
          listed = (admitted.take l.limit).map Entry.readBack := by
  have hk := keeps_entries defaultCurrency hp
  obtain ⟨words, hparse, hq⟩ := Submission.of_listed h
  have hl : l.last.year ≤ 9999 := by
    rw [Listing.last_of_parse hparse]
    exact hm.2
  have hadmitted := Listing.mem_found_query_iff m.user hk.toKeepable hl
  rw [hk.query_eq] at hq
  cases hq
  -- reading a row back cuts its time to microseconds, in which all bounds are compared
  have hlisted : ∀ e ∈ (((l.query m.user).found (entries defaultCurrency ops)).take l.limit).map
      Entry.readBack, e.time.IsPlain ∧ l.Admits m.user e := by
    intro e he
    obtain ⟨e', he', rfl⟩ := List.mem_map.1 he
    obtain ⟨hmem, hadmits⟩ := (hadmitted e').1 (List.mem_of_mem_take he')
    exact ⟨hk.plain e' hmem, hadmits.readBack⟩
  refine ⟨?_, Listing.forall_first_le_iff hlisted, _, hadmitted, hk.found_precedes _, rfl⟩
  intro e he
  exact (hlisted e he).2

def ask (text : String) (seconds : Int) : Submission :=
  ⟨1, text, ⟨.ofSeconds seconds, .fixed 0⟩⟩

theorem answer_listed_groceries :
    let ops := [getOrCreateUser 1, getOrCreateUser 2,
      create [purchase 1 1741996799 0 "a", purchase 1 1742032800 700 "b",
        purchase 2 1742032800 0 "c"]]
    let l : Listing :=
      ⟨.ofSeconds 1741996800, .ofSeconds 1742036400, some "Groceries", none, false, 5⟩
    let shown : Entry := (purchase 1 1742032800 0 "b").withId 2
    ((ask "ls 5 15/03/2025 g" 1742036400).answer (.ofSeconds 60)
        (run (.empty "NZD") ops)).2.result = .ok (.listed l [shown] none) ∧
      (∀ e ∈ [shown], l.Admits 1 e) ∧
        ((∀ e ∈ [shown], l.first.toMicros ≤ e.time.toMicros) ↔
          l.first.year ≤ 9999 ∨ [shown] = []) ∧
        ∃ admitted : List Entry,
          (∀ e, e ∈ admitted ↔ e ∈ entries "NZD" ops ∧ l.Admits 1 e) ∧
            admitted.Pairwise Entry.Precedes ∧
            [shown] = (admitted.take l.limit).map Entry.readBack := by
  intro ops l shown
  have hp : ∀ op ∈ ops, op.IsPlain := by decide
  have h : ((ask "ls 5 15/03/2025 g" 1742036400).answer (.ofSeconds 60)
      (run (.empty "NZD") ops)).2.result = .ok (.listed l [shown] none) := by
    decide +kernel
  exact ⟨h, answer_listed "NZD" hp (by decide) h⟩

/-- A purchase of 2024 is listed since the year 10000. -/
theorem listed_before_first :
    let l : Listing := ⟨.ofSeconds 253402300800, .ofSeconds 1742032800, none, none, false, 10⟩
    ∃ e : Entry,
      ((ask "ls 01/01/+10000" 1742032800).answer (.ofSeconds 1)
        (run (.empty "NZD") [submission (.ofSeconds 1) (ask "add G 1" 1704067200)])).2.result =
          .ok (.listed l [e] none) ∧
        e.time.toMicros < l.first.toMicros := by
  intro l
  refine ⟨⟨⟨1, "Groceries", ⟨false, 1, 0, by decide, by decide⟩, "NZD", "", .ofSeconds 1704067200,
    "3d6e7448ea0621ab3047a85ce3c8b5de6dfa86f9d4e70ed80ee5e215809261d1"⟩, 1⟩, ?_, ?_⟩
  · decide +kernel
  · decide

/-- A plain `ls` right after an `add` that has stored entries, from the same place, starts with
these: the last of them first, and ten of them at most. -/
theorem answer_list_of_added (defaultCurrency : String) (hp : ∀ op ∈ ops, op.IsPlain)
    (hm : m.now.instant.IsPlain) {offset : Int} (hz : m.now.zone = .fixed offset)
    {new : List Entry}
    (h : (m.answer w (run (.empty defaultCurrency) ops)).2.result = .ok (.added new))
    {text : String} (ht : Command.parse text = .list []) :
    let t := (m.answer w (run (.empty defaultCurrency) ops)).1
    ∃ listed : List Entry,
      { m with text }.answer w t = (t, ⟨.list, .ok (.listed (.initial m.now) listed none)⟩) ∧
        List.Forall₂ Entry.Shows (listed.take (min new.length 10)) (new.reverse.take 10) := by
  intro t
  have hk : t.Keeps (entries defaultCurrency ops ++ new) := by
    have hk := keeps_answer (keeps_entries defaultCurrency hp) w hm
    rw [Reply.standing_of_result_added _ h] at hk
    exact hk
  have hnew : ∀ e ∈ new, e.user = m.user ∧ e.time = m.now.instant := by
    intro e he
    apply (effect_answer w (run (.empty defaultCurrency) ops) m).of_mem_added
    rw [Reply.added_of_result h]
    exact he
  obtain ⟨older, hlist⟩ := Listing.list_nil_of_keeps hz hm hk hnew
  refine ⟨_, ?_, Listing.shows_take new older⟩
  have hcmd : Command.parse { m with text }.text = .list [] := ht
  rw [Submission.answer_of_list hcmd, hlist]

/-- There is an older entry in the microsecond of the new ones. -/
theorem answer_list_of_added_dinner :
    let ops := [getOrCreateUser 1, create [purchase 1 1742032800 400 "a"]]
    let m := ask "add G (10-20.50) dinner" 1742032800
    let new := (m.answer (.ofSeconds 60) (run (.empty "NZD") ops)).2.added
    new.length = 2 ∧
      let t := (m.answer (.ofSeconds 60) (run (.empty "NZD") ops)).1
      ∃ listed : List Entry,
        { m with text := "ls" }.answer (.ofSeconds 60) t =
            (t, ⟨.list, .ok (.listed (.initial m.now) listed none)⟩) ∧
          List.Forall₂ Entry.Shows (listed.take (min new.length 10)) (new.reverse.take 10) := by
  intro ops m new
  have hp : ∀ op ∈ ops, op.IsPlain := by decide
  have hm : m.now.instant.IsPlain := by decide
  have hz : m.now.zone = .fixed 0 := rfl
  have hn : new.length = 2 := by decide +kernel
  have h := Reply.result_of_added_ne_nil (List.ne_nil_of_length_eq_add_one hn)
  have ht : Command.parse "ls" = .list [] := by decide +kernel
  exact ⟨hn, answer_list_of_added "NZD" hp hm hz h ht⟩

end Operation

end PersonalLedger
