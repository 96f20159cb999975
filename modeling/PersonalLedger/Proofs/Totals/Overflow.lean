import PersonalLedger.Proofs.Totals.Grouping

namespace PersonalLedger.Totals

variable {keyOf : Entry → GroupKey} {entries before : List Entry} {e : Entry} {key : GroupKey}
  {amount : Decimal} {groups : List Group}

theorem add?_of_insert_eq_none (h : insert key amount groups = none) (hr : Rising groups) :
    (held key groups).1.add? amount = none := by
  induction groups with
  | nil =>
    rw [insert, Option.map_eq_none_iff] at h
    exact h
  | cons g gs ih =>
    rw [insert] at h
    split at h
    · next hkey =>
      rw [held, if_pos hkey]
      exact Option.map_eq_none_iff.1 h
    · next hkey =>
      split at h
      · next hlt =>
        rw [held_of_not_mem (hr.not_mem_keys hlt)]
        exact Option.map_eq_none_iff.1 h
      · rw [held, if_neg hkey]
        exact ih (Option.map_eq_none_iff.1 h) (List.pairwise_cons.1 hr).2

def amountsOf (keyOf : Entry → GroupKey) (entries : List Entry) (key : GroupKey) : List Decimal :=
  (counted keyOf entries key).map (·.amount)

/-- The sum that runs up to an entry: of the amounts with its key among the entries before it, and
its own. -/
def runningSum? (keyOf : Entry → GroupKey) (before : List Entry) (e : Entry) : Option Decimal :=
  sum? (amountsOf keyOf (before ++ [e]) (keyOf e))

theorem runningSum?_eq (keyOf : Entry → GroupKey) (before : List Entry) (e : Entry) :
    runningSum? keyOf before e = (sum? (amountsOf keyOf before (keyOf e))).bind (·.add? e.amount) := by
  rw [runningSum?, amountsOf, counted_concat_self, List.map_append, List.map_singleton,
    sum?_concat, amountsOf]

theorem Covers.runningSum?_eq (h : Covers keyOf before groups) (e : Entry) :
    runningSum? keyOf before e = (held (keyOf e) groups).1.add? e.amount := by
  rw [Totals.runningSum?_eq, amountsOf, h.sum, Option.bind_some]

def Addable (keyOf : Entry → GroupKey) (entries : List Entry) : Prop :=
  ∀ before e, before ++ [e] <+: entries → runningSum? keyOf before e ≠ none

theorem addable_nil (keyOf : Entry → GroupKey) : Addable keyOf [] := by
  intro before e h
  exact absurd (List.prefix_nil.1 h) (List.concat_ne_nil e before)

theorem Addable.concat (h : Addable keyOf entries) (he : runningSum? keyOf entries e ≠ none) :
    Addable keyOf (entries ++ [e]) := by
  intro before x hx
  rcases List.prefix_concat_iff.1 hx with heq | hx
  · obtain ⟨rfl, hxe⟩ := List.append_inj' heq rfl
    cases hxe
    exact he
  · exact h before x hx

/-- Whether `e`, right behind `before`, is the first of the entries at which a running sum
overflows. -/
structure FirstOverflow (keyOf : Entry → GroupKey) (entries before : List Entry) (e : Entry) :
    Prop where
  at_entry : before ++ [e] <+: entries
  overflows : runningSum? keyOf before e = none
  addable : Addable keyOf before

theorem FirstOverflow.eq_of_prefix {before' : List Entry} {e' : Entry}
    (h : FirstOverflow keyOf entries before e) (h' : FirstOverflow keyOf entries before' e')
    (hp : before ++ [e] <+: before' ++ [e']) : e = e' := by
  rcases List.prefix_concat_iff.1 hp with heq | hp
  · exact List.head_eq_of_cons_eq (List.append_inj' heq rfl).2
  · exact absurd h.overflows (h'.addable before e hp)

theorem FirstOverflow.unique {before' : List Entry} {e' : Entry}
    (h : FirstOverflow keyOf entries before e) (h' : FirstOverflow keyOf entries before' e') :
    e = e' := by
  rcases List.prefix_or_prefix_of_prefix h.at_entry h'.at_entry with hp | hp
  · exact h.eq_of_prefix h' hp
  · exact (h'.eq_of_prefix h hp).symm

theorem ofEntries_cases (keyOf : Entry → GroupKey) (entries : List Entry) :
    (Addable keyOf entries ∧ ∃ groups, ofEntries keyOf entries = .ok groups) ∨
      ∃ before e, FirstOverflow keyOf entries before e ∧
        ofEntries keyOf entries = .error (.totalOverflow e.category) := by
  induction entries using List.reverseRecOn with
  | nil => exact .inl ⟨addable_nil keyOf, [], rfl⟩
  | append_singleton entries e ih =>
    rw [ofEntries_concat]
    rcases ih with ⟨ha, groups, hg⟩ | ⟨before, x, hx, hg⟩
    · have hc := covers_of_ofEntries hg
      rw [hg]
      simp only [Except.bind]
      cases hi : insert (keyOf e) e.amount groups with
      | none =>
        have hsum : runningSum? keyOf entries e = none := by
          rw [hc.runningSum?_eq]
          exact add?_of_insert_eq_none hi hc.rising
        exact .inr ⟨entries, e, ⟨List.prefix_rfl, hsum, ha⟩, rfl⟩
      | some groups' =>
        have hsum : runningSum? keyOf entries e ≠ none := by
          rw [hc.runningSum?_eq, ((inserts_of_insert hi).held_self hc.rising).1]
          exact Option.some_ne_none _
        exact .inl ⟨ha.concat hsum, groups', rfl⟩
    · rw [hg]
      exact .inr ⟨before, x, ⟨hx.at_entry.trans (List.prefix_append entries [e]), hx.overflows,
        hx.addable⟩, rfl⟩

theorem Addable.exists_ofEntries_eq_ok (h : Addable keyOf entries) :
    ∃ groups, ofEntries keyOf entries = .ok groups := by
  rcases ofEntries_cases keyOf entries with ⟨-, hok⟩ | ⟨before, e, he, -⟩
  · exact hok
  · exact absurd he.overflows (h before e he.at_entry)

theorem ofEntries_eq_error_iff {f : Failure} : ofEntries keyOf entries = .error f ↔
    ∃ before e, FirstOverflow keyOf entries before e ∧ f = .totalOverflow e.category := by
  constructor
  · intro hf
    rcases ofEntries_cases keyOf entries with ⟨-, groups, hg⟩ | ⟨before, e, he, hg⟩
    · rw [hf] at hg
      cases hg
    · rw [hf] at hg
      cases hg
      exact ⟨before, e, he, rfl⟩
  · rintro ⟨before, e, he, rfl⟩
    rcases ofEntries_cases keyOf entries with ⟨ha, -⟩ | ⟨before', e', he', hg⟩
    · exact absurd he.overflows (ha before e he.at_entry)
    · rw [hg, he.unique he']

theorem exists_ofEntries_eq_error_iff : (∃ f, ofEntries keyOf entries = .error f) ↔
    ∃ before e, before ++ [e] <+: entries ∧ runningSum? keyOf before e = none := by
  constructor
  · rintro ⟨f, hf⟩
    obtain ⟨before, e, he, -⟩ := ofEntries_eq_error_iff.1 hf
    exact ⟨before, e, he.at_entry, he.overflows⟩
  · rintro ⟨before, e, he, hsum⟩
    rcases ofEntries_cases keyOf entries with ⟨ha, -⟩ | ⟨_, x, -, hf⟩
    · exact absurd hsum (ha before e he)
    · exact ⟨_, hf⟩

/-- Totals of entries: either the keys rise, are those of the entries, and each stands with the
number and the sum of the entries that have it; or the sum of one key overflows on its way, and the
first entry at which that happens tells the category. -/
theorem ofEntries_grouping (keyOf : Entry → GroupKey) (entries : List Entry) :
    (∀ groups, ofEntries keyOf entries = .ok groups →
        (groups.Pairwise fun g g' => g.key.category < g'.key.category ∨
          g.key.category = g'.key.category ∧ g.key.currency < g'.key.currency) ∧
        (∀ key, key ∈ groups.map (·.key) ↔ key ∈ entries.map keyOf) ∧
        ∀ g ∈ groups, g.count = (counted keyOf entries g.key).length ∧
          sum? (amountsOf keyOf entries g.key) = some g.total) ∧
      ((∃ f, ofEntries keyOf entries = .error f) ↔
        ∃ before e, before ++ [e] <+: entries ∧ runningSum? keyOf before e = none) ∧
      ∀ f, ofEntries keyOf entries = .error f ↔
        ∃ before e, FirstOverflow keyOf entries before e ∧ f = .totalOverflow e.category := by
  refine ⟨?_, exists_ofEntries_eq_error_iff, fun f => ofEntries_eq_error_iff⟩
  intro groups hg
  have hc := covers_of_ofEntries hg
  refine ⟨hc.rising.imp GroupKey.lt_iff.1, hc.keys, ?_⟩
  intro g hm
  exact ⟨hc.count_of_mem hm, hc.sum_of_mem hm⟩

end PersonalLedger.Totals
