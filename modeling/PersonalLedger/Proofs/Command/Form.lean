import PersonalLedger.Command.Listing
import PersonalLedger.Proofs.Registry
import PersonalLedger.Proofs.Text.Numeral

namespace PersonalLedger.Listing

open Text

/-- The place of a form in the order in which the forms of a word are tried. -/
def Form.rank : Form → Nat
  | .allTime => 0
  | .totals => 1
  | .limit _ => 2
  | .since _ => 3
  | .category _ => 4
  | .currency _ => 5

/-- What a word can be read as. Nothing here says which form comes first. -/
inductive Reads (word : String) : Form → Prop where
  | allTime (wildcard : word = "*") : Reads word .allTime
  | totals (wildcard : word = "+") : Reads word .totals
  | limit {count : Nat} (numeral : Spells word.toList count) (pos : 1 ≤ count)
    (le : count ≤ 100) : Reads word (.limit count)
  | since {date : Date} (written : date? word = some date) : Reads word (.since date)
  | category {category : Category} (known : category ∈ Registry.categories)
    (key : category.shortName = Registry.lookupKey word) : Reads word (.category category.name)
  | currency {currency : Currency} {code : String} (marker : word.toList = '$' :: code.toList)
    (known : currency ∈ Registry.currencies) (key : currency.code = Registry.lookupKey code) :
    Reads word (.currency currency.code)

/-- Whether a form is the first that a word can be read as. -/
structure Means (word : String) (form : Form) : Prop where
  reads : Reads word form
  first : ∀ other, Reads word other → form.rank ≤ other.rank

variable {word : String} {form other : Form} {k : Nat}

theorem reads_limit_iff {count : Nat} : Reads word (.limit count) ↔ limit? word = some count := by
  have hrange (h0 : 0 < count) : natural? (2 ^ 32) word.toList = some count ↔
      Spells word.toList count ∧ count < 2 ^ 32 := natural?_eq_some_iff h0
  rw [limit?, Option.filter_eq_some_iff, Bool.and_eq_true, decide_eq_true_eq, decide_eq_true_eq,
    maxLimit]
  constructor
  · intro h
    cases h with
    | limit numeral pos le => exact ⟨(hrange pos).2 ⟨numeral, by omega⟩, pos, le⟩
  · rintro ⟨h, pos, le⟩
    exact .limit ((hrange pos).1 h).1 pos le

theorem reads_since_iff {date : Date} : Reads word (.since date) ↔ date? word = some date := by
  constructor
  · intro h
    cases h with
    | since written => exact written
  · exact .since

theorem reads_category_iff {name : String} :
    Reads word (.category name) ↔ category? word = some name := by
  rw [category?, Option.map_eq_some_iff]
  simp only [Registry.category?_eq_some_iff]
  constructor
  · intro h
    cases h with
    | category known key => exact ⟨_, ⟨known, key⟩, rfl⟩
  · rintro ⟨c, ⟨known, key⟩, rfl⟩
    exact .category known key

theorem currency?_eq_some_iff {code : String} : currency? word = some code ↔
    ∃ c : Currency, Registry.marker word = .supported c ∧ c.code = code := by
  rw [currency?]
  cases Registry.marker word with
  | supported c =>
    simp only [Option.some_inj, Registry.Marker.supported.injEq, exists_eq_left']
  | _ => simp only [reduceCtorEq, false_and, exists_false]

theorem reads_currency_iff {code : String} :
    Reads word (.currency code) ↔ currency? word = some code := by
  simp only [currency?_eq_some_iff, Registry.marker_eq_supported_iff,
    Registry.currency?_eq_some_iff]
  constructor
  · intro h
    cases h with
    | currency marker known key => exact ⟨_, ⟨_, marker, known, key⟩, rfl⟩
  · rintro ⟨c, ⟨_, marker, known, key⟩, rfl⟩
    exact .currency marker known key

/-- What a word says in the form at a place of the order. -/
def reading? (word : String) : Nat → Option Form
  | 0 => if word = "*" then some .allTime else none
  | 1 => if word = "+" then some .totals else none
  | 2 => (limit? word).map .limit
  | 3 => (date? word).map .since
  | 4 => (category? word).map .category
  | _ => (currency? word).map .currency

theorem reads_iff : Reads word form ↔ reading? word form.rank = some form := by
  cases form with
  | allTime =>
    rw [Form.rank, reading?, Option.ite_none_right_eq_some]
    constructor
    · intro h
      cases h with
      | allTime wildcard => exact ⟨wildcard, rfl⟩
    · rintro ⟨wildcard, -⟩
      exact .allTime wildcard
  | totals =>
    rw [Form.rank, reading?, Option.ite_none_right_eq_some]
    constructor
    · intro h
      cases h with
      | totals wildcard => exact ⟨wildcard, rfl⟩
    · rintro ⟨wildcard, -⟩
      exact .totals wildcard
  | limit count =>
    simp only [reads_limit_iff, Form.rank, reading?, Option.map_eq_some_iff, Form.limit.injEq,
      exists_eq_right]
  | since date =>
    simp only [reads_since_iff, Form.rank, reading?, Option.map_eq_some_iff, Form.since.injEq,
      exists_eq_right]
  | category name =>
    simp only [reads_category_iff, Form.rank, reading?, Option.map_eq_some_iff,
      Form.category.injEq, exists_eq_right]
  | currency code =>
    simp only [reads_currency_iff, Form.rank, reading?, Option.map_eq_some_iff,
      Form.currency.injEq, exists_eq_right]

theorem rank_of_reading? (hk : k < 6) (h : reading? word k = some form) : form.rank = k := by
  match k with
  | 0 =>
    rw [reading?, Option.ite_none_right_eq_some] at h
    cases h.2
    rfl
  | 1 =>
    rw [reading?, Option.ite_none_right_eq_some] at h
    cases h.2
    rfl
  | 2 | 3 | 4 | 5 =>
    obtain ⟨_, -, rfl⟩ := Option.map_eq_some_iff.1 h
    rfl

theorem form?_eq_findSome? (word : String) :
    form? word = (List.range 6).findSome? (reading? word) := by
  have hrange : List.range 6 = [0, 1, 2, 3, 4, 5] := rfl
  rw [form?, allTimeWord, totalsWord, hrange]
  simp only [List.findSome?_cons, List.findSome?_nil, reading?]
  by_cases h0 : word = "*"
  · simp only [if_pos h0]
  by_cases h1 : word = "+"
  · simp only [if_neg h0, if_pos h1]
  simp only [if_neg h0, if_neg h1]
  cases limit? word <;> cases date? word <;> cases category? word <;> cases currency? word <;> rfl

theorem Form.rank_lt (form : Form) : form.rank < 6 := by
  cases form <;> rw [rank] <;> decide

theorem means_of_form? (h : form? word = some form) : Means word form := by
  rw [form?_eq_findSome?, List.findSome?_eq_some_iff] at h
  obtain ⟨before, k, after, hrange, hk, hnone⟩ := h
  have hk6 : k < 6 := by
    rw [← List.mem_range, hrange]
    exact List.mem_append_right _ List.mem_cons_self
  have hrank := rank_of_reading? hk6 hk
  refine ⟨reads_iff.2 (hrank.symm ▸ hk), ?_⟩
  intro other hother
  have hmem : other.rank ∈ before ++ k :: after := hrange ▸ List.mem_range.2 other.rank_lt
  have hlt : (before ++ k :: after).Pairwise (· < ·) := hrange ▸ List.pairwise_lt_range
  rw [hrank]
  rcases List.mem_append.1 hmem with hb | hk
  · have hother := reads_iff.1 hother
    rw [hnone other.rank hb] at hother
    cases hother
  · rcases List.mem_cons.1 hk with he | ha
    · exact Nat.le_of_eq he.symm
    · exact Nat.le_of_lt ((List.pairwise_cons.1 (List.pairwise_append.1 hlt).2.1).1 other.rank ha)

theorem form?_eq_none_iff : form? word = none ↔ ∀ form, ¬ Reads word form := by
  constructor
  · intro h form hform
    rw [form?_eq_findSome?, List.findSome?_eq_none_iff] at h
    rw [reads_iff, h form.rank (List.mem_range.2 form.rank_lt)] at hform
    cases hform
  · intro h
    cases hf : form? word with
    | none => rfl
    | some form => exact absurd (means_of_form? hf).reads (h form)

theorem form?_eq_some_iff : form? word = some form ↔ Means word form := by
  constructor
  · exact means_of_form?
  · intro h
    cases hf : form? word with
    | none => exact absurd h.reads (form?_eq_none_iff.1 hf form)
    | some other =>
      have hother := means_of_form? hf
      have hrank := Nat.le_antisymm (hother.first form h.reads) (h.first other hother.reads)
      have he := reads_iff.1 hother.reads
      rw [hrank, reads_iff.1 h.reads] at he
      exact he.symm

end PersonalLedger.Listing
