import Mathlib.Data.List.Induction
import Mathlib.Data.List.Perm.Subperm
import PersonalLedger.Proofs.Command.Form
import PersonalLedger.Proofs.Time.Cycle
import PersonalLedger.Proofs.Traverse

namespace PersonalLedger

namespace Listing

variable {α : Type} {now : Moment} {words words' : List String} {word : String} {l : Listing}
  {fs fs' : List Form} {f : Form}

namespace Form

def first? (zone : Zone) : Form → Option Instant
  | .allTime => some .epoch
  | .since date => some (zone.midnight date)
  | _ => none

def category? : Form → Option String
  | .category name => some name
  | _ => none

def currency? : Form → Option String
  | .currency code => some code
  | _ => none

end Form

/-- What the last of the forms that say something says. -/
def last? (setting : Form → Option α) (forms : List Form) : Option α :=
  (forms.filterMap setting).getLast?

theorem last?_concat (setting : Form → Option α) (fs : List Form) (f : Form) :
    last? setting (fs ++ [f]) = (setting f).or (last? setting fs) := by
  rw [last?, List.filterMap_append, List.getLast?_append, last?]
  cases hf : setting f with
  | none => rw [List.filterMap_cons_none hf, List.filterMap_nil]; rfl
  | some x => rw [List.filterMap_cons_some hf, List.filterMap_nil]; rfl

/-- The settings that forms make but for an explicit limit, read off the forms as a whole. -/
theorem foldl_adjust (now : Moment) (fs : List Form) :
    fs.foldl (adjust now.zone) (initial now) =
      { first := (last? (Form.first? now.zone) fs).getD (Cycle.start now)
        last := now.instant
        category := last? Form.category? fs
        currency := last? Form.currency? fs
        totals := decide (.totals ∈ fs)
        limit := if .allTime ∈ fs ∨ .totals ∈ fs then 100 else 10 } := by
  induction fs using List.reverseRecOn with
  | nil => rfl
  | append_singleton fs f ih =>
    rw [List.foldl_append, ih, List.foldl_cons, List.foldl_nil]
    simp only [last?_concat, List.mem_append, List.mem_singleton]
    cases f <;>
      simp [adjust, Form.first?, Form.category?, Form.currency?, maxLimit]

theorem ofForms_eq (now : Moment) (fs : List Form) :
    ofForms now fs =
      { first := (last? (Form.first? now.zone) fs).getD (Cycle.start now)
        last := now.instant
        category := last? Form.category? fs
        currency := last? Form.currency? fs
        totals := decide (.totals ∈ fs)
        limit := (last? Form.limit? fs).getD
          (if .allTime ∈ fs ∨ .totals ∈ fs then 100 else 10) } := by
  rw [ofForms, foldl_adjust, ← last?]
  cases last? Form.limit? fs with
  | none => rfl
  | some count => rfl

def meaning (word : String) : Except Failure Form :=
  match form? word with
  | some form => .ok form
  | none => .error (.invalidArgument word)

theorem forms_eq_mapM (words : List String) : forms words = words.mapM meaning := rfl

theorem meaning_eq_ok_iff : meaning word = .ok f ↔ Means word f := by
  rw [← form?_eq_some_iff, meaning]
  cases form? word with
  | some form => rw [Except.ok.injEq, Option.some_inj]
  | none => simp only [reduceCtorEq]

theorem meaning_eq_error_iff {e : Failure} :
    meaning word = .error e ↔ (∀ form, ¬ Reads word form) ∧ e = .invalidArgument word := by
  rw [← form?_eq_none_iff, meaning]
  cases form? word with
  | some form => simp only [reduceCtorEq, false_and]
  | none => rw [Except.error.injEq, and_iff_right rfl, eq_comm]

theorem exists_meaning_eq_ok_iff :
    (∃ form, meaning word = .ok form) ↔ ∃ form, Reads word form := by
  constructor
  · rintro ⟨form, h⟩
    exact ⟨form, (meaning_eq_ok_iff.1 h).reads⟩
  · intro h
    cases hm : meaning word with
    | ok form => exact ⟨form, rfl⟩
    | error e =>
      obtain ⟨form, hform⟩ := h
      exact absurd hform ((meaning_eq_error_iff.1 hm).1 form)

theorem forms_eq_ok_iff : forms words = .ok fs ↔ List.Forall₂ Means words fs := by
  simp only [forms_eq_mapM, mapM_eq_ok_iff, meaning_eq_ok_iff]

theorem exists_means (hfs : List.Forall₂ Means words fs) (hw : word ∈ words) :
    ∃ form, Means word form := by
  obtain ⟨form, hform⟩ := exists_of_mapM_eq_ok (forms_eq_ok_iff.2 hfs) hw
  exact ⟨form, meaning_eq_ok_iff.1 hform⟩

theorem parse_eq_ok_iff :
    parse now words = .ok l ↔ ∃ fs, List.Forall₂ Means words fs ∧ l = ofForms now fs := by
  simp only [← forms_eq_ok_iff, parse]
  cases forms words with
  | ok fs =>
    simp only [Except.map, Except.ok.injEq, exists_eq_left', eq_comm]
  | error e => simp only [Except.map, reduceCtorEq, false_and, exists_false]

theorem last_of_parse (h : parse now words = .ok l) : l.last = now.instant := by
  obtain ⟨fs, -, rfl⟩ := parse_eq_ok_iff.1 h
  rw [ofForms_eq]

theorem parse_eq_error_iff {e : Failure} : parse now words = .error e ↔
    ∃ before word after, words = before ++ word :: after ∧
      (∀ v ∈ before, ∃ form, Reads v form) ∧ (∀ form, ¬ Reads word form) ∧
        e = .invalidArgument word := by
  have hforms : parse now words = .error e ↔ forms words = .error e := by
    rw [parse]
    cases forms words with
    | ok fs => simp only [Except.map, reduceCtorEq]
    | error e' => simp only [Except.map, Except.error.injEq]
  simp only [hforms, forms_eq_mapM, mapM_eq_error_iff, exists_meaning_eq_ok_iff,
    meaning_eq_error_iff]

theorem exists_parse_eq_error_iff :
    (∃ e, parse now words = .error e) ↔ ∃ word ∈ words, ∀ form, ¬ Reads word form := by
  constructor
  · rintro ⟨e, he⟩
    obtain ⟨before, word, after, rfl, -, hword, -⟩ := parse_eq_error_iff.1 he
    exact ⟨word, List.mem_append_right _ List.mem_cons_self, hword⟩
  · rintro ⟨word, hmem, hword⟩
    cases hp : parse now words with
    | error e => exact ⟨e, rfl⟩
    | ok l =>
      obtain ⟨fs, hfs, -⟩ := parse_eq_ok_iff.1 hp
      obtain ⟨form, hform⟩ := exists_means hfs hmem
      exact absurd hform.reads (hword form)

/-- The words of a listing are refused exactly if one of them cannot be read, and the first such word
is told. Otherwise a listing ends now; the last word about its start, its category, its currency and
its limit decides each of these, and any word for totals asks for them. Without a word about it, a
listing starts with the cycle, and has 100 entries at most if it asks for all time or for totals,
and else 10. -/
theorem parse_closed (now : Moment) (words : List String) :
    ((∃ e, parse now words = .error e) ↔ ∃ word ∈ words, ∀ form, ¬ Reads word form) ∧
      (∀ e, parse now words = .error e ↔ ∃ before word after, words = before ++ word :: after ∧
        (∀ v ∈ before, ∃ form, Reads v form) ∧ (∀ form, ¬ Reads word form) ∧
          e = .invalidArgument word) ∧
      ∀ l, parse now words = .ok l ↔ ∃ fs, List.Forall₂ Means words fs ∧
        l = { first := (last? (Form.first? now.zone) fs).getD (Cycle.start now)
              last := now.instant
              category := last? Form.category? fs
              currency := last? Form.currency? fs
              totals := decide (.totals ∈ fs)
              limit := (last? Form.limit? fs).getD
                (if .allTime ∈ fs ∨ .totals ∈ fs then 100 else 10) } := by
  refine ⟨exists_parse_eq_error_iff, fun e => parse_eq_error_iff, ?_⟩
  intro l
  simp only [← ofForms_eq]
  exact parse_eq_ok_iff

/-- Whether no two words are of one form, whatever they say in it. -/
def OncePerForm (words : List String) : Prop :=
  ((words.filterMap form?).map Form.rank).Nodup

theorem filterMap_form?_of_forall₂ (h : List.Forall₂ Means words fs) :
    words.filterMap form? = fs := by
  induction h with
  | nil => rfl
  | cons hword _ ih => rw [List.filterMap_cons_some (form?_eq_some_iff.2 hword), ih]

theorem perm_of_forall₂ (hfs : List.Forall₂ Means words fs) (hfs' : List.Forall₂ Means words' fs')
    (hp : words'.Perm words) : fs'.Perm fs := by
  rw [← filterMap_form?_of_forall₂ hfs, ← filterMap_form?_of_forall₂ hfs']
  exact hp.filterMap form?

theorem exists_forall₂_means (h : ∀ word ∈ words, ∃ form, Reads word form) :
    ∃ fs, List.Forall₂ Means words fs := by
  obtain ⟨fs, hfs⟩ := exists_mapM_eq_ok fun word hw => exists_meaning_eq_ok_iff.2 (h word hw)
  exact ⟨fs, forms_eq_ok_iff.1 hfs⟩

section Once

variable {setting : Form → Option α} (hn : (fs.map Form.rank).Nodup)

include hn

/-- Of forms with ranks of their own, no more are about a setting than there are ranks about it. -/
theorem length_filterMap_le (ranks : List Nat)
    (hs : ∀ f ∈ fs, ∀ x, setting f = some x → f.rank ∈ ranks) :
    (fs.filterMap setting).length ≤ ranks.length := by
  have hsub : (fs.filter fun f => (setting f).isSome).Sublist fs := List.filter_sublist
  have hnodup := hn.sublist (hsub.map Form.rank)
  have hranks : (fs.filter fun f => (setting f).isSome).map Form.rank ⊆ ranks := by
    intro rank hrank
    obtain ⟨f, hf, rfl⟩ := List.mem_map.1 hrank
    obtain ⟨hmem, hsome⟩ := List.mem_filter.1 hf
    obtain ⟨x, hx⟩ := Option.isSome_iff_exists.1 hsome
    exact hs f hmem x hx
  have hle := (List.subperm_of_subset hnodup hranks).length_le
  rw [List.length_map, ← List.countP_eq_length_filter] at hle
  rw [List.length_filterMap_eq_countP]
  exact hle

theorem last?_of_perm (hp : fs'.Perm fs) (rank : Nat)
    (hs : ∀ f ∈ fs, ∀ x, setting f = some x → f.rank = rank) :
    last? setting fs' = last? setting fs := by
  have hle : (fs.filterMap setting).length ≤ 1 :=
    length_filterMap_le hn [rank] fun f hf x hx => List.mem_singleton.2 (hs f hf x hx)
  have hp := hp.filterMap setting
  rw [last?, last?]
  match hfs : fs.filterMap setting with
  | [] =>
    rw [hfs, List.perm_nil] at hp
    rw [hp]
  | [x] =>
    rw [hfs, List.perm_singleton] at hp
    rw [hp]
  | x :: y :: rest =>
    rw [hfs, List.length_cons, List.length_cons] at hle
    omega

/-- Where two forms are about a setting, it is what the one behind the other says. -/
theorem last?_of_pair {rank rank' : Nat} {f g : Form} {x y : α}
    (hs : ∀ f ∈ fs, ∀ x, setting f = some x → f.rank ∈ [rank, rank'])
    (hpair : [f, g].Sublist fs) (hf : setting f = some x) (hg : setting g = some y) :
    last? setting fs = some y := by
  have hle := length_filterMap_le hn [rank, rank'] hs
  have hsub := hpair.filterMap setting
  rw [List.filterMap_cons_some hf, List.filterMap_cons_some hg, List.filterMap_nil] at hsub
  rw [last?, ← hsub.eq_of_length_le hle]
  rfl

end Once

theorem pair_sublist_or {a b : String} (ha : a ∈ words) (hb : b ∈ words) (hne : a ≠ b) :
    [a, b].Sublist words ∨ [b, a].Sublist words := by
  obtain ⟨before, after, rfl⟩ := List.append_of_mem ha
  rcases List.mem_append.1 hb with hb | hb
  · right
    exact (List.singleton_sublist.2 hb).append (List.singleton_sublist.2 List.mem_cons_self)
  · left
    have hb := List.mem_of_ne_of_mem hne.symm hb
    exact .trans ((List.singleton_sublist.2 hb).cons_cons a) (List.sublist_append_right before _)

theorem means_allTime : Means "*" .allTime := form?_eq_some_iff.1 rfl

theorem means_totals : Means "+" .totals := form?_eq_some_iff.1 rfl

theorem rank_of_first? {zone : Zone} {t : Instant} (h : f.first? zone = some t) :
    f.rank ∈ [Form.allTime.rank, 3] := by
  cases f with
  | allTime => exact List.mem_cons_self
  | since date => exact List.mem_cons_of_mem _ List.mem_cons_self
  | _ => cases h

section Order

variable (hfs : List.Forall₂ Means words fs) (hn : (fs.map Form.rank).Nodup)

include hfs

theorem mem_forms_iff : f ∈ fs ↔ ∃ word ∈ words, Means word f := by
  rw [← filterMap_form?_of_forall₂ hfs, List.mem_filterMap]
  simp only [form?_eq_some_iff]

theorem pair_sublist_forms {word' : String} {f' : Form} (hp : [word, word'].Sublist words)
    (hm : Means word f) (hm' : Means word' f') : [f, f'].Sublist fs := by
  have hsub := hp.filterMap form?
  rw [filterMap_form?_of_forall₂ hfs, List.filterMap_cons_some (form?_eq_some_iff.2 hm),
    List.filterMap_cons_some (form?_eq_some_iff.2 hm'), List.filterMap_nil] at hsub
  exact hsub

include hn

theorem first_of_date_behind {date : Date} (hm : Means word (.since date))
    (hp : ["*", word].Sublist words) : (ofForms now fs).first = now.zone.midnight date := by
  have hpair := pair_sublist_forms hfs hp means_allTime hm
  rw [ofForms_eq, last?_of_pair hn (fun _ _ _ => rank_of_first?) hpair rfl rfl]
  rfl

theorem first_of_allTime_behind {date : Date} (hm : Means word (.since date))
    (hp : [word, "*"].Sublist words) : (ofForms now fs).first = .epoch := by
  have hpair := pair_sublist_forms hfs hp hm means_allTime
  rw [ofForms_eq, last?_of_pair hn (fun _ _ _ => rank_of_first?) hpair rfl rfl]
  rfl

end Order

theorem first_of_perm (hn : (fs.map Form.rank).Nodup) (hp : fs'.Perm fs)
    (h : .allTime ∉ fs ∨ ∀ date, .since date ∉ fs) :
    (ofForms now fs').first = (ofForms now fs).first := by
  have hlast : last? (Form.first? now.zone) fs' = last? (Form.first? now.zone) fs := by
    rcases h with h | h
    · apply last?_of_perm hn hp 3
      intro f hf t ht
      cases f with
      | allTime => exact absurd hf h
      | since date => rfl
      | _ => cases ht
    · apply last?_of_perm hn hp 0
      intro f hf t ht
      cases f with
      | allTime => rfl
      | since date => exact absurd hf (h date)
      | _ => cases ht
  rw [ofForms_eq, ofForms_eq, hlast]

/-- Words in another order make the same settings but for the start. -/
theorem ofForms_of_perm (now : Moment) (hn : (fs.map Form.rank).Nodup) (hp : fs'.Perm fs) :
    { ofForms now fs' with first := (ofForms now fs).first } = ofForms now fs := by
  have hcategory : last? Form.category? fs' = last? Form.category? fs := by
    apply last?_of_perm hn hp 4
    intro f _ x hx
    cases f with
    | category name => rfl
    | _ => cases hx
  have hcurrency : last? Form.currency? fs' = last? Form.currency? fs := by
    apply last?_of_perm hn hp 5
    intro f _ x hx
    cases f with
    | currency code => rfl
    | _ => cases hx
  have hlimit : last? Form.limit? fs' = last? Form.limit? fs := by
    apply last?_of_perm hn hp 2
    intro f _ x hx
    cases f with
    | limit count => rfl
    | _ => cases hx
  simp only [ofForms_eq, hcategory, hcurrency, hlimit, hp.mem_iff]

theorem first_of_both (now : Moment) (hfs : List.Forall₂ Means words fs)
    (hn : (fs.map Form.rank).Nodup) {date : Date} (hm : Means word (.since date))
    (hall : "*" ∈ words) (hw : word ∈ words) :
    (ofForms now fs).first =
      if ["*", word].Sublist words then now.zone.midnight date else .epoch := by
  have hne : "*" ≠ word := by
    rintro rfl
    have he := form?_eq_some_iff.2 hm
    rw [form?_eq_some_iff.2 means_allTime] at he
    cases he
  by_cases hpair : ["*", word].Sublist words
  · rw [if_pos hpair, first_of_date_behind hfs hn hm hpair]
  · rw [if_neg hpair]
    exact first_of_allTime_behind hfs hn hm ((pair_sublist_or hall hw hne).resolve_left hpair)

theorem first_of_perm_iff (hfs : List.Forall₂ Means words fs)
    (hfs' : List.Forall₂ Means words' fs') (hn : (fs.map Form.rank).Nodup)
    (hp : words'.Perm words) :
    (ofForms now fs').first = (ofForms now fs).first ↔
      ∀ word date, Means word (.since date) → now.zone.midnight date ≠ .epoch →
        (["*", word].Sublist words' ↔ ["*", word].Sublist words) := by
  have hpf := perm_of_forall₂ hfs hfs' hp
  have hn' : (fs'.map Form.rank).Nodup := (hpf.map Form.rank).nodup_iff.2 hn
  have hboth {word : String} {date : Date} (hm : Means word (.since date)) (hall : "*" ∈ words)
      (hw : word ∈ words) := first_of_both now hfs hn hm hall hw
  have hboth' {word : String} {date : Date} (hm : Means word (.since date)) (hall : "*" ∈ words)
      (hw : word ∈ words) :=
    first_of_both now hfs' hn' hm (hp.mem_iff.2 hall) (hp.mem_iff.2 hw)
  constructor
  · intro he word date hm hne
    by_cases hmem : "*" ∈ words ∧ word ∈ words
    · rw [hboth hm hmem.1 hmem.2, hboth' hm hmem.1 hmem.2] at he
      split at he <;> split at he
      · next h' h => exact iff_of_true h' h
      · exact absurd he hne
      · exact absurd he.symm hne
      · next h' h => exact iff_of_false h' h
    · have hsub {ws : List String} (hs : ["*", word].Sublist ws) : "*" ∈ ws ∧ word ∈ ws :=
        ⟨hs.subset List.mem_cons_self, hs.subset (List.mem_cons_of_mem _ List.mem_cons_self)⟩
      apply iff_of_false
      · intro hs
        exact hmem ⟨hp.mem_iff.1 (hsub hs).1, hp.mem_iff.1 (hsub hs).2⟩
      · exact fun hs => hmem (hsub hs)
  · intro h
    by_cases hmem : "*" ∈ words ∧ ∃ word ∈ words, ∃ date, Means word (.since date)
    · obtain ⟨hall, word, hw, date, hm⟩ := hmem
      rw [hboth hm hall hw, hboth' hm hall hw]
      by_cases hne : now.zone.midnight date = .epoch
      · rw [hne, ite_self, ite_self]
      · simp only [h word date hm hne]
    · apply first_of_perm hn hpf
      rw [mem_forms_iff hfs]
      by_cases hall : "*" ∈ words
      · right
        intro date hdate
        obtain ⟨word, hw, hm⟩ := (mem_forms_iff hfs).1 hdate
        exact hmem ⟨hall, word, hw, date, hm⟩
      · left
        rintro ⟨word, hw, hm⟩
        cases hm.reads with
        | allTime wildcard => exact hall (wildcard ▸ hw)

theorem eq_iff_first_eq {l l' : Listing} (h : { l' with first := l.first } = l) :
    l' = l ↔ l'.first = l.first := by
  constructor
  · intro he
    rw [he]
  · intro he
    rw [← he] at h
    exact h

/-- Words that can all be read, no two of one form, are accepted in any order, and make the same
settings but for the start. The start is the same too exactly if the word for all time does not
change sides with a date; only where that date starts with the epoch may it do so. -/
theorem parse_of_perm (now : Moment) (hr : ∀ word ∈ words, ∃ form, Reads word form)
    (hn : OncePerForm words) (hp : words'.Perm words) :
    ∃ l l', parse now words = .ok l ∧ parse now words' = .ok l' ∧
      { l' with first := l.first } = l ∧
        (l' = l ↔ ∀ word date, Means word (.since date) → now.zone.midnight date ≠ .epoch →
          (["*", word].Sublist words' ↔ ["*", word].Sublist words)) := by
  obtain ⟨fs, hfs⟩ := exists_forall₂_means hr
  obtain ⟨fs', hfs'⟩ := exists_forall₂_means fun word hw => hr word (hp.mem_iff.1 hw)
  rw [OncePerForm, filterMap_form?_of_forall₂ hfs] at hn
  have hpf := perm_of_forall₂ hfs hfs' hp
  have hrest := ofForms_of_perm now hn hpf
  refine ⟨ofForms now fs, ofForms now fs', parse_eq_ok_iff.2 ⟨fs, hfs, rfl⟩,
    parse_eq_ok_iff.2 ⟨fs', hfs', rfl⟩, hrest, ?_⟩
  rw [eq_iff_first_eq hrest]
  exact first_of_perm_iff hfs hfs' hn hp

theorem reads_of_isSome (h : ∀ word ∈ words, (form? word).isSome = true) :
    ∀ word ∈ words, ∃ form, Reads word form := by
  intro word hw
  obtain ⟨form, hform⟩ := Option.isSome_iff_exists.1 (h word hw)
  exact ⟨form, (form?_eq_some_iff.1 hform).reads⟩

/-- Words of all forms, with the date before the word for all time in both orders. -/
theorem parse_of_perm_all_forms :
    let now : Moment := ⟨.ofSeconds 1742032800, .fixed 46800⟩
    let words := ["G", "+", "05/01/2030", "$usd", "*", "7"]
    let words' := ["7", "$usd", "05/01/2030", "*", "+", "G"]
    ((∀ word ∈ words, ∃ form, Reads word form) ∧ OncePerForm words ∧ words'.Perm words) ∧
      ∃ l l', parse now words = .ok l ∧ parse now words' = .ok l' ∧
        { l' with first := l.first } = l ∧
          (l' = l ↔ ∀ word date, Means word (.since date) → now.zone.midnight date ≠ .epoch →
            (["*", word].Sublist words' ↔ ["*", word].Sublist words)) := by
  intro now words words'
  have hr : ∀ word ∈ words, ∃ form, Reads word form := reads_of_isSome (by decide +kernel)
  have hn : OncePerForm words := by
    rw [OncePerForm]
    decide +kernel
  have hp : words'.Perm words := by decide
  exact ⟨⟨hr, hn, hp⟩, parse_of_perm now hr hn hp⟩

/-- A date behind the word for all time is the start of the listing, and the same date before it is
not. -/
theorem parse_ne_of_date_and_allTime :
    let now : Moment := ⟨.ofSeconds 1742032800, .fixed 0⟩
    let words := ["*", "01/03/2025"]
    let words' := ["01/03/2025", "*"]
    ((∀ word ∈ words, ∃ form, Reads word form) ∧ OncePerForm words ∧ words'.Perm words) ∧
      parse now words = .ok ⟨.ofSeconds 1740787200, now.instant, none, none, false, 100⟩ ∧
      parse now words' = .ok ⟨.epoch, now.instant, none, none, false, 100⟩ ∧
      parse now words' ≠ parse now words := by
  intro now words words'
  have hr : ∀ word ∈ words, ∃ form, Reads word form := reads_of_isSome (by decide +kernel)
  have hn : OncePerForm words := by
    rw [OncePerForm]
    decide +kernel
  exact ⟨⟨hr, hn, by decide⟩, by decide +kernel, by decide +kernel, by decide +kernel⟩

theorem first_of_undated (hp : parse now words = .ok l)
    (h : ∀ word ∈ words, ¬ Means word .allTime ∧ ∀ date, ¬ Means word (.since date)) :
    l.first = Cycle.start now := by
  obtain ⟨fs, hfs, rfl⟩ := parse_eq_ok_iff.1 hp
  have hnone : fs.filterMap (Form.first? now.zone) = [] := by
    rw [List.filterMap_eq_nil_iff]
    intro f hf
    obtain ⟨word, hw, hm⟩ := (mem_forms_iff hfs).1 hf
    cases f with
    | allTime => exact absurd hm (h word hw).1
    | since date => exact absurd hm ((h word hw).2 date)
    | _ => rfl
  rw [ofForms_eq, last?, hnone]
  rfl

/-- The cycle of a moment starts before it, wherever it is seen from, so that a listing without the
word for all time and without a date starts before it ends. -/
theorem first_lt_last (hz : now.zone.WithinDay)
    (hy : 0 ≤ now.date.written.year ∧ now.date.written.year ≤ 9999) :
    Cycle.start now < now.instant ∧ ∀ words l, parse now words = .ok l →
      (∀ word ∈ words, ¬ Means word .allTime ∧ ∀ date, ¬ Means word (.since date)) →
        l.first < l.last := by
  have hlt : Cycle.start now < now.instant := .inl (Cycle.start_seconds_lt hz hy)
  refine ⟨hlt, ?_⟩
  intro words l hp h
  rw [first_of_undated hp h, last_of_parse hp]
  exact hlt

/-- The offset has just jumped back by almost two days. -/
theorem first_lt_last_jump :
    let now : Moment := ⟨.ofSeconds 1740700740, ⟨86399, -86399, 1740700740⟩⟩
    let l : Listing := ⟨Cycle.start now, now.instant, some "Groceries", none, false, 5⟩
    (now.zone.WithinDay ∧ 0 ≤ now.date.written.year ∧ now.date.written.year ≤ 9999) ∧
      (parse now ["g", "5"] = .ok l ∧ ∀ word ∈ ["g", "5"],
        ¬ Means word .allTime ∧ ∀ date, ¬ Means word (.since date)) ∧
        Cycle.start now < now.instant ∧ l.first < l.last := by
  intro now l
  have hz : now.zone.WithinDay := ⟨by decide, by decide⟩
  have hy : 0 ≤ now.date.written.year ∧ now.date.written.year ≤ 9999 := by decide +kernel
  have hp : parse now ["g", "5"] = .ok l := by decide +kernel
  have hg : form? "g" = some (.category "Groceries") := by decide +kernel
  have h5 : form? "5" = some (.limit 5) := by decide +kernel
  have hwords : ∀ word ∈ ["g", "5"],
      ¬ Means word .allTime ∧ ∀ date, ¬ Means word (.since date) := by
    simp only [← form?_eq_some_iff, List.forall_mem_cons, hg, h5]
    simp
  obtain ⟨hstart, hlisting⟩ := first_lt_last hz hy
  exact ⟨⟨hz, hy⟩, ⟨hp, hwords⟩, hstart, hlisting ["g", "5"] l hp hwords⟩

end Listing

end PersonalLedger
