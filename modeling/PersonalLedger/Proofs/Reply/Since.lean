import PersonalLedger.Proofs.Command.Ambiguity
import PersonalLedger.Proofs.Ledger.Effect
import PersonalLedger.Proofs.Reply.Table
import PersonalLedger.Proofs.Time.Midnight
import PersonalLedger.Proofs.Time.StartDate

namespace PersonalLedger

open Text

/-- Whether a text is a date with two digits for the day, two for the month and four for the year. -/
inductive Date.WrittenAs (date : Date) : String → Prop where
  | mk {days months years : List Char} {n : Nat} (day : Digits days date.written.day)
    (dayLength : days.length = 2) (month : Digits months date.written.month)
    (monthLength : months.length = 2) (year : Digits years n) (yearLength : years.length = 4)
    (sameYear : date.written.year = n) :
    WrittenAs date (.ofList (days ++ '/' :: months ++ '/' :: years))

theorem Timestamp.writtenAs_dayText {zone : Zone} {t : Instant} {date : Date}
    (h : zone.localDate t = date)
    (hy : 0 ≤ date.written.year ∧ date.written.year ≤ 9999) :
    date.WrittenAs (dayText zone t) := by
  obtain ⟨hmonth, -, hday⟩ := date.written_bounds
  rw [dayText, h, yearText, if_pos hy]
  exact .mk (digits_padded _ _) (length_padded (by decide) (by omega)) (digits_padded _ _)
    (length_padded (by decide) (by omega)) (digits_padded _ _)
    (length_padded (by decide) (by omega)) (Int.toNat_of_nonneg hy.1).symm

/-- The texts of a listing, of which each names a day. -/
inductive Outcome.TellsSince (zone : Zone) (day : String) : Outcome → String → Prop where
  | nothing {l : Listing} {groups : Option (List Group)} :
    TellsSince zone day (.listed l [] groups) ("No transactions since " ++ day ++ ".")
  | totals {l : Listing} {entries : List Entry} {groups : List Group} (nonempty : entries ≠ []) :
    TellsSince zone day (.listed l entries (some groups))
      ("Totals since " ++ day ++ "\n" ++ Reply.groupTable l.currency groups)
  | entries {l : Listing} {entries : List Entry} (nonempty : entries ≠ []) :
    TellsSince zone day (.listed l entries none)
      (Reply.countText entries.length ++ " since " ++ day ++ "\n" ++ Reply.entryTable zone entries)

theorem Reply.tellsSince_listText (zone : Zone) (l : Listing) (entries : List Entry)
    (groups : Option (List Group)) :
    Outcome.TellsSince zone (Timestamp.dayText zone l.first) (.listed l entries groups)
      (listText zone l entries groups) := by
  by_cases h : entries = []
  · rw [h]
    exact .nothing
  · cases groups with
    | some groups =>
      rw [listText_groups l h]
      exact .totals h
    | none =>
      rw [listText_entries l h]
      exact .entries h

namespace Listing

/-- Whether a listing with these words starts on a date: that of the last word that writes one, or,
if none does, the last 28th before today. -/
inductive StartsOn (today : Date) (words : List String) (date : Date) : Prop where
  | dated {before after : List String} {word : String} (split : words = before ++ word :: after)
    (written : WritesDate word.toList date.written)
    (last : ∀ later ∈ after, ∀ d : Date, ¬ WritesDate later.toList d.written)
  | undated (none : ∀ word ∈ words, ∀ d : Date, ¬ WritesDate word.toList d.written)
    (start : IsGreatest {e : Date | e < today ∧ e.dayOfMonth = 28} date)

variable {α : Type} {words : List String} {word : String} {fs : List Form} {date : Date}
  {now : Moment} {l : Listing}

section Last

variable {setting : Form → Option α} (hfs : List.Forall₂ Means words fs)

include hfs

theorem exists_means_of_last?_eq_none (h : last? setting fs = none) (hw : word ∈ words) :
    ∃ form, Means word form ∧ setting form = none := by
  obtain ⟨form, hm⟩ := exists_means hfs hw
  rw [last?, List.getLast?_eq_none_iff, List.filterMap_eq_nil_iff] at h
  exact ⟨form, hm, h form ((mem_forms_iff hfs).2 ⟨word, hw, hm⟩)⟩

theorem exists_means_of_last?_eq_some {x : α} (h : last? setting fs = some x) :
    ∃ before word after form, words = before ++ word :: after ∧ Means word form ∧
      setting form = some x ∧ ∀ later ∈ after, ∃ form, Means later form ∧ setting form = none := by
  rw [last?, ← filterMap_form?_of_forall₂ hfs, List.filterMap_filterMap, List.getLast?_filterMap,
    List.findSome?_eq_some_iff] at h
  obtain ⟨after, word, before, hsplit, hword, hlater⟩ := h
  rw [List.reverse_eq_append_iff, List.reverse_cons, List.append_assoc] at hsplit
  obtain ⟨form, hform, hx⟩ := Option.bind_eq_some_iff.1 hword
  refine ⟨_, word, _, form, hsplit, form?_eq_some_iff.1 hform, hx, ?_⟩
  intro later hmem
  have hw : later ∈ words := hsplit ▸ List.mem_append_right _ (List.mem_cons_of_mem _ hmem)
  obtain ⟨form, hm⟩ := exists_means hfs hw
  have hnone := hlater later (List.mem_reverse.1 hmem)
  rw [form?_eq_some_iff.2 hm, Option.bind_some] at hnone
  exact ⟨form, hm, hnone⟩

end Last

theorem not_writesDate_of_means {zone : Zone} (d : YearMonthDay)
    (h : ∃ form, Means word form ∧ Form.first? zone form = none) : ¬ WritesDate word.toList d := by
  obtain ⟨form, hm, hnone⟩ := h
  intro hwritten
  have hslash := hwritten.slash_mem
  have hplus : word ≠ "+" := by
    rintro rfl
    cases List.mem_singleton.1 hslash
  have hstar : word ≠ "*" := by
    rintro rfl
    cases List.mem_singleton.1 hslash
  have hrank := rank_eq_placeOf hplus hm.reads
  rw [placeOf, if_neg hstar, if_pos hslash] at hrank
  cases form with
  | since date => cases hnone
  | _ => cases hrank

theorem exists_startsOn (hp : parse now words = .ok l) (hstar : "*" ∉ words)
    (ht : 1 ≤ now.date.written.year ∧ now.date.written.year ≤ 9999)
    (hy : ∀ word ∈ words, ∀ date, Reads word (.since date) →
      0 ≤ date.written.year ∧ date.written.year ≤ 9999) :
    ∃ date, StartsOn now.date words date ∧ l.first = now.zone.midnight date ∧
      0 ≤ date.written.year ∧ date.written.year ≤ 9999 := by
  obtain ⟨fs, hfs, rfl⟩ := parse_eq_ok_iff.1 hp
  rw [ofForms_eq]
  cases hs : last? (Form.first? now.zone) fs with
  | none =>
    obtain ⟨date, hdate, hyear⟩ := Cycle.exists_startDate?_of_year ht
    refine ⟨date, .undated ?_ (Cycle.isGreatest_of_startDate? hdate), Cycle.start_eq hdate, hyear⟩
    intro word hw d
    exact not_writesDate_of_means d.written (exists_means_of_last?_eq_none hfs hs hw)
  | some t =>
    obtain ⟨before, word, after, form, hsplit, hm, htime, hlater⟩ :=
      exists_means_of_last?_eq_some hfs hs
    have hw : word ∈ words := hsplit ▸ List.mem_append_right _ List.mem_cons_self
    have hreads := hm.reads
    cases form with
    | since date =>
      cases htime
      have hwritten := (date?_eq_some_iff.1 (reads_since_iff.1 hreads)).1
      refine ⟨date, .dated hsplit hwritten ?_, rfl, hy word hw date hreads⟩
      exact fun later hmem d => not_writesDate_of_means d.written (hlater later hmem)
    | allTime =>
      cases hreads with
      | allTime wildcard => exact absurd (wildcard ▸ hw) hstar
    | _ => cases htime

end Listing

/-- Seen from a zone with one offset, where it is one of the years 1 to 9999, the reply to a listing
without the word for all time names the date of the last word that is a date, as day, month and year,
or the last 28th before today. The listing starts at midnight of that date. -/
theorem Submission.answer_since (w : DedupWindow) (s : Store) {m : Submission} {offset : Int}
    {words : List String} {o : Outcome} (hz : m.now.zone = .fixed offset)
    (hoffset : offset.natAbs < 86400)
    (ht : 1 ≤ m.now.date.written.year ∧ m.now.date.written.year ≤ 9999)
    (hc : Command.parse m.text = .list words) (hstar : "*" ∉ words)
    (hy : ∀ word ∈ words, ∀ date, Listing.Reads word (.since date) →
      0 ≤ date.written.year ∧ date.written.year ≤ 9999)
    (h : (m.answer w s).2.result = .ok o) :
    ∃ date day, Listing.StartsOn m.now.date words date ∧ date.WrittenAs day ∧
      o.TellsSince m.now.zone day ((m.answer w s).2.render m.now.zone) ∧
        ∃ l entries groups, o = .listed l entries groups ∧
          m.now.zone.ShowsMidnight date l.first := by
  have hrender := Reply.render_of_eq_ok m.now.zone h
  rw [answer_of_list hc] at h
  obtain ⟨l, entries, groups, hp, -, -, rfl⟩ := Ledger.of_list_eq_ok h
  obtain ⟨date, hstarts, hfirst, hyear⟩ := Listing.exists_startsOn hp hstar ht hy
  have hdays := Date.plainYear_iff.1 hyear
  have hmidnight : m.now.zone.ShowsMidnight date l.first := by
    rw [hfirst, hz]
    exact Zone.showsMidnight_fixed (Instant.tells_iff.2 (by omega))
  refine ⟨date, Timestamp.dayText m.now.zone l.first, hstarts, ?_, ?_, l, entries, groups, rfl,
    hmidnight⟩
  · exact Timestamp.writtenAs_dayText (Zone.localDate_of_showsMidnight hmidnight) hyear
  · rw [hrender]
    exact Reply.tellsSince_listText _ _ _ _

/-- West of UTC, a date with short numbers and a signed year comes behind another one. -/
theorem Submission.answer_since_signed :
    let m : Submission :=
      ⟨1, "ls 31/12/2024 g 5/1/+2025 7", ⟨.ofSeconds 1742032800, .fixed (-34200)⟩⟩
    let words := ["31/12/2024", "g", "5/1/+2025", "7"]
    let reply := (m.answer (.ofSeconds 60) (.empty "NZD")).2
    let o := Outcome.listed
      ⟨.ofSeconds 1736069400, m.now.instant, some "Groceries", none, false, 7⟩ [] none
    ((1 ≤ m.now.date.written.year ∧ m.now.date.written.year ≤ 9999) ∧
      Command.parse m.text = .list words ∧ "*" ∉ words ∧
        (∀ word ∈ words, ∀ date, Listing.Reads word (.since date) →
          0 ≤ date.written.year ∧ date.written.year ≤ 9999) ∧ reply.result = .ok o) ∧
      reply.render m.now.zone = "No transactions since 05/01/2025." ∧
      ∃ date day, Listing.StartsOn m.now.date words date ∧ date.WrittenAs day ∧
        o.TellsSince m.now.zone day (reply.render m.now.zone) ∧
          ∃ l entries groups, o = .listed l entries groups ∧
            m.now.zone.ShowsMidnight date l.first := by
  intro m words reply o
  have ht : 1 ≤ m.now.date.written.year ∧ m.now.date.written.year ≤ 9999 := by decide +kernel
  have hc : Command.parse m.text = .list words := by decide +kernel
  have hstar : "*" ∉ words := by decide
  have hdates : ∀ word ∈ words, ∀ date ∈ Listing.date? word,
      0 ≤ date.written.year ∧ date.written.year ≤ 9999 := by decide +kernel
  have hy : ∀ word ∈ words, ∀ date, Listing.Reads word (.since date) →
      0 ≤ date.written.year ∧ date.written.year ≤ 9999 := by
    intro word hw date hreads
    exact hdates word hw date (Listing.reads_since_iff.1 hreads)
  have h : reply.result = .ok o := by decide +kernel
  have hrender : reply.render m.now.zone = "No transactions since 05/01/2025." := by
    decide +kernel
  exact ⟨⟨ht, hc, hstar, hy, h⟩, hrender,
    answer_since (.ofSeconds 60) (.empty "NZD") rfl (by decide) ht hc hstar hy h⟩

end PersonalLedger
