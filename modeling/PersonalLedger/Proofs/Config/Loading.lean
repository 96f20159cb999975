import Mathlib.Data.List.Perm.Subperm
import PersonalLedger.Config
import PersonalLedger.Proofs.Json.RoundTrip
import PersonalLedger.Proofs.Ledger.Recording

namespace PersonalLedger

theorem Registry.currency?_code : ∀ c ∈ currencies, currency? c.code = some c := by
  decide +kernel

namespace Json

variable {key : String} {value : Json} {fields : List (String × Json)}

theorem mem_of_field?_eq_some (h : field? key fields = some value) : (key, value) ∈ fields := by
  obtain ⟨field, hfield, rfl⟩ := Option.map_eq_some_iff.1 h
  have hkey := List.find?_some hfield
  rw [beq_iff_eq] at hkey
  rw [← hkey]
  exact List.mem_of_find?_eq_some hfield

theorem field?_of_mem (hk : (fields.map (·.1)).Nodup) (h : (key, value) ∈ fields) :
    field? key fields = some value := by
  induction fields with
  | nil => cases h
  | cons field fields ih =>
    rw [List.map_cons, List.nodup_cons] at hk
    rcases List.mem_cons.1 h with rfl | h
    · rw [field?, List.find?_cons, beq_self_eq_true]
      rfl
    · have hne : (field.1 == key) = false := by
        rw [beq_eq_false_iff_ne]
        intro hkey
        apply hk.1
        rw [hkey]
        exact List.mem_map_of_mem (f := (·.1)) h
      rw [field?, List.find?_cons, hne]
      exact ih hk.2 h

end Json

namespace Config

variable {c : Config} {value : Json} {fs : List (String × Json)}

theorem keys_nodup (c : Config) : (c.fields.map (·.1)).Nodup := by
  show ["default_currency", "default_user", "dedup_window_secs", "log_filter"].Nodup
  decide

theorem field?_of_perm (h : fs.Perm c.fields) {key : String} (hm : (key, value) ∈ c.fields) :
    Json.field? key fs = some value := by
  apply Json.field?_of_mem
  · exact (h.map _).nodup_iff.2 c.keys_nodup
  · exact h.mem_iff.2 hm

theorem eq_of_sameValue {v w : Json} (h : sameValue v w = true) : v = w := by
  unfold sameValue at h
  split at h
  · rw [beq_iff_eq.1 h]
  · rw [beq_iff_eq.1 h]
  · cases h

theorem sameValue_self {field : String × Json} (h : field ∈ c.fields) :
    sameValue field.2 field.2 = true := by
  simp only [fields, List.mem_cons, List.not_mem_nil, or_false] at h
  rcases h with rfl | rfl | rfl | rfl
  · exact beq_self_eq_true c.currency
  · exact beq_self_eq_true c.user
  · exact beq_self_eq_true (c.windowSeconds : Int)
  · exact beq_self_eq_true c.logFilter

theorem isValue_iff : c.isValue value = true ↔ ∃ fs, value = .object fs ∧ fs.Perm c.fields := by
  constructor
  · intro h
    unfold isValue at h
    split at h
    · next fs =>
      rw [Bool.and_eq_true, beq_iff_eq, List.all_eq_true] at h
      refine ⟨fs, rfl, List.Perm.symm ?_⟩
      have hsub : c.fields ⊆ fs := by
        intro field hfield
        obtain ⟨v, hv, hsame⟩ := (Option.any_eq_true _ _).1 (h.2 field hfield)
        rw [← eq_of_sameValue hsame] at hv
        exact Json.mem_of_field?_eq_some hv
      have hnodup : c.fields.Nodup := List.Nodup.of_map _ c.keys_nodup
      exact (hnodup.subperm hsub).perm_of_length_le h.1.le
    · cases h
  · rintro ⟨fs, rfl, hperm⟩
    rw [isValue, Bool.and_eq_true, beq_iff_eq, List.all_eq_true]
    refine ⟨hperm.length_eq, ?_⟩
    intro field hfield
    dsimp only
    rw [field?_of_perm hperm hfield]
    exact sameValue_self hfield

theorem textField_eq_some {default : String} {v : Option Json} {s : String} :
    textField default v = some s ↔ v.getD (.text default) = .text s := by
  unfold textField
  split
  · rw [Option.getD_none, Option.some_inj, Json.text.injEq]
  · rw [Option.getD_some, Option.some_inj, Json.text.injEq]
  · next value hne =>
    rw [Option.getD_some]
    constructor
    · intro h
      cases h
    · rintro rfl
      exact absurd rfl (hne s)

theorem wholeField_eq_some {default first last : Int} {v : Option Json} {n : Int} :
    wholeField default first last v = some n ↔
      v.getD (.whole default) = .whole n ∧ (v.isSome → first ≤ n ∧ n ≤ last) := by
  unfold wholeField
  split
  · rw [Option.getD_none, Option.some_inj, Json.whole.injEq]
    simp only [Option.isSome_none, Bool.false_eq_true, false_implies, and_true]
  · next m =>
    rw [Option.getD_some, Json.whole.injEq, ← Bool.decide_and, Option.ite_none_right_eq_some,
      decide_eq_true_iff, Option.some_inj]
    constructor
    · rintro ⟨h, rfl⟩
      exact ⟨rfl, fun _ => h⟩
    · rintro ⟨rfl, h⟩
      exact ⟨h rfl, rfl⟩
  · next value hne =>
    rw [Option.getD_some]
    constructor
    · intro h
      cases h
    · rintro ⟨rfl, -⟩
      exact absurd rfl (hne n)

theorem range_of_wholeField {default first last n : Int} {v : Option Json}
    (h : wholeField default first last v = some n) (hd : first ≤ default ∧ default ≤ last) :
    first ≤ n ∧ n ≤ last := by
  obtain ⟨hn, hr⟩ := wholeField_eq_some.1 h
  cases v with
  | none =>
    cases hn
    exact hd
  | some v => exact hr rfl

section Values

variable {currency user window filter : Option Json}

theorem ofValues?_eq_some :
    ofValues? currency user window filter = some c ↔
      textField initial.currency currency = some c.currency ∧
        wholeField initial.user (-2 ^ 63) (2 ^ 63 - 1) user = some c.user ∧
          wholeField initial.windowSeconds 0 (2 ^ 32 - 1) window = some (c.windowSeconds : Int) ∧
            textField initial.logFilter filter = some c.logFilter := by
  constructor
  · intro h
    obtain ⟨code, hcode, h⟩ := Option.bind_eq_some_iff.1 h
    obtain ⟨sender, hsender, h⟩ := Option.bind_eq_some_iff.1 h
    obtain ⟨seconds, hseconds, h⟩ := Option.bind_eq_some_iff.1 h
    obtain ⟨level, hlevel, h⟩ := Option.bind_eq_some_iff.1 h
    cases h
    have hrange := range_of_wholeField hseconds (by decide)
    refine ⟨hcode, hsender, ?_, hlevel⟩
    rw [hseconds, Int.toNat_of_nonneg hrange.1]
  · rintro ⟨hcode, hsender, hseconds, hlevel⟩
    rw [ofValues?, hcode, hsender, hseconds, hlevel]
    rfl

end Values

structure Valid (c : Config) : Prop where
  currency : Registry.IsCode c.currency
  user : -2 ^ 63 ≤ c.user ∧ c.user ≤ 2 ^ 63 - 1
  window : c.windowSeconds ≤ 2 ^ 32 - 1

theorem valid_initial : initial.Valid :=
  ⟨⟨⟨"NZD", "New Zealand Dollar"⟩, by decide, rfl⟩, by decide, by decide⟩

/-- Settings whose fields are those of an object, or the defaults where it has none. The code of the
currency may be written another way. -/
structure FilledFrom (c : Config) (fs : List (String × Json)) : Prop where
  currency : ∃ written found,
    (Json.field? "default_currency" fs).getD (.text initial.currency) = .text written ∧
      Registry.currency? written = some found ∧ c.currency = found.code
  user : (Json.field? "default_user" fs).getD (.whole initial.user) = .whole c.user
  window :
    (Json.field? "dedup_window_secs" fs).getD (.whole initial.windowSeconds) =
      .whole c.windowSeconds
  logFilter : (Json.field? "log_filter" fs).getD (.text initial.logFilter) = .text c.logFilter

section Object

variable {d : Config}

theorem exists_of_ofJson?_eq_some (h : ofJson? value = some d) :
    ∃ currency user window filter, ofValues? currency user window filter = some d := by
  unfold ofJson? at h
  split at h
  · exact ⟨_, _, _, _, h⟩
  · split at h
    · exact ⟨_, _, _, _, h⟩
    · cases h
  · cases h

theorem valid_of_ofJson? (h : ofJson? value = some d) {found : Currency}
    (hc : Registry.currency? d.currency = some found) :
    ({ d with currency := found.code } : Config).Valid := by
  obtain ⟨_, _, _, _, hv⟩ := exists_of_ofJson?_eq_some h
  obtain ⟨-, huser, hwindow, -⟩ := ofValues?_eq_some.1 hv
  have hw := range_of_wholeField hwindow (by decide)
  refine ⟨⟨found, List.mem_of_find?_eq_some hc, rfl⟩, range_of_wholeField huser (by decide), ?_⟩
  show d.windowSeconds ≤ 2 ^ 32 - 1
  omega

theorem filledFrom_of_ofJson? (h : ofJson? (.object fs) = some d) {found : Currency}
    (hc : Registry.currency? d.currency = some found) :
    ({ d with currency := found.code } : Config).FilledFrom fs := by
  obtain ⟨hcurrency, huser, hwindow, hfilter⟩ := ofValues?_eq_some.1 h
  refine ⟨⟨d.currency, found, textField_eq_some.1 hcurrency, hc, rfl⟩, ?_, ?_, ?_⟩
  · exact (wholeField_eq_some.1 huser).1
  · exact (wholeField_eq_some.1 hwindow).1
  · exact textField_eq_some.1 hfilter

theorem filledFrom_of_perm (hv : c.Valid) (h : fs.Perm c.fields) : c.FilledFrom fs := by
  have hcurrency : Json.field? "default_currency" fs = some (.text c.currency) :=
    field?_of_perm h (by simp [fields])
  have huser : Json.field? "default_user" fs = some (.whole c.user) :=
    field?_of_perm h (by simp [fields])
  have hwindow : Json.field? "dedup_window_secs" fs = some (.whole c.windowSeconds) :=
    field?_of_perm h (by simp [fields])
  have hfilter : Json.field? "log_filter" fs = some (.text c.logFilter) :=
    field?_of_perm h (by simp [fields])
  obtain ⟨found, hfound, hcode⟩ := hv.currency
  refine ⟨⟨c.currency, found, ?_, ?_, hcode.symm⟩, ?_, ?_, ?_⟩
  · rw [hcurrency, Option.getD_some]
  · rw [← hcode]
    exact Registry.currency?_code found hfound
  · rw [huser, Option.getD_some]
  · rw [hwindow, Option.getD_some]
  · rw [hfilter, Option.getD_some]

end Object

theorem legible_fields (hv : c.Valid) : Json.Legible Json.maxDepth (.object c.fields) := by
  have hu := hv.user
  have hw := hv.window
  apply Json.Legible.object c.keys_nodup
  intro field hfield
  simp only [fields, List.mem_cons, List.not_mem_nil, or_false] at hfield
  rcases hfield with rfl | rfl | rfl | rfl
  · exact .text _
  · exact .whole hu.1 (by omega)
  · exact .whole (by omega) (by omega)
  · exact .text _

theorem read?_fileText (hv : c.Valid) : Json.read? c.fileText = some (.object c.fields) :=
  Json.read?_render (legible_fields hv)

section Load

variable {file : Option String} {text : String}

theorem load_cases (h : load file = .ok (c, text)) :
    file = none ∧ c = initial ∧ text = initial.fileText ∨
      ∃ written value d found, file = some written ∧ Json.read? written = some value ∧
        ofJson? value = some d ∧ Registry.currency? d.currency = some found ∧
          c = { d with currency := found.code } ∧
            text = if c.isValue value then written else c.fileText := by
  cases file with
  | none =>
    cases h
    exact .inl ⟨rfl, rfl, rfl⟩
  | some written =>
    right
    rw [load] at h
    dsimp only at h
    split at h
    · cases h
    · next value hvalue =>
      split at h
      · cases h
      · next d hd =>
        split at h
        · cases h
        · next found hfound =>
          cases h
          exact ⟨written, value, d, found, rfl, hvalue, hd, hfound, rfl, rfl⟩

theorem valid_of_load (h : load file = .ok (c, text)) : c.Valid := by
  rcases load_cases h with ⟨-, rfl, -⟩ | ⟨_, _, _, _, -, -, hd, hfound, rfl, -⟩
  · exact valid_initial
  · exact valid_of_ofJson? hd hfound

theorem value_of_load (h : load file = .ok (c, text)) :
    ∃ fs, Json.read? text = some (.object fs) ∧ fs.Perm c.fields := by
  have hv := valid_of_load h
  rcases load_cases h with ⟨-, rfl, rfl⟩ | ⟨_, value, _, _, -, hread, -, -, -, rfl⟩
  · exact ⟨_, read?_fileText hv, .refl _⟩
  · split
    · next hvalue =>
      obtain ⟨fs, rfl, hperm⟩ := isValue_iff.1 hvalue
      exact ⟨fs, hread, hperm⟩
    · exact ⟨_, read?_fileText hv, .refl _⟩

/-- An object is loaded as the valid settings that are filled in from it. -/
theorem load_of_filledFrom (hv : c.Valid) (hf : c.FilledFrom fs)
    (hr : Json.read? text = some (.object fs)) :
    load (some text) = .ok (c, if c.isValue (.object fs) then text else c.fileText) := by
  obtain ⟨code, found, hcode, hfound, hc⟩ := hf.currency
  have hwindow : (0 : Int) ≤ c.windowSeconds ∧ (c.windowSeconds : Int) ≤ 2 ^ 32 - 1 := by
    have hw := hv.window
    omega
  have hd : ofJson? (.object fs) = some { c with currency := code } := by
    apply ofValues?_eq_some.2
    exact ⟨textField_eq_some.2 hcode, wholeField_eq_some.2 ⟨hf.user, fun _ => hv.user⟩,
      wholeField_eq_some.2 ⟨hf.window, fun _ => hwindow⟩, textField_eq_some.2 hf.logFilter⟩
  simp only [load, hr, hd, hfound]
  rw [← hc]

theorem load_of_perm (hv : c.Valid) (hr : Json.read? text = some (.object fs))
    (hp : fs.Perm c.fields) : load (some text) = .ok (c, text) := by
  rw [load_of_filledFrom hv (filledFrom_of_perm hv hp) hr, if_pos (isValue_iff.2 ⟨fs, rfl, hp⟩)]

theorem load_again (h : load file = .ok (c, text)) : load (some text) = .ok (c, text) := by
  obtain ⟨fs, hr, hp⟩ := value_of_load h
  exact load_of_perm (valid_of_load h) hr hp

end Load

section File

variable {file : Option ByteArray}

def fileValue? (file : Option ByteArray) : Option Json := do
  Json.read? (← String.fromUTF8? (← file))

theorem fromUTF8?_toUTF8 (s : String) : String.fromUTF8? s.toUTF8 = some s := by
  rw [String.fromUTF8?, String.toUTF8_eq_toByteArray, dif_pos s.isValidUTF8]
  rfl

theorem toUTF8_of_fromUTF8? {bytes : ByteArray} {s : String}
    (h : String.fromUTF8? bytes = some s) : s.toUTF8 = bytes := by
  rw [String.fromUTF8?] at h
  split at h
  · cases h
    rfl
  · cases h

theorem exists_of_fileValue?_eq_some {value : Json} (h : fileValue? file = some value) :
    ∃ text : String, file = some text.toUTF8 ∧ Json.read? text = some value := by
  obtain ⟨bytes, rfl, h⟩ := Option.bind_eq_some_iff.1 h
  obtain ⟨text, htext, h⟩ := Option.bind_eq_some_iff.1 h
  exact ⟨text, by rw [toUTF8_of_fromUTF8? htext], h⟩

theorem fileValue?_toUTF8 (text : String) : fileValue? (some text.toUTF8) = Json.read? text := by
  rw [fileValue?, Option.bind_eq_bind, Option.bind_some, fromUTF8?_toUTF8]
  rfl

/-- What it means that loading a file gives settings and leaves another. -/
structure Settled (c : Config) (file after : Option ByteArray) : Prop where
  currency : Registry.IsCode c.currency
  absent : file = none → c = initial
  filled : ∀ fs, fileValue? file = some (.object fs) → c.FilledFrom fs
  value : ∃ fs, fileValue? after = some (.object fs) ∧ fs.Perm c.fields
  again : loadFile after = (after, .ok c)
  kept : ∀ fs, fileValue? file = some (.object fs) → fs.Perm c.fields → after = file

theorem loadFile_text (text : String) :
    loadFile (some text.toUTF8) =
      match load (some text) with
      | .error e => (some text.toUTF8, .error e)
      | .ok (c, written) => (some written.toUTF8, .ok c) := by
  rw [loadFile, decode, fromUTF8?_toUTF8]
  rfl

theorem exists_of_decode_eq_some {text : Option String} (h : decode file = some text) :
    file = text.map (·.toUTF8) := by
  cases file with
  | none =>
    cases h
    rfl
  | some bytes =>
    obtain ⟨s, hs, rfl⟩ := Option.map_eq_some_iff.1 h
    rw [Option.map_some, toUTF8_of_fromUTF8? hs]

theorem settled_of_load {text : Option String} {written : String}
    (h : load text = .ok (c, written)) :
    c.Settled (text.map (·.toUTF8)) (some written.toUTF8) := by
  have hv := valid_of_load h
  obtain ⟨fs, hread, hperm⟩ := value_of_load h
  rw [← fileValue?_toUTF8] at hread
  have hagain : loadFile (some written.toUTF8) = (some written.toUTF8, .ok c) := by
    rw [loadFile_text, load_again h]
  rcases load_cases h with ⟨rfl, hc, -⟩ | ⟨t, value, d, found, rfl, hvalue, hd, hfound, hc, -⟩
  · refine ⟨hv.currency, fun _ => hc, ?_, ⟨fs, hread, hperm⟩, hagain, ?_⟩
    · intro fs hfs
      cases hfs
    · intro fs hfs
      cases hfs
  · refine ⟨hv.currency, ?_, ?_, ⟨fs, hread, hperm⟩, hagain, ?_⟩
    · intro hnone
      cases hnone
    · intro fs hfs
      rw [Option.map_some, fileValue?_toUTF8, hvalue, Option.some_inj] at hfs
      subst hfs
      rw [hc]
      exact filledFrom_of_ofJson? hd hfound
    · intro fs hfs hperm
      rw [Option.map_some, fileValue?_toUTF8] at hfs
      rw [load_of_perm hv hfs hperm] at h
      cases h
      rfl

theorem loadFile_of_object (h : fileValue? file = some (.object fs)) :
    (loadFile file).2 = .ok c ↔ c.Valid ∧ c.FilledFrom fs := by
  obtain ⟨text, rfl, hread⟩ := exists_of_fileValue?_eq_some h
  rw [loadFile_text]
  constructor
  · intro hc
    cases hl : load (some text) with
    | error e =>
      rw [hl] at hc
      cases hc
    | ok p =>
      rw [hl] at hc
      cases hc
      exact ⟨valid_of_load hl, (settled_of_load hl).filled fs h⟩
  · rintro ⟨hv, hf⟩
    rw [load_of_filledFrom hv hf hread]

end File

/-- A file without settings stays as it is. Otherwise the settings are those of the file with its gaps
filled in, and the file then has exactly their fields and stays as it is. There are settings without a
file, and in an object from which valid ones are filled in. -/
theorem loadFile_settled (file : Option ByteArray) :
    (match loadFile file with
      | (after, .error _) => after = file
      | (after, .ok c) => c.Settled file after) ∧
      (file = none → (loadFile file).2 = .ok initial) ∧
      ∀ fs c, fileValue? file = some (.object fs) →
        ((loadFile file).2 = .ok c ↔ c.Valid ∧ c.FilledFrom fs) := by
  refine ⟨?_, ?_, fun fs c h => loadFile_of_object h⟩
  · rw [loadFile]
    cases hd : decode file with
    | none => rfl
    | some text =>
      dsimp only
      cases hl : load text with
      | error e => rfl
      | ok p =>
        rw [exists_of_decode_eq_some hd]
        exact settled_of_load hl
  · rintro rfl
    rfl

end Config

end PersonalLedger
