import TagQuery.Proofs.Settings.Keys

/-! Settings that are saved are loaded again. Main steps: the settings are written as a document with a
line for each key under which they hold anything; such a document is well formed; and under each key it
has what the settings hold. -/
namespace TagQuery.Settings

open Toml (Value Entries Written WrittenSection Quoting quotedText quote escapeTabs)

def Key.parts : List (String × List Key) :=
  [("general", [database, maxResults, logLevel]), ("query", [implicitAnd, allKeywords]),
    ("scope", [foldsCase, directories]), ("performance", [parallel, parallelThreshold])]

/-- The sections as which settings are written: under each of their keys, what they hold. -/
def layout (settings : Settings) : List WrittenSection :=
  Key.parts.map fun p =>
    ⟨p.1, p.2.filterMap fun key => (key.held settings).map fun written => (key.name, written)⟩

def TooLarge (settings : Settings) : Prop :=
  Toml.maxInteger < settings.maxResults ∨ Toml.maxInteger < settings.parallelThreshold

instance (settings : Settings) : Decidable settings.TooLarge := inferInstanceAs (Decidable (_ ∨ _))

theorem toText_of_tooLarge {settings : Settings} (large : settings.TooLarge) :
    toText settings = .error .settingsFormat := if_pos large

theorem toText_of_not_tooLarge {settings : Settings} (fits : ¬ settings.TooLarge) :
    toText settings = .ok (Toml.writeSections ((layout settings).map WrittenSection.text)) := by
  refine (if_neg fits).trans ?_
  cases h : settings.database with
  | none =>
    simp [layout, Key.parts, Key.held, Key.name, h, WrittenSection.text, Written.write,
      Toml.writeSection]
  | some path =>
    simp [layout, Key.parts, Key.held, Key.name, h, WrittenSection.text, Written.write,
      Toml.writeSection]

theorem fits_held {settings : Settings} (fits : ¬ settings.TooLarge) {key : Key} {written : Written}
    (h : key.held settings = some written) : written.Fits := by
  have small := not_or.mp fits
  cases key with
  | maxResults =>
    cases h
    exact Int.not_lt.mp small.1
  | parallelThreshold =>
    cases h
    exact Int.not_lt.mp small.2
  | database =>
    cases hd : settings.database with
    | none => simp [Key.held, hd] at h
    | some path =>
      simp [Key.held, hd] at h
      subst h
      trivial
  | _ =>
    cases h
    trivial

theorem isBareKey_name (key : Key) : Toml.IsBareKey key.name.toList := by
  cases key <;> decide

theorem name_injective {key other : Key} (same : key.name = other.name) : key = other := by
  revert same
  cases key <;> cases other <;> decide

theorem wellFormed_layout {settings : Settings} (fits : ¬ settings.TooLarge) :
    ∀ part ∈ layout settings, part.WellFormed := by
  have bareNames : ∀ p ∈ Key.parts, Toml.IsBareKey p.1.toList := by decide
  have different : ∀ p ∈ Key.parts, p.2.Nodup := by decide
  intro part here
  obtain ⟨p, among, rfl⟩ := List.mem_map.mp here
  refine ⟨bareNames p among, ?_, ?_⟩
  · intro k given
    obtain ⟨key, -, held⟩ := List.mem_filterMap.mp given
    obtain ⟨written, holds, rfl⟩ := Option.map_eq_some_iff.mp held
    exact ⟨isBareKey_name key, fits_held fits holds⟩
  · refine List.pairwise_map.mpr (List.pairwise_filterMap.mpr ((different p among).imp ?_))
    intro key other apart k held k' held' same
    obtain ⟨written, -, rfl⟩ := Option.map_eq_some_iff.mp held
    obtain ⟨written', -, rfl⟩ := Option.map_eq_some_iff.mp held'
    exact apart (name_injective (String.toList_inj.mp same))

def entriesOf (settings : Settings) (keys : List Key) : Entries :=
  keys.filterMap fun key => (settings.valueOf key).map fun v => (key.name.toList, v)

theorem document_layout (settings : Settings) :
    Toml.document (layout settings) =
      Key.parts.map fun p => (p.1.toList, .table .header (settings.entriesOf p.2)) := by
  simp [Toml.document, layout, WrittenSection.entries, entriesOf, valueOf, List.map_filterMap,
    Function.comp_def]

theorem find?_entriesOf (settings : Settings) (keys : List Key) (key : Key) :
    (settings.entriesOf keys).find? key.name.toList =
      if key ∈ keys then settings.valueOf key else none := by
  induction keys with
  | nil => rfl
  | cons k keys ih =>
    have own : settings.entriesOf (k :: keys) =
        ((settings.valueOf k).map fun v => (k.name.toList, v)).toList ++ settings.entriesOf keys := by
      cases h : settings.valueOf k <;> simp [entriesOf, h]
    by_cases same : k = key
    · subst same
      cases h : settings.valueOf k with
      | none => simp [own, h, ih]
      | some v => simp [own, h]
    · have otherName : k.name.toList ≠ key.name.toList := fun h =>
        same (name_injective (String.toList_inj.mp h))
      cases h : settings.valueOf k with
      | none => simp [own, h, ih, Ne.symm same]
      | some v => simp [own, h, ih, otherName, Ne.symm same]

/-- Every key stands in its section. -/
theorem find?_part (key : Key) (value : List Key → Value) :
    ∃ keys, key ∈ keys ∧
      Entries.find? (Key.parts.map fun p => (p.1.toList, value p.2)) key.part.toList =
        some (value keys) := by
  cases key <;> exact ⟨_, by decide, rfl⟩

theorem gives_document (settings : Settings) (key : Key) :
    Gives (Toml.document (layout settings)) key (settings.valueOf key) := by
  obtain ⟨keys, among, found⟩ := find?_part key fun keys => .table .header (settings.entriesOf keys)
  refine ⟨fun _ name => (settings.entriesOf keys).find? name, ?_, ?_⟩
  · rw [fields, document_layout, found]
    rfl
  · exact (find?_entriesOf settings keys key).trans (if_pos among)

/-- The bytes of a file hold the settings that its text holds. -/
theorem ofBytes_toUTF8 (t : Text) : ofBytes (String.ofList t).toUTF8 = ofText t := by
  have valid : (String.ofList t).toUTF8.IsValidUTF8 := (String.ofList t).isValidUTF8
  have content : String.fromUTF8? (String.ofList t).toUTF8 = some (String.ofList t) := by
    rw [String.fromUTF8?, dif_pos valid]
    rfl
  rw [ofBytes, content]
  exact congrArg ofText String.toList_ofList

/-- A text as which settings are saved: its sections are in order, with a line for each key under which
the settings hold anything, and it is loaded as these settings. -/
structure SavedAs (settings : Settings) (text : Text) : Prop where
  written : text = Toml.writeSections ((layout settings).map WrittenSection.text)
  document : Entries.ofText text = some (Toml.document (layout settings))
  loaded : ofBytes (String.ofList text).toUTF8 = .ok settings

theorem savedAs_of_not_tooLarge {settings : Settings} (fits : ¬ settings.TooLarge) :
    SavedAs settings (Toml.writeSections ((layout settings).map WrittenSection.text)) := by
  have names : ((layout settings).map fun part => part.name.toList).Nodup := by
    have different : (Key.parts.map fun p => p.1.toList).Nodup := by decide
    simpa [layout, Function.comp_def] using different
  have read := Toml.ofText_writeSections (wellFormed_layout fits) names
  have decoded : ofEntries? (Toml.document (layout settings)) = some settings :=
    (ofEntries?_eq_some_iff _ settings).mpr fun key => by
      refine ⟨_, gives_document settings key, ?_⟩
      cases key <;> simp [valueOf, Key.held]
  refine ⟨rfl, read, ?_⟩
  rw [ofBytes_toUTF8, ofText, read, Option.bind_some, decoded]

/-- Saving fails only for numbers that are too large, and otherwise gives a text that is loaded as the
same settings. Quoted text stands as it is, but perhaps for its tabs, where any form can show it so. Of
any document, the settings have under each key what stands there, or what is usual where nothing does. -/
theorem survive_saving :
    (∀ settings fault, toText settings = .error fault ↔ fault = .settingsFormat ∧ settings.TooLarge) ∧
      (∀ settings text, toText settings = .ok text → SavedAs settings text) ∧
      (∀ (quoting : Quoting) t, quoting.Verbatim t → quotedText.whole (quoting.around t) = some t ∧
        (quote t = (Quoting.best t).around t ∨ quote t = (Quoting.best t).around (escapeTabs t))) ∧
      ∀ document settings, ofEntries? document = some settings ↔
        ∀ key, ∃ given, Gives document key given ∧ settings.valueOf key = given.or (valueOf {} key) := by
  refine ⟨fun settings fault => ?_, fun settings text saved => ?_, fun quoting t verbatim => ?_,
    ofEntries?_eq_some_iff⟩
  · by_cases large : settings.TooLarge
    · simp [toText_of_tooLarge large, large, eq_comm]
    · simp [toText_of_not_tooLarge large, large]
  · by_cases large : settings.TooLarge
    · rw [toText_of_tooLarge large] at saved
      cases saved
    · rw [toText_of_not_tooLarge large] at saved
      cases saved
      exact savedAs_of_not_tooLarge large
  · exact ⟨verbatim.whole_around, Toml.quote_of_verbatim verbatim⟩

theorem survive_saving_of_quotes :
    SavedAs
        { database := some "/é".toList, maxResults := 0, logLevel := "'\n\"".toList,
          dialect := { implicitAnd := false, allKeywords := [] },
          directories := ["a\\b".toList, "\x07".toList], parallelThreshold := 9223372036854775807 }
        ("[general]\ndb_path = \"/é\"\nmax_results = 0\nlog_level = \"\"\"\n'\n\"\"\"\"\n\n".toList ++
          "[query]\nimplicit_and = false\nall_keywords = []\n\n".toList ++
          "[scope]\ncase_insensitive = true\ndirectories = [\n    'a\\b',\n    \"\\u0007\",\n]\n\n".toList ++
          "[performance]\nparallel_branches = false\n".toList ++
          "parallel_threshold = 9223372036854775807\n".toList) ∧
      quotedText.whole (Quoting.literal.around "a\\b".toList) = some "a\\b".toList :=
  ⟨survive_saving.2.1 _ _
      ((toText_of_not_tooLarge (by decide)).trans (congrArg Except.ok (by decide +kernel))),
    (survive_saving.2.2.1 .literal "a\\b".toList ⟨by decide, by decide, by decide⟩).1⟩

/-- A tab is escaped, although a literal form shows it as it is. -/
theorem saving_escapes_tab :
    Quoting.literal.Verbatim "a\tb".toList ∧
      (∀ quoting : Quoting, quote "a\tb".toList ≠ quoting.around "a\tb".toList) ∧
      toText { logLevel := "a\tb".toList } = .ok
        ("[general]\nmax_results = 1000\nlog_level = \"a\\tb\"\n\n".toList ++
          "[query]\nimplicit_and = true\nall_keywords = [\n    \"all\",\n    \"*\",\n]\n\n".toList ++
          "[scope]\ncase_insensitive = true\ndirectories = []\n\n".toList ++
          "[performance]\nparallel_branches = false\nparallel_threshold = 10000\n".toList) :=
  ⟨⟨by decide, by decide, by decide⟩, fun quoting => by cases quoting <;> decide,
    (toText_of_not_tooLarge (by decide)).trans (congrArg Except.ok (by decide +kernel))⟩

end TagQuery.Settings
