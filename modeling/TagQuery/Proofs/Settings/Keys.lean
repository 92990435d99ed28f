import TagQuery.Proofs.Toml.Documents
import TagQuery.Settings.Format

/-! The settings, key by key. Main steps: each field is decoded from the value with which it is written;
and the settings that a document holds have under each key what the document has, or else what is
usual. -/
namespace TagQuery.Settings

open Toml (Value Entries Written)

inductive Key where
  | database
  | maxResults
  | logLevel
  | implicitAnd
  | allKeywords
  | foldsCase
  | directories
  | parallel
  | parallelThreshold
  deriving DecidableEq

namespace Key

def part : Key → String
  | database | maxResults | logLevel => "general"
  | implicitAnd | allKeywords => "query"
  | foldsCase | directories => "scope"
  | parallel | parallelThreshold => "performance"

def name : Key → String
  | database => "db_path"
  | maxResults => "max_results"
  | logLevel => "log_level"
  | implicitAnd => "implicit_and"
  | allKeywords => "all_keywords"
  | foldsCase => "case_insensitive"
  | directories => "directories"
  | parallel => "parallel_branches"
  | parallelThreshold => "parallel_threshold"

def place : Key → Nat
  | database | implicitAnd | foldsCase | parallel => 0
  | maxResults | allKeywords | directories | parallelThreshold => 1
  | logLevel => 2

/-- What the settings hold under a key; there need not be a database. -/
def held (settings : Settings) : Key → Option Written
  | database => settings.database.map .text
  | maxResults => some (.number settings.maxResults)
  | logLevel => some (.text settings.logLevel)
  | implicitAnd => some (.flag settings.dialect.implicitAnd)
  | allKeywords => some (.texts settings.dialect.allKeywords)
  | foldsCase => some (.flag settings.foldsCase)
  | directories => some (.texts settings.directories)
  | parallel => some (.flag settings.parallel)
  | parallelThreshold => some (.number settings.parallelThreshold)

end Key

def valueOf (settings : Settings) (key : Key) : Option Value := (key.held settings).map Written.value

/-- A field is decoded from the value with which it is written; nothing need be written for it. -/
structure Decodes {α : Type} (decode : Value → Option α) (write : α → Option Written) : Prop where
  reads : ∀ v a, decode v = some a ↔ (write a).map Written.value = some v
  injective : ∀ a b, (write a).map Written.value = (write b).map Written.value → a = b

theorem Decodes.of_always {α : Type} {decode : Value → Option α} {write : α → Written}
    (reads : ∀ v a, decode v = some a ↔ (write a).value = v) :
    Decodes decode fun a => some (write a) where
  reads v a := by rw [reads, Option.map_some, Option.some.injEq]
  injective a b same := by
    have first : decode (write b).value = some a := (reads _ a).mpr (Option.some.inj same)
    have second : decode (write b).value = some b := (reads _ b).mpr rfl
    exact Option.some.inj (first.symm.trans second)

theorem text?_eq_some_iff (v : Value) (t : Text) : v.text? = some t ↔ .text t = v := by
  cases v <;> simp [Value.text?, eq_comm]

theorem decodes_text : Decodes Value.text? fun t => some (.text t) := .of_always text?_eq_some_iff

theorem decodes_flag : Decodes Value.flag? fun b => some (.flag b) :=
  .of_always fun v b => by cases v <;> simp [Value.flag?, Written.value, eq_comm]

theorem decodes_number : Decodes Value.natural? fun n => some (.number n) :=
  .of_always fun v n => by
    cases v with
    | integer number =>
      cases number with
      | ofNat m =>
        simp [Value.natural?, Written.value]
        omega
      | negSucc m => simp [Value.natural?, Written.value]
    | _ => simp [Value.natural?, Written.value]

theorem mapM_text?_eq_some_iff (elements : List Value) (ts : List Text) :
    elements.mapM Value.text? = some ts ↔ ts.map .text = elements := by
  induction elements generalizing ts with
  | nil => cases ts <;> simp
  | cons v elements ih =>
    cases ts with
    | nil => simp [List.mapM_cons, Option.bind_eq_some_iff]
    | cons t ts => simp [List.mapM_cons, Option.bind_eq_some_iff, text?_eq_some_iff, ih]

theorem decodes_texts : Decodes Value.texts? fun ts => some (.texts ts) :=
  .of_always fun v ts => by
    cases v with
    | array elements => simp [Value.texts?, Written.value, mapM_text?_eq_some_iff]
    | _ => simp [Value.texts?, Written.value]

theorem decodes_database : Decodes (fun v => v.text?.map some) (Option.map Written.text) where
  reads v a := by
    cases a with
    | none => simp
    | some t => simp [text?_eq_some_iff, Written.value]
  injective a b same := by
    cases a with
    | none =>
      cases b with
      | none => rfl
      | some u => cases same
    | some t =>
      cases b with
      | none => cases same
      | some u =>
        cases same
        rfl

/-- A field is what a section has for it, or else its default. -/
theorem Decodes.get_eq_some_iff {α : Type} {decode : Value → Option α} {write : α → Option Written}
    (h : Decodes decode write) (fields : Fields) (place : Nat) (name : String) (default a : α) :
    fields.get place name default decode = some a ↔
      (write a).map Written.value =
        (fields place name.toList).or ((write default).map Written.value) := by
  unfold Fields.get
  cases fields place name.toList with
  | none =>
    rw [Option.none_or, Option.some.injEq]
    exact ⟨fun same => same ▸ rfl, fun same => (h.injective _ _ same).symm⟩
  | some v =>
    rw [Option.some_or]
    exact h.reads v a

/-- What a document has under a key, if it can be read as settings. -/
def Gives (document : Entries) (key : Key) (given : Option Value) : Prop :=
  ∃ fields, Settings.fields document key.part = some fields ∧ fields key.place key.name.toList = given

/-- The settings that a document holds have under each key what the document has, or what is usual. -/
theorem valueOf_of_ofEntries? {document : Entries} {settings : Settings}
    (h : ofEntries? document = some settings) (key : Key) :
    ∃ given, Gives document key given ∧ settings.valueOf key = given.or (valueOf {} key) := by
  -- The fields in the order in which they are read.
  obtain ⟨general, hasGeneral, h⟩ := Option.bind_eq_some_iff.mp h
  obtain ⟨query, hasQuery, h⟩ := Option.bind_eq_some_iff.mp h
  obtain ⟨scope, hasScope, h⟩ := Option.bind_eq_some_iff.mp h
  obtain ⟨performance, hasPerformance, h⟩ := Option.bind_eq_some_iff.mp h
  obtain ⟨database, isDatabase, h⟩ := Option.bind_eq_some_iff.mp h
  obtain ⟨maxResults, isMaxResults, h⟩ := Option.bind_eq_some_iff.mp h
  obtain ⟨logLevel, isLogLevel, h⟩ := Option.bind_eq_some_iff.mp h
  obtain ⟨implicitAnd, isImplicitAnd, h⟩ := Option.bind_eq_some_iff.mp h
  obtain ⟨allKeywords, isAllKeywords, h⟩ := Option.bind_eq_some_iff.mp h
  obtain ⟨foldsCase, isFoldsCase, h⟩ := Option.bind_eq_some_iff.mp h
  obtain ⟨directories, isDirectories, h⟩ := Option.bind_eq_some_iff.mp h
  obtain ⟨parallel, isParallel, h⟩ := Option.bind_eq_some_iff.mp h
  obtain ⟨parallelThreshold, isParallelThreshold, h⟩ := Option.bind_eq_some_iff.mp h
  cases h
  cases key with
  | database => exact ⟨_, ⟨_, hasGeneral, rfl⟩, (decodes_database.get_eq_some_iff ..).mp isDatabase⟩
  | maxResults => exact ⟨_, ⟨_, hasGeneral, rfl⟩, (decodes_number.get_eq_some_iff ..).mp isMaxResults⟩
  | logLevel => exact ⟨_, ⟨_, hasGeneral, rfl⟩, (decodes_text.get_eq_some_iff ..).mp isLogLevel⟩
  | implicitAnd => exact ⟨_, ⟨_, hasQuery, rfl⟩, (decodes_flag.get_eq_some_iff ..).mp isImplicitAnd⟩
  | allKeywords => exact ⟨_, ⟨_, hasQuery, rfl⟩, (decodes_texts.get_eq_some_iff ..).mp isAllKeywords⟩
  | foldsCase => exact ⟨_, ⟨_, hasScope, rfl⟩, (decodes_flag.get_eq_some_iff ..).mp isFoldsCase⟩
  | directories => exact ⟨_, ⟨_, hasScope, rfl⟩, (decodes_texts.get_eq_some_iff ..).mp isDirectories⟩
  | parallel => exact ⟨_, ⟨_, hasPerformance, rfl⟩, (decodes_flag.get_eq_some_iff ..).mp isParallel⟩
  | parallelThreshold =>
    exact ⟨_, ⟨_, hasPerformance, rfl⟩, (decodes_number.get_eq_some_iff ..).mp isParallelThreshold⟩

/-- A document is read as any settings that have under each key what it has, or what is usual. -/
theorem ofEntries?_of_valueOf {document : Entries} {settings : Settings}
    (h : ∀ key, ∃ given, Gives document key given ∧
      settings.valueOf key = given.or (valueOf {} key)) :
    ofEntries? document = some settings := by
  obtain ⟨_, ⟨general, hasGeneral, rfl⟩, database⟩ := h .database
  obtain ⟨_, ⟨query, hasQuery, rfl⟩, implicitAnd⟩ := h .implicitAnd
  obtain ⟨_, ⟨scope, hasScope, rfl⟩, foldsCase⟩ := h .foldsCase
  obtain ⟨_, ⟨performance, hasPerformance, rfl⟩, parallel⟩ := h .parallel
  obtain ⟨_, ⟨_, sameGeneral, rfl⟩, maxResults⟩ := h .maxResults
  obtain ⟨_, ⟨_, sameGeneral', rfl⟩, logLevel⟩ := h .logLevel
  obtain ⟨_, ⟨_, sameQuery, rfl⟩, allKeywords⟩ := h .allKeywords
  obtain ⟨_, ⟨_, sameScope, rfl⟩, directories⟩ := h .directories
  obtain ⟨_, ⟨_, samePerformance, rfl⟩, parallelThreshold⟩ := h .parallelThreshold
  cases hasGeneral.symm.trans sameGeneral
  cases hasGeneral.symm.trans sameGeneral'
  cases hasQuery.symm.trans sameQuery
  cases hasScope.symm.trans sameScope
  cases hasPerformance.symm.trans samePerformance
  refine Option.bind_eq_some_iff.mpr ⟨general, hasGeneral, ?_⟩
  refine Option.bind_eq_some_iff.mpr ⟨query, hasQuery, ?_⟩
  refine Option.bind_eq_some_iff.mpr ⟨scope, hasScope, ?_⟩
  refine Option.bind_eq_some_iff.mpr ⟨performance, hasPerformance, ?_⟩
  refine Option.bind_eq_some_iff.mpr ⟨_, (decodes_database.get_eq_some_iff ..).mpr database, ?_⟩
  refine Option.bind_eq_some_iff.mpr ⟨_, (decodes_number.get_eq_some_iff ..).mpr maxResults, ?_⟩
  refine Option.bind_eq_some_iff.mpr ⟨_, (decodes_text.get_eq_some_iff ..).mpr logLevel, ?_⟩
  refine Option.bind_eq_some_iff.mpr ⟨_, (decodes_flag.get_eq_some_iff ..).mpr implicitAnd, ?_⟩
  refine Option.bind_eq_some_iff.mpr ⟨_, (decodes_texts.get_eq_some_iff ..).mpr allKeywords, ?_⟩
  refine Option.bind_eq_some_iff.mpr ⟨_, (decodes_flag.get_eq_some_iff ..).mpr foldsCase, ?_⟩
  refine Option.bind_eq_some_iff.mpr ⟨_, (decodes_texts.get_eq_some_iff ..).mpr directories, ?_⟩
  refine Option.bind_eq_some_iff.mpr ⟨_, (decodes_flag.get_eq_some_iff ..).mpr parallel, ?_⟩
  refine Option.bind_eq_some_iff.mpr ⟨_, (decodes_number.get_eq_some_iff ..).mpr parallelThreshold, ?_⟩
  rfl

theorem ofEntries?_eq_some_iff (document : Entries) (settings : Settings) :
    ofEntries? document = some settings ↔
      ∀ key, ∃ given, Gives document key given ∧ settings.valueOf key = given.or (valueOf {} key) :=
  ⟨valueOf_of_ofEntries?, ofEntries?_of_valueOf⟩

end TagQuery.Settings
