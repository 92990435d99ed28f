import TagQuery.Settings
import TagQuery.Toml.Document
import TagQuery.Toml.Printer

/-! Settings as a TOML document. A section is a table, or an array of its fields in order; a field
that is missing has its default, and anything else in the document is passed over. -/
namespace TagQuery.Settings

open Toml (Value Entries)

/-- The fields of a section, by place and by name. -/
abbrev Fields := Nat → Text → Option Value

/-- The fields that a value gives to a section. -/
def fieldsOf : Value → Option Fields
  | .table _ entries => some fun _ name => Entries.find? entries name
  | .array elements => some fun place _ => elements[place]?
  | .tables elements => some fun place _ => elements[place]?.map (.table .header)
  | .time => some fun _ _ => none
  | _ => none

def fields (document : Entries) (name : String) : Option Fields :=
  match document.find? name.toList with
  | none => some fun _ _ => none
  | some value => fieldsOf value

/-- A field of a section, or its default. -/
def Fields.get {α : Type} (fields : Fields) (place : Nat) (name : String) (default : α)
    (decode : Value → Option α) : Option α :=
  match fields place name.toList with
  | none => some default
  | some value => decode value

def ofEntries? (document : Entries) : Option Settings := do
  let general ← fields document "general"
  let query ← fields document "query"
  let scope ← fields document "scope"
  let performance ← fields document "performance"
  let usual : Settings := {}
  return {
    database := ← general.get 0 "db_path" usual.database fun v => v.text?.map some
    maxResults := ← general.get 1 "max_results" usual.maxResults Value.natural?
    logLevel := ← general.get 2 "log_level" usual.logLevel Value.text?
    dialect := {
      implicitAnd := ← query.get 0 "implicit_and" usual.dialect.implicitAnd Value.flag?
      allKeywords := ← query.get 1 "all_keywords" usual.dialect.allKeywords Value.texts? }
    foldsCase := ← scope.get 0 "case_insensitive" usual.foldsCase Value.flag?
    directories := ← scope.get 1 "directories" usual.directories Value.texts?
    parallel := ← performance.get 0 "parallel_branches" usual.parallel Value.flag?
    parallelThreshold :=
      ← performance.get 1 "parallel_threshold" usual.parallelThreshold Value.natural? }

def ofText (t : Text) : Except Fault Settings :=
  match (Entries.ofText t).bind ofEntries? with
  | none => .error .settingsFormat
  | some settings => .ok settings

def ofBytes (bytes : ByteArray) : Except Fault Settings :=
  match String.fromUTF8? bytes with
  | none => .error .file
  | some content => ofText content.toList

/-- The settings as a text, unless a number is larger than a document can hold. -/
def toText (settings : Settings) : Except Fault Text :=
  if Toml.maxInteger < settings.maxResults ∨ Toml.maxInteger < settings.parallelThreshold then
    .error .settingsFormat
  else
    .ok <| Toml.writeSections [
      Toml.writeSection "general" [
        match settings.database with
        | none => []
        | some path => Toml.writeLine "db_path" (Toml.quote path),
        Toml.writeLine "max_results" (Text.decimal settings.maxResults),
        Toml.writeLine "log_level" (Toml.quote settings.logLevel)],
      Toml.writeSection "query" [
        Toml.writeLine "implicit_and" (Text.truth settings.dialect.implicitAnd),
        Toml.writeLine "all_keywords" (Toml.writeTexts settings.dialect.allKeywords)],
      Toml.writeSection "scope" [
        Toml.writeLine "case_insensitive" (Text.truth settings.foldsCase),
        Toml.writeLine "directories" (Toml.writeTexts settings.directories)],
      Toml.writeSection "performance" [
        Toml.writeLine "parallel_branches" (Text.truth settings.parallel),
        Toml.writeLine "parallel_threshold" (Text.decimal settings.parallelThreshold)]]

example : ((toText {}).bind ofText).toOption = some {} := by decide +kernel

end TagQuery.Settings
