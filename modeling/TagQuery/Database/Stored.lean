import TagQuery.Database.Tables
import TagQuery.Toml.Document
import TagQuery.Toml.Printer

/-! The tables of a database as a document, in which they are kept between runs: a section for each
table, with an array for each column. -/
namespace TagQuery.Database

open Toml (Entries)

/-- A column of numbers. -/
def writeNumbers (ns : List Nat) : Text := Toml.writeTexts (ns.map Text.decimal)

def Tables.toText (tables : Tables) : Text :=
  Toml.writeSections [
    Toml.writeSection "database" [
      Toml.writeLine "next_row" (Text.decimal tables.nextRow),
      Toml.writeLine "written" (Text.truth tables.written)],
    Toml.writeSection "items" [
      Toml.writeLine "id" (Toml.writeTexts tables.items.keys),
      Toml.writeLine "location" (Toml.writeTexts tables.items.values)],
    Toml.writeSection "tags" [
      Toml.writeLine "row" (writeNumbers (tables.tags.map TagRow.row)),
      Toml.writeLine "name" (Toml.writeTexts (tables.tags.map TagRow.name))],
    Toml.writeSection "links" [
      Toml.writeLine "item" (Toml.writeTexts (tables.links.map Link.item)),
      Toml.writeLine "row" (writeNumbers (tables.links.map Link.row))]]

def tableNamed? (document : Entries) (name : String) : Option Entries :=
  match document.find? name.toList with
  | some (.table _ entries) => some entries
  | _ => none

def column? (entries : Entries) (name : String) : Option (List Text) :=
  (entries.find? name.toList).bind Toml.Value.texts?

def numbers? (entries : Entries) (name : String) : Option (List Nat) :=
  (column? entries name).map (List.map (Text.ofDigits 10))

def Tables.ofText? (t : Text) : Option Tables := do
  let document ← Entries.ofText t
  let general ← tableNamed? document "database"
  let items ← tableNamed? document "items"
  let tags ← tableNamed? document "tags"
  let links ← tableNamed? document "links"
  return {
    items := .ofList ((← column? items "id").zip (← column? items "location"))
    tags := List.zipWith (fun row name => ⟨row, name, Tag.fold name⟩) (← numbers? tags "row")
      (← column? tags "name")
    links := List.zipWith Link.mk (← column? links "item") (← numbers? links "row")
    nextRow := ← (← general.find? "next_row".toList).natural?
    written := ← (← general.find? "written".toList).flag? }

example : ((Tables.ofText? (Tables.toText
    (({} : Tables).put true ⟨"1".toList, "/A".toList, ["Cat".toList]⟩))).map fun tables =>
    tables.find ["1".toList]) = some [⟨"1".toList, "/a".toList, ["Cat".toList]⟩] := by
  decide +kernel

end TagQuery.Database
