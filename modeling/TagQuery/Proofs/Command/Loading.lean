import TagQuery.Proofs.Command.Imports
import TagQuery.Proofs.Database.Answers

/-! What an import leaves in the database, and what it says of it. A run reads all records before it
changes anything. Main steps: the outcome of the run, with records that can be read and without, and the
catalogue of the tables that are saved. -/
namespace TagQuery.Command

open Database (Tables)

/-- A catalogue after an import: what was listed before, unless everything was removed first, with the
records listed one after the other. -/
def Import.loaded (foldsCase : Bool) (batch : Import) (previous : Catalogue) : Catalogue :=
  batch.items.foldl (Catalogue.put foldsCase) (if batch.replace then ∅ else previous)

/-- A record of a catalogue after an import: the last one of the file, or else the one that was there. -/
theorem Import.getElem?_loaded (foldsCase : Bool) (batch : Import) (previous : Catalogue) (id : Text) :
    (batch.loaded foldsCase previous)[id]? =
      ((batch.items.reverse.find? (·.id = id)).map (Listing.ofItem foldsCase)).or
        (if batch.replace then none else previous[id]?) := by
  rw [loaded, Catalogue.getElem?_foldl_put]
  split
  · rw [Std.ExtTreeMap.getElem?_empty]
  · rfl

/-- To import once more changes nothing. -/
theorem Import.loaded_loaded (foldsCase : Bool) (batch : Import) (previous : Catalogue) :
    batch.loaded foldsCase (batch.loaded foldsCase previous) = batch.loaded foldsCase previous := by
  apply Std.ExtTreeMap.ext_getElem?
  intro id
  simp only [getElem?_loaded]
  cases batch.items.reverse.find? (·.id = id) with
  | some item => rfl
  | none => cases batch.replace <;> rfl

/-- Into a database without items it makes no difference whether everything is removed first. -/
theorem Import.loaded_empty (foldsCase : Bool) (items : List Item) (replace : Bool) :
    Import.loaded foldsCase ⟨items, replace⟩ ∅ = items.foldl (Catalogue.put foldsCase) ∅ := by
  cases replace <;> rfl

theorem Import.foldl_after (foldsCase : Bool) (batch : Import) (previous : Catalogue) :
    batch.changes.foldl (Catalogue.after foldsCase) previous = batch.loaded foldsCase previous := by
  obtain ⟨items, replace⟩ := batch
  cases replace <;> rfl

/-- A database keeps its constraints through an import, and changes as its catalogue does. -/
theorem catalogue_imported (db : Database) (consistent : db.tables.Consistent) (batch : Import) :
    (imported db batch.items batch.replace).tables.Consistent ∧
      (imported db batch.items batch.replace).catalogue =
        batch.loaded db.foldsCase db.catalogue := by
  rw [imported_eq_foldl_after, ← Import.foldl_after]
  obtain ⟨kept, -, same⟩ := Database.catalogue_foldl_after consistent batch.changes
  exact ⟨kept, same⟩

/-- The database of the settings opens, keeps its constraints, and holds what the catalogue lists. -/
def Stores (places : Places) (settings : Settings) (folder : Folder) (catalogue : Catalogue) : Prop :=
  ∃ tables, (opening places settings folder).1 = .ok tables ∧ tables.Consistent ∧
    Database.catalogue ⟨settings.foldsCase, tables⟩ = catalogue

/-- A command line asks for an import, whose records can be read. -/
def Loads (places : Places) (settings : Settings) (folder : Folder) (arguments : List Text)
    (batch : Import) : Prop :=
  ∃ file, Asks places settings folder arguments (.load file batch.replace) ∧
    ((readRecords Folder.host file).run folder).1 = .ok batch.items

/-- The outcome of an import that succeeds: it says how many records there were, and how many items and
tags are stored then. Log lines, which go to the standard error unless logging is off, are no part of it. -/
structure ReportsImport (records : Nat) (stored : Catalogue) (outcome : Outcome) : Prop where
  code : outcome.code = 0
  out : ∃ time, outcome.out = lines [
    "Import complete!".toList,
    "  Imported:     ".toList ++ Text.decimal records,
    "  Items:        ".toList ++ Text.decimal stored.size,
    "  Tags:         ".toList ++ Text.decimal stored.carried.size,
    "  Time:         ".toList ++ time]
  err : outcome.err = []

theorem reportsImport {db : Database} (consistent : db.tables.Consistent) (records milliseconds : Nat) :
    ReportsImport records db.catalogue (importReport records db milliseconds) := by
  obtain ⟨items, tags, -⟩ := Database.totals_eq consistent
  constructor
  · rfl
  · rw [← items, ← tags]
    exact ⟨_, rfl⟩
  · rfl

variable {places : Places} {settings : Settings} {folder : Folder} {arguments : List Text}
  {batch : Import} {previous : Catalogue}

/-- A database that has been opened is opened again as it was. -/
theorem opening_again (places : Places) (settings : Settings) (folder : Folder) :
    (opening places settings (opening places settings folder).2).1 =
      (opening places settings folder).1 := by
  rcases opening_cases places settings folder with same | ⟨isFile, made, -⟩
  · rw [same]
  · rw [made, opening_of_database isFile (folder.file?_put_self _ _)]

/-- An import whose records cannot be read fails, and has done no more than to open the database. -/
theorem run_load_of_unreadable {file : Text} {replace : Bool}
    (asks : Asks places settings folder arguments (.load file replace))
    (unreadable : ∀ items, ((readRecords Folder.host file).run folder).1 ≠ .ok items) :
    ((run Folder.host places arguments).run folder).1.code ≠ 0 ∧
      ((run Folder.host places arguments).run folder).2 = (opening places settings folder).2 := by
  rw [run_of_asks asks, Action.run, run_withDatabase]
  cases (opening places settings folder).1 with
  | error fault => exact ⟨Nat.one_ne_zero, rfl⟩
  | ok tables =>
    dsimp only
    rw [run_runImport]
    cases read : ((readRecords Folder.host file).run (opening places settings folder).2).1 with
    | error fault => exact ⟨Nat.one_ne_zero, rfl⟩
    | ok items => exact absurd (readRecords_opening.mp read) (unreadable items)

/-- An import whose records can be read saves the database with its changes. -/
theorem Loads.run_eq (loads : Loads places settings folder arguments batch) {tables : Tables}
    (opens : (opening places settings folder).1 = .ok tables) :
    let next := imported ⟨settings.foldsCase, tables⟩ batch.items batch.replace
    (run Folder.host places arguments).run folder =
      (importReport batch.items.length next 0,
        ((Folder.saveTables (databasePath places settings) next.tables).run
          (opening places settings folder).2).2) := by
  obtain ⟨file, asks, records⟩ := loads
  rw [run_of_asks asks, Action.run, run_withDatabase, opens]
  dsimp only
  rw [run_runImport, readRecords_opening.mpr records]

/-- What an import reports is stored when it ends. -/
theorem Loads.reports (loads : Loads places settings folder arguments batch)
    (stores : Stores places settings folder previous) :
    ReportsImport batch.items.length (batch.loaded settings.foldsCase previous)
      ((run Folder.host places arguments).run folder).1 := by
  obtain ⟨tables, opens, consistent, rfl⟩ := stores
  rw [loads.run_eq opens]
  obtain ⟨kept, same⟩ := catalogue_imported ⟨settings.foldsCase, tables⟩ consistent batch
  rw [← same]
  exact reportsImport kept _ _

/-- A database that is a file holds afterwards what the import has loaded. -/
theorem Loads.stores (kept : Folder.isVolatile (databasePath places settings) = false)
    (loads : Loads places settings folder arguments batch)
    (stores : Stores places settings folder previous) :
    Stores places settings ((run Folder.host places arguments).run folder).2
      (batch.loaded settings.foldsCase previous) := by
  obtain ⟨tables, opens, consistent, rfl⟩ := stores
  rw [loads.run_eq opens]
  obtain ⟨consistentAfter, same⟩ := catalogue_imported ⟨settings.foldsCase, tables⟩ consistent batch
  refine ⟨_, opening_saved (isFile_of_opening kept opens) _ _, consistentAfter, ?_⟩
  rw [← same]
  rfl

/-- An import whose records cannot be read fails and leaves the database as it was. Any other one loads
its records in their order, over what is stored or in its place, and reports how much is stored then. So
to replace everything comes to the same as to import into a database without items, and to import twice
to the same as to import once. -/
theorem import_loads_records {file : Text} {replace : Bool}
    (asks : Asks places settings folder arguments (.load file replace)) :
    let ended := (run Folder.host places arguments).run folder
    ((∀ items, ((readRecords Folder.host file).run folder).1 ≠ .ok items) →
      ended.1.code ≠ 0 ∧
        (opening places settings ended.2).1 = (opening places settings folder).1) ∧
    ∀ items previous, ((readRecords Folder.host file).run folder).1 = .ok items →
      Stores places settings folder previous →
      let loaded := Import.loaded settings.foldsCase ⟨items, replace⟩ previous
      (∀ id : Text, loaded[id]? =
        ((items.reverse.find? (·.id = id)).map (Listing.ofItem settings.foldsCase)).or
          (if replace then none else previous[id]?)) ∧
      ReportsImport items.length loaded ended.1 ∧
      (Folder.isVolatile (databasePath places settings) = false →
        Stores places settings ended.2 loaded ∧
        (replace = true → ∀ other again anyway, Stores places settings other ∅ →
          Loads places settings other again ⟨items, anyway⟩ →
          Stores places settings ((run Folder.host places again).run other).2 loaded) ∧
        ∀ again, Loads places settings ended.2 again ⟨items, replace⟩ →
          Stores places settings ((run Folder.host places again).run ended.2).2 loaded) := by
  intro ended
  refine ⟨fun unreadable => ?_, fun items previous records stores => ?_⟩
  · obtain ⟨fails, opened⟩ := run_load_of_unreadable asks unreadable
    refine ⟨fails, ?_⟩
    change (opening places settings ((run Folder.host places arguments).run folder).2).1 = _
    rw [opened, opening_again]
  · have loads : Loads places settings folder arguments ⟨items, replace⟩ := ⟨file, asks, records⟩
    refine ⟨Import.getElem?_loaded _ _ _, loads.reports stores, fun isFile => ?_⟩
    have stored := loads.stores isFile stores
    refine ⟨stored, ?_, fun again loadsAgain => ?_⟩
    · rintro rfl other again anyway nothing loadsOther
      have storedOther := loadsOther.stores isFile nothing
      rwa [Import.loaded_empty] at storedOther
    · have storedAgain := loadsAgain.stores isFile stored
      rwa [Import.loaded_loaded] at storedAgain

/-- Two records of one item are imported beside another item: the later one counts, and a tag that both
items carry is one tag. -/
theorem import_loads_records_of_repeated :
    let places : Places := ⟨"/settings".toList, "/db".toList, none⟩
    let before : Database := Database.insert ⟨true, {}⟩ ⟨"2".toList, "/p/y".toList, ["dog".toList]⟩
    let folder : Folder := { current := [], files := [
      (["a".toList], .text ("[\x7b\"id\": \"1\", \"location\": \"/p/x\", \"tags\": [\"cat\"]\x7d,".toList ++
        "\x7b\"id\": \"1\", \"location\": \"/P/z\", \"tags\": [\" \", \"Dog\"]\x7d]".toList)),
      (["db".toList], .database before.tables)] }
    let ended := (run Folder.host places ["import".toList, "/a".toList]).run folder
    ∃ loaded : Catalogue, ReportsImport 2 loaded ended.1 ∧ Stores places {} ended.2 loaded ∧
      loaded.toList.map (fun p => (p.1, p.2.location, p.2.tags.toList)) =
        [("1".toList, "/p/z".toList, ["dog".toList]), ("2".toList, "/p/y".toList, ["dog".toList])] := by
  intro places before folder ended
  let items : List Item := [⟨"1".toList, "/p/x".toList, ["cat".toList]⟩,
    ⟨"1".toList, "/P/z".toList, [" ".toList, "Dog".toList]⟩]
  have asks : Asks places {} folder ["import".toList, "/a".toList] (.load "/a".toList false) :=
    ⟨none, by decide +kernel, by decide +kernel⟩
  have records : ((readRecords Folder.host "/a".toList).run folder).1 = .ok items := by
    decide +kernel
  have isFile : Folder.isVolatile (databasePath places {}) = false := by decide +kernel
  have empty : Database.Tables.Consistent {} := Database.Tables.consistent_empty 1 false
  have stores : Stores places {} folder before.catalogue :=
    ⟨before.tables, rfl, (empty.put true _).1.touch, rfl⟩
  obtain ⟨-, reports, stored⟩ := (import_loads_records asks).2 items _ records stores
  exact ⟨_, reports, (stored isFile).1, by decide +kernel⟩

end TagQuery.Command
