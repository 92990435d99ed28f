import TagQuery.Command.Folder
import TagQuery.Proofs.Database.Consistency

/-! What a folder keeps after imports: the tables that all their changes make, in order. Main steps: a
command sees the database that was open before it and reads its file as it was, and what an import has
saved is what the next command opens. -/
namespace TagQuery.Command

open Database (Tables)

/-- An import: its items, and whether everything stored before is removed first. -/
structure Import where
  items : List Item
  replace : Bool

def Import.changes (batch : Import) : List Change :=
  (if batch.replace then [.clear] else []) ++ [.insertAll batch.items]

theorem imported_eq_foldl_after (db : Database) (batch : Import) :
    imported db batch.items batch.replace = batch.changes.foldl Database.after db := by
  unfold imported Import.changes
  split <;> rfl

theorem foldsCase_imported (db : Database) (items : List Item) (replace : Bool) :
    (imported db items replace).foldsCase = db.foldsCase := by
  unfold imported
  split <;> rfl

variable {places : Places} {settings : Settings} {folder before after : Folder}
  {arguments : List Text} {action : Action}

/-- That a command line asks for an action, under the settings of the file that it names. -/
def Asks (places : Places) (settings : Settings) (folder : Folder) (arguments : List Text)
    (action : Action) : Prop :=
  ∃ file, Invocation.read places.namedSettings arguments = .ok ⟨file, action⟩ ∧
    ((loadSettings Folder.host (file.getD places.settings)).run folder).1 = .ok settings

/-- What opening the database of the settings comes to. -/
def opening (places : Places) (settings : Settings) (folder : Folder) :
    Except Fault Tables × Folder :=
  (Folder.openTables (databasePath places settings)).run folder

/-- How a folder comes from one without items in its database, by imports under one configuration.
Between them anything may be done to the folder that does not change the database. -/
inductive Imported (places : Places) (settings : Settings) : List Import → Folder → Prop
  | start {folder : Folder}
      (nothing : ∀ tables, (opening places settings folder).1 = .ok tables → tables = {}) :
      Imported places settings [] folder
  | edited {imports : List Import} {before after : Folder}
      (earlier : Imported places settings imports before)
      (same : (opening places settings after).1 = (opening places settings before).1) :
      Imported places settings imports after
  | loaded {imports : List Import} {before after : Folder} {arguments : List Text} {file : Text}
      {replace : Bool} {items : List Item} {outcome : Outcome}
      (earlier : Imported places settings imports before)
      (asks : Asks places settings before arguments (.load file replace))
      (records : ((readRecords Folder.host file).run before).1 = .ok items)
      (ran : (run Folder.host places arguments).run before = (outcome, after))
      (success : outcome.code = 0) :
      Imported places settings (imports ++ [⟨items, replace⟩]) after

theorem run_bind {α β : Type} (x : StateM Folder α) (next : α → StateM Folder β)
    (folder : Folder) :
    (x >>= next).run folder = (next (x.run folder).1).run (x.run folder).2 := rfl

theorem run_pure {α : Type} (a : α) (folder : Folder) :
    (pure a : StateM Folder α).run folder = (a, folder) := rfl

def OnlyReads {α : Type} (x : StateM Folder α) : Prop := ∀ folder, (x.run folder).2 = folder

theorem OnlyReads.bind {α β : Type} {x : StateM Folder α} {next : α → StateM Folder β}
    (first : OnlyReads x) (later : ∀ a, OnlyReads (next a)) : OnlyReads (x >>= next) := by
  intro folder
  rw [run_bind, first folder]
  exact later _ folder

theorem onlyReads_pure {α : Type} (a : α) : OnlyReads (pure a) := fun _ => rfl

theorem onlyReads_readFile (path : Text) : OnlyReads (Folder.readFile path) := by
  unfold Folder.readFile
  split
  · exact onlyReads_pure _
  · refine OnlyReads.bind (fun _ => rfl) fun folder => ?_
    dsimp only
    split <;> exact onlyReads_pure _

theorem onlyReads_loadSettings (path : Text) : OnlyReads (loadSettings Folder.host path) := by
  refine OnlyReads.bind (onlyReads_readFile path) fun content => ?_
  repeat' split
  all_goals exact onlyReads_pure _

/-- A command line that asks for an action has it carried out. -/
theorem run_of_asks (asks : Asks places settings folder arguments action) :
    (run Folder.host places arguments).run folder =
      (action.run Folder.host places settings).run folder := by
  obtain ⟨file, reads, loads⟩ := asks
  unfold run
  simp only [reads]
  rw [run_bind, loads, onlyReads_loadSettings]

theorem run_withDatabase (command : Text → Database → StateM Folder Outcome) (folder : Folder) :
    (withDatabase Folder.host places settings command).run folder =
      match (opening places settings folder).1 with
      | .error fault => (.ofFault fault, (opening places settings folder).2)
      | .ok tables =>
        (command (databasePath places settings) ⟨settings.foldsCase, tables⟩).run
          (opening places settings folder).2 := by
  unfold withDatabase
  rw [run_bind]
  change (match (opening places settings folder).1 with
    | .error fault => pure (Outcome.ofFault fault)
    | .ok tables => command (databasePath places settings) ⟨settings.foldsCase, tables⟩ :
      StateM Folder Outcome).run (opening places settings folder).2 = _
  split <;> rfl

theorem Folder.file?_put_self (folder : Folder) (place : FilePath) (content : Content) :
    (folder.put place content).file? place = some content := by
  simp [file?, put]

theorem Folder.file?_put_of_ne {place other : FilePath} (different : other ≠ place)
    (content : Content) : (folder.put place content).file? other = folder.file? other := by
  have apart : (place == other) = false := beq_eq_false_iff_ne.mpr (Ne.symm different)
  simp only [file?, put, List.find?_cons, apart, List.find?_filter]
  refine congrArg (fun test => (folder.files.find? test).map Prod.snd) (funext fun file => ?_)
  by_cases same : file.1 = other
  · simp [same, different]
  · simp [same]

def Folder.recordsText? (folder : Folder) (file : Text) : Option Text :=
  if file = ['-'] then some folder.input
  else if Folder.isOdd file then none
  else
    match folder.file? (folder.locate file) with
    | some (.text content) => some content
    | _ => none

theorem run_readFile (folder : Folder) (path : Text) :
    ((Folder.readFile path).run folder).1 =
      if Folder.isOdd path then .error .file
      else
        match folder.file? (folder.locate path) with
        | some (.text content) => .ok (some content)
        | some (.database _) => .error .file
        | none => if folder.isFolder (folder.locate path) then .error .file else .ok none := by
  unfold Folder.readFile
  split
  · rfl
  · rw [run_bind]
    dsimp only [StateT.run, get, getThe, MonadStateOf.get, StateT.get, pure]
    cases folder.file? (folder.locate path) with
    | none => rfl
    | some content => cases content <;> rfl

def recordsOf : Except Fault (Option Text) → Except Fault (List Item)
  | .error fault => .error fault
  | .ok none => .error .file
  | .ok (some t) =>
    match Records.read? t with
    | none => .error .recordsFormat
    | some items => .ok items

theorem recordsOf_eq_ok {content : Except Fault (Option Text)} {items : List Item} :
    recordsOf content = .ok items ↔
      ∃ t, content = .ok (some t) ∧ Records.read? t = some items := by
  unfold recordsOf
  repeat' split
  all_goals simp_all

def Folder.readContent (file : Text) : StateM Folder (Except Fault (Option Text)) :=
  if file = ['-'] then Except.map some <$> Folder.host.readInput else Folder.readFile file

theorem onlyReads_readContent (file : Text) : OnlyReads (Folder.readContent file) := by
  unfold Folder.readContent
  split
  · exact fun _ => rfl
  · exact onlyReads_readFile file

theorem run_readContent_eq_ok {file t : Text} :
    ((Folder.readContent file).run folder).1 = .ok (some t) ↔
      folder.recordsText? file = some t := by
  unfold Folder.readContent Folder.recordsText?
  split
  · change Except.ok (some folder.input) = Except.ok (some t) ↔ _
    rw [Except.ok.injEq]
  · rw [run_readFile]
    split
    · simp
    · rcases folder.file? (folder.locate file) with _ | content | tables
      · cases folder.isFolder (folder.locate file) <;> simp
      · simp
      · simp

theorem readRecords_eq (file : Text) :
    readRecords Folder.host file =
      Folder.readContent file >>= fun content => pure (recordsOf content) := by
  unfold readRecords Folder.readContent recordsOf
  split
  all_goals
    refine congrArg (_ >>= ·) (funext fun content => ?_)
    rcases content with _ | _ | t
    · rfl
    · rfl
    · dsimp only
      cases Records.read? t <;> rfl

theorem onlyReads_readRecords (file : Text) : OnlyReads (readRecords Folder.host file) := by
  rw [readRecords_eq]
  exact (onlyReads_readContent file).bind fun _ => onlyReads_pure _

/-- The records are those of the text, where there is one that can be read. -/
theorem readRecords_eq_ok {file : Text} {items : List Item} :
    ((readRecords Folder.host file).run folder).1 = .ok items ↔
      ∃ t, folder.recordsText? file = some t ∧ Records.read? t = some items := by
  rw [readRecords_eq, run_bind, run_pure]
  simp only [recordsOf_eq_ok, run_readContent_eq_ok]

theorem opening_of_volatile
    (volatile : Folder.isVolatile (databasePath places settings) = true) (folder : Folder) :
    opening places settings folder = (.ok {}, folder) := by
  unfold opening Folder.openTables
  rw [if_pos volatile]
  rfl

/-- The database of the settings is a file, and its path says which. -/
structure IsFile (places : Places) (settings : Settings) : Prop where
  kept : Folder.isVolatile (databasePath places settings) = false
  plain : (Folder.isUri (databasePath places settings) ||
    Folder.isOdd (databasePath places settings)) = false

/-- A database that is kept is opened only if its path says where it is. -/
theorem isFile_of_opening (kept : Folder.isVolatile (databasePath places settings) = false)
    {tables : Tables} (opens : (opening places settings folder).1 = .ok tables) :
    IsFile places settings where
  kept := kept
  plain := by
    rw [Bool.eq_false_iff]
    intro refused
    unfold opening Folder.openTables at opens
    rw [if_neg (Bool.eq_false_iff.mp kept), if_pos refused] at opens
    cases opens

theorem opening_of_isFile (isFile : IsFile places settings) (folder : Folder) :
    opening places settings folder =
      let place := folder.locate (databasePath places settings)
      match folder.file? place with
      | some (.database tables) => (.ok tables, folder)
      | some (.text (_ :: _)) => (.error (.storage "file is not a database".toList), folder)
      | _ =>
        if folder.isFolder place || folder.isBlocked place then (.error .file, folder)
        else (.ok {}, folder.put place (.database {})) := by
  unfold opening Folder.openTables
  rw [if_neg (Bool.eq_false_iff.mp isFile.kept), if_neg (Bool.eq_false_iff.mp isFile.plain), run_bind]
  dsimp only [StateT.run, get, getThe, MonadStateOf.get, StateT.get, pure]
  generalize folder.locate (databasePath places settings) = place
  have makes (blocked : Bool) : (if blocked then pure (.error .file) else do
        set (folder.put place (.database {}))
        return .ok {} : StateM Folder (Except Fault Tables)).run folder =
      if blocked then (.error .file, folder) else (.ok {}, folder.put place (.database {})) := by
    cases blocked <;> rfl
  cases folder.file? place with
  | none => exact makes _
  | some content =>
    cases content with
    | database tables => rfl
    | text t =>
      cases t with
      | nil => exact makes _
      | cons _ _ => rfl

theorem opening_of_not_isFile (other : ¬ IsFile places settings) (folder : Folder) :
    (opening places settings folder).2 = folder := by
  unfold opening Folder.openTables
  split
  · rfl
  · next kept =>
    split
    · rfl
    · next plain => exact absurd ⟨Bool.eq_false_iff.mpr kept, Bool.eq_false_iff.mpr plain⟩ other

theorem opening_of_database (isFile : IsFile places settings) {tables : Tables}
    (there : folder.file? (folder.locate (databasePath places settings)) =
      some (.database tables)) :
    opening places settings folder = (.ok tables, folder) := by
  simp only [opening_of_isFile isFile, there]

/-- To open a database leaves the folder as it is, or puts a new one where nothing is written. -/
theorem opening_cases (places : Places) (settings : Settings) (folder : Folder) :
    (opening places settings folder).2 = folder ∨
      let place := folder.locate (databasePath places settings)
      IsFile places settings ∧
        opening places settings folder = (.ok {}, folder.put place (.database {})) ∧
        ∀ t, folder.file? place = some (.text t) → t = [] := by
  by_cases isFile : IsFile places settings
  · rw [opening_of_isFile isFile]
    dsimp only
    split
    · exact .inl rfl
    · exact .inl rfl
    · next noText =>
      split
      · exact .inl rfl
      · refine .inr ⟨isFile, rfl, fun t written => ?_⟩
        cases t with
        | nil => rfl
        | cons c more => exact absurd written (noText c more)
  · exact .inl (opening_of_not_isFile isFile folder)

/-- Records are looked for in the same text when the database has been opened. -/
theorem recordsText?_opening {file t : Text} (some_text : t ≠ []) :
    (opening places settings folder).2.recordsText? file = some t ↔
      folder.recordsText? file = some t := by
  rcases opening_cases places settings folder with same | ⟨-, made, blank⟩
  · rw [same]
  · rw [made]
    generalize folder.locate (databasePath places settings) = place at blank
    have located : (folder.put place (.database {})).locate file = folder.locate file := rfl
    unfold Folder.recordsText?
    split
    · rfl
    · split
      · rfl
      · rw [located]
        by_cases own : folder.locate file = place
        · rw [own, folder.file?_put_self]
          constructor
          · intro given
            cases given
          · intro given
            split at given
            · next content written =>
              cases given
              exact absurd (blank t written) some_text
            · cases given
        · rw [Folder.file?_put_of_ne own]

theorem readRecords_opening {file : Text} {items : List Item} :
    ((readRecords Folder.host file).run (opening places settings folder).2).1 = .ok items ↔
      ((readRecords Folder.host file).run folder).1 = .ok items := by
  rw [readRecords_eq_ok, readRecords_eq_ok]
  refine exists_congr fun t => ?_
  cases t with
  | nil =>
    have nothing : Records.read? [] = none := rfl
    simp only [nothing, reduceCtorEq, and_false]
  | cons c more => rw [recordsText?_opening (List.cons_ne_nil c more)]

theorem run_runImport (path : Text) (db : Database) (file : Text) (replace : Bool)
    (folder : Folder) :
    (runImport Folder.host path db file replace).run folder =
      match ((readRecords Folder.host file).run folder).1 with
      | .error fault => (.ofFault fault, folder)
      | .ok items =>
        (importReport items.length (imported db items replace) 0,
          ((Folder.saveTables path (imported db items replace).tables).run folder).2) := by
  unfold runImport
  rw [run_bind, onlyReads_readRecords]
  cases ((readRecords Folder.host file).run folder).1 with
  | error fault => rfl
  | ok items =>
    have saved : ((Folder.host.saveTables path (imported db items replace).tables).run folder).1 =
        .ok () := by
      change ((Folder.saveTables path _).run folder).1 = _
      unfold Folder.saveTables
      split <;> rfl
    have clock (folder : Folder) : Folder.host.now.run folder = (0, folder) := rfl
    dsimp only
    rw [run_bind, clock, run_bind, saved]
    dsimp only
    rw [run_bind, clock, run_pure, Nat.sub_self, Nat.zero_div]
    rfl

/-- An import that succeeds opens the database, and saves it with its changes. -/
theorem run_load {file : Text} {replace : Bool} {items : List Item} {outcome : Outcome}
    (asks : Asks places settings before arguments (.load file replace))
    (records : ((readRecords Folder.host file).run before).1 = .ok items)
    (ran : (run Folder.host places arguments).run before = (outcome, after))
    (success : outcome.code = 0) :
    ∃ tables, (opening places settings before).1 = .ok tables ∧
      let next := imported ⟨settings.foldsCase, tables⟩ items replace
      after = ((Folder.saveTables (databasePath places settings) next.tables).run
        (opening places settings before).2).2 := by
  rw [run_of_asks asks, Action.run, run_withDatabase] at ran
  cases opens : (opening places settings before).1 with
  | error fault =>
    rw [opens] at ran
    cases ran
    cases success
  | ok tables =>
    rw [opens] at ran
    dsimp only at ran
    rw [run_runImport] at ran
    refine ⟨tables, rfl, ?_⟩
    cases found : ((readRecords Folder.host file).run (opening places settings before).2).1 with
    | error fault =>
      rw [found] at ran
      cases ran
      cases success
    | ok others =>
      -- The records were there before the database was opened.
      have same := readRecords_opening.mp found
      rw [records] at same
      cases same
      rw [found] at ran
      cases ran
      rfl

/-- What was saved is opened. -/
theorem opening_saved (isFile : IsFile places settings) (folder : Folder) (tables : Tables) :
    (opening places settings
      ((Folder.saveTables (databasePath places settings) tables).run folder).2).1 = .ok tables := by
  have saved : ((Folder.saveTables (databasePath places settings) tables).run folder).2 =
      folder.put (folder.locate (databasePath places settings)) (.database tables) := by
    unfold Folder.saveTables
    rw [if_neg (Bool.eq_false_iff.mp isFile.kept)]
    rfl
  have there := folder.file?_put_self (folder.locate (databasePath places settings))
    (.database tables)
  rw [saved, opening_of_database isFile there]

/-- The imports that the database keeps; one that lives only as long as it is open keeps none. -/
def keptImports (places : Places) (settings : Settings) (imports : List Import) : List Import :=
  if Folder.isVolatile (databasePath places settings) then [] else imports

theorem keptImports_of_kept (kept : Folder.isVolatile (databasePath places settings) = false)
    (imports : List Import) : keptImports places settings imports = imports :=
  if_neg (Bool.eq_false_iff.mp kept)

/-- What the changes of some imports make of a database without items. -/
def afterImports (settings : Settings) (imports : List Import) : Database :=
  (imports.flatMap Import.changes).foldl Database.after ⟨settings.foldsCase, {}⟩

theorem afterImports_append (imports : List Import) (batch : Import) :
    afterImports settings (imports ++ [batch]) =
      imported (afterImports settings imports) batch.items batch.replace := by
  rw [imported_eq_foldl_after, afterImports, List.flatMap_append, List.foldl_append,
    List.flatMap_singleton]
  rfl

/-- After imports under one configuration, the database that is opened has gone through their changes,
and no others. -/
theorem Imported.opens_afterImports {imports : List Import}
    (h : Imported places settings imports folder) {tables : Tables}
    (opens : (opening places settings folder).1 = .ok tables) :
    ⟨settings.foldsCase, tables⟩ = afterImports settings (keptImports places settings imports) := by
  unfold keptImports
  cases kept : Folder.isVolatile (databasePath places settings) with
  | true =>
    rw [opening_of_volatile kept] at opens
    cases opens
    rfl
  | false =>
    rw [if_neg Bool.false_ne_true]
    induction h generalizing tables with
    | start nothing =>
      rw [nothing tables opens]
      rfl
    | edited _ same ih => exact ih (same ▸ opens)
    | @loaded _ _ _ _ _ replace items _ _ asks records ran success ih =>
      obtain ⟨earlier, opened, rfl⟩ := run_load asks records ran success
      rw [opening_saved (isFile_of_opening kept opened)] at opens
      cases opens
      have setting := foldsCase_imported ⟨settings.foldsCase, earlier⟩ items replace
      rw [afterImports_append, ← ih opened]
      exact congrArg (Database.mk · _) setting.symm

/-- An import that succeeds leaves a database that is opened, and has gone through its changes too. -/
theorem Imported.opening_loaded {imports : List Import} {file : Text} {replace : Bool}
    {items : List Item} {outcome : Outcome}
    (kept : Folder.isVolatile (databasePath places settings) = false)
    (h : Imported places settings imports before)
    (asks : Asks places settings before arguments (.load file replace))
    (records : ((readRecords Folder.host file).run before).1 = .ok items)
    (ran : (run Folder.host places arguments).run before = (outcome, after))
    (success : outcome.code = 0) :
    (opening places settings after).1 =
      .ok (afterImports settings (imports ++ [⟨items, replace⟩])).tables := by
  obtain ⟨earlier, opened, saved⟩ := run_load asks records ran success
  have opens := opening_saved (isFile_of_opening kept opened) (opening places settings before).2
    (imported ⟨settings.foldsCase, earlier⟩ items replace).tables
  rw [← saved] at opens
  have through := (h.loaded asks records ran success).opens_afterImports opens
  rw [keptImports_of_kept kept] at through
  rw [opens, ← through]

end TagQuery.Command
