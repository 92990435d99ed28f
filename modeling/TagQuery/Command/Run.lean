import TagQuery.Command.Help
import TagQuery.Command.Report
import TagQuery.Settings.Format
import TagQuery.Records

/-! A run of the program: the command line, the settings, and the command. What the program needs of
the machine that it runs on is given by a host. -/
namespace TagQuery.Command

open Database (Tables)

/-- What a machine provides. -/
structure Host (m : Type → Type) where
  /-- the text of a file, or nothing where there is no such file -/
  readFile : Text → m (Except Fault (Option Text))
  /-- the text on the standard input -/
  readInput : m (Except Fault Text)
  /-- the tables in a database file, which is made if it is missing -/
  openTables : Text → m (Except Fault Tables)
  saveTables : Text → Tables → m (Except Fault Unit)
  /-- when a database file was changed, in words -/
  timeOfChange : Text → m Text
  /-- the microseconds since some moment -/
  now : m Nat

/-- Where files usually are, and what the environment names. -/
structure Places where
  settings : Text
  database : Text
  /-- the file of settings that the environment names -/
  namedSettings : Option Text
  deriving DecidableEq, Repr

variable {m : Type → Type} [Monad m]

/-- The settings in a file. Where there is no file they are as usual, and settings that cannot be
used are a fault. -/
def loadSettings (host : Host m) (path : Text) : m (Except Fault Settings) := do
  match ← host.readFile path with
  | .error fault => return .error fault
  | .ok content =>
    match (content.map Settings.ofText).getD (.ok {}) with
    | .error fault => return .error fault
    | .ok settings =>
      match settings.fault? with
      | some fault => return .error fault
      | none => return .ok settings

def databasePath (places : Places) (settings : Settings) : Text :=
  settings.database.getD places.database

/-- Opens the database of the settings for a command. -/
def withDatabase (host : Host m) (places : Places) (settings : Settings)
    (command : Text → Database → m Outcome) : m Outcome := do
  let path := databasePath places settings
  match ← host.openTables path with
  | .error fault => return .ofFault fault
  | .ok tables => command path ⟨settings.foldsCase, tables⟩

/-- The items in a file of records, or on the standard input for a hyphen. -/
def readRecords (host : Host m) (path : Text) : m (Except Fault (List Item)) := do
  let content ← if path = ['-'] then Except.map some <$> host.readInput else host.readFile path
  match content with
  | .error fault => return .error fault
  | .ok none => return .error .file
  | .ok (some t) =>
    match Records.read? t with
    | none => return .error .recordsFormat
    | some items => return .ok items

/-- Loads the items of a file. Nothing is changed when the file cannot be read. -/
def runImport (host : Host m) (path : Text) (db : Database) (file : Text) (replace : Bool) :
    m Outcome := do
  match ← readRecords host file with
  | .error fault => return .ofFault fault
  | .ok items =>
    let start ← host.now
    let next := imported db items replace
    match ← host.saveTables path next.tables with
    | .error fault => return .ofFault fault
    | .ok () =>
      let stop ← host.now
      return importReport items.length next ((stop - start) / 1000)

def runQuery (host : Host m) (settings : Settings) (db : Database) (query : Text)
    (directories : List Text) (limit : Option Nat) (format : Format) : m Outcome := do
  let scope := settings.scope directories
  if scope.isEmpty then return noDirectories
  else
    let start ← host.now
    match search settings db query scope with
    | .error fault => return .ofQueryFault query fault
    | .ok found =>
      let stop ← host.now
      return results format db query scope (limit.getD settings.maxResults) found (stop - start)

def runTags (settings : Settings) (db : Database) (start : Text) (directories : List Text)
    (limit : Nat) : Outcome :=
  let scope := settings.scope directories
  if scope.isEmpty then noDirectories else tagsReport db scope start limit

def Action.run (host : Host m) (places : Places) (settings : Settings) : Action → m Outcome
  | parse text => return parseReport settings text
  | load file replace =>
    withDatabase host places settings fun path db => runImport host path db file replace
  | query text directories limit format =>
    withDatabase host places settings fun _ db =>
      runQuery host settings db text directories limit format
  | tags start directories limit =>
    withDatabase host places settings fun _ db =>
      return runTags settings db start directories limit
  | status =>
    withDatabase host places settings fun path db => do
      return statusReport settings db path (← host.timeOfChange path)

def Refusal.outcome (environment : Option Text) : Refusal → Outcome
  | .misuse => { code := 2, err := lines ["Usage error. Try --help.".toList] }
  | .help topic => { out := topic.text environment }
  | .version => { out := lines [programName ++ [' '] ++ programVersion] }

def run (host : Host m) (places : Places) (arguments : List Text) : m Outcome := do
  match Invocation.read places.namedSettings arguments with
  | .error refusal => return refusal.outcome places.namedSettings
  | .ok invocation =>
    match ← loadSettings host (invocation.settingsFile.getD places.settings) with
    | .error fault => return .ofFault fault
    | .ok settings => invocation.action.run host places settings

end TagQuery.Command
