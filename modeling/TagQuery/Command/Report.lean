import TagQuery.Settings
import TagQuery.Database
import TagQuery.Query.Parser
import TagQuery.Json.Printer
import TagQuery.Command.Grammar

/-! What the commands print. -/
namespace TagQuery.Command

/-- How a run of the program ends: its code, and what it has written to both streams. Log lines are left
out, as if logging were off. -/
structure Outcome where
  code : Nat := 0
  out : Text := []
  err : Text := []
  deriving DecidableEq, Repr

def lines (ts : List Text) : Text := ts.flatMap fun t => t ++ ['\n']

def labelled (label : String) (t : Text) : Text := label.toList ++ t

def faultLine (fault : Fault) : Text := "Error: ".toList ++ fault.message ++ ['\n']

def Outcome.ofFault (fault : Fault) : Outcome := { code := 1, err := faultLine fault }

/-- The number of characters that begin before a byte position. -/
def columnOf : Text → Nat → Nat
  | [], _ => 0
  | _, 0 => 0
  | c :: t, position => 1 + columnOf t (position - c.utf8Size)

/-- The query, and below it a mark at the character where it is at fault. -/
def caret (query : Text) (fault : Fault) : Text :=
  match fault.position? with
  | none => []
  | some position =>
    lines ["  ".toList ++ query,
      "  ".toList ++ List.replicate (columnOf query position) ' ' ++ ['^']]

def Outcome.ofQueryFault (query : Text) (fault : Fault) : Outcome :=
  { code := 1, err := caret query fault ++ faultLine fault }

def noDirectories : Outcome where
  err := lines [
    "No directories to search. Pass --scope DIR or set [scope] directories in the config.".toList]

def thousandths (n : Nat) : Text := Text.decimal (n / 1000) ++ ['.'] ++ Text.padded 3 (n % 1000)

def hundredths (n : Nat) : Text := Text.decimal (n / 100) ++ ['.'] ++ Text.padded 2 (n % 100)

def parseReport (settings : Settings) (query : Text) : Outcome :=
  match Query.parse settings.dialect query with
  | .error e => .ofQueryFault query e.toFault
  | .ok q =>
    { out := lines [
        q.render,
        [],
        labelled "Tags:  " (Text.joinWith ", ".toList q.tags),
        labelled "Nodes: " (Text.decimal q.size)] }

def search (settings : Settings) (db : Database) (query : Text) (scope : Scope) :
    Except Fault Evaluation :=
  match Query.parse settings.dialect query with
  | .error e => .error e.toFault
  | .ok q =>
    match (q.evaluate (TagStore.source db scope) none scope).found with
    | none => .error .cancelled
    | some found => .ok found

/-- The identifiers that are shown: the first ones, up to a limit that is not 0. -/
def shownIds (limit : Nat) (found : Evaluation) : List Text :=
  if limit = 0 then found.items.toList else found.items.toList.take limit

def shownItems (db : Database) (limit : Nat) (found : Evaluation) : List Item :=
  db.tables.find (shownIds limit found)

def summaryLine (found : Evaluation) (microseconds : Nat) : Text :=
  "Found ".toList ++ Text.decimal found.items.size ++ " results in ".toList ++
    thousandths microseconds ++ "ms (".toList ++ Text.decimal found.lookups ++ " lookups)".toList

/-- The results as text: a location on each line, and remarks on the other stream. -/
def textResults (db : Database) (limit : Nat) (found : Evaluation) (microseconds : Nat) :
    Outcome :=
  let items := shownItems db limit found
  { out := lines (items.map Item.location)
    err := lines ([[], summaryLine found microseconds] ++
      (if items.length < found.items.size then
        ["Showing the first ".toList ++ Text.decimal items.length ++
          "; use --limit 0 to show all.".toList]
      else []) ++
      found.failures.map fun failure =>
        "⚠ Lookup failed, results may be incomplete: ".toList ++ failure.message) }

def itemValue (item : Item) : Json.Value :=
  .object [("id".toList, .text item.id), ("location".toList, .text item.location),
    ("tags".toList, .texts item.tags)]

def jsonResults (db : Database) (query : Text) (scope : Scope) (limit : Nat)
    (found : Evaluation) : Outcome :=
  let report : Json.Value := .object [
    ("failures".toList, .texts (found.failures.map LookupFailure.message)),
    ("items".toList, .array ((shownItems db limit found).map itemValue)),
    ("query".toList, .text query),
    ("scope".toList, .texts scope.stems),
    ("total".toList, .number found.items.size)]
  { out := lines [report.written 0] }

def results (format : Format) (db : Database) (query : Text) (scope : Scope) (limit : Nat)
    (found : Evaluation) (microseconds : Nat) : Outcome :=
  match format with
  | .text => textResults db limit found microseconds
  | .json => jsonResults db query scope limit found

/-- The counts, flush right, and the names. -/
def countLines (counts : List TagCount) : List Text :=
  let width := (counts.map fun c => (Text.decimal c.count).length).foldl max 0
  counts.map fun c =>
    let count := Text.decimal c.count
    List.replicate (width - count.length) ' ' ++ count ++ "  ".toList ++ c.name

def tagsReport (db : Database) (scope : Scope) (start : Text) (limit : Nat) : Outcome :=
  match db.tagCounts scope start limit with
  | .error fault => .ofFault fault
  | .ok [] => { err := lines ["No tags found in ".toList ++ scope.render] }
  | .ok counts => { out := lines (countLines counts) }

def importReport (imported : Nat) (db : Database) (milliseconds : Nat) : Outcome where
  out := lines [
    "Import complete!".toList,
    labelled "  Imported:     " (Text.decimal imported),
    labelled "  Items:        " (Text.decimal db.totals.items),
    labelled "  Tags:         " (Text.decimal db.totals.tags),
    labelled "  Time:         " (hundredths ((milliseconds + 5) / 10) ++ ['s'])]

def imported (db : Database) (items : List Item) (replace : Bool) : Database :=
  (if replace then db.clear.2 else db).insertAll items

def contentLines (totals : StoreTotals) (updated : Text) : List Text :=
  if totals.items = 0 then
    ["Database is empty. Run 'tagscope import <file>' to load items.".toList]
  else
    ["Summary:".toList,
      labelled "  Items:        " (Text.decimal totals.items),
      labelled "  Tags:         " (Text.decimal totals.tags),
      labelled "  Associations: " (Text.decimal totals.associations)] ++
    if totals.written then [labelled "  Last updated: " updated] else []

def settingsLines (settings : Settings) : List Text :=
  let scope := settings.scope []
  ["Query settings:".toList,
    labelled "  Implicit AND:     " (Text.truth settings.dialect.implicitAnd),
    labelled "  ALL keywords:     " (Text.joinWith ", ".toList settings.dialect.allKeywords),
    labelled "  Case-insensitive: " (Text.truth settings.foldsCase),
    labelled "  Default scope:    " (if scope.isEmpty then "(none)".toList else scope.render)]

def statusReport (settings : Settings) (db : Database) (path updated : Text) : Outcome where
  out := lines (["Tagscope Status".toList, "===============".toList, []] ++
    contentLines db.totals updated ++ [[]] ++ settingsLines settings ++
    [[], labelled "Database: " path])

example : (parseReport {} "né )".toList).err =
    "  né )\n     ^\nError: syntax error at byte 4: unmatched ')'\n".toList := by decide +kernel

end TagQuery.Command
