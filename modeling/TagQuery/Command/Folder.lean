import TagQuery.Command.Run

/-! A folder in memory, as a host for the program: files by their paths, of which some are
databases. No time passes in it. -/
namespace TagQuery.Command

open Database (Tables)

inductive Content where
  | text (content : Text)
  | database (tables : Tables)

/-- The segments of a path from the root. -/
abbrev FilePath := List Text

structure Folder where
  /-- the folder in which paths that do not begin at the root begin -/
  current : FilePath
  files : List (FilePath × Content) := []
  /-- the text on the standard input -/
  input : Text := []

namespace Folder

def locate (folder : Folder) (path : Text) : FilePath :=
  let segments := path.splitOn '/'
  Location.resolve true (if Location.isAbsolute path then segments else folder.current ++ segments)

def file? (folder : Folder) (place : FilePath) : Option Content :=
  (folder.files.find? (·.1 == place)).map Prod.snd

/-- Whether a place is a folder: one on the way to a file or to the current folder. -/
def isFolder (folder : Folder) (place : FilePath) : Bool :=
  place.isPrefixOf folder.current ||
    folder.files.any fun file => place.isPrefixOf file.1 && file.1 != place

/-- Whether a file is on the way to a place. -/
def isBlocked (folder : Folder) (place : FilePath) : Bool :=
  folder.files.any fun file => file.1.isPrefixOf place && file.1 != place

def put (folder : Folder) (place : FilePath) (content : Content) : Folder :=
  { folder with files := (place, content) :: folder.files.filter (·.1 != place) }

/-- Whether a database with this path lives only as long as it is open. -/
def isVolatile (path : Text) : Bool := path.isEmpty || path == ":memory:".toList

/-- Whether the database engine takes the path for a URI. -/
def isUri (path : Text) : Bool := "file:".toList.isPrefixOf path

/-- Whether a path climbs, ends in a separator, or has a null character in it. What such a path leads to is
not told by its segments alone, and it is refused. -/
def isOdd (path : Text) : Bool :=
  (path.splitOn '/').contains Location.up || path.getLast? == some '/' || path.contains '\x00'

def readFile (path : Text) : StateM Folder (Except Fault (Option Text)) := do
  if isOdd path then return .error .file
  else
    let folder ← get
    let place := folder.locate path
    match folder.file? place with
    | some (.text content) => return .ok (some content)
    | some (.database _) => return .error .file
    | none => return if folder.isFolder place then .error .file else .ok none

/-- Opens a database. An empty file is a database without tables. A URI is refused. -/
def openTables (path : Text) : StateM Folder (Except Fault Tables) := do
  if isVolatile path then return .ok {}
  else if isUri path || isOdd path then return .error .file
  else
    let folder ← get
    let place := folder.locate path
    match folder.file? place with
    | some (.database tables) => return .ok tables
    | some (.text (_ :: _)) => return .error (.storage "file is not a database".toList)
    | _ =>
      if folder.isFolder place || folder.isBlocked place then return .error .file
      else
        set (folder.put place (.database {}))
        return .ok {}

def saveTables (path : Text) (tables : Tables) : StateM Folder (Except Fault Unit) := do
  if isVolatile path then return .ok ()
  else
    modify fun folder => folder.put (folder.locate path) (.database tables)
    return .ok ()

def host : Host (StateM Folder) where
  readFile := readFile
  readInput := do return .ok (← get).input
  openTables := openTables
  saveTables := saveTables
  timeOfChange _ := return []
  now := return 0

end Folder
end TagQuery.Command
