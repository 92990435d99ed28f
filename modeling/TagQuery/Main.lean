import TagQuery.Calendar
import TagQuery.Command.Folder
import TagQuery.Database.Stored

/-! The program on a real machine. A database is kept in a file as the text of its tables, and has a plain
path: a URI is refused. -/
namespace TagQuery.Command

open Database (Tables)

def machinePath (path : Text) : String := String.ofList path

/-- The folder that a path lies in, unless it lies in the current one. -/
def folderOf? (path : Text) : Option Text :=
  match path.reverse.dropWhile (· ≠ '/') with
  | [] => none
  | [_] => some ['/']
  | _ :: reversed => some reversed.reverse

/-- The text of a file, or nothing where there is no such file. -/
def readMachineFile (path : Text) : IO (Except Fault (Option Text)) := do
  try
    let bytes ← IO.FS.readBinFile (machinePath path)
    match String.fromUTF8? bytes with
    | none => return .error .file
    | some content => return .ok (some content.toList)
  catch
    | .noFileOrDirectory .. => return .ok none
    | _ => return .error .file

/-- Everything that is left in a stream. -/
partial def readAll (stream : IO.FS.Stream) (found : ByteArray) : IO ByteArray := do
  let more ← stream.read 65536
  if more.isEmpty then return found else readAll stream (found ++ more)

def readMachineInput : IO (Except Fault Text) := do
  let bytes ← readAll (← IO.getStdin) ByteArray.empty
  match String.fromUTF8? bytes with
  | none => return .error .file
  | some content => return .ok content.toList

def saveMachineTables (path : Text) (tables : Tables) : IO (Except Fault Unit) := do
  if Folder.isVolatile path then return .ok ()
  else
    try
      IO.FS.writeFile (machinePath path) (String.ofList tables.toText)
      return .ok ()
    catch _ => return .error .file

def openMachineTables (path : Text) : IO (Except Fault Tables) := do
  if Folder.isVolatile path then return .ok {}
  else if Folder.isUri path then return .error .file
  else
    try
      if let some folder := folderOf? path then IO.FS.createDirAll (machinePath folder)
    catch _ => return .error .file
    match ← readMachineFile path with
    | .error fault => return .error fault
    | .ok none =>
      match ← saveMachineTables path {} with
      | .error fault => return .error fault
      | .ok () => return .ok {}
    | .ok (some []) => return .ok {}
    | .ok (some content) =>
      match Tables.ofText? content with
      | none => return .error (.storage "file is not a database".toList)
      | some tables => return .ok tables

def timeOfMachineChange (path : Text) : IO Text := do
  try
    let place ← IO.FS.realPath (machinePath path)
    let described ← place.metadata
    return Calendar.timeText described.modified.sec.toNat
  catch _ => return []

def machine : Host IO where
  readFile := readMachineFile
  readInput := readMachineInput
  openTables := openMachineTables
  saveTables := saveMachineTables
  timeOfChange := timeOfMachineChange
  now := do return (← IO.monoNanosNow) / 1000

/-- A folder that the environment names, or else one in the home folder. -/
def placeOf (home : String) (name usual : String) : IO Text := do
  match ← IO.getEnv name with
  | some path =>
    if path.startsWith "/" then return path.toList else return (home ++ usual).toList
  | none => return (home ++ usual).toList

end TagQuery.Command

open TagQuery TagQuery.Command in
def main (arguments : List String) : IO UInt32 := do
  let home := (← IO.getEnv "HOME").getD ""
  let settings ← placeOf home "XDG_CONFIG_HOME" "/.config"
  let database ← placeOf home "XDG_DATA_HOME" "/.local/share"
  let places : Places :=
    { settings := settings ++ "/tagscope/tagscope.toml".toList
      database := database ++ "/tagscope/images.db".toList
      namedSettings := (← IO.getEnv (String.ofList settingsVariable)).map String.toList }
  let outcome ← run machine places (arguments.map String.toList)
  let out ← IO.getStdout
  let err ← IO.getStderr
  out.putStr (String.ofList outcome.out)
  out.flush
  err.putStr (String.ofList outcome.err)
  err.flush
  return outcome.code.toUInt32
