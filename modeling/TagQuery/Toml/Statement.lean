import TagQuery.Toml.Number
import TagQuery.Toml.Table

/-! The lines of a document: headers, and keys with their values. A value may go on over several
lines. Arrays and tables in braces are nested to a bounded depth, and a dotted key has a bounded
number of segments. -/
namespace TagQuery.Toml

open Reader

/-- The table that the lines after a header belong to. -/
inductive Target where
  | table (path : KeyPath)
  /-- one more of the tables under double brackets -/
  | element (path : KeyPath)
  deriving DecidableEq, Repr

inductive Statement where
  | blank
  | header (target : Target)
  | assign (path : KeyPath) (value : Value)
  deriving Repr

/-- The most arrays and tables in braces that may be open at one place. -/
def maxOpen : Nat := 79

/-- The most segments of a dotted key. -/
def maxSegments : Nat := 79

def isBare (c : Char) : Bool := c.isAlphanum || c = '_' || c = '-'

def spaces : Reader Unit := do
  let _ ← run isSpace

def comment : Reader Unit := do
  char '#'
  let _ ← run isPlain

def segment : Reader Text := do
  spaces
  let name ← run1 isBare <|> quotedLine
  spaces
  return name

def keyPath : Reader KeyPath := do
  let first ← segment
  let path := KeyPath.ofSegments first (← afterEach '.' segment)
  if path.length ≤ maxSegments then return path else fail

/-- The text after blanks, ends of lines and remarks, each of which ends with its line. -/
def dropFiller (inComment : Bool) : Text → Text
  | [] => []
  | '\n' :: t => dropFiller false t
  | '\r' :: '\n' :: t => dropFiller false t
  | c :: t =>
    if inComment then if isPlain c then dropFiller true t else c :: t
    else if isSpace c then dropFiller false t
    else if c = '#' then dropFiller true t
    else c :: t

theorem length_dropFiller_le (inComment : Bool) (t : Text) :
    (dropFiller inComment t).length ≤ t.length := by
  fun_induction dropFiller inComment t with
  | case1 => exact Nat.le_refl _
  | case2 _ _ ih => exact Nat.le_succ_of_le ih
  | case3 _ _ ih => exact Nat.le_succ_of_le (Nat.le_succ_of_le ih)
  | case4 _ _ _ _ _ ih => exact Nat.le_succ_of_le ih
  | case5 => exact Nat.le_refl _
  | case6 _ _ _ _ _ _ _ ih => exact Nat.le_succ_of_le ih
  | case7 _ _ _ _ _ _ ih => exact Nat.le_succ_of_le ih
  | case8 => exact Nat.le_refl _

/-- What may stand between the elements of an array. -/
def filler : Reader Unit where
  read t := some ((), dropFiller false t)
  notLonger := by
    intro t _ rest h
    cases h
    exact length_dropFiller_le false t

def scalar : Reader Value := do
  match ← peek with
  | none => fail
  | some c =>
    if c = '"' ∨ c = '\'' then return .text (← quotedText)
    else if c = 't' then do
      exactly "true".toList
      return .flag true
    else if c = 'f' then do
      exactly "false".toList
      return .flag false
    else time <|> float <|> integer

/-- An element of an array, or nothing at the end of the array. -/
def element (value : Reader Value) : Reader (Option Value) := do
  filler
  if (← peek) = some ']' then return none
  else
    let v ← value
    filler
    return some v

/-- An array; a comma may follow its last element. -/
def array (value : Reader Value) : Reader Value := do
  char '['
  let first ← element value
  let more ← afterEach ',' (element value)
  char ']'
  return .array ((first :: more).filterMap id)

def entry (value : Reader Value) : Reader (KeyPath × Value) := do
  let path ← keyPath
  char '='
  spaces
  let v ← value
  spaces
  return (path, v)

def entriesInBraces (value : Reader Value) : Reader (List (KeyPath × Value)) := do
  if (← peek) = some '\x7d' then return []
  else
    let first ← entry value
    return first :: (← afterEach ',' (entry value))

def assignAll (origin : Origin) (entries : Entries) : List (KeyPath × Value) → Option Entries
  | [] => some entries
  | (path, value) :: rest =>
    match assign path value origin entries with
    | none => none
    | some entries => assignAll origin entries rest

def inlineTable (value : Reader Value) : Reader Value := do
  char '\x7b'
  spaces
  let given ← entriesInBraces value
  char '\x7d'
  let entries ← ofOption (assignAll .inline [] given)
  return .table .inline entries

/-- A value in which at most so many arrays and tables are open at one place. -/
def value : Nat → Reader Value
  | 0 => scalar
  | room + 1 => do
    let next ← peek
    if next = some '[' then array (value room)
    else if next = some '\x7b' then inlineTable (value room)
    else scalar

def header : Reader Target :=
  (do
    exactly ['[', '[']
    let path ← keyPath
    exactly [']', ']']
    return .element path) <|>
  (do
    char '['
    let path ← keyPath
    char ']'
    return .table path)

/-- What a line says, before any remark. -/
def lineContent : Reader Statement := do
  spaces
  match ← peek with
  | none => return .blank
  | some c =>
    if c = '\n' ∨ c = '\r' ∨ c = '#' then return .blank
    else if c = '[' then do
      let target ← header
      spaces
      return .header target
    else do
      let (path, v) ← entry (value maxOpen)
      return .assign path v

/-- The carriage return before a line feed. -/
def carriageReturn : Reader Unit where
  read
    | '\r' :: '\n' :: t => some ((), '\n' :: t)
    | t => some ((), t)
  notLonger := by
    intro t _ rest h
    split at h
    · cases h
      exact Nat.le_succ _
    · cases h
      exact Nat.le_refl _

def statement : Reader Statement := do
  let content ← lineContent
  let _ ← optional comment
  carriageReturn
  return content

/-- All lines of a document, which a byte order mark may precede. -/
def statements : Reader (List Statement) := do
  let _ ← optional (char '\uFEFF')
  let first ← statement
  return first :: (← afterEach '\n' statement)

end TagQuery.Toml
