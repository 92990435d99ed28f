import TagQuery.Reader
import TagQuery.Text.Digit

/-! Reading JSON. Arrays and objects are read by what is wanted of their parts, and what is not
wanted is only recognised: in it, a name of half a surrogate pair passes for a character. -/
namespace TagQuery.Json

open Reader

/-- A character that may stand between tokens. -/
def isBlank (c : Char) : Bool := c = ' ' || c = '\t' || c = '\n' || c = '\r'

def blanks : Reader Unit := do
  let _ ← run isBlank

/-- The unit of 16 bits that four digits name. -/
def unit : Reader Nat := do
  return Text.ofDigits 16 (← exactlyMany Text.isHexDigit 4)

def isHighSurrogate (n : Nat) : Bool := 0xD800 ≤ n && n ≤ 0xDBFF

def isLowSurrogate (n : Nat) : Bool := 0xDC00 ≤ n && n ≤ 0xDFFF

def encoded : Reader Char := do
  let first ← unit
  if isHighSurrogate first then do
    exactly ['\\', 'u']
    let second ← unit
    if isLowSurrogate second then
      ofOption (Text.character? (0x10000 + (first - 0xD800) * 0x400 + (second - 0xDC00)))
    else fail
  else ofOption (Text.character? first)

def escapeLetter? (c : Char) : Option Char :=
  if c = '"' ∨ c = '\\' ∨ c = '/' then some c
  else if c = 'b' then some '\x08'
  else if c = 'f' then some '\x0c'
  else if c = 'n' then some '\n'
  else if c = 'r' then some '\r'
  else if c = 't' then some '\t'
  else none

/-- The character that an escape stands for, after the backslash. -/
def escape : Reader Char := do
  let c ← one fun _ => true
  if c = 'u' then encoded else ofOption (escapeLetter? c)

/-- A piece of a string that begins with a character. -/
def piece (c : Char) : Reader Text :=
  if c = '\\' then do return [← escape]
  else if c.toNat < 32 then fail
  else return [c]

def text : Reader Text := do
  char '"'
  untilStop (closing '"') piece

def ignoredPiece (c : Char) : Reader Text :=
  if c = '\\' then do
    let c ← one fun _ => true
    if c = 'u' then do
      let _ ← unit
      return []
    else if (escapeLetter? c).isSome then return []
    else fail
  else if c.toNat < 32 then fail
  else return []

def ignoredText : Reader Unit := do
  char '"'
  let _ ← untilStop (closing '"') ignoredPiece

/-- What stands in brackets: as many items as there are, with a comma between each two. -/
def enclosed {α : Type} (opener closer : Char) (item : Reader α) : Reader (List α) := do
  char opener
  blanks
  if (← peek) = some closer then do
    char closer
    return []
  else
    let first ← item
    blanks
    let more ← afterEach ',' do
      blanks
      let a ← item
      blanks
      return a
    char closer
    return first :: more

def list {α : Type} (item : Reader α) : Reader (List α) := enclosed '[' ']' item

/-- A member of an object, by its name and a reader of its value. -/
def member {α : Type} (name : Reader α) {β : Type} (value : α → Reader β) : Reader β := do
  let a ← name
  blanks
  char ':'
  blanks
  value a

def digits : Reader Unit := do
  let _ ← run1 Char.isDigit

/-- The digits before a point, which do not begin with a needless zero. -/
def wholeDigits : Reader Unit :=
  char '0' <|> (do
    let _ ← one fun c => c.isDigit && c ≠ '0'
    let _ ← run Char.isDigit)

def ignoredNumber : Reader Unit := do
  let _ ← optional (char '-')
  wholeDigits
  let _ ← optional do
    char '.'
    digits
  let _ ← optional do
    let _ ← one fun c => c = 'e' || c = 'E'
    let _ ← optional (one fun c => c = '+' || c = '-')
    digits

/-- A value with arrays and objects up to a depth. -/
def ignoredWithin : Nat → Reader Unit
  | 0 => fail
  | room + 1 => do
    match ← peek with
    | none => fail
    | some c =>
      if c = '[' then do
        let _ ← list (ignoredWithin room)
      else if c = '\x7b' then do
        let _ ← enclosed '\x7b' '\x7d' (member ignoredText fun _ => ignoredWithin room)
      else if c = '"' then ignoredText
      else if c = 'n' then exactly "null".toList
      else if c = 't' then exactly "true".toList
      else if c = 'f' then exactly "false".toList
      else ignoredNumber

/-- Any value. It is not deeper than the text is long. -/
def ignored : Reader Unit where
  read t := (ignoredWithin (t.length + 1)).read t
  notLonger := (ignoredWithin _).notLonger

example : text.whole "\"a\\u00e9\\ud83d\\ude00\\/\"".toList = some "aé😀/".toList := by
  decide +kernel
example : text.whole "\"\\ud83d\"".toList = none := by decide +kernel
example : ignored.whole "[1.5e-3, \x7b\"a\\ud800\": [null, \x7b\x7d]\x7d]".toList = some () := by
  decide +kernel
example : ignored.whole "[01]".toList = none := by decide +kernel

end TagQuery.Json
