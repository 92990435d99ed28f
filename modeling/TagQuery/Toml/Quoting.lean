import TagQuery.Reader
import TagQuery.Text.Digit

/-! Quoted text. There are four forms: between double quotes, where a backslash begins an escape,
and between single quotes, where nothing does; and each of them either on one line or, with the
quote tripled, over several lines. The writer takes the first form that needs no escape for a
character that can be shown. -/
namespace TagQuery.Toml

inductive Quoting where
  | basic
  | literal
  | basicLines
  | literalLines
  deriving DecidableEq, Repr

/-- A character that may stand as it is within a line: a tab, or one that is not a control
character. -/
def isPlain (c : Char) : Bool := c = '\t' || (32 ≤ c.toNat && c.toNat ≠ 127)

def longestRun (q : Char) (t : Text) : Nat :=
  (t.foldl (fun (now, most) c => if c = q then (now + 1, max most (now + 1)) else (0, most))
    (0, 0)).2

/-- Whether a text can be shown only with escapes. -/
def hasControl (t : Text) : Bool := t.any fun c => !isPlain c && c ≠ '\n'

def Quoting.best (t : Text) : Quoting :=
  if hasControl t then if t.contains '\n' then basicLines else basic
  else if !t.contains '\\' && !t.contains '"' && !t.contains '\n' then basic
  else if !t.contains '\'' && !t.contains '\n' then literal
  else if !t.contains '\\' && longestRun '"' t ≤ 2 then basicLines
  else if longestRun '\'' t ≤ 2 then literalLines
  else if t.contains '\n' then basicLines
  else basic

/-- The four digits that name a control character. -/
def controlDigits (c : Char) : Text :=
  ['0', '0'] ++ [Nat.digitChar (c.toNat / 16), (Nat.digitChar (c.toNat % 16)).toUpper]

/-- A character other than a double quote in a basic form. -/
def basicChar (lines : Bool) (c : Char) : Text :=
  if c = '\x08' then "\\b".toList
  else if c = '\t' then "\\t".toList
  else if c = '\n' then if lines then ['\n'] else "\\n".toList
  else if c = '\x0c' then "\\f".toList
  else if c = '\r' then "\\r".toList
  else if c = '\\' then "\\\\".toList
  else if isPlain c then [c]
  else "\\u".toList ++ controlDigits c

/-- Text in a basic form. At most `most` double quotes stand next to each other without an escape,
and `quotes` of them have just been written. -/
def basicText (lines : Bool) (most : Nat) (quotes : Nat) : Text → Text
  | [] => []
  | c :: t =>
    if c = '"' then
      if quotes < most then '"' :: basicText lines most (quotes + 1) t
      else '\\' :: '"' :: basicText lines most 0 t
    else basicChar lines c ++ basicText lines most 0 t

/-- The quotes at both ends of a form. -/
def Quoting.mark : Quoting → Text
  | basic => ['"']
  | literal => ['\'']
  | basicLines => ['"', '"', '"']
  | literalLines => ['\'', '\'', '\'']

/-- Text over several lines begins on a line of its own. -/
def lineFeed (t : Text) : Text := if t.contains '\n' then ['\n'] else []

def Quoting.write (quoting : Quoting) (t : Text) : Text :=
  let body :=
    match quoting with
    | basic => basicText false 0 0 t
    | literal => t
    | basicLines => lineFeed t ++ basicText true 2 0 t
    | literalLines => lineFeed t ++ t
  quoting.mark ++ body ++ quoting.mark

def quote (t : Text) : Text := (Quoting.best t).write t

open Reader

/-- The character that an escape stands for, after the backslash. -/
def escape : Reader Char := do
  let c ← one fun _ => true
  if c = 'b' then return '\x08'
  else if c = 't' then return '\t'
  else if c = 'n' then return '\n'
  else if c = 'f' then return '\x0c'
  else if c = 'r' then return '\r'
  else if c = '"' then return '"'
  else if c = '\\' then return '\\'
  else if c = 'u' then named 4
  else if c = 'U' then named 8
  else fail
where
  /-- A character by its number, of so many digits. -/
  named (length : Nat) : Reader Char := do
    let digits ← exactlyMany Text.isHexDigit length
    ofOption (Text.character? (Text.ofDigits 16 digits))

def basicPiece (c : Char) : Reader Text :=
  if c = '\\' then do return [← escape]
  else if isPlain c then return [c]
  else fail

def literalPiece (c : Char) : Reader Text := if isPlain c then return [c] else fail

/-- The end of a line: a line feed, which a carriage return may precede. -/
def lineEnd : Reader Unit := char '\n' <|> exactly ['\r', '\n']

/-- The text after blanks and ends of lines. -/
def dropBlankLines : Text → Text
  | ' ' :: t => dropBlankLines t
  | '\t' :: t => dropBlankLines t
  | '\n' :: t => dropBlankLines t
  | '\r' :: '\n' :: t => dropBlankLines t
  | t => t

theorem length_dropBlankLines_le (t : Text) : (dropBlankLines t).length ≤ t.length := by
  fun_induction dropBlankLines t with
  | case1 _ ih => exact Nat.le_succ_of_le ih
  | case2 _ ih => exact Nat.le_succ_of_le ih
  | case3 _ ih => exact Nat.le_succ_of_le ih
  | case4 _ ih => exact Nat.le_succ_of_le (Nat.le_succ_of_le ih)
  | case5 => exact Nat.le_refl _

def blankLines : Reader Unit where
  read t := some ((), dropBlankLines t)
  notLonger := by
    intro t _ rest h
    cases h
    exact length_dropBlankLines_le t

def isSpace (c : Char) : Bool := c = ' ' || c = '\t'

/-- After a backslash at the end of a line, everything up to the next visible character. -/
def brokenLine : Reader Unit := do
  let _ ← run isSpace
  lineEnd
  blankLines

/-- A piece of text over several lines that begins with a character; `piece` is for those that need
no such treatment. Every end of a line is read as a line feed. -/
def linesPiece (piece : Char → Reader Text) (c : Char) : Reader Text :=
  if c = '\n' then return ['\n']
  else if c = '\r' then do
    char '\n'
    return ['\n']
  else piece c

def basicLinesPiece : Char → Reader Text :=
  linesPiece fun c =>
    if c = '\\' then
      (do
        brokenLine
        return []) <|> basicPiece c
    else basicPiece c

/-- Three closing quotes; up to two more before them belong to the text. -/
def closingLines (q : Char) : Reader Text := do
  exactly [q, q, q]
  match ← optional (char q) with
  | none => return []
  | some _ =>
    match ← optional (char q) with
    | none => return [q]
    | some _ => return [q, q]

/-- Text over several lines, after its opening quotes: an end of a line right there is dropped. -/
def linesBody (q : Char) (piece : Char → Reader Text) : Reader Text := do
  let _ ← optional lineEnd
  untilStop (closingLines q) piece

def quotedLine : Reader Text :=
  (do
    char '"'
    untilStop (closing '"') basicPiece) <|>
  (do
    char '\''
    untilStop (closing '\'') literalPiece)

def quotedLines : Reader Text :=
  (do
    exactly Quoting.basicLines.mark
    linesBody '"' basicLinesPiece) <|>
  (do
    exactly Quoting.literalLines.mark
    linesBody '\'' (linesPiece literalPiece))

def quotedText : Reader Text := quotedLines <|> quotedLine

example : quote "a\tb".toList = "\"a\\tb\"".toList ∧ quote "a\\b".toList = "'a\\b'".toList := by
  decide +kernel
example : quote "'\"\n".toList = "\"\"\"\n'\"\n\"\"\"".toList := by decide +kernel
example : quote "it's \"x\"".toList = "\"\"\"it's \"x\"\"\"\"".toList := by decide +kernel
example : quote "a\x07\"".toList = "\"a\\u0007\\\"\"".toList := by decide +kernel
example : quotedText.whole (quote "'''\"\"\"\\\n\x7f".toList) =
    some "'''\"\"\"\\\n\x7f".toList := by decide +kernel
example : quotedText.whole "\"\"\"\r\na \\\n  \r\n b\"\"\"\"".toList = some "a b\"".toList := by
  decide +kernel

end TagQuery.Toml
