import TagQuery.Text

/-! Pattern matching in the database. In a pattern `%` stands for any text, `_` for any character,
and a backslash takes the meaning from the character after it. A text is turned into a pattern for
the texts that begin with it by escaping these three and adding `%`. The engine takes a null character
for the end of a text, in patterns as well. -/
namespace TagQuery.Database

/-- Whether a test holds of the text or of what is left of it after some characters. -/
def someSuffix (test : Text → Bool) : Text → Bool
  | [] => test []
  | c :: rest => test (c :: rest) || someSuffix test rest

/-- Whether a text matches a pattern. A backslash at the end of a pattern matches nothing. -/
def fits : Text → Text → Bool
  | [], t => t.isEmpty
  | '%' :: p, t => someSuffix (fits p) t
  | '_' :: p, t =>
    match t with
    | [] => false
    | _ :: rest => fits p rest
  | ['\\'], _ => false
  | '\\' :: e :: p, t =>
    match t with
    | [] => false
    | c :: rest => c == e && fits p rest
  | e :: p, t =>
    match t with
    | [] => false
    | c :: rest => c == e && fits p rest

/-- What the engine reads of a text. -/
def upToNull (t : Text) : Text := t.takeWhile (· ≠ '\x00')

/-- Whether what the engine reads of a text matches what it reads of a pattern. That it may take U+FFFE
and U+FFFF for U+FFFD is left out. -/
def like (pattern t : Text) : Bool := fits (upToNull pattern) (upToNull t)

/-- A text as a pattern that matches nothing else. -/
def escapeLike (t : Text) : Text :=
  t.flatMap fun c => if c = '\\' ∨ c = '%' ∨ c = '_' then ['\\', c] else [c]

def stemPattern (t : Text) : Text := escapeLike t ++ ['%']

example : stemPattern "/a_b/".toList = "/a\\_b/%".toList := by decide
example : like "/a\\_b/%".toList "/a_b/c".toList = true ∧
    like "/a\\_b/%".toList "/axb/c".toList = false := by decide
example : like (stemPattern "/a\x00/".toList) "/a".toList = true := by decide

end TagQuery.Database
