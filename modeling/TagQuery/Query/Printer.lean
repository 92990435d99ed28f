import TagQuery.Query

/-! The canonical text of a query. Operators are written in capitals, tag names are quoted only
where a bare word would be read as something else, and an operand whose operator binds more loosely
than its place allows is put in square brackets. -/
namespace TagQuery.Query

def isDelimiter (c : Char) : Bool :=
  Text.isBlank c || c = '(' || c = ')' || c = '[' || c = ']' || c = '"'

def reservedWords : List Text := ["and".toList, "or".toList, "not".toList, "all".toList]

def needsQuotes (name : Text) : Bool :=
  name.isEmpty || name == ['*'] || name.any isDelimiter || reservedWords.any (Text.sameWord name)

/-- A character of a quoted name: quotes and backslashes are escaped. -/
def escapedChar (c : Char) : Text := if c = '\\' ∨ c = '"' then ['\\', c] else [c]

def writtenName (name : Text) : Text :=
  if needsQuotes name then '"' :: (name.flatMap escapedChar ++ ['"']) else name

/-- How tightly the top of the tree binds: 0 for OR, 1 for AND, 2 for everything else. -/
def tightness : Query → Nat
  | or _ _ => 0
  | and _ _ => 1
  | _ => 2

/-- The text of an operand in a place that takes only trees of at least the given tightness. -/
def bracketText (least : Nat) (operand : Query) (text : Text) : Text :=
  if operand.tightness < least then '[' :: (text ++ [']']) else text

def render : Query → Text
  | tag name => writtenName name
  | all => "ALL".toList
  | and left right =>
    bracketText 1 left left.render ++ " AND ".toList ++ bracketText 2 right right.render
  | or left right =>
    bracketText 0 left left.render ++ " OR ".toList ++ bracketText 1 right right.render
  | not inner => "NOT ".toList ++ bracketText 2 inner inner.render
  | group inner => '(' :: (inner.render ++ [')'])

/-- A group around an operand that its place would put in brackets. -/
def bracketGroup (least : Nat) (operand result : Query) : Query :=
  if operand.tightness < least then group result else result

/-- The tree with a group wherever the canonical text has square brackets: what that text says. -/
def bracketed : Query → Query
  | tag name => tag name
  | all => all
  | and left right =>
    and (bracketGroup 1 left left.bracketed) (bracketGroup 2 right right.bracketed)
  | or left right =>
    or (bracketGroup 0 left left.bracketed) (bracketGroup 1 right right.bracketed)
  | not inner => not (bracketGroup 2 inner inner.bracketed)
  | group inner => group inner.bracketed

example : render (and (or (tag "a".toList) (tag "b".toList)) (tag "or".toList)) =
    "[a OR b] AND \"or\"".toList := by decide +kernel
example : render (not (and (tag "say \"hi\"".toList) all)) =
    "NOT [\"say \\\"hi\\\"\" AND ALL]".toList := by decide +kernel

end TagQuery.Query
