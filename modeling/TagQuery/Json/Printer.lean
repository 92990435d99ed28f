import TagQuery.Text.Quoted

/-! Writing JSON over several lines: two blanks for each level, and nothing between the brackets of
an empty array or object. -/
namespace TagQuery.Json

inductive Value where
  | text (content : Text)
  | number (n : Nat)
  | array (elements : List Value)
  | object (members : List (Text × Value))
  deriving Repr

/-- A character of a string: quotes, backslashes and control characters are escaped. -/
def writtenChar (c : Char) : Text :=
  if c = '"' then "\\\"".toList
  else if c = '\\' then "\\\\".toList
  else if c = '\x08' then "\\b".toList
  else if c = '\x0c' then "\\f".toList
  else if c = '\n' then "\\n".toList
  else if c = '\r' then "\\r".toList
  else if c = '\t' then "\\t".toList
  else if c.toNat < 32 then
    "\\u00".toList ++ [Nat.digitChar (c.toNat / 16), Nat.digitChar (c.toNat % 16)]
  else [c]

def writtenText (t : Text) : Text := '"' :: (t.flatMap writtenChar ++ ['"'])

def newLine (level : Nat) : Text := '\n' :: List.replicate (2 * level) ' '

mutual

/-- A value whose first line stands at a level. -/
def Value.written (level : Nat) : Value → Text
  | .text content => writtenText content
  | .number n => Text.decimal n
  | .array [] => "[]".toList
  | .array (v :: vs) =>
    '[' :: (newLine (level + 1) ++ v.written (level + 1) ++ writtenElements (level + 1) vs
      ++ newLine level ++ [']'])
  | .object [] => ['\x7b', '\x7d']
  | .object ((name, v) :: rest) =>
    '\x7b' :: (newLine (level + 1) ++ writtenText name ++ ": ".toList ++ v.written (level + 1)
      ++ writtenMembers (level + 1) rest ++ newLine level ++ ['\x7d'])

/-- The elements after the first. -/
def writtenElements (level : Nat) : List Value → Text
  | [] => []
  | v :: vs => ',' :: (newLine level ++ v.written level ++ writtenElements level vs)

def writtenMembers (level : Nat) : List (Text × Value) → Text
  | [] => []
  | (name, v) :: rest =>
    ',' :: (newLine level ++ writtenText name ++ ": ".toList ++ v.written level
      ++ writtenMembers level rest)

end

def Value.texts (ts : List Text) : Value := .array (ts.map .text)

example : (Value.object [("a".toList, .array []), ("b".toList, .texts ["x\"".toList])]).written 0 =
    "\x7b\n  \"a\": [],\n  \"b\": [\n    \"x\\\"\"\n  ]\n\x7d".toList := by decide +kernel

end TagQuery.Json
