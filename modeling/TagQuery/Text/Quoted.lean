import TagQuery.Text
import TagQuery.Text.Visibility

/-! Text in double quotes for a reader: every character that cannot be seen where it stands is
written as an escape. -/
namespace TagQuery.Text

/-- The digits of a number in base 16, lowercase. -/
def hexadecimal (n : Nat) : Text := Nat.toDigits 16 n

/-- A character as it is shown between double quotes. -/
def quotedChar (c : Char) : Text :=
  if c = '\x00' then "\\0".toList
  else if c = '\t' then "\\t".toList
  else if c = '\r' then "\\r".toList
  else if c = '\n' then "\\n".toList
  else if c = '\\' then "\\\\".toList
  else if c = '"' then "\\\"".toList
  else if isVisible c then [c]
  else "\\u\x7b".toList ++ hexadecimal c.toNat ++ "\x7d".toList

def quoted (t : Text) : Text := '"' :: (t.flatMap quotedChar ++ ['"'])

example : quoted "a\"\u200b\té".toList = "\"a\\\"\\u\x7b200b\x7d\\té\"".toList := by
  decide +kernel

end TagQuery.Text
