import TagQuery.Text

/-! The characters of the Unicode property White_Space, and text without them at its ends. -/
namespace TagQuery.Text

/-- The property White_Space. -/
def isBlank (c : Char) : Bool :=
  let n := c.toNat
  (9 ≤ n && n ≤ 13) || n = 0x20 || n = 0x85 || n = 0xA0 || n = 0x1680 ||
    (0x2000 ≤ n && n ≤ 0x200A) || n = 0x2028 || n = 0x2029 || n = 0x202F || n = 0x205F ||
    n = 0x3000

/-- The text from its first to its last character that is not blank. -/
def trim (t : Text) : Text :=
  ((t.dropWhile isBlank).reverse.dropWhile isBlank).reverse

@[simp] theorem trim_nil : trim [] = [] := rfl

def allBlank (t : Text) : Bool := t.all isBlank

example : trim " a b\t".toList = "a b".toList := by decide
example : isBlank '\u3000' = true ∧ isBlank '\u200B' = false := by decide

end TagQuery.Text
