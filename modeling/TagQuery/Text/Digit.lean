import TagQuery.Text

/-! Digits in bases up to 16, and characters by their number. -/
namespace TagQuery.Text

/-- The value of a digit; the letters from `a` to `f`, small or capital, are the digits from 10
to 15. -/
def digitValue (c : Char) : Nat :=
  let n := c.toNat
  if n ≤ 57 then n - 48 else if n ≤ 70 then n - 55 else n - 87

def isHexDigit (c : Char) : Bool :=
  c.isDigit || ('a' ≤ c && c ≤ 'f') || ('A' ≤ c && c ≤ 'F')

def isOctalDigit (c : Char) : Bool := '0' ≤ c && c ≤ '7'

def isBinaryDigit (c : Char) : Bool := c = '0' || c = '1'

def ofDigits (base : Nat) (digits : Text) : Nat :=
  digits.foldl (fun n c => n * base + digitValue c) 0

/-- The character with a number, unless the number is a surrogate or too large. -/
def character? (n : Nat) : Option Char := if n.isValidChar then some (Char.ofNat n) else none

example : ofDigits 16 "fF0a".toList = 0xFF0A := by decide
example : character? 0x1F600 = some '😀' ∧ character? 0xD800 = none := by decide

end TagQuery.Text
