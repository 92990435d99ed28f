import TagQuery.Toml.Value
import TagQuery.Toml.Quoting

/-! Numbers and times. Integers have 64 bits. A number with a fraction must not be so large that it
is rounded to infinity, and a time must be one that a clock and a calendar can show. -/
namespace TagQuery.Toml

open Reader

/-- Digits, between which single underscores may stand; these are left out. -/
def grouped (digit : Char → Bool) : Reader Text := do
  let written ← run1 fun c => digit c || c = '_'
  if (written.splitOn '_').any List.isEmpty then fail else return written.filter (· ≠ '_')

def minInteger : Int := -9223372036854775808

def maxInteger : Int := 9223372036854775807

def fitting (n : Int) : Reader Value :=
  if minInteger ≤ n ∧ n ≤ maxInteger then return .integer n else fail

/-- A sign, and whether it is a minus. -/
def sign : Reader Bool := do
  match ← optional (one fun c => c = '+' || c = '-') with
  | some c => return c = '-'
  | none => return false

/-- Decimal digits that do not begin with a needless zero. -/
def decimalDigits : Reader Text := do
  let digits ← grouped Char.isDigit
  if digits.length ≠ 1 ∧ digits.head? = some '0' then fail else return digits

def decimalInteger : Reader Value := do
  let negative ← sign
  let magnitude := Text.ofDigits 10 (← decimalDigits)
  fitting (if negative then -magnitude else magnitude)

/-- An integer in another base, after a zero and a letter. -/
def basedInteger (letter : Char) (base : Nat) (digit : Char → Bool) : Reader Value := do
  exactly ['0', letter]
  fitting (Text.ofDigits base (← grouped digit))

def integer : Reader Value :=
  basedInteger 'x' 16 Text.isHexDigit <|> basedInteger 'o' 8 Text.isOctalDigit <|>
    basedInteger 'b' 2 Text.isBinaryDigit <|> decimalInteger

/-- The least number that is rounded to infinity. -/
def roundedToInfinity : Nat := Nat.pow 2 1024 - Nat.pow 2 970

/-- Whether a number times a power of ten is rounded to infinity. Numbers of fewer than 309 digits
are not, and those of more than 309 digits are. -/
def overflows (n : Nat) (exponent : Int) : Bool :=
  let digits : Int := (Text.decimal n).length + exponent
  if n = 0 ∨ digits < 309 then false
  else if 309 < digits then true
  else if 0 ≤ exponent then roundedToInfinity ≤ n * Nat.pow 10 exponent.toNat
  else roundedToInfinity * Nat.pow 10 (-exponent).toNat ≤ n

def fraction : Reader Text := do
  char '.'
  grouped Char.isDigit

def exponent : Reader Int := do
  let _ ← one fun c => c = 'e' || c = 'E'
  let negative ← sign
  let magnitude := Text.ofDigits 10 (← grouped Char.isDigit)
  return if negative then -magnitude else magnitude

def fractional : Reader Value := do
  let negative ← sign
  let whole ← decimalDigits
  let places ← optional fraction
  let power ← optional exponent
  if places = none ∧ power = none then fail
  else
    let digits := whole ++ places.getD []
    let scale := power.getD 0 - (places.getD []).length
    if !negative && overflows (Text.ofDigits 10 digits) scale then fail else return .float

/-- A number that is not finite, or not a number. -/
def special : Reader Value := do
  let _ ← sign
  exactly "inf".toList <|> exactly "nan".toList
  return .float

def float : Reader Value := fractional <|> special

/-- Two digits that write a number within bounds. -/
def twoDigits (least most : Nat) : Reader Nat := do
  let n := Text.ofDigits 10 (← exactlyMany Char.isDigit 2)
  if least ≤ n ∧ n ≤ most then return n else fail

def monthLength (year month : Nat) : Nat :=
  if month = 2 then
    if year % 4 = 0 ∧ (year % 100 ≠ 0 ∨ year % 400 = 0) then 29 else 28
  else if month = 4 ∨ month = 6 ∨ month = 9 ∨ month = 11 then 30
  else 31

def date : Reader Unit := do
  let year := Text.ofDigits 10 (← exactlyMany Char.isDigit 4)
  char '-'
  let month ← twoDigits 1 12
  char '-'
  let day ← twoDigits 1 31
  if day ≤ monthLength year month then return () else fail

/-- A time of day, in which a second may be a leap second. -/
def timeOfDay : Reader Unit := do
  let _ ← twoDigits 0 23
  char ':'
  let _ ← twoDigits 0 59
  char ':'
  let _ ← twoDigits 0 60
  let _ ← optional do
    char '.'
    run1 Char.isDigit

/-- The distance from universal time. -/
def offset : Reader Unit :=
  (do
    let _ ← one fun c => c = 'Z' || c = 'z') <|>
  (do
    let _ ← one fun c => c = '+' || c = '-'
    let _ ← twoDigits 0 23
    char ':'
    let _ ← twoDigits 0 59)

def timeOfDate : Reader Unit := do
  let _ ← one fun c => c = 'T' || c = 't' || c = ' '
  timeOfDay
  let _ ← optional offset

def time : Reader Value := do
  (do
    date
    let _ ← optional timeOfDate) <|> timeOfDay
  return .time

end TagQuery.Toml
