/-! Text as a list of characters, with the few operations the rest of the library is written in.
Lengths and positions count UTF-8 bytes. -/
namespace TagQuery

/-- Text, as the list of its characters. -/
abbrev Text := List Char

namespace Text

/-- The number of bytes the text takes in UTF-8. -/
def byteLength (t : Text) : Nat := t.foldr (fun c n => c.utf8Size + n) 0

@[simp] theorem byteLength_nil : byteLength [] = 0 := rfl

@[simp] theorem byteLength_cons (c : Char) (t : Text) :
    byteLength (c :: t) = c.utf8Size + byteLength t := rfl

@[simp] theorem byteLength_append (t u : Text) :
    byteLength (t ++ u) = byteLength t + byteLength u := by
  induction t with
  | nil => simp
  | cons c t ih => simp only [List.cons_append, byteLength_cons, ih, Nat.add_assoc]

/-- Equality up to the case of the ASCII letters, the way keywords are recognised. -/
def sameWord (t u : Text) : Bool := t.map Char.toLower == u.map Char.toLower

def decimal (n : Nat) : Text := Nat.toDigits 10 n

/-- The decimal digits of a number, after zeros up to a number of digits. -/
def padded (width n : Nat) : Text :=
  List.replicate (width - (decimal n).length) '0' ++ decimal n

def truth (b : Bool) : Text := if b then "true".toList else "false".toList

/-- A character put in front of the first of some segments. -/
def consHead (c : Char) : List Text → List Text
  | [] => [[c]]
  | s :: rest => (c :: s) :: rest

/-- The segments between the occurrences of a separator: always at least one. -/
def splitOn (sep : Char) (t : Text) : List Text :=
  t.foldr (fun c segments => if c = sep then [] :: segments else consHead c segments) [[]]

@[simp] theorem splitOn_nil (sep : Char) : splitOn sep [] = [[]] := rfl

@[simp] theorem splitOn_cons (sep c : Char) (t : Text) :
    splitOn sep (c :: t) =
      if c = sep then [] :: splitOn sep t else consHead c (splitOn sep t) := rfl

/-- Segments put together again with a separator text between them. -/
def joinWith (sep : Text) (ts : List Text) : Text := List.intercalate sep ts

example : splitOn '/' "/a//b".toList = ["".toList, "a".toList, "".toList, "b".toList] := by decide
example : joinWith ", ".toList ["a".toList, "b".toList] = "a, b".toList := by decide

end Text
end TagQuery
