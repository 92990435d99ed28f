import TagQuery.Text.Blank
import TagQuery.Text.Lowercase
import Std.Data.ExtTreeSet

/-! Tag names and the items that carry them. A tag is recognised by its folded name, so `Cat`,
` cat ` and `CAT` are one tag; the spelling is kept for display. -/
namespace TagQuery

namespace Tag

/-- The text by which a tag is recognised. -/
def fold (name : Text) : Text := name.trim.lower

def same (a b : Text) : Bool := fold a == fold b

/-- Of the pairs with one key, the first. -/
def firstOfEach : List (Text × Text) → List (Text × Text)
  | [] => []
  | p :: rest => p :: (firstOfEach rest).filter (fun q => q.1 != p.1)

/-- One spelling for each tag, the first one, in the order in which the tags are first seen. -/
def distinct (names : List Text) : List Text :=
  (firstOfEach (names.map fun name => (fold name, name))).map Prod.snd

@[simp] theorem firstOfEach_nil : firstOfEach [] = [] := rfl

@[simp] theorem firstOfEach_cons (p : Text × Text) (rest : List (Text × Text)) :
    firstOfEach (p :: rest) = p :: (firstOfEach rest).filter (fun q => q.1 != p.1) := rfl

@[simp] theorem distinct_nil : distinct [] = [] := rfl

example : distinct ["Cat".toList, "dog".toList, " cAT".toList] = ["Cat".toList, "dog".toList] := by
  decide +kernel

end Tag

/-- A set of item identifiers. -/
abbrev ItemSet := Std.ExtTreeSet Text compare

structure Item where
  id : Text
  location : Text
  tags : List Text := []
  deriving DecidableEq, Repr

/-- Whether the item carries the tag, in any spelling. -/
def Item.hasTag (item : Item) (name : Text) : Bool := item.tags.any (Tag.same name)

structure TagCount where
  name : Text
  count : Nat
  deriving DecidableEq, Repr

end TagQuery
