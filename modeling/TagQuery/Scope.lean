import TagQuery.Location
import Std.Data.ExtTreeSet

/-! The selected directories of a query. A location is in scope when it begins with the text of one
of them; a directory inside another one is dropped, for it adds nothing. -/
namespace TagQuery

/-- A selection of directories, as the texts that their locations begin with, in increasing
order. -/
structure Scope where
  stems : List Text
  foldsCase : Bool
  deriving DecidableEq, Repr

namespace Scope

/-- The texts of a list in increasing order, each once. -/
def sortedDistinct (texts : List Text) : List Text :=
  (Std.ExtTreeSet.ofList texts compare).toList

@[simp] theorem mem_sortedDistinct {t : Text} {texts : List Text} :
    t ∈ sortedDistinct texts ↔ t ∈ texts := by
  simp [sortedDistinct]

/-- The stems that no other stem covers. -/
def outermost (stems : List Text) : List Text :=
  stems.filter fun stem => !stems.any fun other => other != stem && other.isPrefixOf stem

def ofDirectories (foldsCase : Bool) (directories : List Text) : Scope :=
  ⟨outermost (sortedDistinct (directories.filterMap (Location.directory? foldsCase))), foldsCase⟩

def empty : Scope := ⟨[], true⟩

def isEmpty (scope : Scope) : Bool := scope.stems.isEmpty

/-- Whether a normalized location lies in the scope. -/
def contains (scope : Scope) (location : Text) : Bool :=
  scope.stems.any (·.isPrefixOf location)

/-- A location in the form that the scope compares. -/
def normalize (scope : Scope) (location : Text) : Text :=
  Location.normalize scope.foldsCase location

def render (scope : Scope) : Text :=
  "\x7b".toList ++ Text.joinWith ", ".toList scope.stems ++ "\x7d".toList

@[simp] theorem contains_empty (location : Text) : empty.contains location = false := rfl

example : (ofDirectories true ["/a/b".toList, "/A".toList, "/ab".toList, " ".toList]).stems =
    ["/a/".toList, "/ab/".toList] := by decide +kernel

end Scope
end TagQuery
