import TagQuery.Toml.Value

/-! Building the tables of a document. A table is stated at most once, a key has at most one value,
and a table that is complete is not added to: neither one in braces, nor, by a dotted key, one that
has a header of its own. -/
namespace TagQuery.Toml

/-- A dotted key: the tables that it goes through, and the key in the last of them. -/
structure KeyPath where
  parents : List Text
  name : Text
  deriving DecidableEq, Repr

namespace KeyPath

def ofSegments (first : Text) : List Text → KeyPath
  | [] => ⟨[], first⟩
  | second :: rest =>
    let path := ofSegments second rest
    ⟨first :: path.parents, path.name⟩

def length (path : KeyPath) : Nat := path.parents.length + 1

end KeyPath

/-- Whether a dotted key, or else a header, may go through a table. -/
def Origin.admits (byKey : Bool) : Origin → Bool
  | inline => false
  | header => !byKey
  | implied => true
  | dotted => true

/-- Changes the table at the end of a way down. Tables that are missing on the way are added; of
tables under double brackets the last one is meant. -/
def descend (byKey : Bool) (change : Origin → Entries → Option Entries) :
    List Text → Origin → Entries → Option Entries
  | [], origin, entries => change origin entries
  | key :: path, _, entries =>
    match entries.find? key with
    | none =>
      let origin := if byKey then .dotted else .implied
      (descend byKey change path origin []).map fun inner => entries.set key (.table origin inner)
    | some (.table origin inner) =>
      if origin.admits byKey then
        (descend byKey change path origin inner).map fun inner =>
          entries.set key (.table origin inner)
      else none
    | some (.tables elements) =>
      (descend byKey change path .header (elements.getLastD [])).map fun inner =>
        entries.set key (.tables (elements.dropLast ++ [inner]))
    | some _ => none

/-- Gives a dotted key a value. Where the key has several segments, its last table must be one that
only dotted keys have made. -/
def assign (path : KeyPath) (value : Value) (origin : Origin) (entries : Entries) :
    Option Entries :=
  descend true
    (fun origin entries =>
      if (origin = .dotted) = (path.parents ≠ []) ∧ entries.find? path.name = none then
        some (entries.set path.name value)
      else none)
    path.parents origin entries

end TagQuery.Toml
