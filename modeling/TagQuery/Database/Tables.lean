import TagQuery.Tag
import TagQuery.Location
import Std.Data.ExtTreeMap

/-! The tables of the database: items with their locations, tags with a row number, the spelling in
which they were first stored and their folded name, and the links between items and tags. A tag
that no item carries keeps its row until an item is removed. -/
namespace TagQuery.Database

structure TagRow where
  row : Nat
  name : Text
  folded : Text
  deriving DecidableEq, Repr

/-- That an item carries the tag of a row. -/
structure Link where
  item : Text
  row : Nat
  deriving DecidableEq, Repr

structure Tables where
  /-- the location of each item -/
  items : Std.ExtTreeMap Text Text compare := ∅
  tags : List TagRow := []
  links : List Link := []
  /-- the number of the next new row of `tags` -/
  nextRow : Nat := 1
  /-- whether the time of a change has been noted -/
  written : Bool := false

namespace Tables

def findTag? (tables : Tables) (folded : Text) : Option TagRow :=
  tables.tags.find? (·.folded == folded)

def tagRow? (tables : Tables) (row : Nat) : Option TagRow := tables.tags.find? (·.row == row)

/-- Notes the time of a change. -/
def touch (tables : Tables) : Tables := { tables with written := true }

/-- Adds a row for a tag that has none yet. -/
def addTag (tables : Tables) (name : Text) : Tables :=
  match tables.findTag? (Tag.fold name) with
  | some _ => tables
  | none =>
    { tables with
      tags := tables.tags ++ [⟨tables.nextRow, name, Tag.fold name⟩]
      nextRow := tables.nextRow + 1 }

/-- Adds a link unless it is there. -/
def addLink (tables : Tables) (link : Link) : Tables :=
  if tables.links.contains link then tables else { tables with links := link :: tables.links }

/-- Gives an item a tag. Blank names are passed over. -/
def tagItem (id : Text) (tables : Tables) (name : Text) : Tables :=
  if (Tag.fold name).isEmpty then tables
  else
    let tables := tables.addTag name
    match tables.findTag? (Tag.fold name) with
    | some tag => tables.addLink ⟨id, tag.row⟩
    | none => tables

def dropLinks (tables : Tables) (id : Text) : Tables :=
  { tables with links := tables.links.filter (·.item != id) }

/-- Stores an item in the place of any item with its identifier. -/
def put (foldsCase : Bool) (tables : Tables) (item : Item) : Tables :=
  let placed :=
    { tables with
      items := tables.items.insert item.id (Location.normalize foldsCase item.location) }
  item.tags.foldl (tagItem item.id) (placed.dropLinks item.id)

/-- Drops the tags that no item carries. -/
def pruneTags (tables : Tables) : Tables :=
  { tables with
    tags := tables.tags.filter fun tag => tables.links.any (·.row == tag.row) }

/-- Takes an item out together with its links. -/
def erase (tables : Tables) (id : Text) : Tables :=
  { tables with items := tables.items.erase id }.dropLinks id

/-- Removes an item and the tags that nothing carries then, and says whether there was such an
item. -/
def remove (tables : Tables) (id : Text) : Bool × Tables :=
  if tables.items.contains id then (true, (tables.erase id).pruneTags.touch) else (false, tables)

def clear (tables : Tables) : Nat × Tables :=
  (tables.items.size, { items := ∅, nextRow := tables.nextRow, written := true })

/-- The tags that an item carries, in increasing order of their folded names. -/
def tagsOf (tables : Tables) (id : Text) : List TagRow :=
  let rows := (tables.links.filter (·.item == id)).filterMap fun link => tables.tagRow? link.row
  rows.mergeSort fun a b => (compare a.folded b.folded).isLE

def item? (tables : Tables) (id : Text) : Option Item :=
  tables.items[id]?.map fun location => ⟨id, location, (tables.tagsOf id).map TagRow.name⟩

/-- A list without later repetitions of what it holds already. -/
def firstOccurrences : List Text → List Text
  | [] => []
  | id :: rest => id :: (firstOccurrences rest).filter (· != id)

/-- How many identifiers one statement may ask for. -/
def idsAtOnce : Nat := 500

/-- The groups of consecutive identifiers that the statements ask for. -/
def batches (ids : List Text) : List (List Text) :=
  (List.range ((ids.length + idsAtOnce - 1) / idsAtOnce)).map fun k =>
    (ids.drop (k * idsAtOnce)).take idsAtOnce

/-- The items that the statements answer with. One statement answers once with an item that it asks
for twice, and two statements that ask for it answer twice. -/
def answered (tables : Tables) (ids : List Text) : List Item :=
  ((batches ids).flatMap firstOccurrences).filterMap tables.item?

/-- Keeps an item that was answered. The tags of an item answered before go after its earlier
ones. -/
def gather (kept : Std.ExtTreeMap Text Item compare) (item : Item) :
    Std.ExtTreeMap Text Item compare :=
  match kept[item.id]? with
  | none => kept.insert item.id item
  | some before => kept.insert item.id { before with tags := before.tags ++ item.tags }

/-- The stored items with the given identifiers, in the order in which they are asked for; unknown
identifiers and repetitions are passed over. -/
def find (tables : Tables) (ids : List Text) : List Item :=
  let kept := (tables.answered ids).foldl gather ∅
  (firstOccurrences ids).filterMap fun id => kept[id]?

end Tables
end TagQuery.Database
