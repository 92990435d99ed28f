import TagQuery.Store
import Std.Data.ExtTreeMap

/-! The store in memory: the items, for each tag the set of items that carry it, and for each tag
the spelling in which it came first. A tag that loses its last item is forgotten. -/
namespace TagQuery

/-- A stored item without its identifier: a normalized location and the tags as spelled. -/
structure Entry where
  location : Text
  tags : List Text
  deriving DecidableEq, Repr

structure Index where
  foldsCase : Bool
  entries : Std.ExtTreeMap Text Entry compare := ∅
  /-- the items of each folded tag -/
  postings : Std.ExtTreeMap Text ItemSet compare := ∅
  /-- the spelling of each folded tag -/
  spellings : Std.ExtTreeMap Text Text compare := ∅
  written : Bool := false

namespace Index

def empty (foldsCase : Bool) : Index := { foldsCase }

def size (index : Index) : Nat := index.entries.size

/-- The items filed under a folded tag. -/
def posting (index : Index) (folded : Text) : ItemSet := index.postings[folded]?.getD ∅

/-- Files an item under a tag. -/
def link (id : Text) (index : Index) (name : Text) : Index :=
  let folded := Tag.fold name
  { index with
    postings := index.postings.insert folded ((index.posting folded).insert id)
    spellings := index.spellings.insertIfNew folded name }

def unlink (id : Text) (index : Index) (name : Text) : Index :=
  let folded := Tag.fold name
  let left := (index.posting folded).erase id
  if left.isEmpty then
    { index with
      postings := index.postings.erase folded
      spellings := index.spellings.erase folded }
  else { index with postings := index.postings.insert folded left }

def erase (index : Index) (id : Text) : Index :=
  match index.entries[id]? with
  | none => index
  | some entry =>
    entry.tags.foldl (unlink id) { index with entries := index.entries.erase id }

/-- The tags of an item that can be asked for: not the blank ones. -/
def keptTags (item : Item) : List Text := item.tags.filter fun name => !(Tag.fold name).isEmpty

def put (index : Index) (item : Item) : Index :=
  let cleared := index.erase item.id
  let linked := (keptTags item).foldl (link item.id) cleared
  { linked with
    entries := linked.entries.insert item.id
      ⟨Location.normalize index.foldsCase item.location, keptTags item⟩ }

/-- Inserts items one after the other, as one change. -/
def insertAll (index : Index) (items : List Item) : Index :=
  { items.foldl put index with written := true }

def insert (index : Index) (item : Item) : Index := { index.put item with written := true }

/-- An index of the given items, with locations that fold case. -/
def ofItems (items : List Item) : Index := (empty true).insertAll items

def contains (index : Index) (id : Text) : Bool := index.entries.contains id

def remove (index : Index) (id : Text) : Bool × Index :=
  if index.contains id then (true, { index.erase id with written := true }) else (false, index)

def clear (index : Index) : Index := empty index.foldsCase

/-- A stored item, with its tags in the order and spelling in which they came. -/
def get? (index : Index) (id : Text) : Option Item :=
  index.entries[id]?.map fun entry => ⟨id, entry.location, entry.tags⟩

/-- The scope as it is compared with the stored locations, which may be folded. -/
def foldScope (index : Index) (scope : Scope) : Scope :=
  if index.foldsCase && !scope.foldsCase then .ofDirectories true scope.stems else scope

/-- Whether an item is stored at a location in the scope. -/
def covers (index : Index) (scope : Scope) (id : Text) : Bool :=
  index.entries[id]?.any fun entry => scope.contains entry.location

def withTag (index : Index) (name : Text) (scope : Scope) : ItemSet :=
  if scope.isEmpty then ∅
  else
    let folded := index.foldScope scope
    (index.posting (Tag.fold name)).filter (index.covers folded)

def inScope (index : Index) (scope : Scope) : ItemSet :=
  if scope.isEmpty then ∅
  else
    let folded := index.foldScope scope
    .ofList (index.entries.keys.filter (index.covers folded))

def restrict (index : Index) (ids : ItemSet) (scope : Scope) : ItemSet :=
  if scope.isEmpty || ids.isEmpty then ∅
  else
    let folded := index.foldScope scope
    ids.filter (index.covers folded)

/-- The tags of the items in scope whose folded name begins with the folded `start`, ranked. -/
def tagCounts (index : Index) (scope : Scope) (start : Text) (limit : Nat) : List TagCount :=
  if scope.isEmpty then []
  else
    let folded := index.foldScope scope
    let stem := Tag.fold start
    let counts := index.postings.toList.filterMap fun (tag, ids) =>
      if stem.isPrefixOf tag then
        let count := (ids.filter (index.covers folded)).size
        if count = 0 then none else some ⟨index.spellings[tag]?.getD tag, count⟩
      else none
    TagCount.rank counts limit

def totals (index : Index) : StoreTotals where
  items := index.entries.size
  tags := index.postings.size
  associations := index.postings.toList.foldr (fun p n => p.2.size + n) 0
  written := index.written

instance : TagStore Index where
  withTag index name scope := .ok (index.withTag name scope)
  inScope index scope := .ok (index.inScope scope)
  restrict index ids scope := .ok (index.restrict ids scope)
  tagCounts index scope start limit := .ok (index.tagCounts scope start limit)
  totals := totals

def summary (index : Index) : Text :=
  "TagIndex \x7b item_count: ".toList ++ Text.decimal index.size ++
    ", case_insensitive: ".toList ++ Text.truth index.foldsCase ++ " \x7d".toList

end Index
end TagQuery
