import TagQuery.Store
import TagQuery.Database.Like
import TagQuery.Database.Tables

/-! The store in a database. Every question is one statement over the tables, in which the scope is
a chain of pattern tests on the location. The engine sets two limits. A chain must not be too long
for the statement that it stands in, and no pattern may be too long; but the second is noticed only
when a row is compared with the pattern, and not where the index on locations gives the answer. -/
namespace TagQuery

open Database (Tables TagRow Link like stemPattern)

/-- A store in a database: its tables, and whether locations are lowercased when they are stored
and looked for. -/
structure Database where
  foldsCase : Bool
  tables : Tables := {}

namespace Database

/-- The levels that a statement's condition may have. -/
def maxDepth : Nat := 1000

/-- The bytes that a pattern may have when a row is compared with it. -/
def maxPatternBytes : Nat := 50000

def tooDeep : Fault :=
  .storage ("Expression tree is too large (maximum depth ".toList ++ Text.decimal maxDepth ++ [')'])

def patternTooLong : Fault := .storage "LIKE or GLOB pattern too complex".toList

/-- The texts with which locations in the scope begin, as the database compares them. -/
def stems (db : Database) (scope : Scope) : List Text :=
  if db.foldsCase then scope.stems.map Text.lower else scope.stems

/-- Answers unless the chain of scope tests is too long for a statement that adds so many levels to
it. -/
def within {α : Type} (levels : Nat) (stems : List Text) (answer : Except Fault α) :
    Except Fault α :=
  if maxDepth < stems.length + levels then .error tooDeep else answer

/-- Whether a text begins with a stem, by comparison with its pattern. -/
def beginsWith (t stem : Text) : Except Fault Bool :=
  if maxPatternBytes < (stemPattern stem).byteLength then .error patternTooLong
  else .ok (like (stemPattern stem) t)

/-- Whether a text begins with one of the stems, by comparison with their patterns in turn up to the
first that matches. -/
def beginsWithAny (t : Text) : List Text → Except Fault Bool
  | [] => .ok false
  | stem :: rest =>
    match beginsWith t stem with
    | .error fault => .error fault
    | .ok true => .ok true
    | .ok false => beginsWithAny t rest

/-- Whether a text begins with one of the stems, as the index on locations tells. -/
def indexed (stems : List Text) (location : Text) : Bool :=
  stems.any fun stem => like (stemPattern stem) location

/-- The rows that pass a test; a fault in any test is the fault of the statement. -/
def select {α : Type} (test : α → Except Fault Bool) : List α → Except Fault (List α)
  | [] => .ok []
  | a :: rest =>
    match test a, select test rest with
    | .error fault, _ => .error fault
    | .ok _, .error fault => .error fault
    | .ok true, .ok kept => .ok (a :: kept)
    | .ok false, .ok kept => .ok kept

/-- A fault of the database as the failure of a question. -/
def asFailureOf {α : Type} (lookup : Lookup) : Except Fault α → Except Fault α
  | .ok a => .ok a
  | .error fault => .error (.lookup lookup.describe fault.message)

/-- The stored location of an item, if the item is stored and its location passes the test. -/
def itemPasses (db : Database) (test : Text → Except Fault Bool) (id : Text) :
    Except Fault Bool :=
  match db.tables.items[id]? with
  | none => .ok false
  | some location => test location

/-- The items in scope that carry a tag. The tag is looked up first, and then the items that carry
it are tested. -/
def withTag (db : Database) (name : Text) (scope : Scope) : Except Fault ItemSet :=
  if scope.isEmpty then .ok ∅
  else
    let stems := db.stems scope
    asFailureOf (.tag name) <| within 5 stems <|
      match db.tables.findTag? (Tag.fold name) with
      | none => .ok ∅
      | some tag =>
        let carriers := (db.tables.links.filter (·.row == tag.row)).map Link.item
        (select (db.itemPasses (beginsWithAny · stems)) carriers).map (.ofList · compare)

def inScope (db : Database) (scope : Scope) : Except Fault ItemSet :=
  if scope.isEmpty then .ok ∅
  else
    let stems := db.stems scope
    asFailureOf .all <| within 2 stems <|
      .ok (.ofList ((db.tables.items.toList.filter fun p => indexed stems p.2).map Prod.fst))

/-- Those of the given items that are in scope. The items are looked up and then tested. -/
def restrict (db : Database) (ids : ItemSet) (scope : Scope) : Except Fault ItemSet :=
  if scope.isEmpty || ids.isEmpty then .ok ∅
  else
    let stems := db.stems scope
    within 3 stems <|
      (select (db.itemPasses (beginsWithAny · stems)) ids.toList).map (.ofList · compare)

structure JoinedRow where
  item : Text
  location : Text
  tag : TagRow
  deriving DecidableEq, Repr

def joined (tables : Tables) : List JoinedRow :=
  tables.links.filterMap fun link =>
    match tables.items[link.item]?, tables.tagRow? link.row with
    | some location, some tag => some ⟨link.item, location, tag⟩
    | _, _ => none

/-- How the statement that counts tags goes through the tables, by the number of stems and whether
it is given a beginning for the tags. -/
inductive CountPlan where
  /-- the items of the one stem from the index on locations, then their links and tags -/
  | fromIndex
  /-- the items of all stems from the index on locations, tested again, then their links and tags -/
  | fromIndexTested
  /-- the links, then their items, then their tags -/
  | itemsThenTags
  /-- the links, then their tags, then their items -/
  | tagsThenItems
  deriving DecidableEq, Repr

def countPlan (stemCount : Nat) (anyTag : Bool) : CountPlan :=
  if stemCount ≤ 1 then .fromIndex
  else if stemCount ≤ (if anyTag then 26 else 12) then .fromIndexTested
  else if anyTag then .itemsThenTags
  else .tagsThenItems

/-- The joined rows in scope whose tag begins with `start`. Every plan selects the same rows; they
differ in the tests that are made, and so in the faults. -/
def countedRows (db : Database) (stems : List Text) (start : Text) :
    Except Fault (List JoinedRow) :=
  let inRange := (joined db.tables).filter fun r => indexed stems r.location
  let byTag := select fun r : JoinedRow => beginsWith r.tag.folded start
  let byLocation := select fun r : JoinedRow => beginsWithAny r.location stems
  match countPlan stems.length start.isEmpty with
  | .fromIndex => byTag inRange
  | .fromIndexTested =>
    let found := db.tables.items.toList.filter fun p => indexed stems p.2
    match select (fun p : Text × Text => beginsWithAny p.2 stems) found with
    | .error fault => .error fault
    | .ok _ => byTag inRange
  | .itemsThenTags => (byLocation (joined db.tables)).bind byTag
  | .tagsThenItems => (byTag (joined db.tables)).bind byLocation

/-- The counts of some joined rows: one for each tag, with the number of its items. -/
def countRows (tables : Tables) (rows : List JoinedRow) : List TagCount :=
  tables.tags.filterMap fun tag =>
    let items : ItemSet := .ofList ((rows.filter (·.tag.row == tag.row)).map JoinedRow.item)
    if items.isEmpty then none else some ⟨tag.name, items.size⟩

/-- The tags of the items in scope whose folded name begins with the folded `start`, ranked. -/
def tagCounts (db : Database) (scope : Scope) (start : Text) (limit : Nat) :
    Except Fault (List TagCount) :=
  if scope.isEmpty then .ok []
  else
    let stems := db.stems scope
    within 5 stems <|
      (db.countedRows stems (Tag.fold start)).map fun rows =>
        TagCount.rank (countRows db.tables rows) limit

def totals (db : Database) : StoreTotals where
  items := db.tables.items.size
  tags := ((db.tables.links.map Link.row).eraseDups).length
  associations := db.tables.links.length
  written := db.tables.written

instance : TagStore Database where
  withTag := withTag
  inScope := inScope
  restrict := restrict
  tagCounts := tagCounts
  totals := totals

def insert (db : Database) (item : Item) : Database :=
  { db with tables := (db.tables.put db.foldsCase item).touch }

/-- Inserts items one after the other, as one change. -/
def insertAll (db : Database) (items : List Item) : Database :=
  { db with tables := (items.foldl (Tables.put db.foldsCase) db.tables).touch }

def remove (db : Database) (id : Text) : Bool × Database :=
  let (removed, tables) := db.tables.remove id
  (removed, { db with tables })

def clear (db : Database) : Nat × Database :=
  let (removed, tables) := db.tables.clear
  (removed, { db with tables })

/-- The same tables, opened with another setting; what is stored stays as it was written. -/
def reopen (db : Database) (foldsCase : Bool) : Database := { db with foldsCase }

def summary (db : Database) : Text :=
  "SqliteTagStore \x7b case_insensitive: ".toList ++ Text.truth db.foldsCase ++
    ", .. \x7d".toList

end Database
end TagQuery
