import TagQuery.Index
import TagQuery.Database

/-! The catalogue of a store: what it holds, whichever way it holds it. For each identifier there is
a location and a set of folded tags, and every change to a store is a change to its catalogue. -/
namespace TagQuery

/-- A set of folded tags. -/
abbrev TagSet := Std.ExtTreeSet Text compare

/-- The tags of some names that can be asked for: folded, and without the blank ones. -/
def TagSet.ofNames (names : List Text) : TagSet :=
  .ofList ((names.map Tag.fold).filter fun folded => !folded.isEmpty) compare

/-- Names that fold to nothing add nothing. -/
@[simp] theorem TagSet.ofNames_filter (names : List Text) :
    ofNames (names.filter fun name => !(Tag.fold name).isEmpty) = ofNames names := by
  simp [ofNames, List.filter_map, Function.comp_def]

/-- What a catalogue says of an item. -/
structure Listing where
  location : Text
  tags : TagSet
  deriving DecidableEq

def Listing.ofItem (foldsCase : Bool) (item : Item) : Listing :=
  ⟨Location.normalize foldsCase item.location, .ofNames item.tags⟩

inductive Change where
  | insert (item : Item)
  | insertAll (items : List Item)
  | remove (id : Text)
  | clear
  deriving DecidableEq, Repr

abbrev Catalogue := Std.ExtTreeMap Text Listing compare

namespace Catalogue

/-- Lists an item, in the place of any item with its identifier. -/
def put (foldsCase : Bool) (catalogue : Catalogue) (item : Item) : Catalogue :=
  catalogue.insert item.id (.ofItem foldsCase item)

def after (foldsCase : Bool) (catalogue : Catalogue) : Change → Catalogue
  | .insert item => catalogue.put foldsCase item
  | .insertAll items => items.foldl (put foldsCase) catalogue
  | .remove id => catalogue.erase id
  | .clear => ∅

def select (catalogue : Catalogue) (test : Listing → Bool) : ItemSet :=
  .ofList ((catalogue.toList.filter fun p => test p.2).map Prod.fst) compare

/-- The items in scope that carry a tag. -/
def withTag (catalogue : Catalogue) (name : Text) (scope : Scope) : ItemSet :=
  catalogue.select fun listing =>
    scope.contains listing.location && listing.tags.contains (Tag.fold name)

def inScope (catalogue : Catalogue) (scope : Scope) : ItemSet :=
  catalogue.select fun listing => scope.contains listing.location

@[simp] theorem after_remove (foldsCase : Bool) (catalogue : Catalogue) (id : Text) :
    catalogue.after foldsCase (.remove id) = catalogue.erase id := rfl

@[simp] theorem after_clear (foldsCase : Bool) (catalogue : Catalogue) :
    catalogue.after foldsCase .clear = ∅ := rfl

end Catalogue

namespace Index

def catalogue (index : Index) : Catalogue :=
  index.entries.map fun _ entry => ⟨entry.location, .ofNames entry.tags⟩

def after (index : Index) : Change → Index
  | .insert item => index.insert item
  | .insertAll items => index.insertAll items
  | .remove id => (index.remove id).2
  | .clear => index.clear

@[simp] theorem entries_link (id : Text) (index : Index) (name : Text) :
    (link id index name).entries = index.entries := rfl

@[simp] theorem entries_unlink (id : Text) (index : Index) (name : Text) :
    (unlink id index name).entries = index.entries := by
  simp only [unlink]
  split <;> rfl

theorem entries_foldl_link (id : Text) (names : List Text) (index : Index) :
    (names.foldl (link id) index).entries = index.entries := by
  induction names generalizing index with
  | nil => rfl
  | cons name rest ih => exact ih _

theorem entries_foldl_unlink (id : Text) (names : List Text) (index : Index) :
    (names.foldl (unlink id) index).entries = index.entries := by
  induction names generalizing index with
  | nil => rfl
  | cons name rest ih => exact (ih _).trans (entries_unlink id index name)

@[simp] theorem entries_erase (index : Index) (id : Text) :
    (index.erase id).entries = index.entries.erase id := by
  unfold erase
  split
  · next h => exact (Std.ExtTreeMap.ext_getElem? fun other => by
      rw [Std.ExtTreeMap.getElem?_erase]
      split
      · next e => rw [← Std.LawfulEqCmp.eq_of_compare e, h]
      · rfl)
  · exact entries_foldl_unlink id _ _

@[simp] theorem catalogue_erase (index : Index) (id : Text) :
    (index.erase id).catalogue = index.catalogue.erase id :=
  Std.ExtTreeMap.ext_getElem? fun other => by
    simp only [catalogue, entries_erase, Std.ExtTreeMap.getElem?_map,
      Std.ExtTreeMap.getElem?_erase]
    split <;> rfl

@[simp] theorem foldsCase_erase (index : Index) (id : Text) :
    (index.erase id).foldsCase = index.foldsCase := by
  have unlinked : ∀ (names : List Text) (index : Index),
      (names.foldl (unlink id) index).foldsCase = index.foldsCase := by
    intro names
    induction names with
    | nil => exact fun _ => rfl
    | cons name rest ih =>
      intro index
      refine (ih _).trans ?_
      simp only [unlink]
      split <;> rfl
  unfold erase
  split
  · rfl
  · exact unlinked _ _

@[simp] theorem foldsCase_put (index : Index) (item : Item) :
    (index.put item).foldsCase = index.foldsCase := by
  have linked : ∀ (names : List Text) (index : Index),
      (names.foldl (link item.id) index).foldsCase = index.foldsCase := by
    intro names
    induction names with
    | nil => exact fun _ => rfl
    | cons name rest ih => exact fun index => ih _
  exact (linked _ _).trans (foldsCase_erase index item.id)

@[simp] theorem catalogue_put (index : Index) (item : Item) :
    (index.put item).catalogue = index.catalogue.put index.foldsCase item :=
  Std.ExtTreeMap.ext_getElem? fun other => by
    simp only [catalogue, put, Catalogue.put, Listing.ofItem, keptTags, entries_foldl_link,
      entries_erase, Std.ExtTreeMap.getElem?_map, Std.ExtTreeMap.getElem?_insert,
      Std.ExtTreeMap.getElem?_erase]
    split
    · simp
    · rfl

theorem catalogue_foldl_put (items : List Item) (index : Index) :
    (items.foldl put index).catalogue =
      items.foldl (Catalogue.put index.foldsCase) index.catalogue := by
  induction items generalizing index with
  | nil => rfl
  | cons item rest ih =>
    simp only [List.foldl_cons]
    rw [ih, foldsCase_put, catalogue_put]

@[simp] theorem catalogue_empty (foldsCase : Bool) : (empty foldsCase).catalogue = ∅ :=
  Std.ExtTreeMap.ext_getElem? fun _ => by simp [catalogue, empty]

/-- An index changes as its catalogue does. -/
theorem catalogue_after (index : Index) (change : Change) :
    (index.after change).catalogue = index.catalogue.after index.foldsCase change := by
  cases change with
  | insert item => exact catalogue_put index item
  | insertAll items => exact catalogue_foldl_put items index
  | remove id =>
    have removed : (index.after (.remove id)).catalogue = (index.erase id).catalogue := by
      simp only [after, remove]
      split
      · rfl
      · next h =>
        have absent : index.entries[id]? = none := by
          simpa [contains] using h
        simp only [erase, absent]
    rw [removed, catalogue_erase, Catalogue.after_remove]
  | clear => exact catalogue_empty index.foldsCase

end Index

namespace Database

def catalogue (db : Database) : Catalogue :=
  db.tables.items.map fun id location =>
    ⟨location, .ofList ((db.tables.tagsOf id).map TagRow.folded) compare⟩

def after (db : Database) : Change → Database
  | .insert item => db.insert item
  | .insertAll items => db.insertAll items
  | .remove id => (db.remove id).2
  | .clear => db.clear.2

@[simp] theorem foldsCase_after (db : Database) (change : Change) :
    (db.after change).foldsCase = db.foldsCase := by cases change <;> rfl

end Database
end TagQuery
