import TagQuery.Proofs.Index.Answers

/-! An index stands for a catalogue. After any changes its three maps say what the catalogue says, which
lists the last insert of each item, and so does everything that it answers. Main steps: the maps are read
off a well-formed index, and the mark of a change does not get in the way of the next one. -/
namespace TagQuery

/-- A stored item as it is listed: each of its tags, folded. -/
def Item.listing (item : Item) : Listing :=
  ⟨item.location, .ofList (item.tags.map Tag.fold) compare⟩

namespace Index

variable {index : Index}

def touch (index : Index) : Index := { index with written := true }

@[simp] theorem touch_touch (index : Index) : index.touch.touch = index.touch := rfl
@[simp] theorem entries_touch (index : Index) : index.touch.entries = index.entries := rfl
@[simp] theorem posting_touch (index : Index) (folded : Text) :
    index.touch.posting folded = index.posting folded := rfl

theorem unlink_touch (id : Text) (index : Index) (name : Text) :
    unlink id index.touch name = (unlink id index name).touch := by
  simp only [unlink]
  split
  · next empty =>
    rw [posting_touch] at empty
    rw [if_pos empty]
    rfl
  · next some_left =>
    rw [posting_touch] at some_left
    rw [if_neg some_left]
    rfl

theorem foldl_unlink_touch (id : Text) (names : List Text) (index : Index) :
    names.foldl (unlink id) index.touch = (names.foldl (unlink id) index).touch := by
  induction names generalizing index with
  | nil => rfl
  | cons name rest ih => rw [List.foldl_cons, List.foldl_cons, unlink_touch, ih]

theorem foldl_link_touch (id : Text) (names : List Text) (index : Index) :
    names.foldl (link id) index.touch = (names.foldl (link id) index).touch := by
  induction names generalizing index with
  | nil => rfl
  | cons name rest ih => exact ih (link id index name)

theorem erase_touch (index : Index) (id : Text) : index.touch.erase id = (index.erase id).touch := by
  cases stored : index.entries[id]? with
  | none => simp only [erase, entries_touch, stored]
  | some entry =>
    simp only [erase, entries_touch, stored]
    exact foldl_unlink_touch id entry.tags { index with entries := index.entries.erase id }

theorem put_touch (index : Index) (item : Item) : index.touch.put item = (index.put item).touch := by
  simp only [put, erase_touch, foldl_link_touch]
  rfl

theorem foldl_put_touch (items : List Item) (index : Index) :
    items.foldl put index.touch = (items.foldl put index).touch := by
  induction items generalizing index with
  | nil => rfl
  | cons item rest ih => rw [List.foldl_cons, List.foldl_cons, put_touch, ih]

/-- Inserting items together is inserting them one by one, except that a change is noted even when there
are none. -/
theorem insertAll_eq_foldl_insert (index : Index) (items : List Item) :
    index.insertAll items = (items.foldl insert index).touch := by
  induction items generalizing index with
  | nil => rfl
  | cons item rest ih =>
    calc index.insertAll (item :: rest)
      _ = (rest.foldl put (index.put item)).touch.touch := rfl
      _ = (rest.foldl put (index.put item).touch).touch := by rw [foldl_put_touch]
      _ = (index.insert item).insertAll rest := rfl
      _ = ((item :: rest).foldl insert index).touch := ih (index.insert item)

/-- One insert leaves the mark. -/
theorem insertAll_eq_foldl_insert_of_ne_nil (index : Index) {items : List Item} (some_items : items ≠ []) :
    index.insertAll items = items.foldl insert index := by
  obtain ⟨before, last, rfl⟩ := List.eq_nil_or_concat' items |>.resolve_left some_items
  rw [insertAll_eq_foldl_insert, List.foldl_append]
  rfl

/-- The index stands for the catalogue. Under each tag the items are filed that are listed with it, and the
tag has a posting and a spelling when there are some; and each answer is read off the catalogue, over the
scope that the index compares with its locations, which is the given one when the two have one setting. -/
structure Represents (foldsCase : Bool) (index : Index) (catalogue : Catalogue) : Prop where
  mem_postings : ∀ folded, folded ∈ index.postings ↔ ∃ id, catalogue.Lists id folded
  postings : ∀ (folded : Text) ids, index.postings[folded]? = some ids →
    ids.isEmpty = false ∧ ∀ id, id ∈ ids ↔ catalogue.Lists id folded
  mem_spellings : ∀ folded, folded ∈ index.spellings ↔ folded ∈ index.postings
  spellings : ∀ (folded : Text) name, index.spellings[folded]? = some name → Tag.fold name = folded
  foldScope : ∀ scope : Scope, scope.foldsCase = foldsCase → index.foldScope scope = scope
  withTag : ∀ name scope,
    index.withTag name scope = catalogue.withTag name (index.foldScope scope)
  inScope : ∀ scope, index.inScope scope = catalogue.inScope (index.foldScope scope)
  restrict : ∀ ids scope,
    index.restrict ids scope = ids ∩ catalogue.inScope (index.foldScope scope)
  get? : ∀ id, (index.get? id).map Item.listing = catalogue[id]?
  id_get? : ∀ id, ∀ item ∈ index.get? id, item.id = id
  size : index.size = catalogue.size
  totals : index.totals.items = catalogue.size ∧ index.totals.tags = catalogue.carried.size ∧
    index.totals.associations = catalogue.pairs.length

theorem WellFormed.listing_get? (wf : index.WellFormed) (id : Text) :
    (index.get? id).map Item.listing = index.catalogue[id]? := by
  rw [get?, catalogue, Std.ExtTreeMap.getElem?_map]
  cases stored : index.entries[id]? with
  | none => rfl
  | some entry =>
    have whole : Std.ExtTreeSet.ofList (entry.tags.map Tag.fold) compare =
        TagSet.ofNames entry.tags := by
      refine Std.ExtTreeSet.ext_mem fun folded => ?_
      rw [TagSet.mem_ofNames_of_kept (wf.kept stored), Std.ExtTreeSet.mem_ofList,
        List.contains_iff_mem]
    simp only [Option.map_some, Item.listing, whole]

theorem WellFormed.represents (wf : index.WellFormed) :
    index.Represents index.foldsCase index.catalogue where
  mem_postings folded := by
    rw [wf.tidy.mem_postings]
    exact exists_congr fun id => wf.filed
  postings folded ids found := by
    have whole : index.posting folded = ids := by rw [posting, found, Option.getD_some]
    exact ⟨wf.tidy.occupied found, fun id => whole ▸ wf.filed⟩
  mem_spellings folded := wf.tidy.spelled
  spellings folded name found := wf.tidy.folds found
  foldScope scope := foldScope_of_foldsCase
  withTag := wf.withTag_eq
  inScope := inScope_eq index
  restrict := restrict_eq index
  get? := wf.listing_get?
  id_get? id item found := by
    obtain ⟨entry, -, rfl⟩ := Option.map_eq_some_iff.mp found
    rfl
  size := Std.ExtTreeMap.size_map.symm
  totals := wf.totals

/-- After any changes the index is well formed, and it holds what the changes make of its catalogue. -/
theorem WellFormed.foldl_after (wf : index.WellFormed) (changes : List Change) :
    (changes.foldl Index.after index).WellFormed ∧
      (changes.foldl Index.after index).foldsCase = index.foldsCase ∧
      (changes.foldl Index.after index).catalogue =
        changes.foldl (Catalogue.after index.foldsCase) index.catalogue := by
  induction changes generalizing index with
  | nil => exact ⟨wf, rfl, rfl⟩
  | cons change rest ih =>
    have next := ih (wf.after change)
    rwa [foldsCase_after, catalogue_after] at next

end Index

/-- Whatever changes an index without items goes through, it stands for the catalogue that lists the last
insert of each item, if the item was not removed or everything cleared since; and to insert items together
is to insert them one by one, except that nothing is noted when there are none. -/
theorem index_represents_last_inserts (foldsCase : Bool) (changes : List Change) :
    let index := changes.foldl Index.after (.empty foldsCase)
    let catalogue := changes.foldl (Catalogue.after foldsCase) ∅
    (∀ id : Text, catalogue[id]? =
      (Change.lastInsert id changes).map (Listing.ofItem foldsCase)) ∧
    index.Represents foldsCase catalogue ∧
    ∀ items, index.insertAll items = (items.foldl Index.insert index).touch ∧
      (items ≠ [] → index.insertAll items = items.foldl Index.insert index) := by
  intro index catalogue
  obtain ⟨wf, setting, holds⟩ := (Index.wellFormed_empty foldsCase).foldl_after changes
  have represents := wf.represents
  rw [holds, setting, Index.catalogue_empty] at represents
  exact ⟨fun id => Catalogue.getElem?_foldl_after changes, represents, fun items =>
    ⟨index.insertAll_eq_foldl_insert items, index.insertAll_eq_foldl_insert_of_ne_nil⟩⟩

end TagQuery
