import TagQuery.Catalogue
import TagQuery.Proofs.Evaluation.Exactness
import Mathlib.Data.List.Induction
import Mathlib.Data.List.Nodup

/-! What a catalogue says, item by item, and what a change makes of it. The answers of a store and the
truth of a query are read off the catalogue, whichever store it is the catalogue of. -/
namespace TagQuery

/-- What a change leaves under an identifier, an item or nothing, when the change concerns it at all. -/
def Change.leaves? (id : Text) : Change → Option (Option Item)
  | .insert item => if item.id = id then some (some item) else none
  | .insertAll items => (items.reverse.find? (·.id = id)).map some
  | .remove other => if other = id then some none else none
  | .clear => some none

/-- The last insert of an identifier, when it was not removed, and nothing was cleared, after that. -/
def Change.lastInsert (id : Text) (changes : List Change) : Option Item :=
  (changes.reverse.findSome? (leaves? id)).join

theorem TagSet.mem_ofNames {folded : Text} {names : List Text} :
    folded ∈ TagSet.ofNames names ↔ folded ∈ names.map Tag.fold ∧ folded.isEmpty = false := by
  simp [TagSet.ofNames]

/-- Folding loses none of the names that fold to something. -/
theorem TagSet.mem_ofNames_of_kept {folded : Text} {names : List Text}
    (kept : ∀ name ∈ names, (Tag.fold name).isEmpty = false) :
    folded ∈ TagSet.ofNames names ↔ folded ∈ names.map Tag.fold := by
  refine mem_ofNames.trans (and_iff_left_of_imp fun member => ?_)
  obtain ⟨name, among, rfl⟩ := List.mem_map.mp member
  exact kept name among

theorem ItemSet.exists_mem_iff {ids : ItemSet} : (∃ id, id ∈ ids) ↔ ids.isEmpty = false := by
  rw [Std.ExtTreeSet.isEmpty_eq_false_iff, Std.ExtTreeSet.eq_empty_iff_forall_not_mem,
    Classical.not_forall_not]

theorem ItemSet.mem_filter {ids : ItemSet} {test : Text → Bool} {id : Text} :
    id ∈ ids.filter test ↔ id ∈ ids ∧ test id = true := by
  simp [Std.ExtTreeSet.mem_filter]

/-- Each key with each of its things, when no key is repeated and nothing is repeated under a key. -/
theorem nodup_flatMap_pairs {α β γ : Type} {rows : List (α × β)} {things : β → List γ}
    (keys : (rows.map Prod.fst).Nodup) (once : ∀ b, (things b).Nodup) :
    (rows.flatMap fun p => (things p.2).map (p.1, ·)).Nodup := by
  refine List.pairwise_flatMap.mpr ⟨fun p _ => ?_, ?_⟩
  · exact List.pairwise_map.mpr ((once p.2).imp fun different same => different (Prod.mk.inj same).2)
  · refine (List.pairwise_map.mp keys).imp fun different x inX y inY same => ?_
    obtain ⟨_, -, rfl⟩ := List.mem_map.mp inX
    obtain ⟨_, -, rfl⟩ := List.mem_map.mp inY
    exact different (Prod.mk.inj same).1

theorem nodup_toList (ids : Std.ExtTreeSet Text compare) : ids.toList.Nodup :=
  (Std.ExtTreeSet.distinct_toList).imp fun different same => different (by simp [same])

namespace Catalogue

variable {catalogue : Catalogue} {foldsCase : Bool} {id other folded : Text} {item : Item}

def Lists (catalogue : Catalogue) (id folded : Text) : Prop :=
  ∃ listing, catalogue[id]? = some listing ∧ folded ∈ listing.tags

theorem not_lists_empty : ¬ (∅ : Catalogue).Lists id folded := by
  rintro ⟨listing, found, -⟩
  simp at found

theorem lists_erase : Lists (catalogue.erase id) other folded ↔
    other ≠ id ∧ catalogue.Lists other folded := by
  simp only [Lists, Std.ExtTreeMap.getElem?_erase, Std.LawfulEqCmp.compare_eq_iff_eq]
  by_cases same : id = other
  · simp [same]
  · simp [same, Ne.symm same]

theorem erase_of_getElem? (absent : catalogue[id]? = none) : catalogue.erase id = catalogue := by
  refine Std.ExtTreeMap.ext_getElem? fun other => ?_
  rw [Std.ExtTreeMap.getElem?_erase]
  split
  · next same => rw [← Std.LawfulEqCmp.eq_of_compare same, absent]
  · rfl

theorem lists_put : (catalogue.put foldsCase item).Lists other folded ↔
    other = item.id ∧ folded ∈ TagSet.ofNames item.tags ∨
      other ≠ item.id ∧ catalogue.Lists other folded := by
  simp only [Lists, put, Std.ExtTreeMap.getElem?_insert, Std.LawfulEqCmp.compare_eq_iff_eq]
  by_cases same : item.id = other
  · simp [same, Listing.ofItem]
  · simp [same, Ne.symm same]

theorem getElem?_foldl_put (items : List Item) (catalogue : Catalogue) :
    (items.foldl (put foldsCase) catalogue)[id]? =
      ((items.reverse.find? (·.id = id)).map (Listing.ofItem foldsCase)).or catalogue[id]? := by
  induction items using List.reverseRecOn with
  | nil => rfl
  | append_singleton items item ih =>
    simp only [List.foldl_append, List.foldl_cons, List.foldl_nil, put,
      Std.ExtTreeMap.getElem?_insert, Std.LawfulEqCmp.compare_eq_iff_eq, List.reverse_append,
      List.reverse_cons, List.reverse_nil, List.nil_append, List.singleton_append]
    by_cases same : item.id = id
    · simp [same]
    · rw [if_neg same, List.find?_cons_of_neg (by simpa using same)]
      exact ih

/-- A change leaves the rest of the catalogue as it is. -/
theorem getElem?_after (change : Change) : (catalogue.after foldsCase change)[id]? =
    (change.leaves? id).elim catalogue[id]? (Option.map (Listing.ofItem foldsCase)) := by
  cases change with
  | insert item =>
    simp only [after, put, Change.leaves?, Std.ExtTreeMap.getElem?_insert,
      Std.LawfulEqCmp.compare_eq_iff_eq]
    split <;> rfl
  | insertAll items =>
    simp only [after, Change.leaves?, getElem?_foldl_put]
    cases items.reverse.find? (·.id = id) <;> rfl
  | remove other =>
    simp only [after, Change.leaves?, Std.ExtTreeMap.getElem?_erase,
      Std.LawfulEqCmp.compare_eq_iff_eq]
    split <;> rfl
  | clear => exact Std.ExtTreeMap.getElem?_empty

/-- After some changes the catalogue lists the last insert of each identifier. -/
theorem getElem?_foldl_after (changes : List Change) :
    (changes.foldl (after foldsCase) ∅)[id]? =
      (Change.lastInsert id changes).map (Listing.ofItem foldsCase) := by
  induction changes using List.reverseRecOn with
  | nil => exact Std.ExtTreeMap.getElem?_empty
  | append_singleton changes change ih =>
    rw [List.foldl_append, List.foldl_cons, List.foldl_nil, getElem?_after, ih, Change.lastInsert,
      Change.lastInsert, List.reverse_append, List.reverse_cons, List.reverse_nil, List.nil_append,
      List.singleton_append, List.findSome?_cons]
    cases change.leaves? id <;> rfl

/-- A catalogue is told by the locations that it gives and the tags that it lists. -/
theorem ext {others : Catalogue}
    (locations : ∀ id : Text, catalogue[id]?.map Listing.location = others[id]?.map Listing.location)
    (lists : ∀ id folded : Text, catalogue.Lists id folded ↔ others.Lists id folded) :
    catalogue = others := by
  refine Std.ExtTreeMap.ext_getElem? fun id => ?_
  have location := locations id
  have tags := lists id
  simp only [Lists] at tags
  cases here : catalogue[id]? with
  | none =>
    rw [here, Option.map_none, eq_comm, Option.map_eq_none_iff] at location
    exact location.symm
  | some listing =>
    rw [here, Option.map_some, eq_comm, Option.map_eq_some_iff] at location
    obtain ⟨listing', there, same⟩ := location
    rw [there]
    have sameTags : listing.tags = listing'.tags :=
      Std.ExtTreeSet.ext_mem fun folded => by simpa [here, there] using tags folded
    cases listing
    cases listing'
    rw [Option.some.injEq, Listing.mk.injEq]
    exact ⟨same.symm, sameTags⟩

theorem mem_select {test : Listing → Bool} : id ∈ catalogue.select test ↔
    ∃ listing, catalogue[id]? = some listing ∧ test listing = true := by
  simp [select, Std.ExtTreeMap.mem_toList_iff_getElem?_eq_some]

theorem mem_inScope {scope : Scope} : id ∈ catalogue.inScope scope ↔
    ∃ listing, catalogue[id]? = some listing ∧ scope.contains listing.location = true :=
  mem_select

/-- The items in scope that are listed with a folded tag. -/
def carriers (catalogue : Catalogue) (scope : Scope) (folded : Text) : ItemSet :=
  catalogue.select fun listing =>
    scope.contains listing.location && listing.tags.contains folded

theorem mem_carriers {scope : Scope} : id ∈ catalogue.carriers scope folded ↔
    id ∈ catalogue.inScope scope ∧ catalogue.Lists id folded := by
  simp only [carriers, mem_select, mem_inScope, Lists, Bool.and_eq_true,
    Std.ExtTreeSet.contains_iff_mem]
  constructor
  · rintro ⟨listing, found, contained, listed⟩
    exact ⟨⟨listing, found, contained⟩, listing, found, listed⟩
  · rintro ⟨⟨listing, found, contained⟩, listing', found', listed⟩
    obtain rfl := Option.some.inj (found.symm.trans found')
    exact ⟨listing, found, contained, listed⟩

/-- What is the case of the listed items in scope. -/
def truth (catalogue : Catalogue) (scope : Scope) : Truth where
  all := catalogue.inScope scope
  carriers := catalogue.carriers scope
  within h := (mem_carriers.mp h).1

/-- A listed item carries what it is listed with. -/
theorem carries_truth {scope : Scope} {listing : Listing} (listed : catalogue[id]? = some listing)
    (contained : scope.contains listing.location = true) (name : Text) :
    (catalogue.truth scope).carries id name = listing.tags.contains (Tag.fold name) := by
  rw [Bool.eq_iff_iff, Truth.carries, Std.ExtTreeSet.contains_iff_mem,
    Std.ExtTreeSet.contains_iff_mem]
  change id ∈ catalogue.carriers scope (Tag.fold name) ↔ _
  simp only [mem_carriers, mem_inScope, Lists, listed, Option.some.injEq, exists_eq_left',
    contained, true_and]

/-- A scope without stems has no items in it. -/
theorem inScope_of_isEmpty {scope : Scope} (empty : scope.isEmpty = true) :
    catalogue.inScope scope = ∅ := by
  refine Std.ExtTreeSet.eq_empty_iff_forall_not_mem.mpr fun id member => ?_
  obtain ⟨listing, -, contained⟩ := mem_inScope.mp member
  rw [Scope.contains, List.isEmpty_iff.mp empty] at contained
  cases contained

/-- Nothing is in scope among no items, or in a scope without stems. -/
theorem inter_inScope_of_isEmpty {ids : ItemSet} {scope : Scope}
    (nothing : scope.isEmpty = true ∨ ids.isEmpty = true) : ids ∩ catalogue.inScope scope = ∅ := by
  rw [← Std.ExtTreeSet.isEmpty_iff]
  rcases nothing with empty | none
  · rw [inScope_of_isEmpty empty]
    exact Std.ExtTreeSet.isEmpty_inter_right Std.ExtTreeSet.isEmpty_empty
  · exact Std.ExtTreeSet.isEmpty_inter_left none

theorem carriers_of_isEmpty {scope : Scope} (empty : scope.isEmpty = true) :
    catalogue.carriers scope folded = ∅ := by
  refine Std.ExtTreeSet.eq_empty_iff_forall_not_mem.mpr fun id member => ?_
  have within := (mem_carriers.mp member).1
  rw [inScope_of_isEmpty empty] at within
  exact Std.ExtTreeSet.not_mem_empty within

def pairs (catalogue : Catalogue) : List (Text × Text) :=
  catalogue.toList.flatMap fun p => p.2.tags.toList.map (p.1, ·)

theorem mem_pairs : (id, folded) ∈ catalogue.pairs ↔ catalogue.Lists id folded := by
  simp only [pairs, Lists, List.mem_flatMap, Prod.exists, List.mem_map, Prod.mk.injEq,
    Std.ExtTreeMap.mem_toList_iff_getElem?_eq_some, Std.ExtTreeSet.mem_toList]
  constructor
  · rintro ⟨_, listing, found, _, listed, rfl, rfl⟩
    exact ⟨listing, found, listed⟩
  · rintro ⟨listing, found, listed⟩
    exact ⟨id, listing, found, folded, listed, rfl, rfl⟩

theorem nodup_pairs : catalogue.pairs.Nodup := by
  refine nodup_flatMap_pairs ?_ fun (listing : Listing) => nodup_toList listing.tags
  rw [Std.ExtTreeMap.map_fst_toList_eq_keys]
  exact Std.ExtTreeMap.nodup_keys

/-- The tags that some item is listed with. -/
def carried (catalogue : Catalogue) : TagSet := .ofList (catalogue.pairs.map Prod.snd) compare

theorem mem_carried : folded ∈ catalogue.carried ↔ ∃ id, catalogue.Lists id folded := by
  simp [carried, ← mem_pairs]

/-- A list that holds each item with each of its tags once is as long as any other. -/
theorem length_pairs {pairs : List (Text × Text)} (once : pairs.Nodup)
    (mem : ∀ id folded : Text, (id, folded) ∈ pairs ↔ catalogue.Lists id folded) :
    pairs.length = catalogue.pairs.length := by
  refine List.Perm.length_eq ((List.perm_ext_iff_of_nodup once nodup_pairs).mpr ?_)
  rintro ⟨id, folded⟩
  rw [mem, mem_pairs]

/-- A list that holds the tags of the items once each is as long as their set. -/
theorem size_carried {tags : List Text} (once : tags.Nodup)
    (mem : ∀ folded : Text, folded ∈ tags ↔ ∃ id, catalogue.Lists id folded) :
    tags.length = catalogue.carried.size := by
  rw [← Std.ExtTreeSet.length_toList]
  refine List.Perm.length_eq ((List.perm_ext_iff_of_nodup once (nodup_toList _)).mpr ?_)
  intro folded
  rw [mem, Std.ExtTreeSet.mem_toList, mem_carried]

end Catalogue

def TagCount.byTag (counts : List TagCount) : List (Text × Nat) :=
  counts.map fun count => (Tag.fold count.name, count.count)

/-- The counts are of the tags that begin with a text and that some item in scope is listed with, one
for each, and each is the number of those items. -/
structure Catalogue.Counts (catalogue : Catalogue) (scope : Scope) (stem : Text)
    (counts : List TagCount) : Prop where
  distinct : ((TagCount.byTag counts).map Prod.fst).Nodup
  mem_byTag : ∀ {folded : Text} {count : Nat}, (folded, count) ∈ TagCount.byTag counts ↔
    stem.isPrefixOf folded = true ∧ (catalogue.carriers scope folded).size = count ∧ count ≠ 0

namespace Catalogue.Counts

variable {catalogue : Catalogue} {scope : Scope} {stem : Text} {counts others : List TagCount}

/-- There is one way to count, up to the order. -/
theorem perm (h : catalogue.Counts scope stem counts) (h' : catalogue.Counts scope stem others) :
    (TagCount.byTag counts).Perm (TagCount.byTag others) := by
  have once := List.Nodup.of_map _ h.distinct
  have once' := List.Nodup.of_map _ h'.distinct
  refine (List.perm_ext_iff_of_nodup once once').mpr fun ⟨folded, count⟩ => ?_
  rw [h.mem_byTag, h'.mem_byTag]

theorem of_perm (h : catalogue.Counts scope stem counts) (same : others.Perm counts) :
    catalogue.Counts scope stem others := by
  have byTag : (TagCount.byTag others).Perm (TagCount.byTag counts) := same.map _
  exact ⟨(byTag.map _).nodup_iff.mpr h.distinct, byTag.mem_iff.trans h.mem_byTag⟩

/-- Ranking without a limit only orders the counts. -/
theorem rank (h : catalogue.Counts scope stem counts) :
    catalogue.Counts scope stem (TagCount.rank counts 0) :=
  h.of_perm (List.mergeSort_perm counts _)

/-- In a scope without stems there is nothing to count. -/
theorem of_isEmpty (empty : scope.isEmpty = true) : catalogue.Counts scope stem [] := by
  refine ⟨List.nodup_nil, fun {folded count} => ⟨fun member => absurd member List.not_mem_nil, ?_⟩⟩
  rintro ⟨-, rfl, some_items⟩
  rw [carriers_of_isEmpty empty] at some_items
  exact absurd rfl some_items

/-- What a row for a tag comes to: the tag with the number of its items in scope, unless there are none
or the tag begins otherwise. -/
def expected (catalogue : Catalogue) (scope : Scope) (stem folded : Text) : Option (Text × Nat) :=
  if stem.isPrefixOf folded = true ∧ (catalogue.carriers scope folded).isEmpty = false then
    some (folded, (catalogue.carriers scope folded).size)
  else none

theorem expected_eq_some {folded : Text} {pair : Text × Nat} :
    expected catalogue scope stem folded = some pair ↔ pair.1 = folded ∧
      stem.isPrefixOf pair.1 = true ∧ (catalogue.carriers scope pair.1).size = pair.2 ∧
        pair.2 ≠ 0 := by
  obtain ⟨folded', count⟩ := pair
  simp only [expected, Std.ExtTreeSet.isEmpty_eq_size_beq_zero, beq_eq_false_iff_ne]
  split
  · next some_items =>
    rw [Option.some.injEq, Prod.mk.injEq]
    constructor
    · rintro ⟨rfl, rfl⟩
      exact ⟨rfl, some_items.1, rfl, some_items.2⟩
    · rintro ⟨rfl, -, same, -⟩
      exact ⟨rfl, same⟩
  · next nothing =>
    rw [iff_false_left (by simp)]
    rintro ⟨rfl, begins, same, some_items⟩
    exact nothing ⟨begins, by rwa [same]⟩

/-- Counting by rows, of which each carried tag has one. -/
theorem of_filterMap {α : Type} (key : α → Text) {rows : List α} {count? : α → Option TagCount}
    (unique : (rows.map key).Nodup)
    (all : ∀ {id folded : Text}, id ∈ catalogue.carriers scope folded → ∃ row ∈ rows, key row = folded)
    (counted : ∀ row ∈ rows, (count? row).map (fun c => (Tag.fold c.name, c.count)) =
      expected catalogue scope stem (key row)) :
    catalogue.Counts scope stem (rows.filterMap count?) := by
  have byTag : TagCount.byTag (rows.filterMap count?) =
      rows.filterMap fun row => expected catalogue scope stem (key row) := by
    rw [TagCount.byTag, List.map_filterMap]
    exact List.filterMap_congr counted
  constructor
  · rw [byTag, List.nodup_iff_pairwise_ne, List.pairwise_map, List.pairwise_filterMap]
    refine (List.pairwise_map.mp unique).imp fun different pair h pair' h' same => different ?_
    rw [← (expected_eq_some.mp h).1, ← (expected_eq_some.mp h').1, same]
  · intro folded count
    rw [byTag, List.mem_filterMap]
    constructor
    · rintro ⟨row, -, h⟩
      exact (expected_eq_some.mp h).2
    · rintro ⟨begins, same, some_items⟩
      have occupied : (catalogue.carriers scope folded).isEmpty = false := by
        rw [Std.ExtTreeSet.isEmpty_eq_size_beq_zero, beq_eq_false_iff_ne, same]
        exact some_items
      obtain ⟨id, member⟩ := ItemSet.exists_mem_iff.mpr occupied
      obtain ⟨row, among, rfl⟩ := all member
      exact ⟨row, among, expected_eq_some.mpr ⟨rfl, begins, same, some_items⟩⟩

end Catalogue.Counts
end TagQuery
