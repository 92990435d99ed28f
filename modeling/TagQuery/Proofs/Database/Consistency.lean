import TagQuery.Proofs.Catalogue
import Mathlib.Data.List.Nodup

/-! The tables of a database and its catalogue say the same. Main steps: tag rows have numbers and
folded names of their own, every link is between an item and a tag that are there, and each change of
the tables keeps this and changes the carried tags as the catalogue is changed. -/
namespace TagQuery.Database

/-- With a key that is never repeated, what is looked up by the key is what has it. -/
theorem find?_eq_some_iff {α β : Type} [BEq β] [LawfulBEq β] {key : α → β} {rows : List α}
    (unique : (rows.map key).Nodup) {k : β} {a : α} :
    rows.find? (key · == k) = some a ↔ a ∈ rows ∧ key a = k := by
  constructor
  · intro found
    exact ⟨List.mem_of_find?_eq_some found, by simpa using List.find?_some found⟩
  · rintro ⟨among, rfl⟩
    cases found : rows.find? (key · == key a) with
    | none => exact absurd (List.find?_eq_none.mp found a among) (by simp)
    | some b =>
      have same : key b = key a := by simpa using List.find?_some found
      rw [List.inj_on_of_nodup_map unique (List.mem_of_find?_eq_some found) among same]

namespace Tables

variable {tables : Tables} {id other folded name : Text}

/-- The constraints that the database keeps. -/
structure Consistent (tables : Tables) : Prop where
  numbered : ∀ tag ∈ tables.tags, tag.row < tables.nextRow
  rows : (tables.tags.map TagRow.row).Nodup
  names : (tables.tags.map TagRow.folded).Nodup
  folds : ∀ tag ∈ tables.tags, tag.folded = Tag.fold tag.name ∧ tag.folded.isEmpty = false
  once : tables.links.Nodup
  linked : ∀ link ∈ tables.links, link.item ∈ tables.items ∧ ∃ tag ∈ tables.tags, tag.row = link.row

def Carries (tables : Tables) (id folded : Text) : Prop :=
  ∃ tag ∈ tables.tags, tag.folded = folded ∧ ⟨id, tag.row⟩ ∈ tables.links

theorem consistent_empty (nextRow : Nat) (written : Bool) :
    Consistent { nextRow := nextRow, written := written } := by
  constructor <;> simp

theorem Consistent.findTag? (consistent : tables.Consistent) {tag : TagRow} :
    tables.findTag? folded = some tag ↔ tag ∈ tables.tags ∧ tag.folded = folded :=
  find?_eq_some_iff consistent.names

theorem Consistent.tagRow? (consistent : tables.Consistent) {row : Nat} {tag : TagRow} :
    tables.tagRow? row = some tag ↔ tag ∈ tables.tags ∧ tag.row = row :=
  find?_eq_some_iff consistent.rows

/-- Only what is stored carries tags. -/
theorem Consistent.mem_items (consistent : tables.Consistent) (carried : tables.Carries id folded) :
    id ∈ tables.items := by
  obtain ⟨tag, -, -, link⟩ := carried
  exact (consistent.linked _ link).1

@[simp] theorem links_addTag : (tables.addTag name).links = tables.links := by
  unfold addTag
  split <;> rfl

@[simp] theorem items_addTag : (tables.addTag name).items = tables.items := by
  unfold addTag
  split <;> rfl

theorem mem_tags_addTag (tables : Tables) (name : Text) :
    ∃ tag ∈ (tables.addTag name).tags, tag.folded = Tag.fold name := by
  unfold addTag
  split
  · next tag found =>
    exact ⟨tag, List.mem_of_find?_eq_some found, by simpa using List.find?_some found⟩
  · exact ⟨_, List.mem_append_right _ List.mem_cons_self, rfl⟩

theorem tags_subset_addTag : tables.tags ⊆ (tables.addTag name).tags := by
  unfold addTag
  split
  · exact fun _ => id
  · exact List.subset_append_left _ _

/-- A new row has a number and a name that no other row has. -/
theorem Consistent.addTag (consistent : tables.Consistent)
    (visible : (Tag.fold name).isEmpty = false) : (tables.addTag name).Consistent := by
  unfold Tables.addTag
  split
  · exact consistent
  · next new =>
    have unused : ∀ tag ∈ tables.tags, tag.folded ≠ Tag.fold name := by
      simpa [Tables.findTag?] using new
    constructor
    · intro tag member
      rcases List.mem_append.mp member with old | added
      · exact Nat.lt_succ_of_lt (consistent.numbered tag old)
      · obtain rfl := List.mem_singleton.mp added
        exact Nat.lt_succ_self _
    · rw [List.map_append, List.nodup_append]
      refine ⟨consistent.rows, List.nodup_singleton _, ?_⟩
      simpa using fun tag member => Nat.ne_of_lt (consistent.numbered tag member)
    · rw [List.map_append, List.nodup_append]
      refine ⟨consistent.names, List.nodup_singleton _, ?_⟩
      simpa using unused
    · intro tag member
      rcases List.mem_append.mp member with old | added
      · exact consistent.folds tag old
      · obtain rfl := List.mem_singleton.mp added
        exact ⟨rfl, visible⟩
    · exact consistent.once
    · intro link member
      obtain ⟨stored, tag, among, same⟩ := consistent.linked link member
      exact ⟨stored, tag, List.mem_append_left _ among, same⟩

/-- Two rows with one number are one row. -/
theorem Consistent.eq_of_row_eq (consistent : tables.Consistent) {tag tag' : TagRow}
    (h : tag ∈ tables.tags) (h' : tag' ∈ tables.tags) (same : tag.row = tag'.row) : tag = tag' :=
  List.inj_on_of_nodup_map consistent.rows h h' same

/-- Two rows with one folded name are one row. -/
theorem Consistent.eq_of_folded_eq (consistent : tables.Consistent) {tag tag' : TagRow}
    (h : tag ∈ tables.tags) (h' : tag' ∈ tables.tags) (same : tag.folded = tag'.folded) :
    tag = tag' :=
  List.inj_on_of_nodup_map consistent.names h h' same

/-- A new row is not carried yet. -/
theorem Consistent.carries_addTag (consistent : tables.Consistent)
    (visible : (Tag.fold name).isEmpty = false) :
    (tables.addTag name).Carries other folded ↔ tables.Carries other folded := by
  unfold Carries
  rw [links_addTag]
  constructor
  · rintro ⟨tag, among, same, link⟩
    -- The row of a link is an old one, so a tag with its number is too.
    obtain ⟨-, old, amongOld, sameRow⟩ := consistent.linked _ link
    obtain rfl := (consistent.addTag visible).eq_of_row_eq among (tags_subset_addTag amongOld)
      sameRow.symm
    exact ⟨tag, amongOld, same, link⟩
  · rintro ⟨tag, among, same, link⟩
    exact ⟨tag, tags_subset_addTag among, same, link⟩

@[simp] theorem tags_addLink {link : Link} : (tables.addLink link).tags = tables.tags := by
  unfold addLink
  split <;> rfl

@[simp] theorem items_addLink {link : Link} : (tables.addLink link).items = tables.items := by
  unfold addLink
  split <;> rfl

theorem mem_links_addLink {link link' : Link} :
    link' ∈ (tables.addLink link).links ↔ link' = link ∨ link' ∈ tables.links := by
  unfold addLink
  split
  · next already =>
    have present : link ∈ tables.links := by simpa using already
    refine ⟨.inr, ?_⟩
    rintro (rfl | old)
    · exact present
    · exact old
  · exact List.mem_cons

/-- A link is added once, and only between what is there. -/
theorem Consistent.addLink (consistent : tables.Consistent) {tag : TagRow}
    (stored : id ∈ tables.items)
    (among : tag ∈ tables.tags) : (tables.addLink ⟨id, tag.row⟩).Consistent := by
  have linked : ∀ link ∈ (tables.addLink ⟨id, tag.row⟩).links,
      link.item ∈ tables.items ∧ ∃ tag ∈ tables.tags, tag.row = link.row := by
    intro link member
    rcases mem_links_addLink.mp member with rfl | old
    · exact ⟨stored, tag, among, rfl⟩
    · exact consistent.linked link old
  unfold Tables.addLink at linked ⊢
  split
  · exact consistent
  · next new =>
    rw [if_neg new] at linked
    refine ⟨consistent.numbered, consistent.rows, consistent.names, consistent.folds, ?_, linked⟩
    exact List.nodup_cons.mpr ⟨by simpa using new, consistent.once⟩

theorem Consistent.carries_addLink (consistent : tables.Consistent) {tag : TagRow}
    (among : tag ∈ tables.tags) : (tables.addLink ⟨id, tag.row⟩).Carries other folded ↔
      other = id ∧ folded = tag.folded ∨ tables.Carries other folded := by
  simp only [Carries, tags_addLink, mem_links_addLink, Link.mk.injEq]
  constructor
  · rintro ⟨tag', among', same, ⟨rfl, sameRow⟩ | link⟩
    · obtain rfl := consistent.eq_of_row_eq among' among sameRow
      exact .inl ⟨rfl, same.symm⟩
    · exact .inr ⟨tag', among', same, link⟩
  · rintro (⟨rfl, rfl⟩ | ⟨tag', among', same, link⟩)
    · exact ⟨tag, among, rfl, .inl ⟨rfl, rfl⟩⟩
    · exact ⟨tag', among', same, .inr link⟩

/-- What giving an item a tag comes to, when the tag can be seen. -/
theorem Consistent.tagItem_eq (consistent : tables.Consistent) (id : Text)
    (visible : (Tag.fold name).isEmpty = false) :
    ∃ tag ∈ (tables.addTag name).tags, tag.folded = Tag.fold name ∧
      tables.tagItem id name = (tables.addTag name).addLink ⟨id, tag.row⟩ := by
  obtain ⟨tag, among, same⟩ := mem_tags_addTag tables name
  refine ⟨tag, among, same, ?_⟩
  have found := (consistent.addTag visible).findTag?.mpr ⟨among, same⟩
  simp only [Tables.tagItem, visible, Bool.false_eq_true, if_false, found]

@[simp] theorem items_tagItem : (tables.tagItem id name).items = tables.items := by
  unfold tagItem
  split
  · rfl
  · dsimp only
    split
    · rw [items_addLink, items_addTag]
    · exact items_addTag

/-- Giving a stored item a tag keeps the constraints, and the item carries the tag then. -/
theorem Consistent.tagItem (consistent : tables.Consistent) (stored : id ∈ tables.items)
    (name : Text) :
    (tables.tagItem id name).Consistent ∧ ∀ other folded,
      (tables.tagItem id name).Carries other folded ↔
        tables.Carries other folded ∨ other = id ∧ folded ∈ TagSet.ofNames [name] := by
  simp only [TagSet.mem_ofNames, List.map_cons, List.map_nil, List.mem_singleton]
  cases visible : (Tag.fold name).isEmpty with
  | true =>
    have passed : tables.tagItem id name = tables := by rw [Tables.tagItem, if_pos visible]
    rw [passed]
    refine ⟨consistent, fun other folded => (or_iff_left ?_).symm⟩
    rintro ⟨-, rfl, seen⟩
    rw [visible] at seen
    cases seen
  | false =>
    obtain ⟨tag, among, same, result⟩ := consistent.tagItem_eq id visible
    have added := consistent.addTag visible
    have stored : id ∈ (tables.addTag name).items := by rwa [items_addTag]
    rw [result]
    refine ⟨added.addLink stored among, fun other folded => ?_⟩
    rw [added.carries_addLink among, consistent.carries_addTag visible, same, or_comm]
    refine or_congr_right (and_congr_right fun _ => ⟨?_, And.left⟩)
    rintro rfl
    exact ⟨rfl, visible⟩

theorem Consistent.foldl_tagItem (consistent : tables.Consistent) (stored : id ∈ tables.items)
    (names : List Text) :
    (names.foldl (Tables.tagItem id) tables).Consistent ∧ ∀ other folded,
      (names.foldl (Tables.tagItem id) tables).Carries other folded ↔
        tables.Carries other folded ∨ other = id ∧ folded ∈ TagSet.ofNames names := by
  induction names generalizing tables with
  | nil =>
    refine ⟨consistent, fun other folded => (or_iff_left ?_).symm⟩
    rintro ⟨-, member⟩
    simp [TagSet.mem_ofNames] at member
  | cons name rest ih =>
    obtain ⟨tagged, carries⟩ := consistent.tagItem stored name
    have still : id ∈ (tables.tagItem id name).items := by rwa [items_tagItem]
    obtain ⟨all, carriesAll⟩ := ih tagged still
    refine ⟨all, fun other folded => ?_⟩
    rw [List.foldl_cons, carriesAll, carries, or_assoc, ← and_or_left]
    simp only [TagSet.mem_ofNames, List.map_cons, List.map_nil, List.mem_cons, List.not_mem_nil,
      or_false, or_and_right]

@[simp] theorem items_foldl_tagItem (names : List Text) :
    (names.foldl (tagItem id) tables).items = tables.items := by
  induction names generalizing tables with
  | nil => rfl
  | cons name rest ih => rw [List.foldl_cons, ih, items_tagItem]

/-- The tables when an item is taken out of them, or another location is noted for it. -/
theorem Consistent.dropLinks (consistent : tables.Consistent)
    {items : Std.ExtTreeMap Text Text compare}
    (kept : ∀ other ∈ tables.items, other ≠ id → other ∈ items) :
    (({ tables with items }).dropLinks id).Consistent := by
  refine ⟨consistent.numbered, consistent.rows, consistent.names, consistent.folds,
    List.Nodup.filter _ consistent.once, fun link member => ?_⟩
  obtain ⟨old, different⟩ := List.mem_filter.mp member
  obtain ⟨stored, tag⟩ := consistent.linked link old
  exact ⟨kept _ stored (by simpa using different), tag⟩

theorem carries_dropLinks : (tables.dropLinks id).Carries other folded ↔
    other ≠ id ∧ tables.Carries other folded := by
  simp only [Carries, dropLinks, List.mem_filter, bne_iff_ne]
  constructor
  · rintro ⟨tag, among, same, link, different⟩
    exact ⟨different, tag, among, same, link⟩
  · rintro ⟨different, tag, among, same, link⟩
    exact ⟨tag, among, same, link, different⟩

theorem Consistent.put (consistent : tables.Consistent) (foldsCase : Bool) (item : Item) :
    (tables.put foldsCase item).Consistent ∧ ∀ other folded,
      (tables.put foldsCase item).Carries other folded ↔
        other = item.id ∧ folded ∈ TagSet.ofNames item.tags ∨
          other ≠ item.id ∧ tables.Carries other folded := by
  let items := tables.items.insert item.id (Location.normalize foldsCase item.location)
  have dropped : (({ tables with items }).dropLinks item.id).Consistent :=
    consistent.dropLinks fun other old _ => Std.ExtTreeMap.mem_insert.mpr (.inr old)
  have stored : item.id ∈ (({ tables with items }).dropLinks item.id).items :=
    Std.ExtTreeMap.mem_insert_self
  obtain ⟨all, carries⟩ := dropped.foldl_tagItem stored item.tags
  refine ⟨all, fun other folded => ?_⟩
  have before : (({ tables with items }).dropLinks item.id).Carries other folded ↔
      other ≠ item.id ∧ tables.Carries other folded := carries_dropLinks
  rw [or_comm, ← before]
  exact carries other folded

theorem items_put (foldsCase : Bool) (item : Item) : (tables.put foldsCase item).items =
    tables.items.insert item.id (Location.normalize foldsCase item.location) :=
  items_foldl_tagItem item.tags

theorem Consistent.erase (consistent : tables.Consistent) (id : Text) :
    (tables.erase id).Consistent :=
  consistent.dropLinks fun other old different =>
    Std.ExtTreeMap.mem_erase.mpr ⟨by simpa using different.symm, old⟩

theorem mem_tags_pruneTags {tag : TagRow} :
    tag ∈ tables.pruneTags.tags ↔ tag ∈ tables.tags ∧ ∃ link ∈ tables.links, link.row = tag.row := by
  simp [pruneTags]

/-- Only tags that nothing carries are dropped. -/
theorem Consistent.pruneTags (consistent : tables.Consistent) : tables.pruneTags.Consistent := by
  have kept : tables.pruneTags.tags.Sublist tables.tags := List.filter_sublist
  refine ⟨fun tag member => consistent.numbered tag (kept.subset member),
    (kept.map _).nodup consistent.rows, (kept.map _).nodup consistent.names,
    fun tag member => consistent.folds tag (kept.subset member), consistent.once,
    fun link member => ?_⟩
  obtain ⟨stored, tag, among, same⟩ := consistent.linked link member
  exact ⟨stored, tag, mem_tags_pruneTags.mpr ⟨among, link, member, same.symm⟩, same⟩

theorem carries_pruneTags : tables.pruneTags.Carries other folded ↔
    tables.Carries other folded := by
  constructor
  · rintro ⟨tag, among, same, link⟩
    exact ⟨tag, (mem_tags_pruneTags.mp among).1, same, link⟩
  · rintro ⟨tag, among, same, link⟩
    exact ⟨tag, mem_tags_pruneTags.mpr ⟨among, _, link, rfl⟩, same, link⟩

/-- Noting the time of a change changes nothing else. -/
theorem Consistent.touch (consistent : tables.Consistent) : tables.touch.Consistent :=
  ⟨consistent.numbered, consistent.rows, consistent.names, consistent.folds, consistent.once,
    consistent.linked⟩

end Tables

variable {db : Database} {id other folded : Text}

/-- The tags that the catalogue of the tables lists an item with are those that it carries. -/
theorem mem_tagsOf (consistent : db.tables.Consistent) :
    folded ∈ (db.tables.tagsOf id).map TagRow.folded ↔ db.tables.Carries id folded := by
  simp only [Tables.tagsOf, List.mem_map, List.mem_mergeSort, List.mem_filterMap, List.mem_filter,
    beq_iff_eq, consistent.tagRow?]
  constructor
  · rintro ⟨tag, ⟨⟨item, row⟩, ⟨link, rfl⟩, among, rfl⟩, same⟩
    exact ⟨tag, among, same, link⟩
  · rintro ⟨tag, among, same, link⟩
    exact ⟨tag, ⟨_, ⟨link, rfl⟩, among, rfl⟩, same⟩

theorem getElem?_catalogue : db.catalogue[id]? = db.tables.items[id]?.map fun location =>
    ⟨location, .ofList ((db.tables.tagsOf id).map TagRow.folded) compare⟩ :=
  Std.ExtTreeMap.getElem?_map

theorem location_catalogue : db.catalogue[id]?.map Listing.location = db.tables.items[id]? := by
  rw [getElem?_catalogue, Option.map_map]
  exact Option.map_id'

theorem lists_catalogue (consistent : db.tables.Consistent) :
    db.catalogue.Lists id folded ↔ db.tables.Carries id folded := by
  simp only [Catalogue.Lists, getElem?_catalogue, Option.map_eq_some_iff]
  constructor
  · rintro ⟨_, ⟨location, stored, rfl⟩, listed⟩
    rw [Std.ExtTreeSet.mem_ofList, List.contains_iff_mem, mem_tagsOf consistent] at listed
    exact listed
  · intro carried
    have stored := consistent.mem_items carried
    refine ⟨_, ⟨_, Std.ExtTreeMap.getElem?_eq_some_getElem stored, rfl⟩, ?_⟩
    rw [Std.ExtTreeSet.mem_ofList, List.contains_iff_mem, mem_tagsOf consistent]
    exact carried

theorem catalogue_put (consistent : db.tables.Consistent) (item : Item) :
    ({ db with tables := db.tables.put db.foldsCase item } : Database).catalogue =
      db.catalogue.put db.foldsCase item := by
  obtain ⟨after, carries⟩ := consistent.put db.foldsCase item
  refine Catalogue.ext (fun id => ?_) fun id folded => ?_
  · rw [location_catalogue, Tables.items_put, Catalogue.put, Std.ExtTreeMap.getElem?_insert,
      Std.ExtTreeMap.getElem?_insert]
    split
    · rfl
    · exact location_catalogue.symm
  · rw [lists_catalogue after, Catalogue.lists_put, lists_catalogue consistent]
    exact carries id folded

theorem catalogue_foldl_put (consistent : db.tables.Consistent) (items : List Item) :
    (items.foldl (Tables.put db.foldsCase) db.tables).Consistent ∧
      ({ db with tables := items.foldl (Tables.put db.foldsCase) db.tables } : Database).catalogue =
        items.foldl (Catalogue.put db.foldsCase) db.catalogue := by
  induction items generalizing db with
  | nil => exact ⟨consistent, rfl⟩
  | cons item rest ih =>
    let next : Database := { db with tables := db.tables.put db.foldsCase item }
    have put : next.tables.Consistent := (consistent.put db.foldsCase item).1
    obtain ⟨all, same⟩ := ih put
    refine ⟨all, same.trans ?_⟩
    rw [catalogue_put consistent item, List.foldl_cons]

theorem catalogue_erase (consistent : db.tables.Consistent) (id : Text) :
    ({ db with tables := (db.tables.erase id).pruneTags.touch } : Database).catalogue =
      db.catalogue.erase id := by
  have erased := consistent.erase id
  refine Catalogue.ext (fun other => ?_) fun other folded => ?_
  · have stored : db.catalogue[other]?.map Listing.location = _ := location_catalogue
    rw [location_catalogue, Std.ExtTreeMap.getElem?_erase]
    show (db.tables.items.erase id)[other]? = _
    rw [Std.ExtTreeMap.getElem?_erase]
    split
    · rfl
    · exact stored.symm
  · rw [lists_catalogue erased.pruneTags.touch, Catalogue.lists_erase, lists_catalogue consistent]
    exact Tables.carries_pruneTags.trans Tables.carries_dropLinks

theorem catalogue_eq_empty (nothing : db.tables.items = ∅) : db.catalogue = ∅ :=
  Std.ExtTreeMap.ext_getElem? fun _ => by simp [catalogue, nothing]

/-- A database changes as its catalogue does, and keeps its constraints. -/
theorem catalogue_after (consistent : db.tables.Consistent) (change : Change) :
    (db.after change).tables.Consistent ∧
      (db.after change).catalogue = db.catalogue.after db.foldsCase change := by
  cases change with
  | insert item =>
    exact ⟨(consistent.put db.foldsCase item).1.touch, catalogue_put consistent item⟩
  | insertAll items =>
    obtain ⟨all, same⟩ := catalogue_foldl_put consistent items
    exact ⟨all.touch, same⟩
  | remove id =>
    simp only [after, Database.remove, Tables.remove]
    split
    · exact ⟨(consistent.erase id).pruneTags.touch, catalogue_erase consistent id⟩
    · next absent =>
      refine ⟨consistent, ?_⟩
      have unknown : db.catalogue[id]? = none := by
        simpa [Database.catalogue] using absent
      exact (Catalogue.erase_of_getElem? unknown).symm
  | clear => exact ⟨Tables.consistent_empty _ _, catalogue_eq_empty rfl⟩

/-- After any changes the constraints are kept, and the catalogue is what the changes make of it. -/
theorem catalogue_foldl_after (consistent : db.tables.Consistent) (changes : List Change) :
    (changes.foldl after db).tables.Consistent ∧
      (changes.foldl after db).foldsCase = db.foldsCase ∧
      (changes.foldl after db).catalogue =
        changes.foldl (Catalogue.after db.foldsCase) db.catalogue := by
  induction changes generalizing db with
  | nil => exact ⟨consistent, rfl, rfl⟩
  | cons change rest ih =>
    obtain ⟨kept, same⟩ := catalogue_after consistent change
    have next := ih kept
    rwa [foldsCase_after, same] at next

/-- A database that comes of one without items by changes, and by being opened again with another
setting. -/
inductive Reachable : Database → Prop
  | empty (foldsCase : Bool) : Reachable ⟨foldsCase, {}⟩
  | after {db : Database} (earlier : Reachable db) (change : Change) : Reachable (db.after change)
  | reopen {db : Database} (earlier : Reachable db) (foldsCase : Bool) : Reachable (db.reopen foldsCase)

theorem Reachable.consistent (h : db.Reachable) : db.tables.Consistent := by
  induction h with
  | empty => exact Tables.consistent_empty 1 false
  | after _ change ih => exact (catalogue_after ih change).1
  | reopen _ _ ih => exact ih

/-- An item is removed when the catalogue lists it. -/
theorem remove_fst (db : Database) (id : Text) :
    (db.remove id).1 = db.catalogue.contains id := by
  have listed : db.catalogue.contains id = db.tables.items.contains id :=
    Std.ExtTreeMap.contains_map
  have answer : (db.remove id).1 = (db.tables.remove id).1 := rfl
  rw [answer, listed, Tables.remove]
  split
  · next stored => exact stored.symm
  · next absent => exact (Bool.eq_false_iff.mpr absent).symm

end TagQuery.Database
