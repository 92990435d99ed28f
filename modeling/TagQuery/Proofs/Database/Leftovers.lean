import TagQuery.Proofs.Database.Answers
import TagQuery.Proofs.Database.Fetching

/-! The rows of tags that no item carries. They are left behind when an item is stored again with other
tags, and nothing that is asked of the database tells that they are there: each answer is the one that
the pruned tables give. Main steps: the rows of tags are only ever reached through links, and a removal
prunes the tables. -/
namespace TagQuery.Database

namespace Tables

variable {tables : Tables} {tag : TagRow} {id : Text}

/-- That a tag has a row and no item carries it. -/
def IsLeftover (tables : Tables) (tag : TagRow) : Prop :=
  tag ∈ tables.tags ∧ ∀ link ∈ tables.links, link.row ≠ tag.row

theorem not_isLeftover_pruneTags : ¬ tables.pruneTags.IsLeftover tag := by
  rintro ⟨among, unlinked⟩
  obtain ⟨-, link, present, same⟩ := mem_tags_pruneTags.mp among
  exact unlinked link present same

/-- A removal that finds its item leaves no tag over. -/
theorem not_isLeftover_remove (removed : (tables.remove id).1 = true) :
    ¬ (tables.remove id).2.IsLeftover tag := by
  unfold remove at removed ⊢
  split at removed
  · next stored =>
    rw [if_pos stored]
    exact not_isLeftover_pruneTags
  · cases removed

/-- A tag that is left over shares its folded name with no row that is kept. -/
theorem IsLeftover.folded_ne (leftover : tables.IsLeftover tag) (consistent : tables.Consistent)
    {other : TagRow} (kept : other ∈ tables.pruneTags.tags) : other.folded ≠ tag.folded := by
  intro same
  obtain ⟨among, link, present, row⟩ := mem_tags_pruneTags.mp kept
  obtain rfl := consistent.eq_of_folded_eq among leftover.1 same
  exact leftover.2 link present row

/-- The row of a link is kept. -/
theorem tagRow?_pruneTags {link : Link} (present : link ∈ tables.links) :
    tables.pruneTags.tagRow? link.row = tables.tagRow? link.row := by
  simp only [tagRow?, pruneTags, List.find?_filter]
  refine congrArg (List.find? · tables.tags) (funext fun row => ?_)
  by_cases same : row.row = link.row
  · have linked : (tables.links.any fun other => other.row == row.row) = true :=
      List.any_eq_true.mpr ⟨link, present, by simp [same]⟩
    simp only [linked, true_and, Bool.decide_eq_true]
  · simp [same]

/-- A row that is left over is not found any more. -/
theorem Consistent.findTag?_pruneTags (consistent : tables.Consistent) (folded : Text) :
    tables.pruneTags.findTag? folded =
      (tables.findTag? folded).filter fun tag => tables.links.any (·.row == tag.row) := by
  ext tag
  simp only [consistent.pruneTags.findTag?, mem_tags_pruneTags, Option.filter_eq_some_iff,
    consistent.findTag?, List.any_eq_true, beq_iff_eq]
  exact and_right_comm

theorem tagsOf_pruneTags (tables : Tables) (id : Text) :
    tables.pruneTags.tagsOf id = tables.tagsOf id := by
  have rows : (tables.links.filter (·.item == id)).filterMap
        (fun link => tables.pruneTags.tagRow? link.row) =
      (tables.links.filter (·.item == id)).filterMap fun link => tables.tagRow? link.row :=
    List.filterMap_congr fun link member => tagRow?_pruneTags (List.mem_of_mem_filter member)
  exact congrArg (List.mergeSort · _) rows

theorem item?_pruneTags (tables : Tables) : tables.pruneTags.item? = tables.item? := by
  funext id
  simp only [item?, tagsOf_pruneTags]
  rfl

theorem find_pruneTags (tables : Tables) (ids : List Text) :
    tables.pruneTags.find ids = tables.find ids := by
  simp only [find, answered, item?_pruneTags]

end Tables

variable {db : Database} {id name : Text} {scope : Scope} {tag : TagRow}

def pruned (db : Database) : Database := { db with tables := db.tables.pruneTags }

/-- A tag whose row is left over has no carriers, as if it had no row. -/
theorem withTag_pruned (consistent : db.tables.Consistent) (name : Text) (scope : Scope) :
    db.pruned.withTag name scope = db.withTag name scope := by
  have found := consistent.findTag?_pruneTags (Tag.fold name)
  unfold withTag
  split
  · rfl
  · refine congrArg (fun answer => asFailureOf _ (within 5 (db.stems scope) answer)) ?_
    simp only [pruned, found]
    cases db.tables.findTag? (Tag.fold name) with
    | none => rfl
    | some tag =>
      rw [Option.filter_some]
      by_cases linked : (db.tables.links.any (·.row == tag.row)) = true
      · rw [if_pos linked]
        rfl
      · have nothing : db.tables.links.filter (·.row == tag.row) = [] := by
          rw [List.filter_eq_nil_iff]
          exact fun link present same => linked (List.any_eq_true.mpr ⟨link, present, same⟩)
        rw [if_neg linked]
        simp only [nothing]
        rfl

theorem joined_pruneTags (tables : Tables) : joined tables.pruneTags = joined tables := by
  have links : tables.pruneTags.links = tables.links := rfl
  unfold joined
  rw [links]
  refine List.filterMap_congr fun link present => ?_
  rw [Tables.tagRow?_pruneTags present]
  rfl

/-- A row that no link refers to is not counted. -/
theorem countRows_pruneTags {tables : Tables} {rows : List JoinedRow}
    (linked : ∀ r ∈ rows, ∃ link ∈ tables.links, link.row = r.tag.row) :
    countRows tables.pruneTags rows = countRows tables rows := by
  simp only [countRows, Tables.pruneTags, List.filterMap_filter]
  refine List.filterMap_congr fun tag _ => ?_
  split
  · rfl
  · next unlinked =>
    have nothing : rows.filter (·.tag.row == tag.row) = [] := by
      rw [List.filter_eq_nil_iff]
      intro r member same
      obtain ⟨link, present, row⟩ := linked r member
      refine unlinked (List.any_eq_true.mpr ⟨link, present, ?_⟩)
      rw [row]
      exact same
    rw [nothing]
    rfl

theorem countedRows_pruned (db : Database) (stems : List Text) (start : Text) :
    db.pruned.countedRows stems start = db.countedRows stems start := by
  simp only [countedRows, pruned, joined_pruneTags]
  rfl

theorem tagCounts_pruned (consistent : db.tables.Consistent) (scope : Scope) (start : Text)
    (limit : Nat) : db.pruned.tagCounts scope start limit = db.tagCounts scope start limit := by
  unfold tagCounts
  split
  · rfl
  · refine congrArg (within 5 (db.stems scope)) ?_
    have rows := countedRows_pruned db (db.stems scope) (Tag.fold start)
    refine (congrArg (Except.map _) rows).trans ?_
    cases counted : db.countedRows (db.stems scope) (Tag.fold start) with
    | error fault => rfl
    | ok rows =>
      have linked : ∀ r ∈ rows, ∃ link ∈ db.tables.links, link.row = r.tag.row := by
        intro r member
        rw [countedRows_eq_ok counted, rowsInScope] at member
        exact ⟨_, ((mem_joined consistent).mp (List.mem_of_mem_filter member)).1, rfl⟩
      have same := countRows_pruneTags linked
      exact congrArg (fun counts => Except.ok (TagCount.rank counts limit)) same

/-- Each question has the answer that the pruned tables give, failures included. -/
structure Overlooks (db : Database) : Prop where
  withTag : ∀ name scope, db.withTag name scope = db.pruned.withTag name scope
  inScope : ∀ scope, db.inScope scope = db.pruned.inScope scope
  restrict : ∀ ids scope, db.restrict ids scope = db.pruned.restrict ids scope
  tagCounts : ∀ scope start limit,
    db.tagCounts scope start limit = db.pruned.tagCounts scope start limit
  find : ∀ ids, db.tables.find ids = db.pruned.tables.find ids
  totals : db.totals = db.pruned.totals

theorem overlooks (consistent : db.tables.Consistent) : db.Overlooks where
  withTag name scope := (withTag_pruned consistent name scope).symm
  inScope _ := rfl
  restrict _ _ := rfl
  tagCounts scope start limit := (tagCounts_pruned consistent scope start limit).symm
  find ids := (db.tables.find_pruneTags ids).symm
  totals := rfl

/-- No answer shows the tag: it has no items in any scope, no item is given back with it, and it is not
counted. -/
structure Hides (db : Database) (tag : TagRow) : Prop where
  withTag : ∀ name scope ids, Tag.fold name = tag.folded → db.withTag name scope = .ok ids → ids = ∅
  find : ∀ ids, ∀ item ∈ db.tables.find ids, ∀ name ∈ item.tags, Tag.fold name ≠ tag.folded
  tagCounts : ∀ scope start limit counts, db.tagCounts scope start limit = .ok counts →
    ∀ count ∈ counts, Tag.fold count.name ≠ tag.folded

theorem exists_tag_of_mem_tagCounts {start : Text} {limit : Nat} {counts : List TagCount}
    (answered : db.tagCounts scope start limit = .ok counts) {count : TagCount}
    (member : count ∈ counts) : ∃ tag ∈ db.tables.tags, tag.name = count.name := by
  unfold tagCounts at answered
  split at answered
  · cases answered
    cases member
  · obtain ⟨rows, -, rfl⟩ := map_eq_ok (within_eq_ok answered)
    obtain ⟨tag, among, -, rfl⟩ := mem_countRows.mp (TagCount.mem_of_mem_rank member)
    exact ⟨tag, among, rfl⟩

theorem hides (consistent : db.tables.Consistent) (leftover : db.tables.IsLeftover tag) :
    db.Hides tag := by
  -- The names in the answers are those of rows that pruning keeps.
  have kept : ∀ name, (∃ row ∈ db.tables.pruneTags.tags, row.name = name) →
      Tag.fold name ≠ tag.folded := by
    rintro name ⟨row, among, rfl⟩
    rw [← (consistent.pruneTags.folds row among).1]
    exact leftover.folded_ne consistent among
  constructor
  · intro name scope ids spelled answered
    rw [Std.ExtTreeSet.eq_empty_iff_forall_not_mem]
    intro id member
    obtain ⟨⟨other, found, link⟩, -⟩ := (mem_withTag_iff answered).mp member
    obtain ⟨among, same⟩ := consistent.findTag?.mp found
    obtain rfl := consistent.eq_of_folded_eq among leftover.1 (same.trans spelled)
    exact leftover.2 _ link rfl
  · intro ids item found name member
    rw [← Tables.find_pruneTags] at found
    obtain ⟨row, among, spelled, -⟩ := Tables.exists_link_of_mem_find found member
    exact kept name ⟨row, among, spelled⟩
  · intro scope start limit counts answered count member
    rw [← tagCounts_pruned consistent] at answered
    exact kept count.name (exists_tag_of_mem_tagCounts answered member)

/-- The tags in the totals are the rows that are not left over. -/
theorem totals_tags (consistent : db.tables.Consistent) :
    db.totals.tags = db.tables.pruneTags.tags.length := by
  have once := consistent.pruneTags.rows
  rw [← List.length_map TagRow.row]
  refine List.Perm.length_eq ((List.perm_ext_iff_of_nodup (nodup_eraseDups _) once).mpr ?_)
  intro row
  simp only [List.mem_eraseDups, List.mem_map, Tables.mem_tags_pruneTags]
  constructor
  · rintro ⟨link, present, rfl⟩
    obtain ⟨-, tag, among, same⟩ := consistent.linked link present
    exact ⟨tag, ⟨among, link, present, same.symm⟩, same⟩
  · rintro ⟨tag, ⟨-, link, present, same⟩, rfl⟩
    exact ⟨link, present, same⟩

def linkedTags (tables : Tables) (id : Text) : List Text :=
  (tables.links.filter (·.item == id)).map fun link => foldedOf tables link.row

/-- An item has one link to each tag that it is listed with. -/
theorem perm_linkedTags (consistent : db.tables.Consistent) (id : Text) :
    (linkedTags db.tables id).Perm
      ((db.catalogue[id]?.map fun listing => listing.tags.toList).getD []) := by
  have once : (linkedTags db.tables id).Nodup := by
    refine (consistent.once.filter _).map_on ?_
    rintro ⟨item, row⟩ member ⟨item', row'⟩ member' same
    obtain ⟨present, own⟩ := List.mem_filter.mp member
    obtain ⟨present', own'⟩ := List.mem_filter.mp member'
    have items : item = item' := (beq_iff_eq.mp own).trans (beq_iff_eq.mp own').symm
    rw [Link.mk.injEq]
    exact ⟨items, foldedOf_injective consistent present present' same⟩
  have listedOnce : ((db.catalogue[id]?.map fun listing => listing.tags.toList).getD []).Nodup := by
    cases db.catalogue[id]? with
    | none => exact List.nodup_nil
    | some listing => exact nodup_toList listing.tags
  refine (List.perm_ext_iff_of_nodup once listedOnce).mpr fun folded => ?_
  have carried : folded ∈ linkedTags db.tables id ↔ db.tables.Carries id folded := by
    simp only [linkedTags, List.mem_map, List.mem_filter, beq_iff_eq, carries_iff consistent,
      and_assoc]
  rw [carried, ← lists_catalogue consistent, Catalogue.Lists]
  cases db.catalogue[id]? <;> simp

/-- Whatever changes a database without items goes through: links are between items and tags that are
there; tags have folded names of their own that can be seen; an item is linked once to each tag of its
last insert that can be seen; a tag that no item carries is not shown by any answer, and its row changes
none; and a removal that finds its item, or to clear everything, leaves no such row. -/
theorem tables_hold_last_inserts (foldsCase : Bool) (changes : List Change) :
    let db := changes.foldl Database.after ⟨foldsCase, {}⟩
    (∀ link ∈ db.tables.links,
      link.item ∈ db.tables.items ∧ ∃ tag ∈ db.tables.tags, tag.row = link.row) ∧
    ((db.tables.tags.map TagRow.folded).Nodup ∧ ∀ tag ∈ db.tables.tags,
      tag.folded = Tag.fold tag.name ∧ tag.folded.isEmpty = false) ∧
    (∀ id, (linkedTags db.tables id).Perm (((Change.lastInsert id changes).map fun item =>
      (TagSet.ofNames item.tags).toList).getD [])) ∧
    (db.Overlooks ∧ db.totals.tags = db.tables.pruneTags.tags.length ∧
      ∀ tag, db.tables.IsLeftover tag → db.Hides tag) ∧
    (∀ id, (db.remove id).1 = true → ∀ tag, ¬ (db.remove id).2.tables.IsLeftover tag) ∧
    ∀ tag, ¬ db.clear.2.tables.IsLeftover tag := by
  intro db
  let initial : Database := ⟨foldsCase, {}⟩
  have start : initial.tables.Consistent := Tables.consistent_empty 1 false
  obtain ⟨consistent, -, catalogue⟩ := catalogue_foldl_after start changes
  refine ⟨consistent.linked, ⟨consistent.names, consistent.folds⟩, fun id => ?_,
    ⟨overlooks consistent, totals_tags consistent, fun _ => hides consistent⟩,
    fun id removed _ => Tables.not_isLeftover_remove removed, ?_⟩
  · have linked := perm_linkedTags consistent id
    rw [catalogue, catalogue_eq_empty rfl, Catalogue.getElem?_foldl_after, Option.map_map] at linked
    exact linked
  · rintro tag ⟨among, -⟩
    cases among

/-- An item is stored again with another tag: the row of the first one is left over, and hidden. -/
theorem tables_hold_last_inserts_of_replaced :
    let db := [Change.insert ⟨"1".toList, "/a".toList, ["Cat".toList, " CAT".toList, []]⟩,
      .insert ⟨"1".toList, "/a".toList, ["dog".toList]⟩].foldl Database.after ⟨true, {}⟩
    let cat : TagRow := ⟨1, "Cat".toList, "cat".toList⟩
    db.tables.IsLeftover cat ∧ db.Hides cat ∧ linkedTags db.tables "1".toList = ["dog".toList] := by
  intro db cat
  obtain ⟨-, -, -, ⟨-, -, hidden⟩, -⟩ := tables_hold_last_inserts true
    [.insert ⟨"1".toList, "/a".toList, ["Cat".toList, " CAT".toList, []]⟩,
      .insert ⟨"1".toList, "/a".toList, ["dog".toList]⟩]
  have leftover : db.tables.IsLeftover cat := by
    unfold Tables.IsLeftover
    decide +kernel
  exact ⟨leftover, hidden cat leftover, by decide +kernel⟩

end TagQuery.Database
