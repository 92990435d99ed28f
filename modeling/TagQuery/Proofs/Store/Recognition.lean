import TagQuery.Proofs.Database.Leftovers
import TagQuery.Proofs.Index.Representation
import TagQuery.Proofs.Scope.Folded
import TagQuery.Proofs.Text.Folding

/-! A store recognises the tag names that it shows. Folding is a projection, so a key under which a tag
is stored is the key of itself; and every name that is read back from a store, with an item or with a
count, folds to the key under which it was stored. -/
namespace TagQuery

/-- How a store keeps tags: under which keys with which spellings, which items are filed under a key, and
which items and counts can be read back. -/
structure TagNames where
  spelled : (key name : Text) → Prop
  filed : (key id : Text) → Prop
  shown : Item → Prop
  counted : TagCount → Prop

/-- Whatever name is read back folds to the key under which the tag is stored, and so does the key. -/
structure TagNames.Recognised (names : TagNames) : Prop where
  key : ∀ key name, names.spelled key name → Tag.fold name = key ∧ Tag.fold key = key
  item : ∀ item, names.shown item → ∀ name ∈ item.tags, names.filed (Tag.fold name) item.id
  count : ∀ count, names.counted count → names.spelled (Tag.fold count.name) count.name

namespace Index

variable {index : Index}

def names (index : Index) : TagNames where
  spelled key name := index.spellings[key]? = some name
  filed key id := id ∈ index.posting key
  shown item := ∃ id, index.get? id = some item
  counted count := ∃ scope start limit, count ∈ index.tagCounts scope start limit

theorem Tidy.spelled_of_mem_tagCounts (tidy : index.Tidy) {scope : Scope} {start : Text} {limit : Nat}
    {count : TagCount} (member : count ∈ index.tagCounts scope start limit) :
    index.spellings[Tag.fold count.name]? = some count.name := by
  unfold tagCounts at member
  split at member
  · cases member
  · obtain ⟨⟨key, ids⟩, stored, given⟩ := List.mem_filterMap.mp (TagCount.mem_of_mem_rank member)
    have filed : key ∈ index.postings := Std.ExtTreeMap.mem_iff_isSome_getElem?.mpr (by
      rw [Std.ExtTreeMap.mem_toList_iff_getElem?_eq_some.mp stored]
      rfl)
    have spelling := Std.ExtTreeMap.getElem?_eq_some_getElem (tidy.spelled.mpr filed)
    dsimp only at given
    split at given
    · split at given
      · cases given
      · cases given
        rw [tidy.fold_spelling filed, spelling, Option.getD_some]
    · cases given

theorem WellFormed.recognised (wf : index.WellFormed) : index.names.Recognised where
  key key name spelled := by
    have folds := wf.tidy.folds spelled
    exact ⟨folds, by rw [← folds, Tag.fold_fold]⟩
  item := by
    rintro item ⟨id, found⟩ name among
    obtain ⟨entry, stored, rfl⟩ := Option.map_eq_some_iff.mp found
    apply wf.filed.mpr
    refine ⟨⟨entry.location, .ofNames entry.tags⟩, ?_, ?_⟩
    · rw [catalogue, Std.ExtTreeMap.getElem?_map, stored]
      rfl
    · exact TagSet.mem_ofNames.mpr ⟨List.mem_map_of_mem among, wf.kept stored name among⟩
  count := fun count ⟨_, _, _, member⟩ => wf.tidy.spelled_of_mem_tagCounts member

end Index

namespace Database

variable {db : Database}

def names (db : Database) : TagNames where
  spelled key name := ∃ tag ∈ db.tables.tags, tag.folded = key ∧ tag.name = name
  filed key id := db.tables.Carries id key
  shown item := ∃ ids, item ∈ db.tables.find ids
  counted count := ∃ scope start limit counts,
    db.tagCounts scope start limit = .ok counts ∧ count ∈ counts

theorem Tables.Consistent.recognised (consistent : db.tables.Consistent) : db.names.Recognised where
  key := by
    rintro key name ⟨tag, among, rfl, rfl⟩
    have folds := (consistent.folds tag among).1
    exact ⟨folds.symm, by rw [folds, Tag.fold_fold]⟩
  item := by
    rintro item ⟨ids, found⟩ name member
    obtain ⟨tag, among, rfl, link⟩ := Tables.exists_link_of_mem_find found member
    exact ⟨tag, among, (consistent.folds tag among).1, link⟩
  count := by
    rintro count ⟨scope, start, limit, counts, answered, member⟩
    obtain ⟨tag, among, spelled⟩ := exists_tag_of_mem_tagCounts answered member
    exact ⟨tag, among, by rw [(consistent.folds tag among).1, spelled], spelled⟩

end Database

/-- Folding and lowercasing are projections. So every tag name that a store gives back, whatever it went
through, folds to the key under which it is stored; and lowercasing the stems of a scope that folds case
once more changes none of them. -/
theorem folding_is_projection :
    (∀ name, Tag.fold (Tag.fold name) = Tag.fold name) ∧
    (∀ t : Text, t.lower.lower = t.lower) ∧
    (∀ foldsCase, ∀ changes : List Change,
      (changes.foldl Index.after (.empty foldsCase)).names.Recognised) ∧
    (∀ db : Database, db.Reachable → db.names.Recognised) ∧
    ∀ (db : Database) directories,
      db.stems (.ofDirectories true directories) = (Scope.ofDirectories true directories).stems := by
  refine ⟨Tag.fold_fold, Text.lower_lower, fun foldsCase changes => ?_, fun db reachable => ?_,
    fun db directories => ?_⟩
  · exact ((Index.wellFormed_empty foldsCase).foldl_after changes).1.recognised
  · exact reachable.consistent.recognised
  · unfold Database.stems
    split
    · exact Scope.map_lower_stems directories
    · rfl

/-- A name with a capital sigma at its end and blanks around it is stored under its folded form. -/
theorem folding_is_projection_of_sigma :
    let db := (⟨true, {}⟩ : Database).after (.insert ⟨"1".toList, "/a".toList, [" ΟΔΟΣ ".toList]⟩)
    db.Reachable ∧ db.names.spelled "οδος".toList " ΟΔΟΣ ".toList ∧
      Tag.fold "οδος".toList = "οδος".toList ∧ db.names.Recognised := by
  intro db
  have reachable : db.Reachable := .after (.empty true) _
  have recognised : db.names.Recognised := folding_is_projection.2.2.2.1 db reachable
  have spelled : db.names.spelled "οδος".toList " ΟΔΟΣ ".toList := by
    refine ⟨⟨1, " ΟΔΟΣ ".toList, "οδος".toList⟩, ?_, rfl, rfl⟩
    decide +kernel
  exact ⟨reachable, spelled, (recognised.key _ _ spelled).2, recognised⟩

end TagQuery
