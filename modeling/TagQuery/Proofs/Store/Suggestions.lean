import TagQuery.Proofs.Database.Answers
import TagQuery.Proofs.Index.Representation
import TagQuery.Proofs.Text.FinalSigma
import TagQuery.Proofs.Text.Folding

/-! Which tags are suggested for the beginning of a name. Either store counts the tags whose folded name
begins with the folded beginning, so a tag that an item in scope carries is suggested while its name is
typed, except where folding does not go along with the beginning: behind a capital sigma inside of a
word. -/
namespace TagQuery

/-- Among the counts is one for the tag of a name, in any spelling. -/
def TagCount.Suggests (counts : List TagCount) (name : Text) : Prop :=
  ∃ count ∈ counts, Tag.fold count.name = Tag.fold name

open TagCount (Suggests)

namespace Catalogue

variable {catalogue : Catalogue} {scope : Scope} {counts : List TagCount} {id : Text}

/-- What an item in scope carries is counted if it begins as asked. -/
theorem Counts.suggests_iff {stem name : Text} (h : catalogue.Counts scope stem counts)
    (carried : id ∈ catalogue.withTag name scope) :
    Suggests counts name ↔ stem <+: Tag.fold name := by
  have carriers : (catalogue.carriers scope (Tag.fold name)).size ≠ 0 := by
    have occupied := ItemSet.exists_mem_iff.mp ⟨id, carried⟩
    rwa [Std.ExtTreeSet.isEmpty_eq_size_beq_zero, beq_eq_false_iff_ne] at occupied
  have listed : Suggests counts name ↔ ∃ count, (Tag.fold name, count) ∈ TagCount.byTag counts := by
    simp only [Suggests, TagCount.byTag, List.mem_map, Prod.mk.injEq]
    constructor
    · rintro ⟨count, member, same⟩
      exact ⟨count.count, count, member, same, rfl⟩
    · rintro ⟨_, count, member, same, -⟩
      exact ⟨count, member, same⟩
  simp only [listed, h.mem_byTag, List.isPrefixOf_iff_prefix]
  constructor
  · rintro ⟨_, begins, -⟩
    exact begins
  · exact fun begins => ⟨_, begins, rfl, carriers⟩

/-- While a name is typed its tag is counted, unless a word is cut behind a sigma. -/
theorem Counts.suggests_while_typed_iff {typed rest : Text}
    (h : catalogue.Counts scope (Tag.fold typed) counts)
    (carried : id ∈ catalogue.withTag (typed ++ rest) scope) :
    Suggests counts (typed ++ rest) ↔ ¬ Text.CutsSigma typed rest := by
  rw [h.suggests_iff carried, Tag.fold_prefix_iff]

end Catalogue

namespace Database

variable {db : Database} {scope : Scope} {counts : List TagCount} {id name start : Text}

/-- A tag that an item in scope carries is counted if its folded name passes the test for the beginning. An
item in scope is found even if the engine reads only part of a stem. -/
theorem suggests_iff (consistent : db.tables.Consistent)
    (given : db.tagCounts scope start 0 = .ok counts)
    (carried : id ∈ db.catalogue.withTag name (db.foldScope scope)) :
    Suggests counts name ↔ like (stemPattern (Tag.fold start)) (Tag.fold name) = true := by
  obtain ⟨inside, listed⟩ := Catalogue.mem_carriers.mp carried
  obtain ⟨tag, among, same, link⟩ := (lists_catalogue consistent).mp listed
  have found := finds_of_mem_inScope inside
  unfold tagCounts at given
  split at given
  · next empty =>
    rw [finds_of_isEmpty empty] at found
    cases found
  · obtain ⟨rows, counted, rfl⟩ := map_eq_ok (within_eq_ok given)
    rw [countedRows_eq_ok counted]
    constructor
    · rintro ⟨count, member, spelled⟩
      obtain ⟨row, amongRows, occupied, rfl⟩ := mem_countRows.mp (TagCount.mem_of_mem_rank member)
      obtain ⟨_, begins, -⟩ := (isEmpty_countedItems_iff consistent amongRows).mp occupied
      rwa [← spelled, ← (consistent.folds row amongRows).1]
    · intro begins
      have occupied := (isEmpty_countedItems_iff consistent among).mpr ⟨id, same ▸ begins, found, link⟩
      have member := mem_countRows.mpr ⟨tag, among, occupied, rfl⟩
      refine ⟨_, (List.mergeSort_perm _ _).mem_iff.mpr member, ?_⟩
      rw [← same, (consistent.folds tag among).1]

end Database

/-- For the beginning of a name whose tag some item in scope carries, either store suggests the tag, if
it answers at all, unless a word of the name is cut behind a capital sigma. The engine of a database has to
read all of the beginning. -/
theorem suggested_while_typed_iff (scope : Scope) (typed rest : Text) :
    (∀ (foldsCase : Bool) (changes : List Change),
      let index := changes.foldl Index.after (.empty foldsCase)
      ∀ id ∈ index.catalogue.withTag (typed ++ rest) (index.foldScope scope),
        (Suggests (index.tagCounts scope typed 0) (typed ++ rest) ↔ ¬ Text.CutsSigma typed rest)) ∧
    ∀ db : Database, db.Reachable → '\x00' ∉ typed →
      ∀ id ∈ db.catalogue.withTag (typed ++ rest) (db.foldScope scope),
        ∀ counts, db.tagCounts scope typed 0 = .ok counts →
          (Suggests counts (typed ++ rest) ↔ ¬ Text.CutsSigma typed rest) := by
  constructor
  · intro foldsCase changes index id carried
    have wf : index.WellFormed := ((Index.wellFormed_empty foldsCase).foldl_after changes).1
    exact (wf.tagCounts scope typed).suggests_while_typed_iff carried
  · intro db reachable whole id carried counts given
    rw [Database.suggests_iff reachable.consistent given carried,
      Database.like_stemPattern (Tag.null_not_mem_fold whole), List.isPrefixOf_iff_prefix,
      Tag.fold_prefix_iff]

/-- A name with a final sigma is suggested from its second word on, by either store. -/
theorem suggested_while_typed_of_words :
    let item : Item := ⟨"1".toList, "/a/x".toList, [" ΟΔΟΣ Σίβα".toList]⟩
    let index := [Change.insert item].foldl Index.after (.empty true)
    let db : Database := Database.after ⟨true, {}⟩ (.insert item)
    let scope := Scope.ofDirectories true ["/a".toList]
    let typed : Text := " ΟΔΟΣ Σ".toList
    db.Reachable ∧ Suggests (index.tagCounts scope typed 0) " ΟΔΟΣ Σίβα".toList ∧
      ∃ counts, db.tagCounts scope typed 0 = .ok counts ∧ Suggests counts " ΟΔΟΣ Σίβα".toList := by
  intro item index db scope typed
  have reachable : db.Reachable := .after (.empty true) (.insert item)
  have whole : ¬ Text.CutsSigma typed "ίβα".toList := by decide +kernel
  have given : db.tagCounts scope typed 0 = .ok [⟨" ΟΔΟΣ Σίβα".toList, 1⟩] := by
    decide +kernel
  obtain ⟨inIndex, inDatabase⟩ := suggested_while_typed_iff scope typed "ίβα".toList
  refine ⟨reachable, ?_, _, given, ?_⟩
  · exact (inIndex true [.insert item] "1".toList (by decide +kernel)).mpr whole
  · exact (inDatabase db reachable (by decide) "1".toList (by decide +kernel) _ given).mpr whole

/-- A name is no longer suggested when it is typed up to a capital sigma inside of a word. -/
theorem not_suggested_of_sigma :
    let item : Item := ⟨"1".toList, "/a/x".toList, ["ΟΔΟΣΗ".toList]⟩
    let index := [Change.insert item].foldl Index.after (.empty true)
    let db : Database := Database.after ⟨true, {}⟩ (.insert item)
    let scope := Scope.ofDirectories true ["/a".toList]
    "1".toList ∈ index.catalogue.withTag "ΟΔΟΣΗ".toList (index.foldScope scope) ∧
      "1".toList ∈ db.catalogue.withTag "ΟΔΟΣΗ".toList (db.foldScope scope) ∧
      "ΟΔΟΣ".toList <+: "ΟΔΟΣΗ".toList ∧
      index.tagCounts scope "ΟΔΟΣ".toList 0 = [] ∧
      db.tagCounts scope "ΟΔΟΣ".toList 0 = .ok [] ∧
      index.tagCounts scope "ΟΔΟ".toList 0 = [⟨"ΟΔΟΣΗ".toList, 1⟩] := by
  decide +kernel

end TagQuery
