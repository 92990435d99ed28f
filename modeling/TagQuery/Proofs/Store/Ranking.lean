import TagQuery.Proofs.Database.Answers
import TagQuery.Proofs.Index.Representation
import TagQuery.Proofs.Text.ByteOrder

/-! The order of tag counts. Either store counts in whatever order its rows come, and then ranks: more
items first, and among equals the smaller name. Main steps: no two counts are equal in rank, so there is
one way to rank them; and no two tags have one name, so each count stands strictly before the next. What a
database counts is exact unless its engine reads only part of what it is asked for. -/
namespace TagQuery

namespace TagCount

variable {a b c : TagCount} {counts others : List TagCount}

/-- A count stands before another one: it is of more items, or of as many and the name has smaller
bytes. -/
def Precedes (a b : TagCount) : Prop :=
  b.count < a.count ∨ a.count = b.count ∧ a.name.utf8 < b.name.utf8

theorem ranksBefore_iff : ranksBefore a b = true ↔
    b.count < a.count ∨ a.count = b.count ∧ (compare a.name b.name).isLE = true := by
  simp [ranksBefore]

theorem ranksBefore_trans (first : ranksBefore a b = true) (second : ranksBefore b c = true) :
    ranksBefore a c = true := by
  rw [ranksBefore_iff] at first second ⊢
  rcases first with more | ⟨same, names⟩
  · exact .inl (by omega)
  · rcases second with more | ⟨same', names'⟩
    · exact .inl (by omega)
    · exact .inr ⟨same.trans same', Std.TransCmp.isLE_trans names names'⟩

theorem ranksBefore_total (a b : TagCount) : (ranksBefore a b || ranksBefore b a) = true := by
  rw [Bool.or_eq_true, ranksBefore_iff, ranksBefore_iff]
  rcases Nat.lt_trichotomy a.count b.count with less | same | more
  · exact .inr (.inl less)
  · cases names : compare a.name b.name with
    | lt | eq => exact .inl (.inr ⟨same, rfl⟩)
    | gt =>
      have swapped : compare b.name a.name = .lt := Std.OrientedCmp.lt_of_gt names
      exact .inr (.inr ⟨same.symm, by rw [swapped]; rfl⟩)
  · exact .inl (.inl more)

/-- Different counts differ in rank. -/
theorem ranksBefore_antisymm (before : ranksBefore a b = true) (behind : ranksBefore b a = true) :
    a = b := by
  rw [ranksBefore_iff] at before behind
  have same : a.count = b.count := by omega
  have names : (compare a.name b.name).isLE = true := by
    rcases before with more | ⟨-, names⟩
    · omega
    · exact names
  have names' : (compare b.name a.name).isLE = true := by
    rcases behind with more | ⟨-, names⟩
    · omega
    · exact names
  have sameName : a.name = b.name :=
    Std.LawfulEqCmp.eq_of_compare (Std.OrientedCmp.isLE_antisymm names names')
  cases a
  cases b
  rw [TagCount.mk.injEq]
  exact ⟨sameName, same⟩

/-- Of two counts with different names, the one in front of the other stands strictly before it. -/
theorem precedes_of_ranksBefore (before : ranksBefore a b = true) (different : a.name ≠ b.name) :
    a.Precedes b := by
  refine (ranksBefore_iff.mp before).imp_right fun ⟨same, names⟩ => ⟨same, ?_⟩
  rcases Ordering.isLE_iff_eq_lt_or_eq_eq.mp names with less | equal
  · exact Text.utf8_lt_of_compare less
  · exact absurd (Std.LawfulEqCmp.eq_of_compare equal) different

theorem rank_zero (counts : List TagCount) : rank counts 0 = counts.mergeSort ranksBefore := rfl

@[simp] theorem rank_nil (limit : Nat) : rank [] limit = [] := by simp [rank]

theorem pairwise_rank (counts : List TagCount) :
    (rank counts 0).Pairwise fun a b => ranksBefore a b = true :=
  @List.pairwise_mergeSort _ ranksBefore (fun _ _ _ => ranksBefore_trans) ranksBefore_total counts

/-- A limit leaves the first of the counts that are ranked without one. -/
theorem rank_eq_take {limit : Nat} (limited : limit ≠ 0) (counts : List TagCount) :
    rank counts limit = (rank counts 0).take limit := by
  rw [rank_zero, rank, if_neg limited]

/-- In whatever order counts come, they are ranked in one. -/
theorem rank_eq_of_perm (same : others.Perm counts) (limit : Nat) :
    rank others limit = rank counts limit := by
  have unlimited : rank others 0 = rank counts 0 := by
    refine List.Perm.eq_of_pairwise (fun _ _ _ _ => ranksBefore_antisymm) (pairwise_rank others)
      (pairwise_rank counts) ?_
    calc rank others 0
      _ |>.Perm others := List.mergeSort_perm others _
      _ |>.Perm counts := same
      _ |>.Perm (rank counts 0) := (List.mergeSort_perm counts _).symm
  by_cases limited : limit = 0
  · rw [limited, unlimited]
  · rw [rank_eq_take limited, rank_eq_take limited, unlimited]

/-- The counts for each limit. Without a limit each stands strictly before the next; they are ranked from
counts that may come in any of several orders; and a limit leaves the first of them. -/
structure Ranked (yields : List TagCount → Prop) (answer : Nat → List TagCount) : Prop where
  ordered : (answer 0).Pairwise Precedes
  anyOrder : ∀ yielded, yields yielded → ∀ limit, rank yielded limit = answer limit
  limited : ∀ limit, limit ≠ 0 → answer limit = (answer 0).take limit

/-- Counts with names of their own, ranked from one list, that may come in the order of any other with the
same. -/
theorem Ranked.of_rank {yields : List TagCount → Prop} (different : (counts.map name).Nodup)
    (reordered : ∀ yielded, yields yielded → yielded.Perm counts) : Ranked yields (rank counts) where
  ordered := by
    have names := ((List.mergeSort_perm counts ranksBefore).map name).nodup_iff.mpr different
    have distinct := List.pairwise_map.mp (List.nodup_iff_pairwise_ne.mp names)
    exact (pairwise_rank counts).imp₂ (fun _ _ => precedes_of_ranksBefore) distinct
  anyOrder yielded among := rank_eq_of_perm (reordered yielded among)
  limited _ some_limit := rank_eq_take some_limit counts

end TagCount

namespace Catalogue

variable {catalogue : Catalogue} {scope : Scope} {stem : Text} {counts : List TagCount}

/-- The counts for each limit are ranked, and without a limit they are exact, one for each tag. -/
structure Ranks (catalogue : Catalogue) (scope : Scope) (stem : Text)
    (yields : List TagCount → Prop) (answer : Nat → List TagCount) : Prop extends
    TagCount.Ranked yields answer where
  exact : catalogue.Counts scope stem (answer 0)

/-- Tags that are told apart have different names. -/
theorem Counts.nodup_names (h : catalogue.Counts scope stem counts) :
    (counts.map TagCount.name).Nodup := by
  have folded : ((counts.map TagCount.name).map Tag.fold).Nodup := by
    simpa [TagCount.byTag, Function.comp_def] using h.distinct
  exact folded.of_map _

end Catalogue

namespace Index

variable {index : Index} {scope : Scope} {start : Text}

/-- What the posting of a tag comes to: the spelling of the tag with the number of its items in scope,
unless there are none or the tag begins otherwise. -/
def countOf (index : Index) (scope : Scope) (stem : Text) : Text × ItemSet → Option TagCount
  | (tag, ids) =>
    if stem.isPrefixOf tag then
      let count := (ids.filter (index.covers scope)).size
      if count = 0 then none else some ⟨index.spellings[tag]?.getD tag, count⟩
    else none

/-- The counts of an index that goes through its postings in some order. -/
def Yields (index : Index) (scope : Scope) (start : Text) (yielded : List TagCount) : Prop :=
  ∃ rows : List (Text × ItemSet), rows.Perm index.postings.toList ∧
    yielded = rows.filterMap (index.countOf (index.foldScope scope) (Tag.fold start))

/-- No item is in a scope without stems. -/
theorem countOf_of_isEmpty (empty : scope.isEmpty = true) (stem : Text) (posting : Text × ItemSet) :
    index.countOf scope stem posting = none := by
  obtain ⟨tag, ids⟩ := posting
  have nothing : (ids.filter (index.covers scope)).size = 0 := by
    rw [← beq_iff_eq, ← Std.ExtTreeSet.isEmpty_eq_size_beq_zero, Std.ExtTreeSet.isEmpty_iff,
      Std.ExtTreeSet.eq_empty_iff_forall_not_mem]
    intro id member
    have covered := covers_iff.mp (ItemSet.mem_filter.mp member).2
    rw [Catalogue.inScope_of_isEmpty empty] at covered
    exact Std.ExtTreeSet.not_mem_empty covered
  simp only [countOf, nothing, if_true, ite_self]

/-- An index ranks what it counts in the order of its postings. -/
theorem tagCounts_eq_rank (index : Index) (scope : Scope) (start : Text) (limit : Nat) :
    index.tagCounts scope start limit = TagCount.rank
      (index.postings.toList.filterMap (index.countOf (index.foldScope scope) (Tag.fold start)))
      limit := by
  unfold tagCounts
  split
  · next empty =>
    simp only [countOf_of_isEmpty (isEmpty_foldScope empty), List.filterMap_none,
      TagCount.rank_nil]
  · rfl

theorem WellFormed.ranks (wf : index.WellFormed) (scope : Scope) (start : Text) :
    index.catalogue.Ranks (index.foldScope scope) (Tag.fold start) (index.Yields scope start)
      (index.tagCounts scope start) where
  exact := wf.tagCounts scope start
  toRanked := by
    have names := (wf.tagCounts scope start).nodup_names
    rw [tagCounts_eq_rank] at names
    rw [funext (tagCounts_eq_rank index scope start)]
    refine .of_rank (((List.mergeSort_perm _ _).map _).nodup_iff.mp names) ?_
    rintro yielded ⟨rows, same, rfl⟩
    exact same.filterMap _

end Index

namespace Database

variable {db : Database} {scope : Scope} {start : Text}

def counted (db : Database) (scope : Scope) (start : Text) : Except Fault (List JoinedRow) :=
  if scope.isEmpty then .ok []
  else within 5 (db.stems scope) (db.countedRows (db.stems scope) (Tag.fold start))

/-- The counts of a database that goes through its tags, and through the joined rows, in some order. -/
def Yields (db : Database) (scope : Scope) (start : Text) (yielded : List TagCount) : Prop :=
  ∃ (tags : List TagRow) (joinedRows rows : List JoinedRow), tags.Perm db.tables.tags ∧
    db.counted scope start = .ok joinedRows ∧ rows.Perm joinedRows ∧
    yielded = countRows { db.tables with tags } rows

theorem map_within {α β : Type} (f : α → β) (levels : Nat) (stems : List Text)
    (answer : Except Fault α) :
    (within levels stems answer).map f = within levels stems (answer.map f) := by
  unfold within
  split <;> rfl

theorem countRows_nil (tables : Tables) : countRows tables [] = [] := by
  unfold countRows
  simp

/-- A database ranks what it counts in the order of its tables, unless counting fails. -/
theorem tagCounts_eq_map (db : Database) (scope : Scope) (start : Text) (limit : Nat) :
    db.tagCounts scope start limit =
      (db.counted scope start).map fun rows => TagCount.rank (countRows db.tables rows) limit := by
  unfold tagCounts counted
  split
  · simp only [Except.map, countRows_nil, TagCount.rank_nil]
  · exact (map_within _ _ _ _).symm

/-- The order of the tags and of the rows changes nothing but the order of the counts. -/
theorem countRows_perm {tables : Tables} {tags : List TagRow} {rows rows' : List JoinedRow}
    (sameTags : tags.Perm tables.tags) (sameRows : rows'.Perm rows) :
    (countRows { tables with tags } rows').Perm (countRows tables rows) := by
  have sameItems (tag : TagRow) :
      (Std.ExtTreeSet.ofList ((rows'.filter (·.tag.row == tag.row)).map JoinedRow.item) compare :
        ItemSet) =
      .ofList ((rows.filter (·.tag.row == tag.row)).map JoinedRow.item) compare := by
    refine Std.ExtTreeSet.ext_mem fun id => ?_
    rw [Std.ExtTreeSet.mem_ofList, Std.ExtTreeSet.mem_ofList, List.contains_iff_mem,
      List.contains_iff_mem]
    exact ((sameRows.filter _).map _).mem_iff
  unfold countRows
  simp only [sameItems]
  exact sameTags.filterMap _

/-- Each count of a database is of another row, so it has another name. -/
theorem nodup_names_countRows (consistent : db.tables.Consistent) (rows : List JoinedRow) :
    ((countRows db.tables rows).map TagCount.name).Nodup := by
  have apart : db.tables.tags.Pairwise fun tag other => tag.folded ≠ other.folded :=
    List.pairwise_map.mp (List.nodup_iff_pairwise_ne.mp consistent.names)
  rw [List.nodup_iff_pairwise_ne, List.pairwise_map, countRows, List.pairwise_filterMap]
  refine apart.imp_of_mem fun among among' different count given count' given' same => different ?_
  dsimp only at given given'
  split at given <;> cases given
  split at given' <;> cases given'
  rw [(consistent.folds _ among).1, (consistent.folds _ among').1]
  exact congrArg Tag.fold same

/-- Counting fails whatever the limit, or the counts are ranked. They are exact if the engine reads all of
what it is asked for. -/
theorem ranks (consistent : db.tables.Consistent) (scope : Scope) (start : Text) :
    (∃ fault, ∀ limit, db.tagCounts scope start limit = .error fault) ∨
    ∃ answer : Nat → List TagCount, (∀ limit, db.tagCounts scope start limit = .ok (answer limit)) ∧
      TagCount.Ranked (db.Yields scope start) answer ∧
      ((∀ stem ∈ db.stems scope, '\x00' ∉ stem) → '\x00' ∉ Tag.fold start →
        db.catalogue.Counts (db.foldScope scope) (Tag.fold start) (answer 0)) := by
  cases given : db.counted scope start with
  | error fault =>
    refine .inl ⟨fault, fun limit => ?_⟩
    rw [tagCounts_eq_map, given]
    rfl
  | ok joinedRows =>
    have answered (limit : Nat) : db.tagCounts scope start limit =
        .ok (TagCount.rank (countRows db.tables joinedRows) limit) := by
      rw [tagCounts_eq_map, given]
      rfl
    refine .inr ⟨_, answered, .of_rank (nodup_names_countRows consistent joinedRows) ?_,
      fun whole wholeStart => tagCounts_eq_ok consistent whole wholeStart (answered 0)⟩
    rintro yielded ⟨tags, joinedRows', rows, sameTags, given', sameRows, rfl⟩
    rw [given] at given'
    cases given'
    exact countRows_perm sameTags sameRows

end Database

/-- Over any scope and for any beginning the counts of either store are in one strict order, whatever the
order in which the store comes upon them, and a limit leaves the first of them. Those of an index are exact:
without a limit there is one count for each tag that begins so and that some item in scope carries, of all
those items. A database may fail instead, and then it fails for every limit; otherwise its counts are as
exact, provided that the stems of the scope and the beginning are plain. -/
theorem tag_counts_ranked (scope : Scope) (start : Text) :
    (∀ (foldsCase : Bool) (changes : List Change),
      let index := changes.foldl Index.after (.empty foldsCase)
      index.catalogue.Ranks (index.foldScope scope) (Tag.fold start) (index.Yields scope start)
        (index.tagCounts scope start)) ∧
    ∀ db : Database, db.Reachable →
      (∃ fault, ∀ limit, db.tagCounts scope start limit = .error fault) ∨
      ∃ answer : Nat → List TagCount,
        (∀ limit, db.tagCounts scope start limit = .ok (answer limit)) ∧
        TagCount.Ranked (db.Yields scope start) answer ∧
        ((∀ stem ∈ db.stems scope, Database.isPlain stem = true) →
          Database.isPlain (Tag.fold start) = true →
            db.catalogue.Counts (db.foldScope scope) (Tag.fold start) (answer 0)) := by
  constructor
  · intro foldsCase changes index
    have wf : index.WellFormed := ((Index.wellFormed_empty foldsCase).foldl_after changes).1
    exact wf.ranks scope start
  · intro db reachable
    refine (Database.ranks reachable.consistent scope start).imp_right ?_
    rintro ⟨answer, answered, ranked, exact⟩
    exact ⟨answer, answered, ranked, fun plain plainStart =>
      exact (fun stem among => Database.null_not_mem_of_isPlain (plain stem among))
        (Database.null_not_mem_of_isPlain plainStart)⟩

/-- Two tags of as many items are ranked by the bytes of their names, in which capitals come first; a tag
that an item has twice is counted once, and an item outside of the scope is not counted. -/
theorem tag_counts_ranked_of_tie :
    let db : Database := Database.after ⟨true, {}⟩ (.insertAll [
      ⟨"1".toList, "/a/x".toList, ["cat".toList, " CAT".toList, "Dog".toList]⟩,
      ⟨"2".toList, "/a/y".toList, ["cow".toList, "dog".toList, "cat".toList]⟩,
      ⟨"3".toList, "/b/z".toList, ["cow".toList]⟩])
    let scope := Scope.ofDirectories true ["/a".toList]
    db.Reachable ∧ ∃ answer : Nat → List TagCount,
      (∀ limit, db.tagCounts scope [] limit = .ok (answer limit)) ∧
      TagCount.Ranked (db.Yields scope []) answer ∧
      db.catalogue.Counts (db.foldScope scope) [] (answer 0) ∧
      answer 0 = [⟨"Dog".toList, 2⟩, ⟨"cat".toList, 2⟩, ⟨"cow".toList, 1⟩] := by
  intro db scope
  have reachable : db.Reachable := .after (.empty true) (.insertAll _)
  let yielded : List TagCount := [⟨"cat".toList, 2⟩, ⟨"Dog".toList, 2⟩, ⟨"cow".toList, 1⟩]
  have counted : (db.counted scope []).map (Database.countRows db.tables) = .ok yielded := by
    decide +kernel
  have ranked : TagCount.rank yielded 0 =
      [⟨"Dog".toList, 2⟩, ⟨"cat".toList, 2⟩, ⟨"cow".toList, 1⟩] := by
    rw [TagCount.rank_eq_of_perm (.swap _ _ _), TagCount.rank_zero]
    exact List.mergeSort_of_pairwise (by decide +kernel)
  have given : db.tagCounts scope [] 0 =
      .ok [⟨"Dog".toList, 2⟩, ⟨"cat".toList, 2⟩, ⟨"cow".toList, 1⟩] := by
    obtain ⟨rows, selected, rowsEq⟩ := Database.map_eq_ok counted
    rw [Database.tagCounts_eq_map, selected, ← ranked, ← rowsEq]
    rfl
  refine ⟨reachable, ?_⟩
  rcases (tag_counts_ranked scope []).2 db reachable with
    ⟨fault, fails⟩ | ⟨answer, answered, ranked, exact⟩
  · rw [fails 0] at given
    cases given
  · refine ⟨answer, answered, ranked, exact (by decide +kernel) (by decide), ?_⟩
    rw [answered 0] at given
    exact Except.ok.inj given

/-- The engine reads a beginning, and the stem of a directory, up to a null character. So a tag is counted
that does not begin as asked, and so is one whose item is out of scope. -/
theorem tag_counts_beyond_null :
    let db : Database := Database.after ⟨true, {}⟩ (.insert ⟨"1".toList, "/a".toList, ["a".toList]⟩)
    let around := Scope.ofDirectories true ["/".toList]
    let apart := Scope.ofDirectories true ["/a\x00".toList]
    db.Reachable ∧
      (db.tagCounts around "a\x00b".toList 0 = .ok [⟨"a".toList, 1⟩] ∧
        (Tag.fold "a\x00b".toList).isPrefixOf (Tag.fold "a".toList) = false) ∧
      db.tagCounts apart [] 0 = .ok [⟨"a".toList, 1⟩] ∧ apart.contains "/a".toList = false :=
  ⟨.after (.empty true) (.insert _), by decide +kernel⟩

end TagQuery
