import TagQuery.Proofs.Index.Postings
import Mathlib.Data.Prod.Basic

/-! The answers of an index are read off its catalogue. The scope is the one that the index compares
with its locations. -/
namespace TagQuery.Index

variable {index : Index} {id name : Text} {scope : Scope}

theorem covers_iff : index.covers scope id = true ↔ id ∈ index.catalogue.inScope scope := by
  simp only [covers, Catalogue.mem_inScope, catalogue, Std.ExtTreeMap.getElem?_map]
  cases index.entries[id]? <;> simp

/-- Folding selects nothing where nothing was selected. -/
theorem isEmpty_foldScope (empty : scope.isEmpty = true) :
    (index.foldScope scope).isEmpty = true := by
  unfold foldScope
  split
  · rw [List.isEmpty_iff.mp empty]
    rfl
  · exact empty

/-- A scope of the setting of the index is compared as it is. -/
theorem foldScope_of_foldsCase (same : scope.foldsCase = index.foldsCase) :
    index.foldScope scope = scope := by
  rw [foldScope, same, Bool.and_not_self, if_neg Bool.false_ne_true]

/-- The items in scope among those filed under a tag. -/
theorem WellFormed.filter_posting (wf : index.WellFormed) (scope : Scope) (folded : Text) :
    (index.posting folded).filter (index.covers scope) = index.catalogue.carriers scope folded := by
  refine Std.ExtTreeSet.ext_mem fun id => ?_
  rw [ItemSet.mem_filter, Catalogue.mem_carriers, wf.filed, covers_iff, and_comm]

theorem WellFormed.withTag_eq (wf : index.WellFormed) (name : Text) (scope : Scope) :
    index.withTag name scope =
      index.catalogue.carriers (index.foldScope scope) (Tag.fold name) := by
  unfold withTag
  split
  · next empty => exact (Catalogue.carriers_of_isEmpty (isEmpty_foldScope empty)).symm
  · exact wf.filter_posting _ _

theorem mem_keys_of_inScope (h : id ∈ index.catalogue.inScope scope) : id ∈ index.entries.keys := by
  obtain ⟨listing, found, -⟩ := Catalogue.mem_inScope.mp h
  have listed : id ∈ index.catalogue :=
    Std.ExtTreeMap.mem_iff_isSome_getElem?.mpr (by rw [found]; rfl)
  exact Std.ExtTreeMap.mem_keys.mpr (Std.ExtTreeMap.mem_of_mem_map listed)

theorem inScope_eq (index : Index) (scope : Scope) :
    index.inScope scope = index.catalogue.inScope (index.foldScope scope) := by
  unfold inScope
  split
  · next empty => exact (Catalogue.inScope_of_isEmpty (isEmpty_foldScope empty)).symm
  · refine Std.ExtTreeSet.ext_mem fun id => ?_
    rw [Std.ExtTreeSet.mem_ofList, List.contains_iff_mem, List.mem_filter, covers_iff]
    exact and_iff_right_of_imp mem_keys_of_inScope

theorem restrict_eq (index : Index) (ids : ItemSet) (scope : Scope) :
    index.restrict ids scope = ids ∩ index.catalogue.inScope (index.foldScope scope) := by
  unfold restrict
  split
  · next nothing =>
    rw [Bool.or_eq_true] at nothing
    exact (Catalogue.inter_inScope_of_isEmpty (nothing.imp_left isEmpty_foldScope)).symm
  · refine Std.ExtTreeSet.ext_mem fun id => ?_
    rw [Std.ExtTreeSet.mem_inter_iff, ItemSet.mem_filter, covers_iff]

/-- The spelling of a tag folds to it. -/
theorem Tidy.fold_spelling (tidy : index.Tidy) {folded : Text} (filed : folded ∈ index.postings) :
    Tag.fold (index.spellings[folded]?.getD folded) = folded := by
  have spelled := tidy.spelled.mpr filed
  rw [Std.ExtTreeMap.getElem?_eq_some_getElem spelled, Option.getD_some]
  exact tidy.folds (Std.ExtTreeMap.getElem?_eq_some_getElem spelled)

theorem WellFormed.tagCounts (wf : index.WellFormed) (scope : Scope) (start : Text) :
    index.catalogue.Counts (index.foldScope scope) (Tag.fold start)
      (index.tagCounts scope start 0) := by
  unfold Index.tagCounts
  split
  · next empty => exact .of_isEmpty (isEmpty_foldScope empty)
  · refine (Catalogue.Counts.of_filterMap Prod.fst ?_ ?_ ?_).rank
    · rw [Std.ExtTreeMap.map_fst_toList_eq_keys]
      exact Std.ExtTreeMap.nodup_keys
    · intro id folded member
      have filed := wf.tidy.mem_postings.mpr ⟨id, wf.filed.mpr (Catalogue.mem_carriers.mp member).2⟩
      have stored := Std.ExtTreeMap.getElem?_eq_some_getElem filed
      exact ⟨(folded, _), Std.ExtTreeMap.mem_toList_iff_getElem?_eq_some.mpr stored, rfl⟩
    · rintro ⟨folded, ids⟩ member
      have stored := Std.ExtTreeMap.mem_toList_iff_getElem?_eq_some.mp member
      have filed : folded ∈ index.postings :=
        Std.ExtTreeMap.mem_iff_isSome_getElem?.mpr (by rw [stored]; rfl)
      have whole : index.posting folded = ids := by rw [posting, stored, Option.getD_some]
      have kept := wf.filter_posting (index.foldScope scope) folded
      rw [whole] at kept
      simp only [kept, Catalogue.Counts.expected, Std.ExtTreeSet.isEmpty_eq_size_beq_zero,
        beq_eq_false_iff_ne]
      by_cases begins : (Tag.fold start).isPrefixOf folded = true
      · by_cases none_left : (index.catalogue.carriers (index.foldScope scope) folded).size = 0
        · simp [begins, none_left]
        · simp [begins, none_left, wf.tidy.fold_spelling filed]
      · simp [begins]

def filings (index : Index) : List (Text × Text) :=
  index.postings.toList.flatMap fun p => p.2.toList.map (p.1, ·)

theorem mem_filings {folded : Text} : (folded, id) ∈ index.filings ↔ id ∈ index.posting folded := by
  simp only [filings, posting, List.mem_flatMap, Prod.exists, List.mem_map, Prod.mk.injEq,
    Std.ExtTreeMap.mem_toList_iff_getElem?_eq_some, Std.ExtTreeSet.mem_toList]
  constructor
  · rintro ⟨_, ids, found, _, member, rfl, rfl⟩
    rwa [found, Option.getD_some]
  · intro member
    cases found : index.postings[folded]? with
    | none => simp [found] at member
    | some ids =>
      rw [found, Option.getD_some] at member
      exact ⟨folded, ids, found, id, member, rfl, rfl⟩

theorem length_filings :
    index.filings.length = index.postings.toList.foldr (fun p n => p.2.size + n) 0 := by
  rw [filings]
  induction index.postings.toList with
  | nil => rfl
  | cons p rest ih =>
    rw [List.flatMap_cons, List.length_append, List.length_map, Std.ExtTreeSet.length_toList, ih]
    rfl

theorem nodup_filings : index.filings.Nodup := by
  refine nodup_flatMap_pairs ?_ fun (ids : ItemSet) => nodup_toList ids
  rw [Std.ExtTreeMap.map_fst_toList_eq_keys]
  exact Std.ExtTreeMap.nodup_keys

theorem WellFormed.totals (wf : index.WellFormed) :
    index.totals.items = index.catalogue.size ∧
      index.totals.tags = index.catalogue.carried.size ∧
      index.totals.associations = index.catalogue.pairs.length := by
  refine ⟨?_, ?_, ?_⟩
  · exact Std.ExtTreeMap.size_map.symm
  · have tags : index.postings.keys.length = index.catalogue.carried.size := by
      refine Catalogue.size_carried Std.ExtTreeMap.nodup_keys fun folded => ?_
      rw [Std.ExtTreeMap.mem_keys, wf.tidy.mem_postings]
      exact exists_congr fun id => wf.filed
    rwa [Std.ExtTreeMap.length_keys] at tags
  · have pairs : (index.filings.map Prod.swap).length = index.catalogue.pairs.length := by
      refine Catalogue.length_pairs (nodup_filings.map Prod.swap_injective) fun id folded => ?_
      have swapped : (folded, id).swap ∈ index.filings.map Prod.swap ↔
          (folded, id) ∈ index.filings := List.mem_map_of_injective Prod.swap_injective
      rw [← wf.filed, ← mem_filings]
      exact swapped
    rw [← pairs, List.length_map, length_filings]
    rfl

end TagQuery.Index
