import TagQuery.Proofs.Catalogue

/-! The postings of an index and its catalogue say the same. Main steps: what filing an item under a
tag and taking it out again do to the posting of each tag, and that nothing is left under a tag when
its last item goes. -/
namespace TagQuery.Index

variable {index : Index} {id other : Text} {name folded : Text}

/-- No posting is empty, and each has a spelling, which folds to its tag. -/
structure Tidy (index : Index) : Prop where
  occupied : ∀ {folded : Text} {ids : ItemSet}, index.postings[folded]? = some ids →
    ids.isEmpty = false
  spelled : ∀ {folded : Text}, folded ∈ index.spellings ↔ folded ∈ index.postings
  folds : ∀ {folded name : Text}, index.spellings[folded]? = some name → Tag.fold name = folded

theorem Tidy.mem_postings (tidy : index.Tidy) :
    folded ∈ index.postings ↔ ∃ id, id ∈ index.posting folded := by
  rw [Std.ExtTreeMap.mem_iff_isSome_getElem?, posting]
  cases found : index.postings[folded]? with
  | none => simp
  | some ids => simpa using ItemSet.exists_mem_iff.mpr (tidy.occupied found)

theorem posting_link : (link id index name).posting folded =
    if Tag.fold name = folded then (index.posting folded).insert id else index.posting folded := by
  simp only [posting, link, Std.ExtTreeMap.getElem?_insert, Std.LawfulEqCmp.compare_eq_iff_eq]
  split
  · next same => rw [same, Option.getD_some]
  · rfl

theorem posting_unlink : (unlink id index name).posting folded =
    if Tag.fold name = folded then (index.posting folded).erase id else index.posting folded := by
  simp only [unlink]
  by_cases same : Tag.fold name = folded
  · rw [if_pos same, same]
    split
    · next empty =>
      rw [Std.ExtTreeSet.isEmpty_iff.mp empty]
      simp [posting]
    · simp [posting]
  · rw [if_neg same]
    split
    · simp [posting, Std.ExtTreeMap.getElem?_erase, same]
    · simp [posting, Std.ExtTreeMap.getElem?_insert, same]

theorem mem_posting_foldl_link {names : List Text} :
    other ∈ (names.foldl (link id) index).posting folded ↔
      other ∈ index.posting folded ∨ other = id ∧ folded ∈ names.map Tag.fold := by
  induction names generalizing index with
  | nil => simp
  | cons name rest ih =>
    rw [List.foldl_cons, ih, posting_link]
    split
    · next same => grind
    · next different => grind

theorem mem_posting_foldl_unlink {names : List Text} :
    other ∈ (names.foldl (unlink id) index).posting folded ↔
      other ∈ index.posting folded ∧ ¬ (other = id ∧ folded ∈ names.map Tag.fold) := by
  induction names generalizing index with
  | nil => simp
  | cons name rest ih =>
    rw [List.foldl_cons, ih, posting_unlink]
    split
    · next same => grind
    · next different => grind

/-- Only the last item of a tag takes its posting and its spelling along. -/
theorem Tidy.unlink (tidy : index.Tidy) (id name : Text) : (index.unlink id name).Tidy := by
  simp only [Index.unlink]
  split
  · constructor
    · intro folded ids found
      rw [Std.ExtTreeMap.getElem?_erase] at found
      split at found
      · cases found
      · exact tidy.occupied found
    · intro folded
      rw [Std.ExtTreeMap.mem_erase, Std.ExtTreeMap.mem_erase, tidy.spelled]
    · intro folded spelling found
      rw [Std.ExtTreeMap.getElem?_erase] at found
      split at found
      · cases found
      · exact tidy.folds found
  · next some_left =>
    rw [Bool.not_eq_true] at some_left
    constructor
    · intro folded ids found
      rw [Std.ExtTreeMap.getElem?_insert] at found
      split at found
      · cases found
        exact some_left
      · exact tidy.occupied found
    · intro folded
      have filed : Tag.fold name ∈ index.postings := by
        obtain ⟨other, left⟩ := ItemSet.exists_mem_iff.mpr some_left
        exact tidy.mem_postings.mpr ⟨other, Std.ExtTreeSet.mem_of_mem_erase left⟩
      rw [Std.ExtTreeMap.mem_insert, tidy.spelled, Std.LawfulEqCmp.compare_eq_iff_eq]
      constructor
      · exact .inr
      · rintro (rfl | already)
        · exact filed
        · exact already
    · exact tidy.folds

theorem Tidy.link (tidy : index.Tidy) (id name : Text) : (link id index name).Tidy := by
  constructor
  · intro folded ids found
    simp only [Index.link, Std.ExtTreeMap.getElem?_insert] at found
    split at found
    · cases found
      exact ItemSet.exists_mem_iff.mp ⟨id, Std.ExtTreeSet.mem_insert_self⟩
    · exact tidy.occupied found
  · intro folded
    simp only [Index.link, Std.ExtTreeMap.mem_insert, Std.ExtTreeMap.mem_insertIfNew, tidy.spelled]
  · intro folded spelling found
    simp only [Index.link, Std.ExtTreeMap.getElem?_insertIfNew] at found
    split at found
    · next new =>
      cases found
      exact Std.LawfulEqCmp.eq_of_compare new.1
    · exact tidy.folds found

theorem Tidy.foldl_unlink (tidy : index.Tidy) (id : Text) (names : List Text) :
    (names.foldl (Index.unlink id) index).Tidy := by
  induction names generalizing index with
  | nil => exact tidy
  | cons name rest ih => exact ih (tidy.unlink id name)

theorem Tidy.foldl_link (tidy : index.Tidy) (id : Text) (names : List Text) :
    (names.foldl (Index.link id) index).Tidy := by
  induction names generalizing index with
  | nil => exact tidy
  | cons name rest ih => exact ih (tidy.link id name)

/-- The index files each item under the tags that its catalogue lists it with, and under no others. -/
structure WellFormed (index : Index) : Prop where
  tidy : index.Tidy
  kept : ∀ {id : Text} {entry : Entry}, index.entries[id]? = some entry →
    ∀ name ∈ entry.tags, (Tag.fold name).isEmpty = false
  filed : ∀ {folded id : Text}, id ∈ index.posting folded ↔ index.catalogue.Lists id folded

theorem wellFormed_empty (foldsCase : Bool) : (empty foldsCase).WellFormed where
  tidy := by constructor <;> simp [empty]
  kept := by simp [empty]
  filed := by
    intro folded id
    rw [catalogue_empty, iff_false_right Catalogue.not_lists_empty]
    simp [empty, posting]

/-- The postings and spellings say whether an index is well formed, beside what it holds. -/
theorem Tidy.congr {tidied : Index} (tidy : index.Tidy)
    (postings : tidied.postings = index.postings)
    (spellings : tidied.spellings = index.spellings) : tidied.Tidy := by
  constructor
  · rw [postings]
    exact tidy.occupied
  · rw [postings, spellings]
    exact tidy.spelled
  · rw [spellings]
    exact tidy.folds

theorem mem_tags_of_lists {entry : Entry} (stored : index.entries[id]? = some entry)
    (listed : index.catalogue.Lists id folded) : folded ∈ entry.tags.map Tag.fold := by
  obtain ⟨listing, found, carried⟩ := listed
  rw [catalogue, Std.ExtTreeMap.getElem?_map, stored] at found
  cases found
  exact (TagSet.mem_ofNames.mp carried).1

theorem WellFormed.erase (wf : index.WellFormed) (id : Text) : (index.erase id).WellFormed := by
  cases stored : index.entries[id]? with
  | none =>
    have same : index.erase id = index := by rw [Index.erase, stored]
    rwa [same]
  | some entry =>
    let dropped : Index := { index with entries := index.entries.erase id }
    have unlinked : index.erase id = entry.tags.foldl (Index.unlink id) dropped := by
      rw [Index.erase, stored]
    constructor
    · rw [unlinked]
      have tidied : dropped.Tidy := wf.tidy.congr rfl rfl
      exact tidied.foldl_unlink id entry.tags
    · intro other otherEntry found
      rw [entries_erase, Std.ExtTreeMap.getElem?_erase] at found
      split at found
      · cases found
      · exact wf.kept found
    · intro folded other
      -- The posting of a tag that the item was not listed with does not change: the item was not in it.
      have before : other ∈ dropped.posting folded ↔ index.catalogue.Lists other folded := wf.filed
      rw [catalogue_erase, Catalogue.lists_erase, unlinked, mem_posting_foldl_unlink, before]
      constructor
      · rintro ⟨listed, kept⟩
        refine ⟨?_, listed⟩
        rintro rfl
        exact kept ⟨rfl, mem_tags_of_lists stored listed⟩
      · rintro ⟨different, listed⟩
        exact ⟨listed, fun h => different h.1⟩

theorem WellFormed.put (wf : index.WellFormed) (item : Item) : (index.put item).WellFormed := by
  have cleared := wf.erase item.id
  constructor
  · exact (cleared.tidy.foldl_link item.id (keptTags item)).congr rfl rfl
  · intro other otherEntry found
    simp only [Index.put, entries_foldl_link, Std.ExtTreeMap.getElem?_insert] at found
    split at found
    · cases found
      intro name member
      simpa [keptTags] using (List.mem_filter.mp member).2
    · exact cleared.kept found
  · intro folded other
    have linked : other ∈ (index.put item).posting folded ↔
        other ∈ (index.erase item.id).posting folded ∨
          other = item.id ∧ folded ∈ (keptTags item).map Tag.fold := mem_posting_foldl_link
    have kept : folded ∈ (keptTags item).map Tag.fold ↔ folded ∈ TagSet.ofNames item.tags := by
      rw [← TagSet.ofNames_filter]
      refine (TagSet.mem_ofNames_of_kept fun name among => ?_).symm
      simpa using (List.mem_filter.mp among).2
    rw [linked, kept, cleared.filed, catalogue_erase, Catalogue.lists_erase, catalogue_put,
      Catalogue.lists_put, or_comm]

theorem WellFormed.foldl_put (wf : index.WellFormed) (items : List Item) :
    (items.foldl Index.put index).WellFormed := by
  induction items generalizing index with
  | nil => exact wf
  | cons item rest ih => exact ih (wf.put item)

/-- Noting that an index was changed changes nothing else. -/
theorem WellFormed.written (wf : index.WellFormed) : { index with written := true }.WellFormed :=
  ⟨wf.tidy.congr rfl rfl, wf.kept, wf.filed⟩

/-- Every change keeps the postings and the catalogue together. -/
theorem WellFormed.after (wf : index.WellFormed) (change : Change) :
    (index.after change).WellFormed := by
  cases change with
  | insert item => exact (wf.put item).written
  | insertAll items => exact (wf.foldl_put items).written
  | remove id =>
    simp only [Index.after, remove]
    split
    · exact (wf.erase id).written
    · exact wf
  | clear => exact wellFormed_empty index.foldsCase

theorem foldsCase_after (index : Index) (change : Change) :
    (index.after change).foldsCase = index.foldsCase := by
  have putAll : ∀ (items : List Item) (index : Index),
      (items.foldl Index.put index).foldsCase = index.foldsCase := by
    intro items
    induction items with
    | nil => exact fun _ => rfl
    | cons item rest ih => exact fun index => (ih _).trans (foldsCase_put index item)
  cases change with
  | insert item => exact foldsCase_put index item
  | insertAll items => exact putAll items index
  | remove id =>
    simp only [Index.after, remove]
    split
    · exact foldsCase_erase index id
    · rfl
  | clear => rfl

/-- An item is removed when the catalogue lists it. -/
theorem remove_fst (index : Index) (id : Text) :
    (index.remove id).1 = index.catalogue.contains id := by
  have listed : index.catalogue.contains id = index.contains id := Std.ExtTreeMap.contains_map
  rw [listed, remove]
  split
  · next stored => exact stored.symm
  · next absent => exact (Bool.eq_false_iff.mpr absent).symm

end TagQuery.Index
