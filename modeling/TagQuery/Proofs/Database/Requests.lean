import TagQuery.Proofs.Database.Leftovers

/-! How faithful the answer to a request for items is. What is stored under an identifier shows what the
catalogue lists, its tags in the order of their folded names; but the tags of an item come once for each
batch of the request that asks for it. Main statement: the answer is faithful exactly if no item that
carries a tag is asked for by two batches. -/
namespace TagQuery.Database

variable {db : Database} {id : Text} {ids : List Text} {item : Item}

/-- The tags of an item in the tables are those of its links. -/
theorem perm_tagsOf (consistent : db.tables.Consistent) (id : Text) :
    ((db.tables.tagsOf id).map TagRow.folded).Perm (linkedTags db.tables id) := by
  have rows : ((db.tables.links.filter (·.item == id)).filterMap fun link =>
      (db.tables.tagRow? link.row).map TagRow.folded) = linkedTags db.tables id := by
    rw [linkedTags, List.filterMap_eq_map_iff_forall_eq_some]
    intro link member
    obtain ⟨-, tag, among, same⟩ := consistent.linked link (List.mem_of_mem_filter member)
    rw [foldedOf, ← same, consistent.tagRow?.mpr ⟨among, rfl⟩]
    rfl
  rw [← rows, ← List.map_filterMap]
  exact (List.mergeSort_perm _ _).map _

/-- The tags of a stored item in the order of their folded names are the listed ones. -/
theorem folded_tagsOf (consistent : db.tables.Consistent) {listing : Listing}
    (listed : db.catalogue[id]? = some listing) :
    (db.tables.tagsOf id).map TagRow.folded = listing.tags.toList := by
  have same := (perm_tagsOf consistent id).trans (perm_linkedTags consistent id)
  rw [listed, Option.map_some, Option.getD_some] at same
  have sorted : ((db.tables.tagsOf id).map TagRow.folded).Pairwise fun a b => (compare a b).isLE := by
    apply List.pairwise_map.mpr
    apply List.pairwise_mergeSort
    · exact fun a b c => Std.TransCmp.isLE_trans
    · intro a b
      have swap : compare b.folded a.folded = (compare a.folded b.folded).swap :=
        Std.OrientedCmp.eq_swap
      rw [swap]
      cases compare a.folded b.folded <;> rfl
  have ordered : listing.tags.toList.Pairwise fun a b => (compare a b).isLE :=
    Std.ExtTreeSet.ordered_toList.imp fun less => by rw [less]; rfl
  refine same.eq_of_pairwise (fun a b _ _ less more => ?_) sorted ordered
  exact Std.LawfulEqCmp.eq_of_compare (Std.OrientedCmp.isLE_antisymm less more)

/-- An item shows what is listed: its location, and its tags in the order of their folded names. -/
def Shows (item : Item) (listing : Listing) : Prop :=
  item.location = listing.location ∧ item.tags.map Tag.fold = listing.tags.toList

/-- A stored item shows what is listed. -/
theorem shows_of_item? (consistent : db.tables.Consistent) (stored : db.tables.item? id = some item) :
    ∃ listing, db.catalogue[id]? = some listing ∧ Shows item listing := by
  obtain ⟨location, found, rfl⟩ := Option.map_eq_some_iff.mp stored
  have listed : db.catalogue[id]? = _ := getElem?_catalogue
  rw [found, Option.map_some] at listed
  refine ⟨_, listed, rfl, ?_⟩
  rw [← folded_tagsOf consistent listed, List.map_map]
  apply List.map_congr_left
  intro tag member
  rw [Tables.tagsOf, List.mem_mergeSort, List.mem_filterMap] at member
  obtain ⟨link, -, row⟩ := member
  exact (consistent.folds tag (consistent.tagRow?.mp row).1).1.symm

theorem exists_item?_of_listed {listing : Listing} (listed : db.catalogue[id]? = some listing) :
    ∃ item, db.tables.item? id = some item := by
  rw [getElem?_catalogue, Option.map_eq_some_iff] at listed
  obtain ⟨location, found, -⟩ := listed
  exact ⟨_, congrArg (Option.map _) found⟩

/-- A faithful answer to a request: each stored item once, where it is first asked for, and it says what
is listed. -/
structure Faithful (db : Database) (ids : List Text) (answer : List Item) : Prop where
  ids : answer.map Item.id = ids.eraseDups.filter db.catalogue.contains
  shown : ∀ item ∈ answer, ∃ listing, db.catalogue[item.id]? = some listing ∧ Shows item listing

/-- Tags that come several times are not what is listed, unless there are none. -/
theorem shows_repeated_iff {listing : Listing} (shown : Shows item listing) {times : Nat}
    (some_times : 0 < times) : Shows (Tables.repeated times item) listing ↔
      (listing.tags.isEmpty = false → times ≤ 1) := by
  obtain ⟨location, tags⟩ := shown
  have tagsRepeated : (Tables.repeated times item).tags.map Tag.fold =
      (List.replicate times listing.tags.toList).flatten := by
    rw [Tables.repeated, List.map_flatten, List.map_replicate, tags]
  have empty : listing.tags.toList = [] ↔ listing.tags.isEmpty = true := by
    rw [← Std.ExtTreeSet.isEmpty_toList, List.isEmpty_iff]
  rw [Shows, tagsRepeated]
  constructor
  · rintro ⟨-, same⟩ carries
    have lengths := congrArg List.length same
    rw [List.length_flatten, List.map_replicate, List.sum_replicate_nat] at lengths
    have some_tags : 0 < listing.tags.toList.length := by
      apply List.length_pos_iff.mpr
      rw [ne_eq, empty, carries]
      exact Bool.false_ne_true
    apply Nat.le_of_mul_le_mul_right _ some_tags
    exact Nat.le_of_eq (by rw [lengths, Nat.one_mul])
  · intro once
    refine ⟨location, ?_⟩
    cases carries : listing.tags.isEmpty with
    | true => rw [empty.mpr carries, List.flatten_replicate_nil]
    | false =>
      obtain rfl : times = 1 := Nat.le_antisymm (once carries) some_times
      rw [List.replicate_one, List.flatten_singleton]

variable {times : Text → Nat}

def answerWith (db : Database) (times : Text → Nat) (ids : List Text) : List Item :=
  ids.eraseDups.filterMap fun id => (db.tables.item? id).map (Tables.repeated (times id))

theorem map_id_answerWith (db : Database) (times : Text → Nat) (ids : List Text) :
    (db.answerWith times ids).map Item.id = ids.eraseDups.filter db.catalogue.contains := by
  rw [answerWith, List.map_filterMap, ← List.filterMap_eq_filter]
  apply List.filterMap_congr
  intro id _
  have listed : db.catalogue.contains id = (db.tables.item? id).isSome := by
    rw [Std.ExtTreeMap.contains_eq_isSome_getElem?, getElem?_catalogue, Option.isSome_map,
      Tables.item?, Option.isSome_map]
  rw [Option.guard, listed]
  cases stored : db.tables.item? id with
  | none => rfl
  | some item => simp [Tables.repeated, Tables.id_of_item? stored]

theorem mem_answerWith :
    item ∈ db.answerWith times ids ↔ ∃ id ∈ ids, ∃ stored, db.tables.item? id = some stored ∧
      Tables.repeated (times id) stored = item := by
  simp only [answerWith, List.mem_filterMap, List.mem_eraseDups, Option.map_eq_some_iff]

/-- Such an answer is faithful if no item that carries a tag has its tags twice. -/
theorem faithful_answerWith_iff (consistent : db.tables.Consistent)
    (some_times : ∀ id ∈ ids, 0 < times id) : db.Faithful ids (db.answerWith times ids) ↔
      ∀ id ∈ ids, (∃ folded, db.catalogue.Lists id folded) → times id ≤ 1 := by
  constructor
  · rintro faithful id asked ⟨folded, listing, listed, carries⟩
    obtain ⟨item, stored⟩ := exists_item?_of_listed listed
    obtain ⟨_, same, shows⟩ := shows_of_item? consistent stored
    rw [listed] at same
    cases same
    obtain ⟨_, same, shown⟩ := faithful.shown _ (mem_answerWith.mpr ⟨id, asked, item, stored, rfl⟩)
    change db.catalogue[item.id]? = _ at same
    rw [Tables.id_of_item? stored, listed] at same
    cases same
    exact (shows_repeated_iff shows (some_times id asked)).mp shown
      (ItemSet.exists_mem_iff.mp ⟨folded, carries⟩)
  · intro once
    refine ⟨map_id_answerWith db times ids, fun item member => ?_⟩
    obtain ⟨id, asked, item, stored, rfl⟩ := mem_answerWith.mp member
    obtain ⟨listing, listed, shows⟩ := shows_of_item? consistent stored
    refine ⟨listing, ?_, (shows_repeated_iff shows (some_times id asked)).mpr fun carries => ?_⟩
    · change db.catalogue[item.id]? = _
      rw [Tables.id_of_item? stored, listed]
    · obtain ⟨folded, member⟩ := ItemSet.exists_mem_iff.mpr carries
      exact once id asked ⟨folded, listing, listed, member⟩

/-- A request is answered with each stored item once, where it is first asked for, and with its tags once
for each batch that asks for it. So the answer is faithful exactly if no item that carries a tag is asked
for by two batches; it is so for a request that is one batch, or that repeats nothing. -/
theorem find_faithful_iff (reachable : db.Reachable) (ids : List Text) :
    db.Faithful ids (ids.eraseDups.filterMap db.tables.item?) ∧
    db.tables.find ids = db.answerWith (Tables.timesAsked ids) ids ∧
    (db.Faithful ids (db.tables.find ids) ↔
      ∀ id ∈ ids, (∃ folded, db.catalogue.Lists id folded) → Tables.timesAsked ids id ≤ 1) ∧
    (ids.length ≤ Tables.idsAtOnce ∨ ids.Nodup → db.Faithful ids (db.tables.find ids)) := by
  have consistent := reachable.consistent
  have answer : db.tables.find ids = db.answerWith (Tables.timesAsked ids) ids :=
    Tables.find_eq db.tables ids
  have asked : ∀ id ∈ ids, 0 < Tables.timesAsked ids id := fun id => Tables.timesAsked_pos
  have faithful_iff := faithful_answerWith_iff consistent asked
  rw [← answer] at faithful_iff
  refine ⟨?_, answer, faithful_iff, fun easy => faithful_iff.mpr fun id _ _ => ?_⟩
  · have once : db.answerWith (fun _ => 1) ids = ids.eraseDups.filterMap db.tables.item? := by
      unfold answerWith
      apply List.filterMap_congr
      intro id _
      cases db.tables.item? id <;> simp
    rw [← once]
    apply (faithful_answerWith_iff consistent fun _ _ => Nat.one_pos).mpr
    exact fun _ _ _ => Nat.le_refl 1
  · rcases easy with few | once
    · exact Tables.timesAsked_le_one few id
    · exact Nat.le_trans (Tables.timesAsked_le_count ids id) (List.nodup_iff_count_le_one.mp once id)

/-- An item that is asked for five hundred times and once more is answered with its tag twice. -/
theorem find_unfaithful_of_repeated :
    let db : Database := Database.insert ⟨true, {}⟩ ⟨"1".toList, "/a".toList, ["cat".toList]⟩
    let ids := List.replicate 501 "1".toList
    db.Reachable ∧ (db.tables.find ids).map Item.tags = [["cat".toList, "cat".toList]] ∧
      ¬ db.Faithful ids (db.tables.find ids) := by
  intro db ids
  have answer : db.tables.find ids = [⟨"1".toList, "/a".toList, ["cat".toList, "cat".toList]⟩] := by
    decide +kernel
  rw [answer]
  refine ⟨.after (.empty true) (.insert _), rfl, fun faithful => ?_⟩
  obtain ⟨listing, -, -, tags⟩ := faithful.shown _ List.mem_cons_self
  have once := nodup_toList listing.tags
  rw [← tags] at once
  revert once
  decide +kernel

/-- One batch asks for an item twice, and for another one and one that is not stored between. -/
theorem find_faithful_of_one_batch :
    let db : Database := Database.insertAll ⟨true, {}⟩
      [⟨"1".toList, "/a".toList, ["Cat".toList, " ".toList]⟩, ⟨"2".toList, "/B".toList, []⟩]
    let ids := ["2".toList, "9".toList, "1".toList, "2".toList]
    db.Reachable ∧ db.Faithful ids (db.tables.find ids) ∧
      db.tables.find ids = [⟨"2".toList, "/b".toList, []⟩, ⟨"1".toList, "/a".toList, ["Cat".toList]⟩] := by
  intro db ids
  have reachable : db.Reachable := .after (.empty true) (.insertAll _)
  obtain ⟨-, -, -, faithful⟩ := find_faithful_iff reachable ids
  exact ⟨reachable, faithful (.inl (by decide)), by decide +kernel⟩

end TagQuery.Database
