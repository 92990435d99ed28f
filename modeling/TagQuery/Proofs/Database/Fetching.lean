import TagQuery.Proofs.Database.Consistency

/-! What is answered when stored items are asked for by their identifiers. The identifiers are asked for
in batches, and what the batches answer is gathered by identifier, so an item is answered with its tags
once for each batch that asks for it. Identifiers that are not repeated are in one batch each. -/
namespace TagQuery.Database.Tables

variable {tables : Tables} {ids : List Text} {id : Text} {item : Item}

/-- So many batches of a size are so many times as many identifiers. -/
theorem flatten_batches_of_count (size count : Nat) (ids : List Text) :
    ((List.range count).map fun k => (ids.drop (k * size)).take size).flatten =
      ids.take (count * size) := by
  induction count with
  | zero => simp
  | succ count ih =>
    rw [List.range_succ, List.map_append, List.flatten_append, ih, Nat.succ_mul, List.take_add]
    simp

theorem flatten_batches (ids : List Text) : (batches ids).flatten = ids := by
  have enough : ids.length ≤ (ids.length + idsAtOnce - 1) / idsAtOnce * idsAtOnce := by
    unfold idsAtOnce
    omega
  rw [batches, flatten_batches_of_count, List.take_of_length_le enough]

theorem mem_firstOccurrences : id ∈ firstOccurrences ids ↔ id ∈ ids := by
  induction ids with
  | nil => rfl
  | cons first rest ih =>
    simp only [firstOccurrences, List.mem_cons, List.mem_filter, ih, bne_iff_ne]
    by_cases same : id = first <;> simp [same]

theorem nodup_firstOccurrences (ids : List Text) : (firstOccurrences ids).Nodup := by
  induction ids with
  | nil => exact List.nodup_nil
  | cons first rest ih =>
    apply List.nodup_cons.mpr
    exact ⟨by simp, ih.filter _⟩

theorem firstOccurrences_eq_self (once : ids.Nodup) : firstOccurrences ids = ids := by
  induction ids with
  | nil => rfl
  | cons id rest ih =>
    obtain ⟨fresh, once⟩ := List.nodup_cons.mp once
    rw [firstOccurrences, ih once, List.filter_eq_self.mpr]
    intro other member
    exact bne_iff_ne.mpr fun same => fresh (same ▸ member)

theorem filter_firstOccurrences (test : Text → Bool) (ids : List Text) :
    (firstOccurrences ids).filter test = firstOccurrences (ids.filter test) := by
  induction ids with
  | nil => rfl
  | cons first rest ih =>
    cases passes : test first with
    | true => simp only [firstOccurrences, List.filter_cons, passes, if_true, ← ih, List.filter_comm]
    | false =>
      simp only [firstOccurrences, List.filter_cons, passes, Bool.false_eq_true, if_false, ← ih]
      rw [List.filter_filter]
      apply List.filter_congr
      intro other _
      by_cases same : other = first <;> simp [same, passes]

theorem firstOccurrences_eq_eraseDups (ids : List Text) : firstOccurrences ids = ids.eraseDups := by
  induction h : ids.length using Nat.strongRecOn generalizing ids with
  | _ n ih =>
    cases ids with
    | nil => rfl
    | cons first rest =>
      have shorter := List.length_filter_le (fun other => !other == first) rest
      rw [List.length_cons] at h
      rw [firstOccurrences, filter_firstOccurrences, List.eraseDups_cons, ← ih _ ?_ _ rfl]
      · rfl
      · omega

/-- How many of the batches ask for an identifier. -/
def timesAsked (ids : List Text) (id : Text) : Nat := (batches ids).countP (·.contains id)

/-- Each batch that asks for an identifier asks for it once. -/
theorem count_flatMap_firstOccurrences (parts : List (List Text)) (id : Text) :
    (parts.flatMap firstOccurrences).count id = parts.countP (·.contains id) := by
  induction parts with
  | nil => rfl
  | cons batch rest ih =>
    rw [List.flatMap_cons, List.count_append, ih, List.countP_cons, Nat.add_comm]
    congr 1
    rw [(nodup_firstOccurrences batch).count]
    simp only [mem_firstOccurrences, List.contains_iff_mem]

theorem timesAsked_pos (member : id ∈ ids) : 0 < timesAsked ids id := by
  rw [← flatten_batches ids, List.mem_flatten] at member
  obtain ⟨batch, among, asked⟩ := member
  exact List.countP_pos_iff.mpr ⟨batch, among, List.contains_iff_mem.mpr asked⟩

/-- No more batches ask for an identifier than it stands in the list. -/
theorem timesAsked_le_count (ids : List Text) (id : Text) : timesAsked ids id ≤ ids.count id := by
  have parts : ∀ parts : List (List Text), parts.countP (·.contains id) ≤ parts.flatten.count id := by
    intro parts
    induction parts with
    | nil => exact Nat.le_refl _
    | cons batch rest ih =>
      rw [List.countP_cons, List.flatten_cons, List.count_append]
      split
      · next asked =>
        have here := List.count_pos_iff.mpr (List.contains_iff_mem.mp asked)
        omega
      · omega
  have whole := parts (batches ids)
  rwa [flatten_batches] at whole

/-- Few identifiers are one batch. -/
theorem timesAsked_le_one (few : ids.length ≤ idsAtOnce) (id : Text) : timesAsked ids id ≤ 1 := by
  have batch : (batches ids).length ≤ 1 := by
    rw [batches, List.length_map, List.length_range]
    unfold idsAtOnce at few ⊢
    omega
  exact Nat.le_trans List.countP_le_length batch

theorem id_of_item? (found : tables.item? id = some item) : item.id = id := by
  obtain ⟨location, -, rfl⟩ := Option.map_eq_some_iff.mp found
  rfl

/-- What is answered for one identifier, once by each batch that asks for it. -/
theorem filter_answered (tables : Tables) (ids : List Text) (id : Text) :
    (tables.answered ids).filter (·.id == id) =
      (List.replicate (timesAsked ids id) id).filterMap tables.item? := by
  rw [timesAsked, ← count_flatMap_firstOccurrences, ← List.filter_beq, answered,
    List.filter_filterMap, List.filterMap_filter]
  apply List.filterMap_congr
  intro other _
  cases stored : tables.item? other with
  | none => simp
  | some item => simp [Option.filter_some, id_of_item? stored]

/-- Items with one identifier as one item: the first, with the tags of all. -/
def merged : List Item → Option Item
  | [] => none
  | first :: rest => some { first with tags := first.tags ++ rest.flatMap Item.tags }

/-- What is kept under an identifier. -/
theorem getElem?_foldl_gather (items : List Item) (id : Text) :
    (items.foldl gather ∅)[id]? = merged (items.filter (·.id == id)) := by
  induction items using List.reverseRecOn generalizing id with
  | nil => exact Std.ExtTreeMap.getElem?_empty
  | append_singleton items item ih =>
    rw [List.foldl_append, List.foldl_cons, List.foldl_nil, gather, ih, List.filter_append]
    by_cases same : item.id = id
    · subst same
      cases items.filter (·.id == item.id) with
      | nil => simp [merged]
      | cons first rest => simp [merged]
    · cases merged (items.filter (·.id == item.id)) with
      | none => simp [same, Std.ExtTreeMap.getElem?_insert, ih]
      | some before => simp [same, Std.ExtTreeMap.getElem?_insert, ih]

def repeated (times : Nat) (item : Item) : Item :=
  { item with tags := (List.replicate times item.tags).flatten }

@[simp] theorem repeated_one (item : Item) : repeated 1 item = item := by simp [repeated]

/-- An item is answered with its tags once for each batch that asks for it. -/
theorem find_eq (tables : Tables) (ids : List Text) :
    tables.find ids = ids.eraseDups.filterMap fun id =>
      (tables.item? id).map (repeated (timesAsked ids id)) := by
  unfold find
  rw [firstOccurrences_eq_eraseDups]
  apply List.filterMap_congr
  intro id member
  obtain ⟨times, asked⟩ : ∃ times, timesAsked ids id = times + 1 :=
    Nat.exists_eq_succ_of_ne_zero (Nat.ne_of_gt (timesAsked_pos (List.mem_eraseDups.mp member)))
  rw [getElem?_foldl_gather, filter_answered, asked, List.filterMap_replicate]
  cases tables.item? id with
  | none => rfl
  | some item =>
    simp only [List.replicate_succ, merged, repeated, Option.map_some, List.flatten_cons,
      List.flatMap_replicate]

/-- Identifiers that are not repeated are answered with what is stored under them. -/
theorem find_eq_filterMap (once : ids.Nodup) : tables.find ids = ids.filterMap tables.item? := by
  rw [find_eq, ← firstOccurrences_eq_eraseDups, firstOccurrences_eq_self once]
  apply List.filterMap_congr
  intro id member
  have asked : timesAsked ids id = 1 := by
    have most := timesAsked_le_count ids id
    rw [List.count_eq_one_of_mem once member] at most
    exact Nat.le_antisymm most (timesAsked_pos member)
  rw [asked]
  cases tables.item? id <;> simp

/-- The tags that an item is answered with are those of its links, spelled as in their rows. -/
theorem exists_link_of_mem_find (found : item ∈ tables.find ids) {name : Text}
    (member : name ∈ item.tags) :
    ∃ tag ∈ tables.tags, tag.name = name ∧ ⟨item.id, tag.row⟩ ∈ tables.links := by
  rw [find_eq, List.mem_filterMap] at found
  obtain ⟨id, -, kept⟩ := found
  obtain ⟨stored, present, rfl⟩ := Option.map_eq_some_iff.mp kept
  obtain ⟨location, -, rfl⟩ := Option.map_eq_some_iff.mp present
  obtain ⟨names, among, member⟩ := List.mem_flatten.mp member
  obtain rfl := List.eq_of_mem_replicate among
  obtain ⟨tag, among, rfl⟩ := List.mem_map.mp member
  rw [tagsOf, List.mem_mergeSort] at among
  obtain ⟨⟨owner, row⟩, linked, found⟩ := List.mem_filterMap.mp among
  obtain ⟨link, own⟩ := List.mem_filter.mp linked
  obtain rfl : owner = id := eq_of_beq own
  obtain rfl : tag.row = row := by simpa using List.find?_some found
  exact ⟨tag, List.mem_of_find?_eq_some found, rfl, link⟩

end TagQuery.Database.Tables
