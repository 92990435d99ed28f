import TagQuery.Proofs.Database.Consistency
import TagQuery.Proofs.Database.Pattern

/-! The answers of a database, where it gives any, are read off its catalogue. The scope is the one
whose stems are compared with the stored locations; where a null character cuts one of them short, more
is found than is in scope, but nothing is missed. -/
namespace TagQuery.Database

variable {db : Database} {id name start : Text} {scope : Scope}

def foldScope (db : Database) (scope : Scope) : Scope := { scope with stems := db.stems scope }

theorem stems_of_isEmpty (empty : scope.isEmpty = true) : db.stems scope = [] := by
  unfold stems
  rw [List.isEmpty_iff.mp empty]
  split <;> rfl

theorem isEmpty_foldScope (empty : scope.isEmpty = true) : (db.foldScope scope).isEmpty = true := by
  rw [foldScope, Scope.isEmpty, stems_of_isEmpty empty]
  rfl

theorem within_eq_ok {α : Type} {levels : Nat} {stems : List Text} {answer : Except Fault α} {a : α}
    (h : within levels stems answer = .ok a) : answer = .ok a := by
  unfold within at h
  split at h
  · cases h
  · exact h

theorem asFailureOf_eq_ok {α : Type} {lookup : Lookup} {answer : Except Fault α} {a : α}
    (h : asFailureOf lookup answer = .ok a) : answer = .ok a := by
  cases answer with
  | ok _ => exact h
  | error _ => cases h

theorem map_eq_ok {α β : Type} {f : α → β} {answer : Except Fault α} {b : β}
    (h : answer.map f = .ok b) : ∃ a, answer = .ok a ∧ f a = b := by
  cases answer with
  | ok a => exact ⟨a, rfl, Except.ok.inj h⟩
  | error _ => cases h

theorem bind_eq_ok {α β : Type} {next : α → Except Fault β} {answer : Except Fault α} {b : β}
    (h : answer.bind next = .ok b) : ∃ a, answer = .ok a ∧ next a = .ok b := by
  cases answer with
  | ok a => exact ⟨a, rfl, h⟩
  | error _ => cases h

def covers (db : Database) (scope : Scope) (id : Text) : Bool :=
  db.tables.items[id]?.any scope.contains

theorem covers_iff : db.covers scope id = true ↔ id ∈ db.catalogue.inScope scope := by
  simp only [covers, Catalogue.mem_inScope, getElem?_catalogue]
  cases db.tables.items[id]? <;> simp

/-- Whether an item is stored and the tests for the scope find it. -/
def finds (db : Database) (scope : Scope) (id : Text) : Bool :=
  db.tables.items[id]?.any (indexed (db.stems scope))

theorem finds_of_isEmpty (empty : scope.isEmpty = true) : db.finds scope id = false := by
  unfold finds
  rw [stems_of_isEmpty empty]
  cases db.tables.items[id]? <;> rfl

/-- The tests find what is in scope, and nothing else if the engine reads all of each stem. -/
theorem finds_iff (whole : ∀ stem ∈ db.stems scope, '\x00' ∉ stem) :
    db.finds scope id = true ↔ id ∈ db.catalogue.inScope (db.foldScope scope) := by
  rw [← covers_iff, finds, covers, funext (indexed_eq whole)]
  rfl

theorem finds_of_mem_inScope (inside : id ∈ db.catalogue.inScope (db.foldScope scope)) :
    db.finds scope id = true := by
  rw [← covers_iff, covers, Option.any_eq_true] at inside
  obtain ⟨location, stored, contained⟩ := inside
  obtain ⟨stem, among, begins⟩ := List.any_eq_true.mp contained
  refine (Option.any_eq_true _ _).mpr ⟨location, stored, List.any_eq_true.mpr ⟨stem, among, ?_⟩⟩
  exact like_of_prefix (List.isPrefixOf_iff_prefix.mp begins)

theorem itemPasses_eq_ok {answer : Bool}
    (h : db.itemPasses (beginsWithAny · (db.stems scope)) id = .ok answer) :
    answer = db.finds scope id := by
  unfold itemPasses at h
  unfold finds
  split at h
  · next absent => cases h; rw [absent]; rfl
  · next location stored =>
    rw [stored]
    exact beginsWithAny_eq_ok h

/-- What is selected among some items by their locations is what the tests find. -/
theorem select_itemPasses_eq_ok {ids kept : List Text}
    (h : select (db.itemPasses (beginsWithAny · (db.stems scope))) ids = .ok kept) :
    id ∈ kept ↔ id ∈ ids ∧ db.finds scope id = true := by
  rw [select_eq_ok (fun _ _ => itemPasses_eq_ok) h, List.mem_filter]

theorem mem_withTag_iff {ids : ItemSet} (h : db.withTag name scope = .ok ids) : id ∈ ids ↔
    (∃ tag, db.tables.findTag? (Tag.fold name) = some tag ∧ ⟨id, tag.row⟩ ∈ db.tables.links) ∧
      db.finds scope id = true := by
  unfold withTag at h
  split at h
  · next empty =>
    cases h
    rw [finds_of_isEmpty empty]
    exact iff_of_false Std.ExtTreeSet.not_mem_empty (by simp)
  · have answered := within_eq_ok (asFailureOf_eq_ok h)
    split at answered
    · next unknown =>
      cases answered
      refine iff_of_false Std.ExtTreeSet.not_mem_empty ?_
      rintro ⟨⟨tag, found, -⟩, -⟩
      rw [unknown] at found
      cases found
    · next tag found =>
      obtain ⟨kept, selected, rfl⟩ := map_eq_ok answered
      rw [Std.ExtTreeSet.mem_ofList, List.contains_iff_mem, select_itemPasses_eq_ok selected]
      refine and_congr_left fun _ => ?_
      simp only [found, Option.some.injEq, exists_eq_left', List.mem_map, List.mem_filter, beq_iff_eq]
      constructor
      · rintro ⟨link, ⟨present, same⟩, rfl⟩
        exact same ▸ present
      · exact fun present => ⟨_, ⟨present, rfl⟩, rfl⟩

theorem mem_inScope_iff {ids : ItemSet} (h : db.inScope scope = .ok ids) :
    id ∈ ids ↔ db.finds scope id = true := by
  unfold inScope at h
  split at h
  · next empty =>
    cases h
    rw [finds_of_isEmpty empty]
    exact iff_of_false Std.ExtTreeSet.not_mem_empty (by simp)
  · cases within_eq_ok (asFailureOf_eq_ok h)
    simp only [finds, Std.ExtTreeSet.mem_ofList, List.contains_iff_mem, List.mem_map,
      List.mem_filter, Prod.exists, exists_and_right, exists_eq_right,
      Std.ExtTreeMap.mem_toList_iff_getElem?_eq_some, Option.any_eq_true]

theorem mem_restrict_iff {ids kept : ItemSet} (h : db.restrict ids scope = .ok kept) :
    id ∈ kept ↔ id ∈ ids ∧ db.finds scope id = true := by
  unfold restrict at h
  split at h
  · next nothing =>
    cases h
    refine iff_of_false Std.ExtTreeSet.not_mem_empty ?_
    rintro ⟨member, found⟩
    rcases Bool.or_eq_true_iff.mp nothing with empty | empty
    · rw [finds_of_isEmpty empty] at found
      cases found
    · rw [Std.ExtTreeSet.isEmpty_iff.mp empty] at member
      exact Std.ExtTreeSet.not_mem_empty member
  · obtain ⟨found, selected, rfl⟩ := map_eq_ok (within_eq_ok h)
    rw [Std.ExtTreeSet.mem_ofList, List.contains_iff_mem, select_itemPasses_eq_ok selected,
      Std.ExtTreeSet.mem_toList]

/-- The items that links give a tag carry it. -/
theorem exists_findTag?_iff (consistent : db.tables.Consistent) {folded : Text} :
    (∃ tag, db.tables.findTag? folded = some tag ∧ ⟨id, tag.row⟩ ∈ db.tables.links) ↔
      db.tables.Carries id folded := by
  simp only [consistent.findTag?, Tables.Carries, and_assoc]

section Whole

variable (whole : ∀ stem ∈ db.stems scope, '\x00' ∉ stem)
include whole

theorem withTag_eq_ok (consistent : db.tables.Consistent) {ids : ItemSet}
    (h : db.withTag name scope = .ok ids) :
    ids = db.catalogue.carriers (db.foldScope scope) (Tag.fold name) := by
  refine Std.ExtTreeSet.ext_mem fun id => ?_
  rw [mem_withTag_iff h, exists_findTag?_iff consistent, finds_iff whole, Catalogue.mem_carriers,
    lists_catalogue consistent, and_comm]

theorem inScope_eq_ok {ids : ItemSet} (h : db.inScope scope = .ok ids) :
    ids = db.catalogue.inScope (db.foldScope scope) :=
  Std.ExtTreeSet.ext_mem fun _ => (mem_inScope_iff h).trans (finds_iff whole)

theorem restrict_eq_ok {ids kept : ItemSet} (h : db.restrict ids scope = .ok kept) :
    kept = ids ∩ db.catalogue.inScope (db.foldScope scope) := by
  refine Std.ExtTreeSet.ext_mem fun id => ?_
  rw [mem_restrict_iff h, finds_iff whole, Std.ExtTreeSet.mem_inter_iff]

end Whole

/-- The joined rows are those of the links. -/
theorem mem_joined (consistent : db.tables.Consistent) {r : JoinedRow} :
    r ∈ joined db.tables ↔ ⟨r.item, r.tag.row⟩ ∈ db.tables.links ∧
      db.tables.items[r.item]? = some r.location ∧ r.tag ∈ db.tables.tags := by
  obtain ⟨item, location, tag⟩ := r
  simp only [joined, List.mem_filterMap]
  constructor
  · rintro ⟨⟨_, row⟩, present, h⟩
    split at h
    · next location' tag' stored found =>
      cases h
      obtain ⟨among, rfl⟩ := consistent.tagRow?.mp found
      exact ⟨present, stored, among⟩
    · cases h
  · rintro ⟨present, stored, among⟩
    refine ⟨_, present, ?_⟩
    have found := consistent.tagRow?.mpr ⟨among, rfl⟩
    simp only [stored, found]

/-- The joined rows that are counted: those whose tag and whose location pass the tests. -/
def rowsInScope (db : Database) (stems : List Text) (start : Text) : List JoinedRow :=
  (joined db.tables).filter fun r =>
    like (stemPattern start) r.tag.folded && indexed stems r.location

/-- Whichever way the statement goes through the tables, it counts the same rows. -/
theorem countedRows_eq_ok {stems : List Text} {start : Text} {rows : List JoinedRow}
    (h : db.countedRows stems start = .ok rows) : rows = db.rowsInScope stems start := by
  have byTag : ∀ {some_rows kept : List JoinedRow},
      select (fun r : JoinedRow => beginsWith r.tag.folded start) some_rows = .ok kept →
      kept = some_rows.filter fun r => like (stemPattern start) r.tag.folded :=
    select_eq_ok fun _ _ => beginsWith_eq_ok
  have byLocation : ∀ {some_rows kept : List JoinedRow},
      select (fun r : JoinedRow => beginsWithAny r.location stems) some_rows = .ok kept →
      kept = some_rows.filter fun r => indexed stems r.location :=
    select_eq_ok fun _ _ => beginsWithAny_eq_ok
  unfold countedRows at h
  simp only at h
  -- One case for each plan: the tests come in another order, and some are made twice.
  split at h
  · rw [byTag h, List.filter_filter, rowsInScope]
  · split at h
    · cases h
    · rw [byTag h, List.filter_filter, rowsInScope]
  · obtain ⟨kept, first, second⟩ := bind_eq_ok h
    rw [byTag second, byLocation first, List.filter_filter, rowsInScope]
  · obtain ⟨kept, first, second⟩ := bind_eq_ok h
    rw [byLocation second, byTag first, List.filter_filter, rowsInScope]
    simp only [Bool.and_comm]

theorem mem_countRows {tables : Tables} {rows : List JoinedRow} {count : TagCount} :
    count ∈ countRows tables rows ↔ ∃ tag ∈ tables.tags,
      let items : ItemSet := .ofList ((rows.filter (·.tag.row == tag.row)).map JoinedRow.item)
      items.isEmpty = false ∧ ⟨tag.name, items.size⟩ = count := by
  simp only [countRows, List.mem_filterMap]
  refine exists_congr fun tag => and_congr_right fun _ => ?_
  split
  · next nothing => simp [nothing]
  · next occupied => simp [occupied]

section Counting

variable (consistent : db.tables.Consistent) {tag : TagRow} (among : tag ∈ db.tables.tags)
include consistent among

/-- The items that are counted for the row of a tag. -/
theorem mem_countedItems :
    id ∈ ((db.rowsInScope (db.stems scope) start).filter
        (·.tag.row == tag.row)).map JoinedRow.item ↔
      like (stemPattern start) tag.folded = true ∧ db.finds scope id = true ∧
        ⟨id, tag.row⟩ ∈ db.tables.links := by
  simp only [rowsInScope, List.mem_map, List.mem_filter, mem_joined consistent, Bool.and_eq_true,
    beq_iff_eq]
  constructor
  · rintro ⟨r, ⟨⟨⟨present, stored, amongTags⟩, begins, found⟩, sameRow⟩, rfl⟩
    obtain rfl := consistent.eq_of_row_eq amongTags among sameRow
    refine ⟨begins, ?_, present⟩
    rw [finds, stored]
    exact found
  · rintro ⟨begins, covered, present⟩
    obtain ⟨location, stored, found⟩ := (Option.any_eq_true _ _).mp covered
    exact ⟨⟨id, location, tag⟩, ⟨⟨⟨present, stored, among⟩, begins, found⟩, rfl⟩, rfl⟩

/-- Whether anything is counted for the row. -/
theorem isEmpty_countedItems_iff :
    (Std.ExtTreeSet.ofList (((db.rowsInScope (db.stems scope) start).filter
        (·.tag.row == tag.row)).map JoinedRow.item) compare : ItemSet).isEmpty = false ↔
      ∃ id, like (stemPattern start) tag.folded = true ∧ db.finds scope id = true ∧
        ⟨id, tag.row⟩ ∈ db.tables.links := by
  rw [← ItemSet.exists_mem_iff]
  refine exists_congr fun id => ?_
  rw [Std.ExtTreeSet.mem_ofList, List.contains_iff_mem, mem_countedItems consistent among]

theorem countedItems_eq (whole : ∀ stem ∈ db.stems scope, '\x00' ∉ stem)
    (wholeStart : '\x00' ∉ start) :
    (Std.ExtTreeSet.ofList (((db.rowsInScope (db.stems scope) start).filter
        (·.tag.row == tag.row)).map JoinedRow.item) compare : ItemSet) =
      if start.isPrefixOf tag.folded = true then
        db.catalogue.carriers (db.foldScope scope) tag.folded
      else ∅ := by
  refine Std.ExtTreeSet.ext_mem fun id => ?_
  have carried : ⟨id, tag.row⟩ ∈ db.tables.links ↔ db.tables.Carries id tag.folded := by
    rw [← exists_findTag?_iff consistent, consistent.findTag?.mpr ⟨among, rfl⟩]
    simp
  rw [Std.ExtTreeSet.mem_ofList, List.contains_iff_mem, mem_countedItems consistent among,
    like_stemPattern wholeStart, finds_iff whole, carried, ← lists_catalogue consistent,
    ← Catalogue.mem_carriers]
  split
  · next begins => exact and_iff_right begins
  · next otherwise => exact iff_of_false (fun h => otherwise h.1) Std.ExtTreeSet.not_mem_empty

end Counting

theorem tagCounts_eq_ok (consistent : db.tables.Consistent)
    (whole : ∀ stem ∈ db.stems scope, '\x00' ∉ stem) (wholeStart : '\x00' ∉ Tag.fold start)
    {counts : List TagCount} (h : db.tagCounts scope start 0 = .ok counts) :
    db.catalogue.Counts (db.foldScope scope) (Tag.fold start) counts := by
  unfold tagCounts at h
  split at h
  · next empty =>
    cases h
    exact .of_isEmpty (isEmpty_foldScope empty)
  · obtain ⟨rows, counted, rfl⟩ := map_eq_ok (within_eq_ok h)
    rw [countedRows_eq_ok counted]
    refine (Catalogue.Counts.of_filterMap TagRow.folded consistent.names ?_ ?_).rank
    · intro id folded member
      have listed := (Catalogue.mem_carriers.mp member).2
      obtain ⟨tag, among, same, -⟩ := (lists_catalogue consistent).mp listed
      exact ⟨tag, among, same⟩
    · intro tag among
      have folds := (consistent.folds tag among).1
      simp only [countedItems_eq consistent among whole wholeStart, Catalogue.Counts.expected]
      by_cases begins : (Tag.fold start).isPrefixOf tag.folded = true
      · cases nothing : (db.catalogue.carriers (db.foldScope scope) tag.folded).isEmpty with
        | true => simp [begins, nothing]
        | false => simp [begins, nothing, ← folds]
      · simp [begins]

def foldedOf (tables : Tables) (row : Nat) : Text :=
  ((tables.tagRow? row).map TagRow.folded).getD []

theorem foldedOf_row (consistent : db.tables.Consistent) {tag : TagRow}
    (among : tag ∈ db.tables.tags) : foldedOf db.tables tag.row = tag.folded := by
  rw [foldedOf, consistent.tagRow?.mpr ⟨among, rfl⟩, Option.map_some, Option.getD_some]

/-- The rows of links have folded names of their own. -/
theorem foldedOf_injective (consistent : db.tables.Consistent) {link link' : Link}
    (present : link ∈ db.tables.links) (present' : link' ∈ db.tables.links)
    (same : foldedOf db.tables link.row = foldedOf db.tables link'.row) : link.row = link'.row := by
  obtain ⟨-, tag, among, row⟩ := consistent.linked link present
  obtain ⟨-, tag', among', row'⟩ := consistent.linked link' present'
  rw [← row, ← row', foldedOf_row consistent among, foldedOf_row consistent among'] at same
  rw [← row, ← row', consistent.eq_of_folded_eq among among' same]

theorem carries_iff (consistent : db.tables.Consistent) {folded : Text} :
    db.tables.Carries id folded ↔
      ∃ link ∈ db.tables.links, link.item = id ∧ foldedOf db.tables link.row = folded := by
  constructor
  · rintro ⟨tag, among, rfl, present⟩
    exact ⟨_, present, rfl, foldedOf_row consistent among⟩
  · rintro ⟨link, present, rfl, rfl⟩
    obtain ⟨-, tag, among, row⟩ := consistent.linked link present
    refine ⟨tag, among, ?_, row ▸ present⟩
    rw [← row, foldedOf_row consistent among]

theorem nodup_eraseDups (rows : List Nat) : rows.eraseDups.Nodup := by
  induction h : rows.length using Nat.strongRecOn generalizing rows with
  | _ n ih =>
    cases rows with
    | nil => exact List.nodup_nil
    | cons a rest =>
      rw [List.eraseDups_cons, List.nodup_cons]
      refine ⟨by simp, ih _ ?_ _ rfl⟩
      have shorter := List.length_filter_le (fun b => !b == a) rest
      rw [List.length_cons] at h
      omega

/-- The rows that links name are as many as the tags that are carried. -/
theorem length_linkedRows (consistent : db.tables.Consistent) :
    (db.tables.links.map Link.row).eraseDups.length = db.catalogue.carried.size := by
  have named : ((db.tables.links.map Link.row).eraseDups.map (foldedOf db.tables)).length =
      db.catalogue.carried.size := by
    refine Catalogue.size_carried ((nodup_eraseDups _).map_on ?_) fun folded => ?_
    · intro row member row' member' same
      rw [List.mem_eraseDups, List.mem_map] at member member'
      obtain ⟨link, present, rfl⟩ := member
      obtain ⟨link', present', rfl⟩ := member'
      exact foldedOf_injective consistent present present' same
    · simp only [lists_catalogue consistent, carries_iff consistent, List.mem_map,
        List.mem_eraseDups]
      constructor
      · rintro ⟨_, ⟨link, present, rfl⟩, same⟩
        exact ⟨link.item, link, present, rfl, same⟩
      · rintro ⟨_, link, present, -, same⟩
        exact ⟨link.row, ⟨link, present, rfl⟩, same⟩
  rwa [List.length_map] at named

/-- There is one link for each item with each of its tags. -/
theorem length_links (consistent : db.tables.Consistent) :
    db.tables.links.length = db.catalogue.pairs.length := by
  have named : (db.tables.links.map fun link => (link.item, foldedOf db.tables link.row)).length =
      db.catalogue.pairs.length := by
    refine Catalogue.length_pairs (consistent.once.map_on ?_) fun id folded => ?_
    · rintro ⟨item, row⟩ present ⟨item', row'⟩ present' same
      obtain ⟨rfl, sameFolded⟩ := Prod.mk.inj same
      rw [Link.mk.injEq]
      exact ⟨rfl, foldedOf_injective consistent present present' sameFolded⟩
    · simp only [lists_catalogue consistent, carries_iff consistent, List.mem_map, Prod.mk.injEq]
  rwa [List.length_map] at named

theorem totals_eq (consistent : db.tables.Consistent) :
    db.totals.items = db.catalogue.size ∧
      db.totals.tags = db.catalogue.carried.size ∧
      db.totals.associations = db.catalogue.pairs.length :=
  ⟨Std.ExtTreeMap.size_map.symm, length_linkedRows consistent, length_links consistent⟩

end TagQuery.Database
