import TagQuery.Proofs.Command.Imports
import TagQuery.Proofs.Database.Fetching
import TagQuery.Proofs.Store.Agreement
import TagQuery.Proofs.Text.ByteOrder

/-! What a search prints after imports: the locations of the stored items in scope of which the query is
true. Main steps: an evaluation that reports no failure has found these items, a set is listed in the
order of its identifiers, and what is fetched for the first of them is what is stored. Of a directory with a
null character in its name the database engine reads only part, and then more may be printed. -/
namespace TagQuery

/-- What is listed in scope and makes a query true, in the order of the identifiers. -/
def Catalogue.matching (catalogue : Catalogue) (scope : Scope) (q : Query) :
    List (Text × Listing) :=
  catalogue.toList.filter fun p =>
    scope.contains p.2.location && q.holds fun name => p.2.tags.contains (Tag.fold name)

namespace Catalogue

variable {catalogue : Catalogue} {scope : Scope} {q : Query} {id : Text} {listing : Listing}

theorem mem_matching : (id, listing) ∈ catalogue.matching scope q ↔
    catalogue[id]? = some listing ∧ scope.contains listing.location = true ∧
      (q.holds fun name => listing.tags.contains (Tag.fold name)) = true := by
  simp only [matching, List.mem_filter, Std.ExtTreeMap.mem_toList_iff_getElem?_eq_some,
    Bool.and_eq_true]

theorem pairwise_matching (catalogue : Catalogue) (scope : Scope) (q : Query) :
    ((catalogue.matching scope q).map Prod.fst).Pairwise fun a b => compare a b = .lt :=
  List.pairwise_map.mpr (Std.ExtTreeMap.ordered_keys_toList.sublist List.filter_sublist)

/-- The items of which the query is true are listed in the order of their identifiers. -/
theorem toList_matching_truth (catalogue : Catalogue) (scope : Scope) (q : Query) :
    ((catalogue.truth scope).matching q).toList = (catalogue.matching scope q).map Prod.fst := by
  have ordered := Std.ExtTreeSet.ordered_toList (t := (catalogue.truth scope).matching q)
  have mem (id : Text) : id ∈ ((catalogue.truth scope).matching q).toList ↔
      id ∈ (catalogue.matching scope q).map Prod.fst := by
    simp only [Std.ExtTreeSet.mem_toList, Truth.mem_matching, List.mem_map, Prod.exists,
      exists_and_right, exists_eq_right, mem_matching]
    change id ∈ catalogue.inScope scope ∧ _ ↔ _
    rw [mem_inScope]
    constructor
    · rintro ⟨⟨listing, listed, contained⟩, holds⟩
      refine ⟨listing, listed, contained, ?_⟩
      rwa [Query.holds_congr fun name _ => carries_truth listed contained name] at holds
    · rintro ⟨listing, listed, contained, holds⟩
      refine ⟨⟨listing, listed, contained⟩, ?_⟩
      rwa [Query.holds_congr fun name _ => carries_truth listed contained name]
  exact Text.eq_of_ordered ordered (pairwise_matching catalogue scope q) mem

end Catalogue

namespace Command

variable {db : Database} {scope : Scope} {q : Query} {found : Evaluation}
  {limit microseconds shown : Nat}

/-- The outcome of a search that has found something: it succeeds and prints the locations of the first
items; it reports how many there are in all, and remarks that some are not shown only if this is so. Log
lines, which go to the standard error too unless logging is off, are no part of an outcome. -/
structure Prints (matching : List (Text × Listing)) (shown : Nat) (found : Evaluation)
    (microseconds : Nat) (outcome : Outcome) : Prop where
  code : outcome.code = 0
  out : outcome.out = lines ((matching.take shown).map fun p => p.2.location)
  counted : found.items.size = matching.length
  err : outcome.err = lines ([[], summaryLine found microseconds] ++
    if shown < matching.length then
      ["Showing the first ".toList ++ Text.decimal shown ++ "; use --limit 0 to show all.".toList]
    else [])

/-- How many of some items are shown: all of them for a limit of 0. -/
def shownCount (limit count : Nat) : Nat := if limit = 0 then count else min limit count

theorem shownCount_le (limit count : Nat) : shownCount limit count ≤ count := by
  unfold shownCount
  split
  · exact Nat.le_refl _
  · exact Nat.min_le_right _ _

theorem shownIds_eq {matching : List (Text × Listing)}
    (items : found.items.toList = matching.map Prod.fst) :
    shownIds limit found =
      (matching.take (shownCount limit matching.length)).map Prod.fst := by
  unfold shownIds shownCount
  rw [items]
  split
  · rw [List.take_length]
  · rw [← List.take_eq_take_min, List.map_take]

/-- What is fetched for listed items is what they are listed with. -/
theorem map_location_find {listed : List (Text × Listing)} (once : (listed.map Prod.fst).Nodup)
    (stored : ∀ p ∈ listed, db.catalogue[p.1]? = some p.2) :
    (db.tables.find (listed.map Prod.fst)).map Item.location = listed.map fun p => p.2.location := by
  rw [Database.Tables.find_eq_filterMap once, List.filterMap_map, List.map_filterMap,
    ← List.filterMap_eq_map]
  refine List.filterMap_congr fun p member => ?_
  have location : db.tables.items[p.1]? = some p.2.location := by
    rw [← Database.location_catalogue, stored p member]
    rfl
  simp only [Function.comp_apply, Database.Tables.item?, location, Option.map_some]

/-- The results of an exact finding, whatever time it took. -/
theorem textResults_prints (complete : found.failures = [])
    (exact : found.items = (db.catalogue.truth scope).matching q) :
    Prints (db.catalogue.matching scope q)
      (shownCount limit (db.catalogue.matching scope q).length) found microseconds
      (textResults db limit found microseconds) := by
  generalize listed : db.catalogue.matching scope q = matching
  have items : found.items.toList = matching.map Prod.fst := by
    rw [exact, Catalogue.toList_matching_truth, listed]
  have counted : found.items.size = matching.length := by
    rw [← Std.ExtTreeSet.length_toList, items, List.length_map]
  have once : (matching.map Prod.fst).Nodup := items ▸ nodup_toList found.items
  have locations : (shownItems db limit found).map Item.location =
      (matching.take (shownCount limit matching.length)).map fun p => p.2.location := by
    rw [shownItems, shownIds_eq items]
    refine map_location_find (once.sublist ((List.take_sublist _ _).map _)) fun p member => ?_
    have among := List.mem_of_mem_take member
    rw [← listed] at among
    exact (Catalogue.mem_matching.mp among).1
  have length : (shownItems db limit found).length = shownCount limit matching.length := by
    rw [← List.length_map Item.location, locations, List.length_map, List.length_take,
      Nat.min_eq_left (shownCount_le _ _)]
  constructor
  · rfl
  · rw [← locations]
    rfl
  · exact counted
  · simp only [textResults, length, counted, complete, List.map_nil, List.append_nil]

/-- A query over some directories is carried out by a search of the database that is open. -/
theorem run_query {places : Places} {settings : Settings} {folder : Folder}
    {arguments directories : List Text} {text : Text} {given : Option Nat} {tables : Database.Tables}
    (asks : Asks places settings folder arguments (.query text directories given .text))
    (selected : (settings.scope directories).isEmpty = false)
    (opens : (opening places settings folder).1 = .ok tables)
    (searched : search settings ⟨settings.foldsCase, tables⟩ text (settings.scope directories) =
      .ok found) :
    ((run Folder.host places arguments).run folder).1 =
      textResults ⟨settings.foldsCase, tables⟩ (given.getD settings.maxResults) found 0 := by
  rw [run_of_asks asks, Action.run, run_withDatabase, opens]
  dsimp only
  unfold runQuery
  simp only [selected, Bool.false_eq_true, if_false, searched]
  rfl

/-- A query that is read is answered by the finding of its evaluation. -/
theorem exists_search {settings : Settings} {text : Text}
    (reads : Query.parse settings.dialect text = .ok q) :
    ∃ found, search settings db text scope = .ok found ∧
      (q.evaluate (TagStore.source db scope) none scope).found = some found := by
  obtain ⟨found, evaluated⟩ := Query.exists_found_evaluate (TagStore.source db scope) scope q
  exact ⟨found, by simp only [search, reads, evaluated], evaluated⟩

/-- A search after imports, all under one configuration, over a scope that selects something: if the
query is read and no lookup fails, what is printed are the locations of the first stored items in scope
of which the query is true, in the order of the bytes of their identifiers. What is stored is the last
insert of each item that the imports left, and however the two sides of OR go on the same is printed. The
database engine has to read the stems of the scope as they are. -/
theorem query_prints_matches {places : Places} {settings : Settings} {imports : List Import}
    {folder : Folder} {arguments directories : List Text} {text : Text} {given : Option Nat}
    {tables : Database.Tables} (history : Imported places settings imports folder)
    (asks : Asks places settings folder arguments (.query text directories given .text))
    (selected : (settings.scope directories).isEmpty = false)
    (plain : ∀ stem ∈ (settings.scope directories).stems, Database.isPlain stem = true)
    (reads : Query.parse settings.dialect text = .ok q)
    (opens : (opening places settings folder).1 = .ok tables)
    (answered : ∀ found, search settings ⟨settings.foldsCase, tables⟩ text
      (settings.scope directories) = .ok found → found.failures = []) :
    let db : Database := ⟨settings.foldsCase, tables⟩
    let scope := settings.scope directories
    let changes := (keptImports places settings imports).flatMap Import.changes
    let stored := changes.foldl (Catalogue.after settings.foldsCase) ∅
    let matching := stored.matching scope q
    let limit := given.getD settings.maxResults
    let shown := shownCount limit matching.length
    (∀ id : Text, stored[id]? =
      (Change.lastInsert id changes).map (Listing.ofItem settings.foldsCase)) ∧
    matching.Pairwise (fun a b => a.1.utf8 < b.1.utf8) ∧
    (∃ found, search settings db text scope = .ok found ∧
      Prints matching shown found 0 ((run Folder.host places arguments).run folder).1) ∧
    ∀ calls found microseconds, q.Evaluates (TagStore.Answers db scope) scope calls (some found) →
      found.failures = [] →
        Prints matching shown found microseconds (textResults db limit found microseconds) := by
  intro db scope changes stored matching limit shown
  let initial : Database := ⟨settings.foldsCase, {}⟩
  have start : initial.tables.Consistent := Database.Tables.consistent_empty 1 false
  obtain ⟨consistent, -, holds⟩ := Database.catalogue_foldl_after start changes
  have opened : db = changes.foldl Database.after initial :=
    history.opens_afterImports opens
  rw [← opened] at consistent
  have catalogue : db.catalogue = stored := by
    rw [opened, holds, Database.catalogue_eq_empty rfl]
  have own : db.foldScope scope = scope := db.foldScope_ofDirectories _
  have whole : ∀ stem ∈ db.stems scope, '\x00' ∉ stem := by
    rw [show db.stems scope = scope.stems from congrArg Scope.stems own]
    exact fun stem among => Database.null_not_mem_of_isPlain (plain stem among)
  have exact {calls : List Call} {found : Evaluation}
      (run : q.Evaluates (TagStore.Answers db scope) scope calls (some found))
      (complete : found.failures = []) : found.items = (db.catalogue.truth scope).matching q :=
    run.items_eq (db.permits consistent own whole) Catalogue.inScope_of_isEmpty complete
  have prints {found : Evaluation} {microseconds : Nat} (complete : found.failures = [])
      (true_items : found.items = (db.catalogue.truth scope).matching q) :
      Prints matching shown found microseconds (textResults db limit found microseconds) := by
    have results : Prints (db.catalogue.matching scope q)
        (shownCount limit (db.catalogue.matching scope q).length) found microseconds
        (textResults db limit found microseconds) := textResults_prints complete true_items
    rwa [catalogue] at results
  refine ⟨fun id => Catalogue.getElem?_foldl_after changes, ?_, ?_, ?_⟩
  · refine (List.pairwise_map.mp (Catalogue.pairwise_matching stored scope q)).imp ?_
    exact fun less => Text.utf8_lt_of_compare less
  · obtain ⟨found, searched, evaluated⟩ := exists_search reads
    obtain ⟨calls, run⟩ := TagStore.evaluates db scope evaluated
    have complete := answered found searched
    refine ⟨found, searched, ?_⟩
    rw [run_query asks selected opens searched]
    exact prints complete (exact run complete)
  · intro calls found microseconds run complete
    exact prints complete (exact run complete)

/-- An item is imported, and imported again with another one; of the two that carry the tag then the one
with the smaller identifier is shown, at its new location. -/
theorem query_prints_matches_of_cats :
    let places : Places := ⟨"/settings".toList, "/db".toList, none⟩
    let folder : Folder := { current := [], files := [
      (["a".toList], .text "[\x7b\"id\": \"1\", \"location\": \"/p/x\"\x7d]".toList),
      (["b".toList], .text ("[\x7b\"id\": \"2\", \"location\": \"/p/y\", ".toList ++
        "\"tags\": [\"cat\"]\x7d, \x7b\"id\": \"1\", \"location\": \"/P/z\", ".toList ++
        "\"tags\": [\"Cat\"]\x7d]".toList))] }
    let first := ((run Folder.host places ["import".toList, "/a".toList]).run folder).2
    let second := ((run Folder.host places ["import".toList, "/b".toList]).run first).2
    let outcome := ((run Folder.host places
      (["q", "-s", "/p", "-l", "1", "cAt"].map String.toList)).run second).1
    outcome.code = 0 ∧ outcome.out = "/p/z\n".toList := by
  intro places folder first second
  dsimp only
  have start : Imported places {} [] folder := .start fun tables opens => by cases opens; rfl
  let items : List Item := [⟨"1".toList, "/p/x".toList, []⟩]
  let others : List Item := [⟨"2".toList, "/p/y".toList, ["cat".toList]⟩,
    ⟨"1".toList, "/P/z".toList, ["Cat".toList]⟩]
  have before : Imported places {} [⟨items, false⟩] first := by
    have asks : Asks places {} folder ["import".toList, "/a".toList] (.load "/a".toList false) :=
      ⟨none, by decide +kernel, by decide +kernel⟩
    have records : ((readRecords Folder.host "/a".toList).run folder).1 = .ok items := by
      decide +kernel
    exact start.loaded asks records Prod.mk.eta.symm (by decide +kernel)
  let database := afterImports {} [⟨items, false⟩, ⟨others, false⟩]
  have kept : Folder.isVolatile (databasePath places {}) = false := by decide +kernel
  have asks : Asks places {} first ["import".toList, "/b".toList] (.load "/b".toList false) :=
    ⟨none, by decide +kernel, by decide +kernel⟩
  have records : ((readRecords Folder.host "/b".toList).run first).1 = .ok others := by
    decide +kernel
  have success : ((run Folder.host places ["import".toList, "/b".toList]).run first).1.code = 0 := by
    decide +kernel
  have after : Imported places {} [⟨items, false⟩, ⟨others, false⟩] second :=
    before.loaded asks records Prod.mk.eta.symm success
  have opens : (opening places {} second).1 = .ok database.tables :=
    before.opening_loaded kept asks records Prod.mk.eta.symm success
  have through := after.opens_afterImports opens
  rw [keptImports_of_kept kept] at through
  have complete : (search {} database "cAt".toList
      (Settings.scope {} ["/p".toList])).toOption.map Evaluation.failures = some [] := by
    decide +kernel
  have asks : Asks places {} second (["q", "-s", "/p", "-l", "1", "cAt"].map String.toList)
      (.query "cAt".toList ["/p".toList] (some 1) .text) :=
    ⟨none, by decide +kernel, by decide +kernel⟩
  have reads : Query.parse (Settings.dialect {}) "cAt".toList = .ok (.tag "cAt".toList) := by
    decide +kernel
  have results := query_prints_matches after asks (by decide +kernel) (by decide +kernel) reads opens
    (by
      intro found searched
      rw [through] at searched
      rw [searched] at complete
      exact Option.some.inj complete)
  obtain ⟨-, -, ⟨_, -, prints⟩, -⟩ := results
  refine ⟨prints.code, prints.out.trans ?_⟩
  decide +kernel

/-- Of the stem of the only directory the engine reads what stands before the null character. So an item is
printed that is not in the directory. -/
theorem query_prints_beyond_null :
    let places : Places := ⟨"/settings".toList, "/db".toList, none⟩
    let folder : Folder := { current := [], files := [
      (["settings".toList], .text "[scope]\ndirectories = [\"/a\\u0000\"]\n".toList),
      (["i".toList], .text ("[\x7b\"id\": \"1\", \"location\": \"/a\", ".toList ++
        "\"tags\": [\"cat\"]\x7d]".toList))] }
    let settings : Settings := { directories := ["/a\x00".toList] }
    let loaded := ((run Folder.host places ["import".toList, "/i".toList]).run folder).2
    let outcome := ((run Folder.host places ["query".toList, "cat".toList]).run loaded).1
    Asks places settings loaded ["query".toList, "cat".toList] (.query "cat".toList [] none .text) ∧
      outcome.code = 0 ∧ outcome.out = "/a\n".toList ∧
      (settings.scope []).contains (Location.normalize true "/a".toList) = false :=
  ⟨⟨none, by decide +kernel⟩, by decide +kernel⟩

end Command
end TagQuery
