import TagQuery.Proofs.Scope.Folded
import TagQuery.Proofs.Text.Folding

/-! Two stores of one setting that go through the same changes give the same answers. Main steps: each
change keeps the two catalogues equal, and every answer, a failure of the database apart, is read off
the catalogue. -/
namespace TagQuery

/-- What a change answers, when an answer says whether an item was removed. -/
def Change.answers (removed : Text → Bool) : Change → List Bool
  | .remove id => [removed id]
  | _ => []

def Index.removals (index : Index) : List Change → List Bool
  | [] => []
  | change :: rest =>
    change.answers (fun id => (index.remove id).1) ++ (index.after change).removals rest

def Database.removals (db : Database) : List Change → List Bool
  | [] => []
  | change :: rest =>
    change.answers (fun id => (db.remove id).1) ++ (db.after change).removals rest

/-- The one answer that a store that does not change has for a question. -/
def TagStore.Answers {σ : Type} [TagStore σ] (store : σ) (scope : Scope) (lookup : Lookup)
    (answer : Except Fault ItemSet) : Prop :=
  answer = TagStore.source store scope 0 lookup

/-- The two stores have one setting and hold the same, and neither has come apart. -/
structure Alike (foldsCase : Bool) (index : Index) (db : Database) : Prop where
  index_foldsCase : index.foldsCase = foldsCase
  db_foldsCase : db.foldsCase = foldsCase
  wellFormed : index.WellFormed
  consistent : db.tables.Consistent
  catalogue : db.catalogue = index.catalogue

namespace Alike

variable {foldsCase : Bool} {index : Index} {db : Database} {scope : Scope}

theorem empty (foldsCase : Bool) : Alike foldsCase (.empty foldsCase) ⟨foldsCase, {}⟩ where
  index_foldsCase := rfl
  db_foldsCase := rfl
  wellFormed := Index.wellFormed_empty foldsCase
  consistent := Database.Tables.consistent_empty 1 false
  catalogue := (Database.catalogue_eq_empty rfl).trans (Index.catalogue_empty foldsCase).symm

/-- Each change keeps two stores alike. -/
theorem after (alike : Alike foldsCase index db) (change : Change) :
    Alike foldsCase (index.after change) (db.after change) := by
  obtain ⟨consistent, catalogue⟩ := Database.catalogue_after alike.consistent change
  constructor
  · rw [Index.foldsCase_after, alike.index_foldsCase]
  · rw [Database.foldsCase_after, alike.db_foldsCase]
  · exact alike.wellFormed.after change
  · exact consistent
  · rw [catalogue, Index.catalogue_after, alike.catalogue, alike.index_foldsCase,
      alike.db_foldsCase]

/-- What can be removed from the one can be removed from the other. -/
theorem remove_fst (alike : Alike foldsCase index db) (id : Text) :
    (index.remove id).1 = (db.remove id).1 := by
  rw [Index.remove_fst, Database.remove_fst, alike.catalogue]

theorem run (alike : Alike foldsCase index db) (changes : List Change) :
    index.removals changes = db.removals changes ∧
      Alike foldsCase (changes.foldl Index.after index) (changes.foldl Database.after db) := by
  -- By induction on the changes; what carries it is that the stores are alike after each of them.
  induction changes generalizing index db with
  | nil => exact ⟨rfl, alike⟩
  | cons change rest ih =>
    obtain ⟨answers, alikeAfter⟩ := ih (alike.after change)
    refine ⟨?_, alikeAfter⟩
    have same : (fun id => (index.remove id).1) = fun id => (db.remove id).1 := by
      funext id
      exact alike.remove_fst id
    rw [Index.removals, Database.removals, same, answers]

end Alike

/-- The index and the database answer alike over a scope, wherever the database answers: an item set is
the same, tags have the same numbers of items by their folded names, and an evaluation that reports no
failure finds the same items, however the two sides of OR go on. -/
structure AnswersAlike (index : Index) (db : Database) (scope : Scope) : Prop where
  withTag : ∀ name ids, db.withTag name scope = .ok ids → index.withTag name scope = ids
  inScope : ∀ ids, db.inScope scope = .ok ids → index.inScope scope = ids
  restrict : ∀ ids kept, db.restrict ids scope = .ok kept → index.restrict ids scope = kept
  tagCounts : ∀ start counts, '\x00' ∉ start → db.tagCounts scope start 0 = .ok counts →
    (TagCount.byTag (index.tagCounts scope start 0)).Perm (TagCount.byTag counts) ∧
      ((TagCount.byTag counts).map Prod.fst).Nodup
  evaluate : ∀ (q : Query) (e : Evaluation),
    (q.evaluate (TagStore.source db scope) none scope).found = some e → e.failures = [] →
      ∃ e', (q.evaluate (TagStore.source index scope) none scope).found = some e' ∧
        e'.items = e.items
  concurrent : ∀ (q : Query) (calls calls' : List Call) (e e' : Evaluation),
    q.Evaluates (TagStore.Answers db scope) scope calls (some e) → e.failures = [] →
      q.Evaluates (TagStore.Answers index scope) scope calls' (some e') → e'.items = e.items

/-- A store that answers truly, where it answers, permits no finding but the truth. -/
theorem Query.Evaluates.items_eq {truth : Truth} {answers : Lookup → Except Fault ItemSet → Prop}
    (permitted : ∀ {lookup answer}, answers lookup answer → truth.Permits lookup answer)
    {scope : Scope} (nothing : scope.isEmpty = true → truth.all = ∅) {q : Query} {calls : List Call}
    {e : Evaluation} (h : q.Evaluates answers scope calls (some e)) (complete : e.failures = []) :
    e.items = truth.matching q := by
  cases h with
  | unselected empty =>
    refine (Std.ExtTreeSet.eq_empty_iff_forall_not_mem.mpr fun id member => ?_).symm
    have within := (Truth.mem_matching.mp member).1
    rw [nothing empty] at within
    exact Std.ExtTreeSet.not_mem_empty within
  | run _ run => exact (run.mono permitted).items_eq_matching e rfl complete

/-- Where every question is answered, nothing is reported. -/
theorem Query.Evaluates.failures_eq_nil {answers : Lookup → Except Fault ItemSet → Prop}
    (answered : ∀ {lookup answer}, answers lookup answer → ∃ ids, answer = .ok ids)
    {scope : Scope} {q : Query} {calls : List Call} {e : Evaluation}
    (h : q.Evaluates answers scope calls (some e)) : e.failures = [] := by
  cases h with
  | unselected _ => rfl
  | run _ run =>
    refine run.failures_eq_nil_iff.mpr fun call member => ?_
    obtain ⟨ids, ok⟩ := answered (run.given call member)
    rw [Call.isAnswered, ok]
    rfl

/-- Evaluation with one side of OR after the other asks the store as it is. -/
theorem TagStore.evaluates {σ : Type} [TagStore σ] (store : σ) (scope : Scope) {q : Query}
    {e : Evaluation}
    (found : (q.evaluate (TagStore.source store scope) none scope).found = some e) :
    ∃ calls, q.Evaluates (TagStore.Answers store scope) scope calls (some e) := by
  have steps : q.Evaluates (TagStore.Answers store scope) scope _ _ :=
    Query.evaluates_evaluate (TagStore.source store scope) none (fun _ _ => rfl) scope q
  rw [found] at steps
  exact ⟨_, steps⟩

/-- What a database answers, over a scope of its own setting, is the case in its catalogue. -/
theorem Database.permits {db : Database} {scope : Scope} (consistent : db.tables.Consistent)
    (own : db.foldScope scope = scope) (whole : ∀ stem ∈ db.stems scope, '\x00' ∉ stem)
    {lookup : Lookup} {answer : Except Fault ItemSet}
    (given : TagStore.Answers db scope lookup answer) :
    (db.catalogue.truth scope).Permits lookup answer := by
  cases answer with
  | error fault => exact .inr ⟨fault, rfl⟩
  | ok ids =>
    refine .inl (congrArg Except.ok ?_)
    cases lookup with
    | tag name =>
      have same := withTag_eq_ok whole consistent given.symm
      rwa [own] at same
    | all =>
      have same := inScope_eq_ok whole given.symm
      rwa [own] at same

/-- An index answers every question, over a scope of its own setting, with what is the case in its
catalogue. -/
theorem Index.WellFormed.answer_eq {index : Index} (wf : index.WellFormed) {scope : Scope}
    (own : index.foldScope scope = scope) {lookup : Lookup} {answer : Except Fault ItemSet}
    (given : TagStore.Answers index scope lookup answer) :
    answer = .ok ((index.catalogue.truth scope).answer lookup) := by
  rw [given]
  cases lookup with
  | tag name =>
    have same := wf.withTag_eq name scope
    rw [own] at same
    exact congrArg Except.ok same
  | all =>
    have same := Index.inScope_eq index scope
    rw [own] at same
    exact congrArg Except.ok same

/-- So an evaluation over it finds the items of which the query is true. -/
theorem Index.WellFormed.items_eq_matching {index : Index} (wf : index.WellFormed) {scope : Scope}
    (own : index.foldScope scope = scope) {q : Query} {calls : List Call} {e : Evaluation}
    (h : q.Evaluates (TagStore.Answers index scope) scope calls (some e)) :
    e.items = (index.catalogue.truth scope).matching q := by
  have answered : e.failures = [] := h.failures_eq_nil fun given => ⟨_, wf.answer_eq own given⟩
  exact h.items_eq (fun given => .inl (wf.answer_eq own given)) Catalogue.inScope_of_isEmpty answered

namespace Alike

variable {foldsCase : Bool} {index : Index} {db : Database} {scope : Scope}

/-- What the database answers is the case in the catalogue of the index. -/
theorem permits_database (alike : Alike foldsCase index db) (own : db.foldScope scope = scope)
    (whole : ∀ stem ∈ db.stems scope, '\x00' ∉ stem) {lookup : Lookup} {answer : Except Fault ItemSet}
    (given : TagStore.Answers db scope lookup answer) :
    (index.catalogue.truth scope).Permits lookup answer :=
  alike.catalogue ▸ Database.permits alike.consistent own whole given

theorem evaluations_eq (alike : Alike foldsCase index db) (ownIndex : index.foldScope scope = scope)
    (ownDatabase : db.foldScope scope = scope) (whole : ∀ stem ∈ db.stems scope, '\x00' ∉ stem)
    {q : Query} {calls calls' : List Call}
    {e e' : Evaluation} (h : q.Evaluates (TagStore.Answers db scope) scope calls (some e))
    (complete : e.failures = [])
    (h' : q.Evaluates (TagStore.Answers index scope) scope calls' (some e')) :
    e'.items = e.items := by
  rw [alike.wellFormed.items_eq_matching ownIndex h',
    h.items_eq (alike.permits_database ownDatabase whole) Catalogue.inScope_of_isEmpty complete]

theorem answersAlike (alike : Alike foldsCase index db) {directories : List Text}
    (named : ∀ d ∈ directories, '\x00' ∉ d) :
    AnswersAlike index db (.ofDirectories foldsCase directories) := by
  have whole : ∀ stem ∈ (Scope.ofDirectories foldsCase directories).stems, '\x00' ∉ stem :=
    Scope.null_not_mem_stems named
  have ownIndex := index.foldScope_ofDirectories directories
  have ownDatabase := db.foldScope_ofDirectories directories
  rw [alike.index_foldsCase] at ownIndex
  rw [alike.db_foldsCase] at ownDatabase
  generalize Scope.ofDirectories foldsCase directories = scope at whole ownIndex ownDatabase ⊢
  rw [← show db.stems scope = scope.stems from congrArg Scope.stems ownDatabase] at whole
  constructor
  · intro name ids given
    rw [alike.wellFormed.withTag_eq, Database.withTag_eq_ok whole alike.consistent given, ownIndex,
      ownDatabase, alike.catalogue]
  · intro ids given
    rw [Index.inScope_eq, Database.inScope_eq_ok whole given, ownIndex, ownDatabase, alike.catalogue]
  · intro ids kept given
    rw [Index.restrict_eq, Database.restrict_eq_ok whole given, ownIndex, ownDatabase, alike.catalogue]
  · intro start counts wholeStart given
    have here := alike.wellFormed.tagCounts scope start
    have there := Database.tagCounts_eq_ok alike.consistent whole (Tag.null_not_mem_fold wholeStart) given
    rw [ownIndex] at here
    rw [ownDatabase, alike.catalogue] at there
    exact ⟨here.perm there, there.distinct⟩
  · intro q e found complete
    obtain ⟨calls, run⟩ := TagStore.evaluates db scope found
    obtain ⟨e', found'⟩ := Query.exists_found_evaluate (TagStore.source index scope) scope q
    obtain ⟨calls', run'⟩ := TagStore.evaluates index scope found'
    exact ⟨e', found', alike.evaluations_eq ownIndex ownDatabase whole run complete run'⟩
  · intro q calls calls' e e' run complete run'
    exact alike.evaluations_eq ownIndex ownDatabase whole run complete run'

theorem totals_eq (alike : Alike foldsCase index db) : index.totals.items = db.totals.items ∧
    index.totals.tags = db.totals.tags ∧
    index.totals.associations = db.totals.associations := by
  obtain ⟨items, tags, associations⟩ := alike.wellFormed.totals
  obtain ⟨items', tags', associations'⟩ := Database.totals_eq alike.consistent
  rw [items, tags, associations, items', tags', associations', alike.catalogue]
  exact ⟨rfl, rfl, rfl⟩

end Alike

/-- An index and a database of one setting, both without items at first, cannot be told apart by what
they answer to changes, nor afterwards by what they answer to questions over a scope of that setting,
except that the database may fail to answer. Directories and beginnings are without null characters. -/
theorem stores_agree (foldsCase : Bool) (changes : List Change) :
    Index.removals (.empty foldsCase) changes = Database.removals ⟨foldsCase, {}⟩ changes ∧
    let index := changes.foldl Index.after (.empty foldsCase)
    let db := changes.foldl Database.after ⟨foldsCase, {}⟩
    (index.totals.items = db.totals.items ∧ index.totals.tags = db.totals.tags ∧
      index.totals.associations = db.totals.associations) ∧
    ∀ directories, (∀ d ∈ directories, '\x00' ∉ d) →
      AnswersAlike index db (.ofDirectories foldsCase directories) := by
  obtain ⟨removals, alike⟩ := (Alike.empty foldsCase).run changes
  exact ⟨removals, alike.totals_eq, fun _ => alike.answersAlike⟩

/-- An item is stored with one tag in two spellings, replaced, and removed twice; the other one is found
by its tag. -/
theorem stores_agree_of_cats :
    let changes : List Change := [
      .insert ⟨"1".toList, "/A/x".toList, ["Cat".toList, " CAT".toList, " ".toList]⟩,
      .insertAll [⟨"2".toList, "/a/y".toList, ["cat".toList]⟩, ⟨"1".toList, "/b".toList, []⟩],
      .remove "1".toList, .remove "1".toList]
    let index := changes.foldl Index.after (.empty true)
    let db := changes.foldl Database.after ⟨true, {}⟩
    let scope := Scope.ofDirectories true ["/a".toList]
    Index.removals (.empty true) changes = [true, false] ∧
      ∃ ids, db.withTag "cAt".toList scope = .ok ids ∧ index.withTag "cAt".toList scope = ids ∧
        ids.toList = ["2".toList] := by
  intro changes index db scope
  obtain ⟨removals, -, answers⟩ := stores_agree true changes
  have found : (db.withTag "cAt".toList scope).toOption.map Std.ExtTreeSet.toList =
      some ["2".toList] := by decide +kernel
  cases given : db.withTag "cAt".toList scope with
  | error fault => rw [given] at found; cases found
  | ok ids =>
    rw [given] at found
    refine ⟨?_, ids, rfl, (answers ["/a".toList] (by decide)).withTag _ ids given, Option.some.inj found⟩
    rw [removals]
    decide +kernel

end TagQuery
