import TagQuery.Evaluation.Concurrent
import TagQuery.Query.Meaning

/-! Evaluations against a fixed truth. A store may leave any question unanswered, but what it answers
is true. Main statement: an evaluation that reports no failure has found exactly the items in scope
of which the query is true, although AND and NOT do not always ask all of their questions. -/
namespace TagQuery

/-- What is the case while a query is evaluated: the items in scope, and those of them that carry a
folded tag. -/
structure Truth where
  all : ItemSet
  carriers : Text → ItemSet
  within : ∀ {folded id : Text}, id ∈ carriers folded → id ∈ all

namespace Truth

def answer (truth : Truth) : Lookup → ItemSet
  | .tag name => truth.carriers (Tag.fold name)
  | .all => truth.all

/-- A question is answered truly or not at all. -/
def Permits (truth : Truth) (lookup : Lookup) (answer : Except Fault ItemSet) : Prop :=
  answer = .ok (truth.answer lookup) ∨ ∃ fault, answer = .error fault

def carries (truth : Truth) (id name : Text) : Bool := (truth.carriers (Tag.fold name)).contains id

def matching (truth : Truth) (q : Query) : ItemSet :=
  truth.all.filter fun id => q.holds (truth.carries id)

/-- The truth about some items, each given with one folded tag. -/
def ofPairs (pairs : List (Text × Text)) : Truth where
  all := .ofList (pairs.map Prod.fst) compare
  carriers folded := .ofList ((pairs.filter (·.2 == folded)).map Prod.fst) compare
  within h := by
    rw [Std.ExtTreeSet.mem_ofList, List.contains_iff_mem] at h ⊢
    exact List.map_subset _ (List.filter_sublist.subset) h

variable {truth : Truth}

theorem mem_matching {q : Query} {id : Text} :
    id ∈ truth.matching q ↔ id ∈ truth.all ∧ q.holds (truth.carries id) = true := by
  simp [matching, Std.ExtTreeSet.mem_filter]

theorem matching_tag (name : Text) : truth.matching (.tag name) = truth.answer (.tag name) := by
  refine Std.ExtTreeSet.ext_mem fun id => ?_
  rw [mem_matching]
  exact ⟨fun h => h.2, fun h => ⟨truth.within h, h⟩⟩

theorem matching_all : truth.matching .all = truth.answer .all := by
  refine Std.ExtTreeSet.ext_mem fun id => ?_
  rw [mem_matching]
  exact ⟨fun h => h.1, fun h => ⟨h, rfl⟩⟩

theorem matching_and (left right : Query) :
    truth.matching (.and left right) = truth.matching left ∩ truth.matching right := by
  refine Std.ExtTreeSet.ext_mem fun id => ?_
  simp only [Std.ExtTreeSet.mem_inter_iff, mem_matching, Query.holds, Bool.and_eq_true]
  exact and_and_left

theorem matching_or (left right : Query) :
    truth.matching (.or left right) = truth.matching left ∪ truth.matching right := by
  refine Std.ExtTreeSet.ext_mem fun id => ?_
  simp only [Std.ExtTreeSet.mem_union_iff, mem_matching, Query.holds, Bool.or_eq_true]
  exact and_or_left

theorem matching_not (inner : Query) :
    truth.matching (.not inner) = truth.answer .all \ truth.matching inner := by
  refine Std.ExtTreeSet.ext_mem fun id => ?_
  simp only [Std.ExtTreeSet.mem_diff_iff, mem_matching, Query.holds, Bool.not_eq_true',
    answer, not_and, Bool.not_eq_true]
  exact ⟨fun h => ⟨h.1, fun _ => h.2⟩, fun h => ⟨h.1, h.2 h.1⟩⟩

/-- Beside a left side, which lies in scope, the scope is not needed for NOT. -/
theorem matching_and_not (left excluded : Query) :
    truth.matching (.and left (.not excluded)) = truth.matching left \ truth.matching excluded := by
  refine Std.ExtTreeSet.ext_mem fun id => ?_
  simp only [Std.ExtTreeSet.mem_diff_iff, mem_matching, Query.holds, Bool.and_eq_true,
    Bool.not_eq_true', not_and, Bool.not_eq_true]
  exact ⟨fun h => ⟨⟨h.1, h.2.1⟩, fun _ => h.2.2⟩, fun h => ⟨h.1.1, h.1.2, h.2 h.1.1⟩⟩

end Truth

def Call.isAnswered (call : Call) : Bool := call.answer.isOk

def Call.failure? (call : Call) : Option LookupFailure :=
  match call.answer with
  | .ok _ => none
  | .error fault => some ⟨call.lookup, fault.message⟩

theorem Call.failure?_eq_none {call : Call} : call.failure? = none ↔ call.isAnswered = true := by
  obtain ⟨lookup, answer⟩ := call
  cases answer <;> simp [failure?, isAnswered, Except.isOk, Except.toBool]

theorem Evaluation.failures_ofAnswer (call : Call) :
    (ofAnswer call.lookup call.answer).failures = [call].filterMap Call.failure? := by
  obtain ⟨lookup, answer⟩ := call
  cases answer <;> rfl

namespace Query

variable {answers : Lookup → Except Fault ItemSet → Prop} {q : Query} {calls : List Call}
  {found : Option Evaluation}

/-- The failures that are reported are those of the calls, if only up to their order. -/
theorem Runs.failures_perm (h : Runs answers q calls found) :
    ∀ e ∈ found, e.failures.Perm (calls.filterMap Call.failure?) := by
  -- The failures of OR are listed left before right, its calls in any order.
  induction h with
  | abandoned | andAbandoned => intro e he; cases he
  | @tag name answer =>
    rintro e ⟨⟩
    exact .of_eq (Evaluation.failures_ofAnswer ⟨.tag name, answer⟩)
  | @all answer | @notEmpty _ answer =>
    rintro e ⟨⟩
    exact .of_eq (Evaluation.failures_ofAnswer ⟨.all, answer⟩)
  | andEmpty _ _ ih => exact ih
  | andNot _ _ _ ihl ihr | and _ _ _ _ ihl ihr =>
    intro e he
    obtain ⟨r, rfl, rfl⟩ := Option.map_eq_some_iff.mp he
    rw [List.filterMap_append]
    exact (ihl _ rfl).append (ihr _ rfl)
  | or _ _ order ihl ihr =>
    intro e he
    obtain ⟨l, rfl, hr⟩ := Option.bind_eq_some_iff.mp he
    obtain ⟨r, rfl, rfl⟩ := Option.map_eq_some_iff.mp hr
    have together := (order.perm.filterMap Call.failure?).symm
    rw [List.filterMap_append] at together
    exact ((ihl _ rfl).append (ihr _ rfl)).trans together
  | @not _ answer calls _ _ _ _ ih =>
    intro e he
    obtain ⟨r, rfl, rfl⟩ := Option.map_eq_some_iff.mp he
    have asked := Evaluation.failures_ofAnswer ⟨.all, answer⟩
    rw [← List.singleton_append, List.filterMap_append, ← asked]
    exact (ih _ rfl).append_left _
  | group _ ih => exact ih

/-- Nothing is reported exactly when every call was answered. -/
theorem Runs.failures_eq_nil_iff {e : Evaluation} (h : Runs answers q calls (some e)) :
    e.failures = [] ↔ ∀ call ∈ calls, call.isAnswered = true := by
  have same := h.failures_perm e rfl
  constructor
  · intro complete call member
    rw [complete, List.nil_perm, List.filterMap_eq_nil_iff] at same
    exact Call.failure?_eq_none.mp (same call member)
  · intro answered
    have none_failed : calls.filterMap Call.failure? = [] :=
      List.filterMap_eq_nil_iff.mpr fun call member =>
        Call.failure?_eq_none.mpr (answered call member)
    rwa [none_failed, List.perm_nil] at same

/-- Every call of a run was answered as it may be. -/
theorem Runs.given (h : Runs answers q calls found) :
    ∀ call ∈ calls, answers call.lookup call.answer := by
  induction h with
  | abandoned => exact fun call member => absurd member List.not_mem_nil
  | tag given | all given | notEmpty given =>
    intro call member
    rwa [List.mem_singleton.mp member]
  | andAbandoned _ ih | andEmpty _ _ ih | group _ ih => exact ih
  | andNot _ _ _ ihl ihr | and _ _ _ _ ihl ihr =>
    intro call member
    exact (List.mem_append.mp member).elim (ihl call) (ihr call)
  | or _ _ order ihl ihr =>
    intro call member
    exact (List.mem_append.mp (order.perm.mem_iff.mp member)).elim (ihl call) (ihr call)
  | not given _ _ ih =>
    intro call member
    rcases List.mem_cons.mp member with rfl | later
    · exact given
    · exact ih call later

/-- A run is one wherever each of its calls may be answered as it was. -/
theorem Runs.of_given {others : Lookup → Except Fault ItemSet → Prop}
    (h : Runs answers q calls found)
    (allowed : ∀ call ∈ calls, others call.lookup call.answer) : Runs others q calls found := by
  induction h with
  | abandoned q => exact .abandoned q
  | tag _ => exact .tag (allowed _ List.mem_cons_self)
  | all _ => exact .all (allowed _ List.mem_cons_self)
  | andAbandoned _ ih => exact .andAbandoned (ih allowed)
  | andEmpty _ empty ih => exact .andEmpty (ih allowed) empty
  | andNot _ some_left _ ihl ihr =>
    obtain ⟨left, right⟩ := List.forall_mem_append.mp allowed
    exact .andNot (ihl left) some_left (ihr right)
  | and plain _ some_left _ ihl ihr =>
    obtain ⟨left, right⟩ := List.forall_mem_append.mp allowed
    exact .and plain (ihl left) some_left (ihr right)
  | or _ _ order ihl ihr =>
    have sides := fun call member => allowed call (order.perm.mem_iff.mpr member)
    obtain ⟨left, right⟩ := List.forall_mem_append.mp sides
    exact .or (ihl left) (ihr right) order
  | notEmpty _ empty => exact .notEmpty (allowed _ List.mem_cons_self) empty
  | not _ some_left _ ih =>
    obtain ⟨asked, later⟩ := List.forall_mem_cons.mp allowed
    exact .not asked some_left (ih later)
  | group _ ih => exact .group (ih allowed)

/-- What may be answered may be answered where more may be. -/
theorem Runs.mono {more : Lookup → Except Fault ItemSet → Prop}
    (allowed : ∀ {lookup answer}, answers lookup answer → more lookup answer)
    (h : Runs answers q calls found) : Runs more q calls found :=
  h.of_given fun call member => allowed (h.given call member)

/-- What may be answered says which items are in scope and which of them carry a tag. A question that
fails is answered with no items here. -/
structure Reads (answers : Lookup → Except Fault ItemSet → Prop) (inScope : ItemSet)
    (carries : Text → Text → Bool) : Prop where
  all : ∀ {given}, answers .all given → (Evaluation.ofAnswer .all given).items = inScope
  tag : ∀ {name given}, answers (.tag name) given → ∀ id,
    id ∈ (Evaluation.ofAnswer (.tag name) given).items ↔ id ∈ inScope ∧ carries id name = true

/-- A run finds the items in scope of which the query is true by what the answers say. -/
theorem Runs.mem_items_iff {inScope : ItemSet} {carries : Text → Text → Bool}
    (reads : Reads answers inScope carries) (h : Runs answers q calls found) :
    ∀ e ∈ found, ∀ id, id ∈ e.items ↔ id ∈ inScope ∧ q.holds (carries id) = true := by
  -- The sides lie in scope by induction, so to take away from the left side is to keep what passes NOT.
  induction h with
  | abandoned | andAbandoned => intro e he; cases he
  | tag given =>
    rintro e ⟨⟩ id
    exact reads.tag given id
  | all given =>
    rintro e ⟨⟩ id
    rw [reads.all given, holds]
    exact (and_iff_left rfl).symm
  | andEmpty _ empty ih =>
    rintro e ⟨⟩ id
    have none_left := ih _ rfl id
    rw [Std.ExtTreeSet.isEmpty_iff.mp empty] at none_left ⊢
    rw [iff_false_left Std.ExtTreeSet.not_mem_empty] at none_left ⊢
    simp only [holds, Bool.and_eq_true]
    exact fun h => none_left ⟨h.1, h.2.1⟩
  | andNot _ _ _ ihl ihr =>
    intro e he id
    obtain ⟨r, rfl, rfl⟩ := Option.map_eq_some_iff.mp he
    have left := ihl _ rfl id
    have excluded := ihr r rfl id
    simp only [Evaluation.combine, Std.ExtTreeSet.mem_diff_iff, left, excluded, holds,
      Bool.and_eq_true, Bool.not_eq_true', ← Bool.not_eq_true]
    rw [and_assoc]
    exact and_congr_right fun within => and_congr_right fun _ => not_congr (and_iff_right within)
  | and _ _ _ _ ihl ihr =>
    intro e he id
    obtain ⟨r, rfl, rfl⟩ := Option.map_eq_some_iff.mp he
    have left := ihl _ rfl id
    have right := ihr r rfl id
    simp only [Evaluation.combine, Std.ExtTreeSet.mem_inter_iff, left, right, holds,
      Bool.and_eq_true]
    exact and_and_left.symm
  | or _ _ _ ihl ihr =>
    intro e he id
    obtain ⟨l, rfl, hr⟩ := Option.bind_eq_some_iff.mp he
    obtain ⟨r, rfl, rfl⟩ := Option.map_eq_some_iff.mp hr
    have left := ihl l rfl id
    have right := ihr r rfl id
    simp only [Evaluation.combine, Std.ExtTreeSet.mem_union_iff, left, right, holds,
      Bool.or_eq_true]
    exact and_or_left.symm
  | notEmpty given empty =>
    rintro e ⟨⟩ id
    rw [reads.all given] at empty ⊢
    have nothing : id ∉ inScope := by
      rw [Std.ExtTreeSet.isEmpty_iff.mp empty]
      exact Std.ExtTreeSet.not_mem_empty
    simp only [nothing, false_and]
  | not given _ _ ih =>
    intro e he id
    obtain ⟨r, rfl, rfl⟩ := Option.map_eq_some_iff.mp he
    have excluded := ih r rfl id
    simp only [Evaluation.combine, Std.ExtTreeSet.mem_diff_iff, reads.all given, excluded, holds,
      Bool.not_eq_true', ← Bool.not_eq_true]
    exact and_congr_right fun within => not_congr (and_iff_right within)
  | group _ ih => exact ih

/-- The true answers say what is the case. -/
theorem reads_truth (truth : Truth) :
    Reads (fun lookup given => given = .ok (truth.answer lookup)) truth.all truth.carries where
  all := by
    rintro _ rfl
    rfl
  tag := by
    rintro name _ rfl id
    rw [Truth.carries, Std.ExtTreeSet.contains_iff_mem]
    exact ⟨fun member => ⟨truth.within member, member⟩, And.right⟩

/-- A run that reports no failure has found the items of which the query is true. -/
theorem Runs.items_eq_matching {truth : Truth} (h : Runs truth.Permits q calls found) :
    ∀ e ∈ found, e.failures = [] → e.items = truth.matching q := by
  rintro e rfl complete
  have true_answers : ∀ call ∈ calls, call.answer = .ok (truth.answer call.lookup) := by
    intro call member
    have answered := h.failures_eq_nil_iff.mp complete call member
    refine (h.given call member).resolve_right fun ⟨fault, failed⟩ => ?_
    rw [Call.isAnswered, failed] at answered
    cases answered
  apply Std.ExtTreeSet.ext_mem
  intro id
  rw [Truth.mem_matching]
  exact (h.of_given true_answers).mem_items_iff (reads_truth truth) e rfl id

/-- An evaluation that is never abandoned finds something. -/
theorem exists_found_course (source : Source) (q : Query) (asked : Nat) :
    ∃ e, (q.course source none asked).found = some e := by
  fun_induction course source none q asked with
  | case1 | case3 | case5 | case7 | case9 | case11 | case13 =>
    rename_i exhausted
    cases exhausted
  | case2 | case4 => exact ⟨_, rfl⟩
  | case6 _ _ _ _ _ ihl ihr | case8 _ _ _ _ _ _ ihl ihr =>
    obtain ⟨l, hl⟩ := ihl
    obtain ⟨r, hr⟩ := ihr
    rw [Course.andThen_of_some hl]
    split
    · exact ⟨l, rfl⟩
    · exact ⟨_, congrArg (Option.map _) hr⟩
  | case10 _ _ _ _ _ ihl ihr =>
    obtain ⟨l, hl⟩ := ihl
    obtain ⟨r, hr⟩ := ihr
    rw [Course.found_both, hl, hr]
    exact ⟨_, rfl⟩
  | case12 _ asked _ ih =>
    obtain ⟨r, hr⟩ := ih
    have answered : (source.ask asked .all).found =
        some (.ofAnswer .all (source asked .all)) := rfl
    rw [Course.andThen_of_some answered]
    split
    · exact ⟨_, rfl⟩
    · exact ⟨_, congrArg (Option.map _) hr⟩
  | case14 _ _ _ ih => exact ih

/-- An evaluation over a scope that is never abandoned finds something. -/
theorem exists_found_evaluate (source : Source) (scope : Scope) (q : Query) :
    ∃ e, (q.evaluate source none scope).found = some e := by
  rw [evaluate]
  split
  · exact ⟨_, rfl⟩
  · exact exists_found_course source q 0

/-- Evaluation with one side of OR after the other comes to a finding, as one of the possible runs. -/
theorem exists_evaluates (source : Source) (given : ∀ asked lookup, answers lookup (source asked lookup))
    (scope : Scope) (q : Query) : ∃ e, (q.evaluate source none scope).found = some e ∧
      q.Evaluates answers scope (source.calls 0 (q.evaluate source none scope).asked) (some e) := by
  obtain ⟨e, found⟩ := exists_found_evaluate source scope q
  have steps := evaluates_evaluate source none given scope q
  rw [found] at steps
  exact ⟨e, found, steps⟩

/-- Over a scope that selects something every evaluation is a run. -/
theorem Evaluates.runs {scope : Scope} (h : q.Evaluates answers scope calls found)
    (selected : scope.isEmpty = false) : Runs answers q calls found := by
  cases h with
  | unselected empty => rw [selected] at empty; cases empty
  | run _ run => exact run

end Query

/-- A finding is exact, given the calls that led to it: it reports no failure exactly when every call
was answered, and then its items are those in scope of which the query is true. -/
structure Truth.Exact (truth : Truth) (q : Query) (calls : List Call) (e : Evaluation) : Prop where
  complete_iff : e.failures = [] ↔ ∀ call ∈ calls, call.isAnswered = true
  items_eq : e.failures = [] → e.items = truth.matching q

/-- A run against a fixed truth finds something exact. -/
theorem Query.Runs.exact {truth : Truth} {q : Query} {calls : List Call} {e : Evaluation}
    (h : q.Runs truth.Permits calls (some e)) : truth.Exact q calls e :=
  ⟨h.failures_eq_nil_iff, h.items_eq_matching e rfl⟩

/-- Evaluation over a scope that selects something is exact, whichever questions fail: with one side
of OR after the other, when it always comes to a finding, and with both sides at the same time. -/
theorem evaluation_exact (truth : Truth) (scope : Scope) (selected : scope.isEmpty = false)
    (q : Query) :
    (∀ source : Source, (∀ asked lookup, truth.Permits lookup (source asked lookup)) →
      ∃ e, (q.evaluate source none scope).found = some e ∧
        truth.Exact q (source.calls 0 (q.evaluate source none scope).asked) e) ∧
    ∀ calls e, q.Evaluates truth.Permits scope calls (some e) → truth.Exact q calls e := by
  have concurrent : ∀ calls e, q.Evaluates truth.Permits scope calls (some e) →
      truth.Exact q calls e := by
    intro calls e h
    cases h with
    | unselected empty => rw [selected] at empty; cases empty
    | run _ run => exact run.exact
  refine ⟨fun source given => ?_, concurrent⟩
  obtain ⟨e, he⟩ := Query.exists_found_evaluate source scope q
  have steps := Query.evaluates_evaluate source none given scope q
  rw [he] at steps
  exact ⟨e, he, concurrent _ e steps⟩

/-- In `Cat OR NOT dog` the second question fails, which is reported. -/
theorem evaluation_exact_of_cats :
    let scope := Scope.ofDirectories true ["/a".toList]
    let truth := Truth.ofPairs [("1".toList, "cat".toList), ("2".toList, "dog".toList)]
    let source : Source := fun asked lookup =>
      if asked = 1 then .error (.storage "locked".toList) else .ok (truth.answer lookup)
    let q : Query := .or (.tag "Cat".toList) (.not (.tag "dog".toList))
    scope.isEmpty = false ∧ (∀ asked lookup, truth.Permits lookup (source asked lookup)) ∧
      ∃ e, (q.evaluate source none scope).found = some e ∧
        truth.Exact q (source.calls 0 (q.evaluate source none scope).asked) e ∧
        e.failures ≠ [] := by
  intro scope truth source q
  have selected : scope.isEmpty = false := by decide +kernel
  have given : ∀ asked lookup, truth.Permits lookup (source asked lookup) := by
    intro asked lookup
    by_cases second : asked = 1
    · exact .inr ⟨_, if_pos second⟩
    · exact .inl (if_neg second)
  obtain ⟨e, he, exact⟩ := (evaluation_exact truth scope selected q).1 source given
  have reported : (q.evaluate source none scope).found.any (!·.failures.isEmpty) = true := by
    decide +kernel
  refine ⟨selected, given, e, he, exact, ?_⟩
  simpa [he] using reported

end TagQuery
