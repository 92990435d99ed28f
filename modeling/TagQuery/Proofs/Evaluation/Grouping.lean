import TagQuery.Proofs.Evaluation.Cancellation

/-! What groups change. A NOT on the right of AND is taken away from the left side, and the question for
all items is not asked; with a group around it, it is asked. Main statement: groups change none of the
items that are found when that question is answered, nor when no group stands around such a NOT. Where it
fails, they may. -/
namespace TagQuery

/-- A store with one answer to each question, which may be a failure. Asked for all items it gives those in
scope, and asked for a tag it gives some of them. -/
structure Responder where
  inScope : ItemSet
  answer : Lookup → Except Fault ItemSet
  all_eq : ∀ {ids}, answer .all = .ok ids → ids = inScope
  within : ∀ {name ids id}, answer (.tag name) = .ok ids → id ∈ ids → id ∈ inScope

namespace Responder

/-- The store that answers truly, except to some questions, which always fail. -/
def ofTruth (truth : Truth) (fails : Lookup → Bool) : Responder where
  inScope := truth.all
  answer lookup :=
    if fails lookup then .error (.storage "locked".toList) else .ok (truth.answer lookup)
  all_eq answered := by
    split at answered
    · cases answered
    · exact (Except.ok.inj answered).symm
  within answered member := by
    split at answered
    · cases answered
    · cases answered
      exact truth.within member

variable {store : Responder} {scope : Scope} {q r : Query} {id name : Text}

def Gives (store : Responder) (lookup : Lookup) (given : Except Fault ItemSet) : Prop :=
  given = store.answer lookup

def items (store : Responder) (lookup : Lookup) : ItemSet :=
  (Evaluation.ofAnswer lookup (store.answer lookup)).items

def carries (store : Responder) (id name : Text) : Bool := (store.items (.tag name)).contains id

def matching (store : Responder) (q : Query) : ItemSet :=
  store.inScope.filter fun id => q.holds (store.carries id)

theorem mem_matching :
    id ∈ store.matching q ↔ id ∈ store.inScope ∧ q.holds (store.carries id) = true := by
  simp [matching, Std.ExtTreeSet.mem_filter]

@[simp] theorem carries_iff : store.carries id name = true ↔ id ∈ store.items (.tag name) :=
  Std.ExtTreeSet.contains_iff_mem

theorem mem_inScope_of_mem_items (member : id ∈ store.items (.tag name)) : id ∈ store.inScope := by
  unfold items at member
  cases answered : store.answer (.tag name) with
  | error fault =>
    rw [answered] at member
    exact absurd member Std.ExtTreeSet.not_mem_empty
  | ok ids =>
    rw [answered] at member
    exact store.within answered member

/-- The answers say which items are in scope, if the question for all of them is answered. A tag of a
failed question is carried by none. -/
theorem reads {ids : ItemSet} (answered : store.answer .all = .ok ids) :
    Query.Reads store.Gives store.inScope store.carries where
  all := by
    rintro _ rfl
    rw [answered]
    exact store.all_eq answered
  tag := by
    rintro name _ rfl id
    rw [carries_iff]
    exact ⟨fun member => ⟨mem_inScope_of_mem_items member, member⟩, And.right⟩

@[simp] theorem matching_ungrouped : store.matching q.ungrouped = store.matching q := by
  apply Std.ExtTreeSet.ext_mem
  intro id
  simp only [mem_matching, Query.holds_ungrouped]

end Responder

namespace Query

variable {store : Responder} {q : Query} {calls : List Call} {found : Option Evaluation}

/-- Whether some group stands around a NOT on the right of an AND. -/
def hidesNegation : Query → Bool
  | tag _ => false
  | all => false
  | and left right =>
    (right.ungrouped.isNegation && !right.isNegation) || left.hidesNegation || right.hidesNegation
  | or left right => left.hidesNegation || right.hidesNegation
  | not inner => inner.hidesNegation
  | group inner => inner.hidesNegation

/-- Where no group stands around such a NOT, the same is asked without the groups, and the same is found. -/
theorem course_ungrouped (source : Source) (q : Query) (asked : Nat)
    (plain : q.hidesNegation = false) :
    q.ungrouped.course source none asked = q.course source none asked := by
  induction q, asked using course.induct source none with
  | case1 | case3 | case5 | case7 | case9 | case11 | case13 => contradiction
  | case2 | case4 => rfl
  | case6 left excluded asked _ first ihl ihr =>
    simp only [hidesNegation, Bool.or_eq_false_iff] at plain
    obtain ⟨⟨-, plainLeft⟩, plainRight⟩ := plain
    simp only [ungrouped, course_andNot, ihl plainLeft]
    rw [ihr plainRight]
  | case8 left right asked noNegation _ first ihl ihr =>
    simp only [hidesNegation, Bool.or_eq_false_iff] at plain
    obtain ⟨⟨sameTop, plainLeft⟩, plainRight⟩ := plain
    have bare := isNegation_eq_false noNegation
    have bareUngrouped : right.ungrouped.isNegation = false := by simpa [bare] using sameTop
    simp only [ungrouped, course_and bare, course_and bareUngrouped, ihl plainLeft]
    rw [ihr plainRight]
  | case10 left right asked _ first ihl ihr =>
    simp only [hidesNegation, Bool.or_eq_false_iff] at plain
    obtain ⟨plainLeft, plainRight⟩ := plain
    simp only [ungrouped, course, ihl plainLeft]
    rw [ihr plainRight]
  | case12 inner asked _ ih => simp only [ungrouped, course_not, ih plain]
  | case14 inner asked running ih =>
    rw [ungrouped, ih plain, course, if_neg running]

theorem evaluate_ungrouped (source : Source) (scope : Scope) (plain : q.hidesNegation = false) :
    q.ungrouped.evaluate source none scope = q.evaluate source none scope := by
  unfold evaluate
  rw [course_ungrouped source q 0 plain]

end Query

namespace Responder

variable {store : Responder} {scope : Scope} {q r : Query}

/-- Two queries find the same items in the store: with one side of OR after the other, when both come to a
finding, and with both sides at the same time. -/
structure FindsAlike (store : Responder) (scope : Scope) (q r : Query) : Prop where
  sequential : ∃ e f, (q.evaluate (fun _ => store.answer) none scope).found = some e ∧
    (r.evaluate (fun _ => store.answer) none scope).found = some f ∧ e.items = f.items
  concurrent : ∀ {calls calls' e f}, q.Evaluates store.Gives scope calls (some e) →
    r.Evaluates store.Gives scope calls' (some f) → e.items = f.items

/-- With one answer to each question the order in which the two sides of OR go on does not matter. -/
theorem FindsAlike.of_sequential {e f : Evaluation}
    (first : (q.evaluate (fun _ => store.answer) none scope).found = some e)
    (second : (r.evaluate (fun _ => store.answer) none scope).found = some f)
    (same : e.items = f.items) : store.FindsAlike scope q r := by
  refine ⟨⟨e, f, first, second, same⟩, fun {calls calls' e' f'} run run' => ?_⟩
  have found : some e' = some e := run.found_evaluate.symm.trans first
  have found' : some f' = some f := run'.found_evaluate.symm.trans second
  rwa [Option.some.inj found, Option.some.inj found']

/-- What is found in a scope that selects something, when the question for all items is answered. -/
theorem items_evaluate {ids : ItemSet} (answered : store.answer .all = .ok ids)
    (selected : scope.isEmpty = false) (q : Query) :
    ∃ e, (q.evaluate (fun _ => store.answer) none scope).found = some e ∧
      e.items = store.matching q := by
  have given : ∀ asked lookup, store.Gives lookup ((fun _ => store.answer : Source) asked lookup) :=
    fun _ _ => rfl
  obtain ⟨e, found, steps⟩ := Query.exists_evaluates _ given scope q
  refine ⟨e, found, ?_⟩
  apply Std.ExtTreeSet.ext_mem
  intro id
  rw [mem_matching]
  exact (steps.runs selected).mem_items_iff (reads answered) e rfl id

/-- Trees that differ in their groups alone find the same when the question for all items is answered. -/
theorem findsAlike_of_answered {ids : ItemSet} (answered : store.answer .all = .ok ids)
    (selected : scope.isEmpty = false) (same : q.ungrouped = r.ungrouped) :
    store.FindsAlike scope q r := by
  obtain ⟨e, found, items⟩ := items_evaluate answered selected q
  obtain ⟨f, found', items'⟩ := items_evaluate answered selected r
  refine .of_sequential found found' ?_
  rw [items, items', ← matching_ungrouped, same, matching_ungrouped]

end Responder

/-- Groups say nothing to a store with one answer to each question, over a scope that selects something, as
long as the question for all items is answered, whichever others fail, or no group stands around a NOT on
the right of an AND. In particular, to take away from the left side is then to keep what passes NOT. -/
theorem groups_say_nothing (store : Responder) (scope : Scope) (selected : scope.isEmpty = false) :
    (∀ q : Query, (∃ ids, store.answer .all = .ok ids) ∨ q.hidesNegation = false →
      store.FindsAlike scope q q.ungrouped) ∧
    ∀ left excluded : Query, (∃ ids, store.answer .all = .ok ids) →
      store.FindsAlike scope (.and left (.not excluded)) (.and left (.group (.not excluded))) := by
  refine ⟨fun q harmless => ?_, fun left excluded ⟨ids, answered⟩ => ?_⟩
  · rcases harmless with ⟨ids, answered⟩ | plain
    · have bare : q.ungrouped = q.ungrouped.ungrouped := q.ungrouped_ungrouped.symm
      exact Responder.findsAlike_of_answered answered selected bare
    · obtain ⟨e, found⟩ := Query.exists_found_evaluate (fun _ => store.answer) scope q
      have found' := found
      rw [← Query.evaluate_ungrouped _ scope plain] at found'
      exact .of_sequential found found' rfl
  · exact Responder.findsAlike_of_answered answered selected rfl

/-- In a store that fails to find the dogs, `cat AND (NOT dog)` asks three questions and finds the cat, as
`cat AND NOT dog` does with two. -/
theorem groups_say_nothing_of_cat :
    let scope := Scope.ofDirectories true ["/a".toList]
    let truth := Truth.ofPairs [("1".toList, "cat".toList), ("2".toList, "dog".toList)]
    let store := Responder.ofTruth truth (· == .tag "dog".toList)
    let q : Query := .and (.tag "cat".toList) (.group (.not (.tag "dog".toList)))
    scope.isEmpty = false ∧ (∃ ids, store.answer .all = .ok ids) ∧ q.hidesNegation = true ∧
      store.FindsAlike scope q q.ungrouped ∧
      (q.evaluate (fun _ => store.answer) none scope).asked.length = 3 ∧
      (q.ungrouped.evaluate (fun _ => store.answer) none scope).asked.length = 2 := by
  intro scope truth store q
  have selected : scope.isEmpty = false := by decide +kernel
  have answered : ∃ ids, store.answer .all = .ok ids := ⟨truth.all, rfl⟩
  have alike := (groups_say_nothing store scope selected).1 q (.inl answered)
  refine ⟨selected, answered, by decide, alike, ?_, ?_⟩
  · decide +kernel
  · decide +kernel

/-- When the question for all items fails, `cat AND (NOT dog)` finds nothing, and `cat AND NOT dog`, which
does not ask it, finds the cat. -/
theorem groups_lose_items_of_failure :
    let scope := Scope.ofDirectories true ["/a".toList]
    let truth := Truth.ofPairs [("1".toList, "cat".toList), ("2".toList, "dog".toList)]
    let store := Responder.ofTruth truth (· == .all)
    let q : Query := .and (.tag "cat".toList) (.group (.not (.tag "dog".toList)))
    scope.isEmpty = false ∧ ¬ store.FindsAlike scope q q.ungrouped ∧
      (q.evaluate (fun _ => store.answer) none scope).items?.map (·.toList) = some [] ∧
      (q.ungrouped.evaluate (fun _ => store.answer) none scope).items?.map (·.toList) =
        some ["1".toList] := by
  intro scope truth store q
  have grouped : (q.evaluate (fun _ => store.answer) none scope).items?.map (·.toList) =
      some [] := by decide +kernel
  have bare : (q.ungrouped.evaluate (fun _ => store.answer) none scope).items?.map (·.toList) =
      some ["1".toList] := by decide +kernel
  refine ⟨by decide +kernel, fun alike => ?_, grouped, bare⟩
  obtain ⟨e, f, found, found', same⟩ := alike.sequential
  rw [Course.items?, found, Option.map_some, Option.map_some, same] at grouped
  rw [Course.items?, found', Option.map_some, Option.map_some, Option.some.inj grouped] at bare
  cases bare

end TagQuery
