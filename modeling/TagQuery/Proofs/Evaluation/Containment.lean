import TagQuery.Proofs.Evaluation.Exactness

/-! Where the items of a finding come from. Nothing is asked of the store but that it stays in scope: it
may leave any question unanswered, and answer the same question one way now and another way later. Main
statement: each item that is found was in the answer to one of the calls, and so is in scope. -/
namespace TagQuery

def Call.Gave (call : Call) (id : Text) : Prop := ∃ ids, call.answer = .ok ids ∧ id ∈ ids

/-- A question is answered with items in scope, whichever they are, or not at all. -/
def Confined (inScope : Text → Prop) (_ : Lookup) (answer : Except Fault ItemSet) : Prop :=
  ∀ ids, answer = .ok ids → ∀ id ∈ ids, inScope id

theorem Call.Gave.inScope {inScope : Text → Prop} {call : Call} {id : Text} (gave : call.Gave id)
    (confined : Confined inScope call.lookup call.answer) : inScope id := by
  obtain ⟨ids, answered, member⟩ := gave
  exact confined ids answered id member

/-- A question that failed has given nothing. -/
theorem Evaluation.gave_of_mem_ofAnswer {lookup : Lookup} {answer : Except Fault ItemSet} {id : Text}
    (member : id ∈ (ofAnswer lookup answer).items) : Call.Gave ⟨lookup, answer⟩ id := by
  cases answer with
  | ok ids => exact ⟨ids, rfl, member⟩
  | error fault => exact absurd member Std.ExtTreeSet.not_mem_empty

namespace Query

variable {answers : Lookup → Except Fault ItemSet → Prop} {q : Query} {calls : List Call}
  {found : Option Evaluation} {id : Text}

/-- Each item that is found was given by one of the calls. -/
theorem Runs.gave (h : Runs answers q calls found) :
    ∀ e ∈ found, id ∈ e.items → ∃ call ∈ calls, call.Gave id := by
  -- AND and NOT keep some items of the side that is asked first, and only OR takes items of both sides.
  induction h with
  | abandoned | andAbandoned => intro e he; cases he
  | tag _ | all _ | notEmpty _ _ =>
    rintro e ⟨⟩ member
    exact ⟨_, List.mem_singleton_self _, Evaluation.gave_of_mem_ofAnswer member⟩
  | andEmpty _ _ ih => exact ih
  | andNot _ _ _ ihl _ =>
    intro e he member
    obtain ⟨r, rfl, rfl⟩ := Option.map_eq_some_iff.mp he
    have kept := (Std.ExtTreeSet.mem_diff_iff.mp member).1
    obtain ⟨call, among, gave⟩ := ihl _ rfl kept
    exact ⟨call, List.mem_append_left _ among, gave⟩
  | and _ _ _ _ ihl _ =>
    intro e he member
    obtain ⟨r, rfl, rfl⟩ := Option.map_eq_some_iff.mp he
    have kept := (Std.ExtTreeSet.mem_inter_iff.mp member).1
    obtain ⟨call, among, gave⟩ := ihl _ rfl kept
    exact ⟨call, List.mem_append_left _ among, gave⟩
  | or _ _ order ihl ihr =>
    intro e he member
    obtain ⟨l, rfl, hr⟩ := Option.bind_eq_some_iff.mp he
    obtain ⟨r, rfl, rfl⟩ := Option.map_eq_some_iff.mp hr
    rcases Std.ExtTreeSet.mem_union_iff.mp member with left | right
    · obtain ⟨call, among, gave⟩ := ihl _ rfl left
      exact ⟨call, order.perm.mem_iff.mpr (List.mem_append_left _ among), gave⟩
    · obtain ⟨call, among, gave⟩ := ihr _ rfl right
      exact ⟨call, order.perm.mem_iff.mpr (List.mem_append_right _ among), gave⟩
  | not _ _ _ _ =>
    intro e he member
    obtain ⟨r, rfl, rfl⟩ := Option.map_eq_some_iff.mp he
    have kept := (Std.ExtTreeSet.mem_diff_iff.mp member).1
    exact ⟨_, List.mem_cons_self, Evaluation.gave_of_mem_ofAnswer kept⟩
  | group _ ih => exact ih

end Query

/-- A finding rests on the calls that led to it: its items are in scope, and each was given by one of
the calls. -/
structure Evaluation.RestsOn (inScope : Text → Prop) (calls : List Call) (e : Evaluation) : Prop where
  inScope : ∀ id ∈ e.items, inScope id
  gave : ∀ id ∈ e.items, ∃ call ∈ calls, call.Gave id

/-- Over a scope without stems nothing is found, and elsewhere only what the calls have given. -/
theorem Query.Evaluates.restsOn {inScope : Text → Prop} {scope : Scope} {q : Query}
    {calls : List Call} {e : Evaluation}
    (h : q.Evaluates (Confined inScope) scope calls (some e)) : e.RestsOn inScope calls := by
  cases h with
  | unselected _ =>
    exact ⟨fun id member => absurd member Std.ExtTreeSet.not_mem_empty,
      fun id member => absurd member Std.ExtTreeSet.not_mem_empty⟩
  | run _ run =>
    refine ⟨fun id member => ?_, fun id member => run.gave e rfl member⟩
    obtain ⟨call, among, gave⟩ := run.gave e rfl member
    exact gave.inScope (run.given call among)

/-- No evaluation leaves the scope, however the store fails or changes between two questions: with one
side of OR after the other, when it always comes to a finding, and with both sides at the same time. -/
theorem evaluation_stays_in_scope (inScope : Text → Prop) (scope : Scope) (q : Query) :
    (∀ source : Source, (∀ asked lookup, Confined inScope lookup (source asked lookup)) →
      ∃ e, (q.evaluate source none scope).found = some e ∧
        e.RestsOn inScope (source.calls 0 (q.evaluate source none scope).asked)) ∧
    ∀ calls e, q.Evaluates (Confined inScope) scope calls (some e) → e.RestsOn inScope calls := by
  refine ⟨fun source confined => ?_, fun calls e h => h.restsOn⟩
  obtain ⟨e, found, steps⟩ := Query.exists_evaluates source confined scope q
  exact ⟨e, found, steps.restsOn⟩

/-- In `cat AND NOT cat` an item loses its tag between the two questions, and is found. -/
theorem evaluation_stays_in_scope_of_change :
    let scope := Scope.ofDirectories true ["/a".toList]
    let inScope : Text → Prop := (· ∈ ["1".toList, "2".toList])
    let source : Source := fun asked _ =>
      .ok (.ofList (if asked = 0 then ["1".toList, "2".toList] else ["2".toList]) compare)
    let q : Query := .and (.tag "cat".toList) (.not (.tag "cat".toList))
    (∀ asked lookup, Confined inScope lookup (source asked lookup)) ∧
      ∃ e, (q.evaluate source none scope).found = some e ∧ e.items.toList = ["1".toList] ∧
        e.RestsOn inScope (source.calls 0 (q.evaluate source none scope).asked) := by
  intro scope inScope source q
  have confined : ∀ asked lookup, Confined inScope lookup (source asked lookup) := by
    rintro asked lookup ids ⟨⟩ id member
    rw [Std.ExtTreeSet.mem_ofList, List.contains_iff_mem] at member
    split at member
    · exact member
    · exact List.mem_cons_of_mem _ member
  obtain ⟨e, he, rests⟩ := (evaluation_stays_in_scope inScope scope q).1 source confined
  have left : (q.evaluate source none scope).found.map (·.items.toList) = some ["1".toList] := by
    decide +kernel
  rw [he] at left
  exact ⟨confined, e, he, Option.some.inj left, rests⟩

end TagQuery
