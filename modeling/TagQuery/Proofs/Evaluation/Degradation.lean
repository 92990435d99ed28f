import TagQuery.Evaluation.Polarity
import TagQuery.Proofs.Evaluation.Exactness
import Mathlib.Algebra.Group.Nat.Even

/-! Which way a finding is off when some questions failed. A failed question counts as answered with no
items, which takes items away below an even number of NOTs and lets items in below an odd number. Main
statement: failures of one kind alone are off one way alone. -/
namespace TagQuery

/-- The same number of NOTs, up to pairs of them. -/
def SameSign (above place : Nat) : Prop := Even place ↔ Even above

/-- One NOT more turns the sign. -/
theorem sameSign_succ {above place : Nat} : SameSign (above + 1) place ↔ ¬ SameSign above place := by
  rw [SameSign, SameSign, Nat.even_add_one, not_iff, not_iff_comm]
  exact iff_comm

def FailOnlyAt (test : Nat → Prop) (calls : List PlacedCall) : Prop :=
  ∀ call ∈ calls, call.isAnswered = false → test call.above

namespace FailOnlyAt

variable {test other : Nat → Prop} {before after calls : List PlacedCall}

theorem mono (weaker : ∀ place, test place → other place) (h : FailOnlyAt test calls) :
    FailOnlyAt other calls :=
  fun call member failed => weaker call.above (h call member failed)

theorem append_iff :
    FailOnlyAt test (before ++ after) ↔ FailOnlyAt test before ∧ FailOnlyAt test after :=
  List.forall_mem_append

theorem interleaved_iff (order : Interleaved before after calls) :
    FailOnlyAt test calls ↔ FailOnlyAt test before ∧ FailOnlyAt test after := by
  rw [← append_iff, FailOnlyAt, FailOnlyAt]
  exact forall_congr' fun call => by rw [order.perm.mem_iff]

/-- A call at a place where none fails was answered. -/
theorem isAnswered_head {call : Call} {above : Nat}
    (h : FailOnlyAt (¬ SameSign above ·) (⟨call, above⟩ :: calls)) : call.isAnswered = true := by
  rw [← Bool.not_eq_false]
  intro failed
  exact h _ List.mem_cons_self failed Iff.rfl

theorem tail {call : PlacedCall} (h : FailOnlyAt test (call :: calls)) : FailOnlyAt test calls :=
  fun later member => h later (List.mem_cons_of_mem _ member)

end FailOnlyAt

namespace Truth

variable {truth : Truth} {lookup : Lookup} {answer : Except Fault ItemSet} {id : Text}

/-- What is answered is true. -/
theorem mem_answer_of_mem_ofAnswer (given : truth.Permits lookup answer)
    (member : id ∈ (Evaluation.ofAnswer lookup answer).items) : id ∈ truth.answer lookup := by
  obtain rfl | ⟨fault, rfl⟩ := given
  · exact member
  · exact absurd member Std.ExtTreeSet.not_mem_empty

/-- What is answered is all that is true. -/
theorem items_of_isAnswered (given : truth.Permits lookup answer)
    (answered : (Call.mk lookup answer).isAnswered = true) :
    (Evaluation.ofAnswer lookup answer).items = truth.answer lookup := by
  obtain rfl | ⟨fault, rfl⟩ := given
  · rfl
  · cases answered

/-- A finding has no item too many when calls fail only where a test is passed, and misses none when
they fail only elsewhere. -/
structure Bounds (truth : Truth) (test : Nat → Prop) (q : Query) (calls : List PlacedCall)
    (e : Evaluation) : Prop where
  lower : FailOnlyAt test calls → ∀ id ∈ e.items, id ∈ truth.matching q
  upper : FailOnlyAt (¬ test ·) calls → ∀ id ∈ truth.matching q, id ∈ e.items

/-- Below one NOT more the bounds change sides. -/
theorem Bounds.below {above : Nat} {q : Query} {calls : List PlacedCall} {e : Evaluation}
    (h : truth.Bounds (SameSign (above + 1)) q calls e) :
    truth.Bounds (¬ SameSign above ·) q calls e :=
  ⟨fun only => h.lower (only.mono fun _ => sameSign_succ.mpr),
    fun only => h.upper (only.mono fun _ => mt sameSign_succ.mp)⟩

end Truth

namespace Query

variable {truth : Truth} {above : Nat} {q : Query} {calls : List PlacedCall} {e : Evaluation}

/-- Calls that fail at places of the sign of the whole query take items away, and the others let items
in. -/
theorem RunsBelow.bounds (h : RunsBelow truth.Permits above q calls e) :
    truth.Bounds (SameSign above) q calls e := by
  -- By induction for both signs at once: NOT, and AND with NOT, use the other bound of their operand.
  induction h with
  | tag given =>
    refine ⟨fun _ id member => ?_, fun only id member => ?_⟩
    · rw [Truth.matching_tag]
      exact Truth.mem_answer_of_mem_ofAnswer given member
    · rwa [Truth.items_of_isAnswered given only.isAnswered_head, ← Truth.matching_tag]
  | all given =>
    refine ⟨fun _ id member => ?_, fun only id member => ?_⟩
    · rw [Truth.matching_all]
      exact Truth.mem_answer_of_mem_ofAnswer given member
    · rwa [Truth.items_of_isAnswered given only.isAnswered_head, ← Truth.matching_all]
  | andEmpty _ empty ih =>
    have nothing := Std.ExtTreeSet.isEmpty_iff.mp empty
    refine ⟨fun _ id member => ?_, fun only id member => ?_⟩
    · rw [nothing] at member
      exact absurd member Std.ExtTreeSet.not_mem_empty
    · rw [Truth.matching_and, Std.ExtTreeSet.mem_inter_iff] at member
      exact ih.upper only id member.1
  | andNot _ _ _ ihl ihr =>
    refine ⟨fun only id member => ?_, fun only id member => ?_⟩
    · obtain ⟨onlyLeft, onlyRight⟩ := FailOnlyAt.append_iff.mp only
      obtain ⟨inLeft, notExcluded⟩ := Std.ExtTreeSet.mem_diff_iff.mp member
      rw [Truth.matching_and_not, Std.ExtTreeSet.mem_diff_iff]
      have excluded := ihr.below.upper (onlyRight.mono fun _ => not_not_intro) id
      exact ⟨ihl.lower onlyLeft id inLeft, mt excluded notExcluded⟩
    · obtain ⟨onlyLeft, onlyRight⟩ := FailOnlyAt.append_iff.mp only
      rw [Truth.matching_and_not, Std.ExtTreeSet.mem_diff_iff] at member
      have notExcluded := mt (ihr.below.lower onlyRight id) member.2
      exact Std.ExtTreeSet.mem_diff_iff.mpr ⟨ihl.upper onlyLeft id member.1, notExcluded⟩
  | and _ _ _ _ ihl ihr =>
    refine ⟨fun only id member => ?_, fun only id member => ?_⟩
    · obtain ⟨onlyLeft, onlyRight⟩ := FailOnlyAt.append_iff.mp only
      obtain ⟨inLeft, inRight⟩ := Std.ExtTreeSet.mem_inter_iff.mp member
      rw [Truth.matching_and, Std.ExtTreeSet.mem_inter_iff]
      exact ⟨ihl.lower onlyLeft id inLeft, ihr.lower onlyRight id inRight⟩
    · obtain ⟨onlyLeft, onlyRight⟩ := FailOnlyAt.append_iff.mp only
      rw [Truth.matching_and, Std.ExtTreeSet.mem_inter_iff] at member
      exact Std.ExtTreeSet.mem_inter_iff.mpr
        ⟨ihl.upper onlyLeft id member.1, ihr.upper onlyRight id member.2⟩
  | or _ _ order ihl ihr =>
    refine ⟨fun only id member => ?_, fun only id member => ?_⟩
    · obtain ⟨onlyLeft, onlyRight⟩ := (FailOnlyAt.interleaved_iff order).mp only
      rw [Truth.matching_or, Std.ExtTreeSet.mem_union_iff]
      exact (Std.ExtTreeSet.mem_union_iff.mp member).imp
        (ihl.lower onlyLeft id) (ihr.lower onlyRight id)
    · obtain ⟨onlyLeft, onlyRight⟩ := (FailOnlyAt.interleaved_iff order).mp only
      rw [Truth.matching_or, Std.ExtTreeSet.mem_union_iff] at member
      exact Std.ExtTreeSet.mem_union_iff.mpr
        (member.imp (ihl.upper onlyLeft id) (ihr.upper onlyRight id))
  | notEmpty given empty =>
    refine ⟨fun _ id member => ?_, fun only id member => ?_⟩
    · rw [Std.ExtTreeSet.isEmpty_iff.mp empty] at member
      exact absurd member Std.ExtTreeSet.not_mem_empty
    · rw [Truth.matching_not, Std.ExtTreeSet.mem_diff_iff] at member
      rw [Truth.items_of_isAnswered given only.isAnswered_head]
      exact member.1
  | not given _ _ ih =>
    refine ⟨fun only id member => ?_, fun only id member => ?_⟩
    · obtain ⟨inScope, notExcluded⟩ := Std.ExtTreeSet.mem_diff_iff.mp member
      rw [Truth.matching_not, Std.ExtTreeSet.mem_diff_iff]
      have excluded := ih.below.upper (only.tail.mono fun _ => not_not_intro) id
      exact ⟨Truth.mem_answer_of_mem_ofAnswer given inScope, mt excluded notExcluded⟩
    · rw [Truth.matching_not, Std.ExtTreeSet.mem_diff_iff] at member
      have notExcluded := mt (ih.below.lower only.tail id) member.2
      rw [← Truth.items_of_isAnswered given only.isAnswered_head] at member
      exact Std.ExtTreeSet.mem_diff_iff.mpr ⟨member.1, notExcluded⟩
  | group _ ih => exact ⟨ih.lower, ih.upper⟩

end Query

/-- A finding is off one way alone, given the calls that led to it. The calls can be placed in the tree;
and when those that failed are all below an even number of NOTs, no item is found of which the query is
not true, and when they are all below an odd number, no item is missed of which it is true. -/
structure Truth.OneSided (truth : Truth) (q : Query) (calls : List Call) (e : Evaluation) : Prop where
  placed : ∃ placed, q.RunsBelow truth.Permits 0 placed e ∧ placed.map PlacedCall.toCall = calls
  lower : ∀ placed, q.RunsBelow truth.Permits 0 placed e → placed.map PlacedCall.toCall = calls →
    (∀ call ∈ placed, call.isAnswered = false → Even call.above) →
      ∀ id ∈ e.items, id ∈ truth.matching q
  upper : ∀ placed, q.RunsBelow truth.Permits 0 placed e → placed.map PlacedCall.toCall = calls →
    (∀ call ∈ placed, call.isAnswered = false → ¬ Even call.above) →
      ∀ id ∈ truth.matching q, id ∈ e.items

theorem Query.Runs.oneSided {truth : Truth} {q : Query} {calls : List Call} {e : Evaluation}
    (h : q.Runs truth.Permits calls (some e)) : truth.OneSided q calls e := by
  have top : ∀ place, SameSign 0 place ↔ Even place := fun place => iff_true_right Even.zero
  refine ⟨h.exists_placed e rfl 0, fun placed run _ only => ?_, fun placed run _ only => ?_⟩
  · exact run.bounds.lower (FailOnlyAt.mono (fun place => (top place).mpr) only)
  · exact run.bounds.upper (FailOnlyAt.mono (fun place => mt (top place).mp) only)

/-- Failures err one way alone over a scope that selects something: with one side of OR after the other,
when an evaluation always comes to a finding, and with both sides at the same time. -/
theorem degradation_one_sided (truth : Truth) (scope : Scope) (selected : scope.isEmpty = false)
    (q : Query) :
    (∀ source : Source, (∀ asked lookup, truth.Permits lookup (source asked lookup)) →
      ∃ e, (q.evaluate source none scope).found = some e ∧
        truth.OneSided q (source.calls 0 (q.evaluate source none scope).asked) e) ∧
    ∀ calls e, q.Evaluates truth.Permits scope calls (some e) → truth.OneSided q calls e := by
  refine ⟨fun source given => ?_, fun calls e h => (h.runs selected).oneSided⟩
  obtain ⟨e, found, steps⟩ := Query.exists_evaluates source given scope q
  exact ⟨e, found, (steps.runs selected).oneSided⟩

/-- In `cat OR NOT dog` the question below NOT fails, and a dog is let in. -/
theorem degradation_one_sided_of_dog :
    let scope := Scope.ofDirectories true ["/a".toList]
    let truth := Truth.ofPairs [("1".toList, "cat".toList), ("2".toList, "dog".toList)]
    let source : Source := fun asked lookup =>
      if asked = 2 then .error (.storage "locked".toList) else .ok (truth.answer lookup)
    let q : Query := .or (.tag "cat".toList) (.not (.tag "dog".toList))
    scope.isEmpty = false ∧ (∀ asked lookup, truth.Permits lookup (source asked lookup)) ∧
      ∃ e, (q.evaluate source none scope).found = some e ∧
        (∀ id ∈ truth.matching q, id ∈ e.items) ∧ e.items.toList = ["1".toList, "2".toList] ∧
        (truth.matching q).toList = ["1".toList] := by
  intro scope truth source q
  have selected : scope.isEmpty = false := by decide +kernel
  have given : ∀ asked lookup, truth.Permits lookup (source asked lookup) := by
    intro asked lookup
    by_cases third : asked = 2
    · exact .inr ⟨_, if_pos third⟩
    · exact .inl (if_neg third)
  obtain ⟨e, found, oneSided⟩ := (degradation_one_sided truth scope selected q).1 source given
  -- The places of the three calls, and the finding that they lead to.
  let placed : List PlacedCall := [⟨⟨.tag "cat".toList, source 0 (.tag "cat".toList)⟩, 0⟩,
    ⟨⟨.all, source 1 .all⟩, 0⟩, ⟨⟨.tag "dog".toList, source 2 (.tag "dog".toList)⟩, 1⟩]
  have run : q.RunsBelow truth.Permits 0 placed _ :=
    .or (.tag (given 0 _)) (.not (given 1 _) (by decide +kernel) (.tag (given 2 _))) (.append _ _)
  have finding : (q.evaluate source none scope).found = some _ := rfl
  obtain rfl := Option.some.inj (finding.symm.trans found)
  have onlyDog : ∀ call ∈ placed, call.isAnswered = false → ¬ Even call.above := by
    decide +kernel
  refine ⟨selected, given, _, found, oneSided.upper placed run rfl onlyDog, ?_, ?_⟩
  · decide +kernel
  · decide +kernel

end TagQuery
