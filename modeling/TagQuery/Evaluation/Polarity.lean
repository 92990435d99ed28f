import TagQuery.Evaluation.Concurrent

/-! Evaluations in which each call is placed in the tree, by the number of NOTs above the node that makes
it. Every evaluation that comes to a finding is one of them, with the places left out. -/
namespace TagQuery

/-- A call, with the number of NOTs above the node that makes it. -/
structure PlacedCall extends Call where
  above : Nat

namespace Interleaved

variable {α β : Type}

/-- Lists that are interleaved after a change of their members were so before. -/
theorem exists_map_eq {f : α → β} {as bs : List α} {cs : List β}
    (h : Interleaved (as.map f) (bs.map f) cs) :
    ∃ ds, Interleaved as bs ds ∧ ds.map f = cs := by
  generalize onLeft : as.map f = left at h
  generalize onRight : bs.map f = right at h
  induction h generalizing as bs with
  | nil =>
    rw [List.map_eq_nil_iff] at onLeft onRight
    subst onLeft onRight
    exact ⟨[], .nil, rfl⟩
  | left _ _ ih =>
    obtain ⟨a, as', rfl, rfl, same⟩ := List.map_eq_cons_iff.mp onLeft
    obtain ⟨ds, order, rfl⟩ := ih same onRight
    exact ⟨a :: ds, .left a order, rfl⟩
  | right _ _ ih =>
    obtain ⟨b, bs', rfl, rfl, same⟩ := List.map_eq_cons_iff.mp onRight
    obtain ⟨ds, order, rfl⟩ := ih onLeft same
    exact ⟨b :: ds, .right b order, rfl⟩

theorem map (f : α → β) {as bs cs : List α} (h : Interleaved as bs cs) :
    Interleaved (as.map f) (bs.map f) (cs.map f) := by
  induction h with
  | nil => exact .nil
  | left a _ ih => exact .left (f a) ih
  | right b _ ih => exact .right (f b) ih

end Interleaved

namespace Query

/-- As `Runs`, for a query below so many NOTs, when the evaluation is not abandoned. The operand of NOT is
below one more; the question for all items is asked by NOT itself. -/
inductive RunsBelow (answers : Lookup → Except Fault ItemSet → Prop) :
    Nat → Query → List PlacedCall → Evaluation → Prop
  | tag {above : Nat} {name : Text} {answer : Except Fault ItemSet}
      (given : answers (.tag name) answer) :
      RunsBelow answers above (.tag name) [⟨⟨.tag name, answer⟩, above⟩]
        (.ofAnswer (.tag name) answer)
  | all {above : Nat} {answer : Except Fault ItemSet} (given : answers .all answer) :
      RunsBelow answers above .all [⟨⟨.all, answer⟩, above⟩] (.ofAnswer .all answer)
  | andEmpty {above : Nat} {left right : Query} {calls : List PlacedCall} {l : Evaluation}
      (first : RunsBelow answers above left calls l) (empty : l.items.isEmpty = true) :
      RunsBelow answers above (.and left right) calls l
  | andNot {above : Nat} {left excluded : Query} {before after : List PlacedCall}
      {l r : Evaluation} (first : RunsBelow answers above left before l)
      (some_left : l.items.isEmpty = false)
      (second : RunsBelow answers (above + 1) excluded after r) :
      RunsBelow answers above (.and left (.not excluded)) (before ++ after)
        (l.combine (· \ ·) r)
  | and {above : Nat} {left right : Query} {before after : List PlacedCall} {l r : Evaluation}
      (plain : right.isNegation = false) (first : RunsBelow answers above left before l)
      (some_left : l.items.isEmpty = false) (second : RunsBelow answers above right after r) :
      RunsBelow answers above (.and left right) (before ++ after) (l.combine (· ∩ ·) r)
  | or {above : Nat} {left right : Query} {before after calls : List PlacedCall}
      {l r : Evaluation} (first : RunsBelow answers above left before l)
      (second : RunsBelow answers above right after r)
      (order : Interleaved before after calls) :
      RunsBelow answers above (.or left right) calls (l.combine (· ∪ ·) r)
  | notEmpty {above : Nat} {inner : Query} {answer : Except Fault ItemSet}
      (given : answers .all answer)
      (empty : (Evaluation.ofAnswer .all answer).items.isEmpty = true) :
      RunsBelow answers above (.not inner) [⟨⟨.all, answer⟩, above⟩] (.ofAnswer .all answer)
  | not {above : Nat} {inner : Query} {answer : Except Fault ItemSet} {calls : List PlacedCall}
      {r : Evaluation} (given : answers .all answer)
      (some_left : (Evaluation.ofAnswer .all answer).items.isEmpty = false)
      (second : RunsBelow answers (above + 1) inner calls r) :
      RunsBelow answers above (.not inner) (⟨⟨.all, answer⟩, above⟩ :: calls)
        ((Evaluation.ofAnswer .all answer).combine (· \ ·) r)
  | group {above : Nat} {inner : Query} {calls : List PlacedCall} {e : Evaluation}
      (body : RunsBelow answers above inner calls e) :
      RunsBelow answers above (.group inner) calls e

variable {answers : Lookup → Except Fault ItemSet → Prop} {q : Query}

/-- Without the places it is an evaluation as any other. -/
theorem RunsBelow.runs {above : Nat} {calls : List PlacedCall} {e : Evaluation}
    (h : RunsBelow answers above q calls e) :
    Runs answers q (calls.map PlacedCall.toCall) (some e) := by
  induction h with
  | tag given => exact .tag given
  | all given => exact .all given
  | andEmpty _ empty ih => exact .andEmpty ih empty
  | andNot _ some_left _ ihl ihr =>
    rw [List.map_append]
    exact .andNot ihl some_left ihr
  | and plain _ some_left _ ihl ihr =>
    rw [List.map_append]
    exact .and plain ihl some_left ihr
  | or _ _ order ihl ihr => exact .or ihl ihr (order.map PlacedCall.toCall)
  | notEmpty given empty => exact .notEmpty given empty
  | not given some_left _ ih => exact .not given some_left ih
  | group _ ih => exact .group ih

/-- The calls of an evaluation that comes to a finding can be placed. -/
theorem Runs.exists_placed {calls : List Call} {found : Option Evaluation}
    (h : Runs answers q calls found) : ∀ e ∈ found, ∀ above,
      ∃ placed, RunsBelow answers above q placed e ∧ placed.map PlacedCall.toCall = calls := by
  -- An evaluation that comes to a finding has no part that was abandoned.
  induction h with
  | abandoned | andAbandoned => intro e he; cases he
  | tag given =>
    rintro e ⟨⟩ above
    exact ⟨_, .tag given, rfl⟩
  | all given =>
    rintro e ⟨⟩ above
    exact ⟨_, .all given, rfl⟩
  | andEmpty _ empty ih =>
    intro e he above
    obtain ⟨placed, run, rfl⟩ := ih e he above
    cases he
    exact ⟨placed, .andEmpty run empty, rfl⟩
  | andNot _ some_left _ ihl ihr =>
    intro e he above
    obtain ⟨r, rfl, rfl⟩ := Option.map_eq_some_iff.mp he
    obtain ⟨before, first, rfl⟩ := ihl _ rfl above
    obtain ⟨after, second, rfl⟩ := ihr _ rfl (above + 1)
    exact ⟨_, .andNot first some_left second, List.map_append⟩
  | and plain _ some_left _ ihl ihr =>
    intro e he above
    obtain ⟨r, rfl, rfl⟩ := Option.map_eq_some_iff.mp he
    obtain ⟨before, first, rfl⟩ := ihl _ rfl above
    obtain ⟨after, second, rfl⟩ := ihr _ rfl above
    exact ⟨_, .and plain first some_left second, List.map_append⟩
  | or _ _ order ihl ihr =>
    intro e he above
    obtain ⟨l, rfl, hr⟩ := Option.bind_eq_some_iff.mp he
    obtain ⟨r, rfl, rfl⟩ := Option.map_eq_some_iff.mp hr
    obtain ⟨before, first, rfl⟩ := ihl _ rfl above
    obtain ⟨after, second, rfl⟩ := ihr _ rfl above
    obtain ⟨placed, placedOrder, rfl⟩ := order.exists_map_eq
    exact ⟨placed, .or first second placedOrder, rfl⟩
  | notEmpty given empty =>
    rintro e ⟨⟩ above
    exact ⟨_, .notEmpty given empty, rfl⟩
  | not given some_left _ ih =>
    intro e he above
    obtain ⟨r, rfl, rfl⟩ := Option.map_eq_some_iff.mp he
    obtain ⟨placed, second, rfl⟩ := ih _ rfl (above + 1)
    exact ⟨_, .not given some_left second, rfl⟩
  | group _ ih =>
    intro e he above
    obtain ⟨placed, run, rfl⟩ := ih e he above
    exact ⟨placed, .group run, rfl⟩

end Query
end TagQuery
