import TagQuery.Evaluation

/-! Evaluations in which the two sides of OR go on at the same time. The questions of one side may
come between those of the other in any way, a question may have several answers, and any node may
find that the evaluation has been abandoned. One after the other is one of the ways. -/
namespace TagQuery

structure Call where
  lookup : Lookup
  answer : Except Fault ItemSet

/-- The questions that a source is asked in turn, after so many others, with its answers. -/
def Source.calls (source : Source) : Nat → List Lookup → List Call
  | _, [] => []
  | asked, lookup :: rest => ⟨lookup, source asked lookup⟩ :: source.calls (asked + 1) rest

@[simp] theorem Source.calls_nil (source : Source) (asked : Nat) : source.calls asked [] = [] := rfl

@[simp] theorem Source.calls_cons (source : Source) (asked : Nat) (lookup : Lookup)
    (rest : List Lookup) :
    source.calls asked (lookup :: rest) =
      ⟨lookup, source asked lookup⟩ :: source.calls (asked + 1) rest := rfl

theorem Source.calls_append (source : Source) (asked : Nat) (before after : List Lookup) :
    source.calls asked (before ++ after) =
      source.calls asked before ++ source.calls (asked + before.length) after := by
  induction before generalizing asked with
  | nil => rfl
  | cons lookup rest ih =>
    simp only [List.cons_append, calls_cons, ih, List.length_cons, List.cons.injEq, true_and]
    rw [Nat.add_right_comm, Nat.add_assoc]

@[simp] theorem Source.length_calls (source : Source) (asked : Nat) (lookups : List Lookup) :
    (source.calls asked lookups).length = lookups.length := by
  induction lookups generalizing asked with
  | nil => rfl
  | cons lookup rest ih => rw [calls_cons, List.length_cons, List.length_cons, ih]

/-- The last list holds the members of the other two, and those of each in their order. -/
inductive Interleaved {α : Type} : List α → List α → List α → Prop
  | nil : Interleaved [] [] []
  | left {as bs cs : List α} (a : α) (rest : Interleaved as bs cs) :
      Interleaved (a :: as) bs (a :: cs)
  | right {as bs cs : List α} (b : α) (rest : Interleaved as bs cs) :
      Interleaved as (b :: bs) (b :: cs)

namespace Interleaved

variable {α : Type}

theorem nil_left (bs : List α) : Interleaved [] bs bs := by
  induction bs with
  | nil => exact .nil
  | cons b _ ih => exact .right b ih

/-- One after the other is an interleaving. -/
theorem append (as bs : List α) : Interleaved as bs (as ++ bs) := by
  induction as with
  | nil => exact nil_left bs
  | cons a _ ih => exact .left a ih

/-- Nothing is lost, and nothing is added. -/
theorem perm {as bs cs : List α} (h : Interleaved as bs cs) : cs.Perm (as ++ bs) := by
  induction h with
  | nil => exact .nil
  | left a _ ih => exact .cons a ih
  | right b _ ih => exact (List.Perm.cons b ih).trans List.perm_middle.symm

end Interleaved

namespace Query

def isNegation : Query → Bool
  | not _ => true
  | _ => false

theorem isNegation_eq_false {q : Query} (other : ∀ inner, q = not inner → False) :
    q.isNegation = false := by
  cases q with
  | not inner => exact (other inner rfl).elim
  | _ => rfl

/-- The query can be evaluated with these calls, in this order, to this finding, or to none when the
evaluation is abandoned. -/
inductive Runs (answers : Lookup → Except Fault ItemSet → Prop) :
    Query → List Call → Option Evaluation → Prop
  | abandoned (q : Query) : Runs answers q [] none
  | tag {name : Text} {answer : Except Fault ItemSet} (given : answers (.tag name) answer) :
      Runs answers (.tag name) [⟨.tag name, answer⟩] (some (.ofAnswer (.tag name) answer))
  | all {answer : Except Fault ItemSet} (given : answers .all answer) :
      Runs answers .all [⟨.all, answer⟩] (some (.ofAnswer .all answer))
  | andAbandoned {left right : Query} {calls : List Call} (first : Runs answers left calls none) :
      Runs answers (.and left right) calls none
  | andEmpty {left right : Query} {calls : List Call} {l : Evaluation}
      (first : Runs answers left calls (some l)) (empty : l.items.isEmpty = true) :
      Runs answers (.and left right) calls (some l)
  | andNot {left excluded : Query} {before after : List Call} {l : Evaluation}
      {found : Option Evaluation} (first : Runs answers left before (some l))
      (some_left : l.items.isEmpty = false) (second : Runs answers excluded after found) :
      Runs answers (.and left (.not excluded)) (before ++ after)
        (found.map (l.combine (· \ ·)))
  | and {left right : Query} {before after : List Call} {l : Evaluation}
      {found : Option Evaluation} (plain : right.isNegation = false)
      (first : Runs answers left before (some l)) (some_left : l.items.isEmpty = false)
      (second : Runs answers right after found) :
      Runs answers (.and left right) (before ++ after) (found.map (l.combine (· ∩ ·)))
  | or {left right : Query} {before after calls : List Call} {l r : Option Evaluation}
      (first : Runs answers left before l) (second : Runs answers right after r)
      (order : Interleaved before after calls) :
      Runs answers (.or left right) calls
        (l.bind fun a => r.map fun b => Evaluation.combine (· ∪ ·) a b)
  | notEmpty {inner : Query} {answer : Except Fault ItemSet} (given : answers .all answer)
      (empty : (Evaluation.ofAnswer .all answer).items.isEmpty = true) :
      Runs answers (.not inner) [⟨.all, answer⟩] (some (.ofAnswer .all answer))
  | not {inner : Query} {answer : Except Fault ItemSet} {calls : List Call}
      {found : Option Evaluation} (given : answers .all answer)
      (some_left : (Evaluation.ofAnswer .all answer).items.isEmpty = false)
      (second : Runs answers inner calls found) :
      Runs answers (.not inner) (⟨.all, answer⟩ :: calls)
        (found.map ((Evaluation.ofAnswer .all answer).combine (· \ ·)))
  | group {inner : Query} {calls : List Call} {found : Option Evaluation}
      (body : Runs answers inner calls found) : Runs answers (.group inner) calls found

/-- Evaluation with one side of OR after the other is one of the possible runs. -/
theorem runs_course {answers : Lookup → Except Fault ItemSet → Prop} (source : Source)
    (patience : Patience) (given : ∀ asked lookup, answers lookup (source asked lookup))
    (q : Query) (asked : Nat) :
    Runs answers q (source.calls asked (q.course source patience asked).asked)
      (q.course source patience asked).found := by
  fun_induction course source patience q asked with
  | case1 | case3 | case5 | case7 | case9 | case11 | case13 => exact .abandoned _
  | case2 => exact .tag (given _ _)
  | case4 => exact .all (given _ _)
  | case6 left excluded asked _ first ihl ihr =>
    cases hl : first.found with
    | none =>
      rw [Course.andThen_of_none hl, hl]
      exact .andAbandoned (hl ▸ ihl)
    | some l =>
      rw [Course.andThen_of_some hl]
      by_cases empty : l.items.isEmpty = true
      · simpa [empty] using Runs.andEmpty (hl ▸ ihl) empty
      · simpa [empty, Source.calls_append] using
          Runs.andNot (hl ▸ ihl) (Bool.eq_false_iff.mpr empty) ihr
  | case8 left right asked plain _ first ihl ihr =>
    cases hl : first.found with
    | none =>
      rw [Course.andThen_of_none hl, hl]
      exact .andAbandoned (hl ▸ ihl)
    | some l =>
      rw [Course.andThen_of_some hl]
      by_cases empty : l.items.isEmpty = true
      · simpa [empty] using Runs.andEmpty (hl ▸ ihl) empty
      · simpa [empty, Source.calls_append] using
          Runs.and (isNegation_eq_false plain) (hl ▸ ihl) (Bool.eq_false_iff.mpr empty) ihr
  | case10 left right asked _ first ihl ihr =>
    rw [Course.asked_both, Course.found_both, Source.calls_append]
    exact .or ihl ihr (.append _ _)
  | case12 inner asked _ ih =>
    have answered : (source.ask asked .all).found =
        some (.ofAnswer .all (source asked .all)) := rfl
    rw [Course.andThen_of_some answered]
    by_cases empty : (Evaluation.ofAnswer .all (source asked .all)).items.isEmpty = true
    · have run : Runs answers (.not inner) _ _ := .notEmpty (given asked .all) empty
      simpa [empty, Source.ask] using run
    · simpa [empty, Source.ask] using
        Runs.not (given asked .all) (Bool.eq_false_iff.mpr empty) ih
  | case14 inner asked _ ih => exact .group ih

/-- As `Runs`, over a scope. Over a scope that selects nothing there is nothing to ask. -/
inductive Evaluates (answers : Lookup → Except Fault ItemSet → Prop) (scope : Scope) (q : Query) :
    List Call → Option Evaluation → Prop
  | unselected (empty : scope.isEmpty = true) : Evaluates answers scope q [] (some {})
  | run {calls : List Call} {found : Option Evaluation} (selected : scope.isEmpty = false)
      (run : Runs answers q calls found) : Evaluates answers scope q calls found

/-- Evaluation over a scope with one side of OR after the other is one of the possible ones. -/
theorem evaluates_evaluate {answers : Lookup → Except Fault ItemSet → Prop} (source : Source)
    (patience : Patience) (given : ∀ asked lookup, answers lookup (source asked lookup))
    (scope : Scope) (q : Query) :
    Evaluates answers scope q (source.calls 0 (q.evaluate source patience scope).asked)
      (q.evaluate source patience scope).found := by
  by_cases empty : scope.isEmpty = true
  · rw [evaluate, if_pos empty]
    exact .unselected empty
  · rw [evaluate, if_neg empty]
    exact .run (Bool.eq_false_iff.mpr empty) (runs_course source patience given q 0)

end Query
end TagQuery
