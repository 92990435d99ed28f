import TagQuery.Query
import TagQuery.Fault
import TagQuery.Scope

/-! Evaluation of a query tree by questions to a store. A question that fails counts as answered
with no items and is reported; NOT is taken against the items in scope; and an evaluation can be
abandoned, which is noticed before every node. -/
namespace TagQuery

inductive Lookup where
  | tag (name : Text)
  | all
  deriving DecidableEq, Repr

def Lookup.describe : Lookup → Text
  | tag name => "tag '".toList ++ name ++ "'".toList
  | all => "all items in scope".toList

structure LookupFailure where
  lookup : Lookup
  reason : Text
  deriving DecidableEq, Repr

def LookupFailure.message (failure : LookupFailure) : Text :=
  failure.lookup.describe ++ ": ".toList ++ failure.reason

/-- What an evaluation finds: the matching items, the questions that failed, in order, and how many
were asked. -/
structure Evaluation where
  items : ItemSet := ∅
  failures : List LookupFailure := []
  lookups : Nat := 0
  deriving DecidableEq

namespace Evaluation

def isComplete (e : Evaluation) : Bool := e.failures.isEmpty

/-- Two findings as one, with an operation on their items. -/
def combine (operation : ItemSet → ItemSet → ItemSet) (first second : Evaluation) : Evaluation :=
  ⟨operation first.items second.items, first.failures ++ second.failures,
    first.lookups + second.lookups⟩

def ofAnswer (lookup : Lookup) : Except Fault ItemSet → Evaluation
  | .ok items => ⟨items, [], 1⟩
  | .error fault => ⟨∅, [⟨lookup, fault.message⟩], 1⟩

end Evaluation

/-- The answers of a store during one evaluation. The number says how many questions came before, so
that a store may answer the same question differently later. -/
abbrev Source := Nat → Lookup → Except Fault ItemSet

/-- The course of an evaluation: the questions in order, and what was found, or nothing when it was
abandoned. -/
structure Course where
  asked : List Lookup
  found : Option Evaluation
  deriving DecidableEq

namespace Course

def done (e : Evaluation) : Course := ⟨[], some e⟩

def abandoned : Course := ⟨[], none⟩

/-- Goes on with what was found, unless the evaluation was abandoned. -/
def andThen (first : Course) (next : Evaluation → Course) : Course :=
  match first.found with
  | none => first
  | some e => ⟨first.asked ++ (next e).asked, (next e).found⟩

def map (f : Evaluation → Evaluation) (course : Course) : Course :=
  ⟨course.asked, course.found.map f⟩

/-- Two courses one after the other, whatever the first one comes to; nothing is found when either
was abandoned. -/
def both (f : Evaluation → Evaluation → Evaluation) (first second : Course) : Course :=
  ⟨first.asked ++ second.asked,
    first.found.bind fun a => second.found.map fun b => f a b⟩

/-- The items found, without the rest of the course. -/
def items? (course : Course) : Option ItemSet := course.found.map Evaluation.items

@[simp] theorem asked_done (e : Evaluation) : (done e).asked = [] := rfl
@[simp] theorem found_done (e : Evaluation) : (done e).found = some e := rfl
@[simp] theorem asked_abandoned : abandoned.asked = [] := rfl
@[simp] theorem found_abandoned : abandoned.found = none := rfl
@[simp] theorem asked_map (f : Evaluation → Evaluation) (course : Course) :
    (course.map f).asked = course.asked := rfl
@[simp] theorem found_map (f : Evaluation → Evaluation) (course : Course) :
    (course.map f).found = course.found.map f := rfl
@[simp] theorem asked_both (f : Evaluation → Evaluation → Evaluation) (a b : Course) :
    (both f a b).asked = a.asked ++ b.asked := rfl
@[simp] theorem found_both (f : Evaluation → Evaluation → Evaluation) (a b : Course) :
    (both f a b).found = a.found.bind fun x => b.found.map fun y => f x y := rfl

/-- An abandoned evaluation does not go on. -/
theorem andThen_of_none {course : Course} (h : course.found = none) (next : Evaluation → Course) :
    course.andThen next = course := by simp only [andThen, h]

theorem andThen_of_some {course : Course} {e : Evaluation} (h : course.found = some e)
    (next : Evaluation → Course) :
    course.andThen next = ⟨course.asked ++ (next e).asked, (next e).found⟩ := by
  simp only [andThen, h]

end Course

/-- When an evaluation is abandoned: never, or once so many questions have been asked. -/
abbrev Patience := Option Nat

def Patience.exhausted (patience : Patience) (asked : Nat) : Bool := patience.any (· ≤ asked)

def Source.ask (source : Source) (asked : Nat) (lookup : Lookup) : Course :=
  ⟨[lookup], some (.ofAnswer lookup (source asked lookup))⟩

/-- Evaluates a tree after so many questions. The right side of AND is not looked at when the left
side found nothing, and a NOT there takes its operand away from the left side, without asking for
all items. Both sides of OR are always evaluated. -/
def Query.course (source : Source) (patience : Patience) : Query → Nat → Course
  | .tag name, asked =>
    if patience.exhausted asked then .abandoned else source.ask asked (.tag name)
  | .all, asked =>
    if patience.exhausted asked then .abandoned else source.ask asked .all
  | .and left (.not excluded), asked =>
    if patience.exhausted asked then .abandoned
    else
      let first := left.course source patience asked
      first.andThen fun l =>
        if l.items.isEmpty then .done l
        else (excluded.course source patience (asked + first.asked.length)).map
          (l.combine (· \ ·))
  | .and left right, asked =>
    if patience.exhausted asked then .abandoned
    else
      let first := left.course source patience asked
      first.andThen fun l =>
        if l.items.isEmpty then .done l
        else (right.course source patience (asked + first.asked.length)).map
          (l.combine (· ∩ ·))
  | .or left right, asked =>
    if patience.exhausted asked then .abandoned
    else
      let first := left.course source patience asked
      first.both (Evaluation.combine (· ∪ ·))
        (right.course source patience (asked + first.asked.length))
  | .not inner, asked =>
    if patience.exhausted asked then .abandoned
    else
      (source.ask asked .all).andThen fun u =>
        if u.items.isEmpty then .done u
        else (inner.course source patience (asked + 1)).map (u.combine (· \ ·))
  | .group inner, asked =>
    if patience.exhausted asked then .abandoned else inner.course source patience asked

/-- Evaluates a query over a scope. Over a scope that selects nothing there is nothing to ask. -/
def Query.evaluate (source : Source) (patience : Patience) (scope : Scope) (query : Query) :
    Course :=
  if scope.isEmpty then .done {} else query.course source patience 0

end TagQuery
