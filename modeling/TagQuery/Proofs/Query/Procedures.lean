import TagQuery.Query.Descent

/-! What is proved of all procedures of the reader at once. A relation between actions may hold of every
action that leaves the record as it is, and go through from two actions to the one after the other, and
from what a call does to the call. Then it relates each procedure to itself with more depth. -/
namespace TagQuery.Query.Descent

variable {α β : Type} {act act' : Descent α} {f : α → Descent β}

theorem run_bind (act : Descent α) (f : α → Descent β) (memory : Memory) :
    (act >>= f).run.run memory =
      match act.run.run memory with
      | none => none
      | some (.error e, after) => some (.error e, after)
      | some (.ok a, after) => (f a).run.run after := by
  change (act.run.run memory).bind _ = _
  rcases act.run.run memory with _ | ⟨_ | _, _⟩
  all_goals rfl

def Still (act : Descent α) : Prop :=
  ∀ before result after, act.run.run before = some (result, after) → after.events = before.events

namespace Still

theorem bind (h : Still act) (more : ∀ a, Still (f a)) : Still (act >>= f) := by
  intro before result last runs
  rw [run_bind] at runs
  rcases first : act.run.run before with _ | ⟨_ | a, after⟩ <;> rw [first] at runs
  · cases runs
  · cases runs
    exact h _ _ _ first
  · exact (more a _ _ _ runs).trans (h _ _ _ first)

theorem ite {p : Prop} [Decidable p] (h : Still act) (h' : Still act') :
    Still (if p then act else act') := by
  split
  · exact h
  · exact h'

theorem ofExcept (result : Except SyntaxError α) : Still (ofExcept result) :=
  fun _ _ _ runs => by cases runs; rfl

theorem pure (a : α) : Still (pure a : Descent α) := ofExcept (.ok a)

theorem throw (e : SyntaxError) : Still (throw e : Descent α) := ofExcept (.error e)

theorem remaining : Still remaining := fun _ _ _ runs => by cases runs; rfl

theorem advance : Still advance := fun _ _ _ runs => by cases runs; rfl

theorem raise : Still raise := fun _ _ _ runs => by cases runs; rfl

theorem leave : Still leave := fun _ _ _ runs => by cases runs; rfl

theorem phrase (word : Text) : Still (phrase word) := fun _ _ _ runs => by cases runs; rfl

theorem consume (token : Token) : Still (consume token) :=
  remaining.bind fun _ => ite (advance.bind fun _ => pure true) (pure false)

theorem position (reading : Reading) : Still (position reading) := remaining.bind fun _ => pure _

theorem expectOperand (reading : Reading) (operator : Operator) :
    Still (expectOperand reading operator) := remaining.bind fun _ => ofExcept _

theorem enter (reading : Reading) (start : Nat) : Still (enter reading start) :=
  raise.bind fun _ => ite (throw _) (pure ())

theorem descend (fuel : Option Nat) : Still (descend fuel) := by
  match fuel with
  | none => exact pure none
  | some 0 => exact nofun
  | some (fuel + 1) => exact pure (some fuel)

theorem anotherConjunct (reading : Reading) : Still (anotherConjunct reading) :=
  (consume .and).bind fun _ =>
    ite ((expectOperand reading .and).bind fun _ => pure true) (remaining.bind fun _ => pure _)

theorem anotherDisjunct (reading : Reading) : Still (anotherDisjunct reading) :=
  (consume .or).bind fun _ => ite ((expectOperand reading .or).bind fun _ => pure true) (pure false)

end Still

/-- A call of a procedure that does this. -/
def announced (procedure : Procedure) (opened : List Lexeme) (body : Descent Built) :
    Descent Built := do
  let entry ← announce procedure opened
  let built ← body
  report procedure opened entry built

/-- A call at some depth, and the call with more depth, by what they do between their beginning and their
end. Without depth there is nothing to say of the first. -/
inductive Called (R : Descent Built → Descent Built → Prop) (procedure : Procedure)
    (opened : List Lexeme) : Descent Built → Descent Built → Prop
  | endless (act : Descent Built) : Called R procedure opened endless act
  | call {body body' : Descent Built} (h : R body body') :
      Called R procedure opened (announced procedure opened body) (announced procedure opened body')

structure Congruent (R : (α : Type) → Descent α → Descent α → Prop) : Prop where
  still : ∀ {α : Type} {act : Descent α}, Still act → R α act act
  endless : ∀ {α : Type} (act : Descent α), R α endless act
  bind : ∀ {α β : Type} {act act' : Descent α} {f f' : α → Descent β}, R α act act' →
    (∀ a, R β (f a) (f' a)) → R β (act >>= f) (act' >>= f')
  call : ∀ {procedure : Procedure} {opened : List Lexeme} {act act' : Descent Built},
    Called (R Built) procedure opened act act' → R Built act act'

variable {R : (α : Type) → Descent α → Descent α → Prop}

theorem Congruent.after (h : Congruent R) {f' : α → Descent β} (still : Still act)
    (more : ∀ a, R β (f a) (f' a)) : R β (act >>= f) (act >>= f') :=
  h.bind (h.still still) more

theorem related_ite {p : Prop} [Decidable p] {other other' : Descent α} (h : R α act act')
    (h' : R α other other') : R α (if p then act else other) (if p then act' else other') := by
  split
  · exact h
  · exact h'

mutual

theorem disjunction_called (h : Congruent R) (reading : Reading) : ∀ depth fuel opened,
    Called (R Built) .disjunction opened (disjunction reading depth fuel opened)
      (disjunction reading (depth + 1) fuel opened)
  | 0, _, _ => .endless _
  | depth + 1, fuel, opened =>
    .call (h.bind (h.call (conjunction_called h reading depth fuel opened))
      (moreDisjuncts_related h reading depth fuel opened))

theorem moreDisjuncts_related (h : Congruent R) (reading : Reading) : ∀ depth fuel opened left,
    R Built (moreDisjuncts reading depth fuel opened left)
      (moreDisjuncts reading (depth + 1) fuel opened left)
  | 0, _, _, _ => h.endless _
  | depth + 1, fuel, opened, left => by
    refine h.after (.anotherDisjunct reading) fun _ => related_ite ?_ (h.still (.pure left))
    refine h.after (.position reading) fun _ => ?_
    refine h.bind (h.call (conjunction_called h reading depth fuel opened)) fun _ => ?_
    exact h.after (.ofExcept _) fun _ => moreDisjuncts_related h reading depth fuel opened _

theorem conjunction_called (h : Congruent R) (reading : Reading) : ∀ depth fuel opened,
    Called (R Built) .conjunction opened (conjunction reading depth fuel opened)
      (conjunction reading (depth + 1) fuel opened)
  | 0, _, _ => .endless _
  | depth + 1, fuel, opened =>
    .call (h.bind (h.call (negation_called h reading depth fuel opened))
      (moreConjuncts_related h reading depth fuel opened))

theorem moreConjuncts_related (h : Congruent R) (reading : Reading) : ∀ depth fuel opened left,
    R Built (moreConjuncts reading depth fuel opened left)
      (moreConjuncts reading (depth + 1) fuel opened left)
  | 0, _, _, _ => h.endless _
  | depth + 1, fuel, opened, left => by
    refine h.after (.anotherConjunct reading) fun _ => related_ite ?_ (h.still (.pure left))
    refine h.after (.position reading) fun _ => ?_
    refine h.bind (h.call (negation_called h reading depth fuel opened)) fun _ => ?_
    exact h.after (.ofExcept _) fun _ => moreConjuncts_related h reading depth fuel opened _

theorem negation_called (h : Congruent R) (reading : Reading) : ∀ depth fuel opened,
    Called (R Built) .negation opened (negation reading depth fuel opened)
      (negation reading (depth + 1) fuel opened)
  | 0, _, _ => .endless _
  | depth + 1, fuel, opened => by
    refine .call (h.after (.position reading) fun start =>
      h.after (.consume .not) fun _ => related_ite ?_ ?_)
    · refine h.after (.expectOperand reading .not) fun _ => h.after (.enter reading start) fun _ => ?_
      refine h.after (.descend fuel) fun below => ?_
      refine h.bind (h.call (negation_called h reading depth below _)) fun _ => ?_
      exact h.after .leave fun _ => h.still ((Still.ofExcept _).bind fun _ => .pure _)
    · exact h.call (primary_called h reading depth fuel opened)

theorem primary_called (h : Congruent R) (reading : Reading) : ∀ depth fuel opened,
    Called (R Built) .primary opened (primary reading depth fuel opened)
      (primary reading (depth + 1) fuel opened)
  | 0, _, _ => .endless _
  | depth + 1, fuel, opened => by
    refine .call (h.after .advance fun next => ?_)
    split
    · exact h.still (.throw _)
    · exact h.call (group_called h reading depth fuel opened _ _)
    · exact h.still (.pure _)
    · exact h.still (.ite (.pure _) ((Still.phrase _).bind fun _ => .pure _))
    · exact h.still (.ite (.throw _) (.pure _))
    all_goals exact h.still (.throw _)

theorem group_called (h : Congruent R) (reading : Reading) : ∀ depth fuel opened bracket start,
    Called (R Built) .group opened (group reading depth fuel opened bracket start)
      (group reading (depth + 1) fuel opened bracket start)
  | 0, _, _, _, _ => .endless _
  | depth + 1, fuel, opened, bracket, start => by
    refine .call (h.after .remaining fun _ => related_ite (h.still (.throw _)) ?_)
    refine h.after (.enter reading start) fun _ => h.after (.descend fuel) fun below => ?_
    refine h.bind (h.call (disjunction_called h reading depth below _)) fun _ => h.after .leave fun _ => ?_
    refine h.after (.consume (.closing bracket)) fun _ => related_ite ?_ ?_
    · exact h.still ((Still.ofExcept _).bind fun _ => .pure _)
    · exact h.still ((Still.position reading).bind fun _ => .throw _)

end

theorem query_related (h : Congruent R) (reading : Reading) (depth : Nat) (fuel : Option Nat) :
    R Query (query reading depth fuel) (query reading (depth + 1) fuel) := by
  refine h.after .remaining fun _ => related_ite (h.still (.throw _)) ?_
  refine h.bind (h.call (disjunction_called h reading depth fuel [])) fun _ => ?_
  refine h.after .remaining fun _ => ?_
  split
  · exact h.still (.pure _)
  all_goals exact h.still (.throw _)

end TagQuery.Query.Descent
