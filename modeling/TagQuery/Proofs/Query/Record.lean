import TagQuery.Proofs.Query.Procedures

/-! What the reader puts on record. An action loses nothing of what is there, and once it has succeeded
each call that was made in it is there with its beginning, its end above it, and the calls made in
between. So a call of any of the five procedures leaves one end if it succeeds, and none if it fails. -/
namespace TagQuery.Query

/-- What calls leave that have all succeeded. -/
inductive Closed : List Event → Prop
  | nil : Closed []
  | call {within earlier : List Event} (procedure : Procedure) (opened : List Lexeme)
      (entry exit : Place) (built : Built) (inner : Closed within) (before : Closed earlier) :
      Closed (.completed procedure opened entry exit built ::
        (within ++ .entered procedure opened entry :: earlier))

theorem Closed.append {later earlier : List Event} (h : Closed later) (before : Closed earlier) :
    Closed (later ++ earlier) := by
  induction h with
  | nil => exact before
  | call procedure opened entry exit built inner _ _ ih =>
    have whole := Closed.call procedure opened entry exit built inner ih
    simpa only [List.cons_append, List.append_assoc] using whole

namespace Descent

def Grows {α : Type} (act : Descent α) : Prop :=
  ∀ before result after, act.run.run before = some (result, after) →
    ∃ own, after.events = own ++ before.events ∧ (result.isOk = true → Closed own)

/-- What is in `within` may lack the ends of calls where the call fails. -/
structure Recorded (procedure : Procedure) (opened : List Lexeme) (call : Descent Built) : Prop where
  succeeds : ∀ {before built after}, call.run.run before = some (.ok built, after) →
    ∃ within, Closed within ∧ after.events =
      .completed procedure opened before.toPlace after.toPlace built ::
        (within ++ .entered procedure opened before.toPlace :: before.events)
  fails : ∀ {before e after}, call.run.run before = some (.error e, after) →
    ∃ within, after.events = within ++ .entered procedure opened before.toPlace :: before.events

inductive Call (reading : Reading) : Procedure → List Lexeme → Descent Built → Prop
  | disjunction (depth : Nat) (fuel : Option Nat) (opened : List Lexeme) :
      Call reading .disjunction opened (Descent.disjunction reading depth fuel opened)
  | conjunction (depth : Nat) (fuel : Option Nat) (opened : List Lexeme) :
      Call reading .conjunction opened (Descent.conjunction reading depth fuel opened)
  | negation (depth : Nat) (fuel : Option Nat) (opened : List Lexeme) :
      Call reading .negation opened (Descent.negation reading depth fuel opened)
  | primary (depth : Nat) (fuel : Option Nat) (opened : List Lexeme) :
      Call reading .primary opened (Descent.primary reading depth fuel opened)
  | group (depth : Nat) (fuel : Option Nat) (opened : List Lexeme) (bracket : Bracket) (start : Nat) :
      Call reading .group opened (Descent.group reading depth fuel opened bracket start)

variable {α β : Type} {act : Descent α} {f : α → Descent β} {procedure : Procedure}
  {opened : List Lexeme} {call call' : Descent Built}

theorem Grows.bind (h : Grows act) (more : ∀ a, Grows (f a)) : Grows (act >>= f) := by
  intro before result last runs
  rw [run_bind] at runs
  rcases first : act.run.run before with _ | ⟨_ | a, after⟩ <;> rw [first] at runs
  · cases runs
  · cases runs
    obtain ⟨own, events, -⟩ := h _ _ _ first
    exact ⟨own, events, nofun⟩
  · obtain ⟨own, events, closed⟩ := h _ _ _ first
    obtain ⟨later, eventsLast, closedLast⟩ := more a _ _ _ runs
    refine ⟨later ++ own, ?_, fun ok => (closedLast ok).append (closed rfl)⟩
    rw [eventsLast, events, List.append_assoc]

theorem Recorded.grows (h : Recorded procedure opened call) : Grows call := by
  intro before result after runs
  cases result with
  | error e =>
    obtain ⟨within, events⟩ := h.fails runs
    exact ⟨within ++ [.entered procedure opened before.toPlace], by simp [events], nofun⟩
  | ok built =>
    obtain ⟨within, closed, events⟩ := h.succeeds runs
    refine ⟨_, ?_, fun _ => .call procedure opened before.toPlace after.toPlace built closed .nil⟩
    simp [events]

theorem Grows.announced {body : Descent Built} (h : Grows body) :
    Recorded procedure opened (announced procedure opened body) := by
  have runs (before : Memory) : (Descent.announced procedure opened body).run.run before =
      (body >>= report procedure opened before.toPlace).run.run
        ⟨before.toPlace, .entered procedure opened before.toPlace :: before.events⟩ := rfl
  constructor
  · intro before built after
    rw [runs, run_bind]
    rcases inside : body.run.run _ with _ | ⟨_ | built', between⟩
    · nofun
    · nofun
    · rintro ⟨⟩
      obtain ⟨within, events, closed⟩ := h _ _ _ inside
      exact ⟨within, closed rfl, congrArg (_ :: ·) events⟩
  · intro before e after
    rw [runs, run_bind]
    rcases inside : body.run.run _ with _ | ⟨_ | built', between⟩
    · nofun
    · rintro ⟨⟩
      obtain ⟨within, events, -⟩ := h _ _ _ inside
      exact ⟨within, events⟩
    · nofun

theorem Called.recorded (h : Called (fun act _ => Grows act) procedure opened call call') :
    Recorded procedure opened call := by
  cases h with
  | endless => exact ⟨nofun, nofun⟩
  | call grows => exact grows.announced

theorem congruent_grows : Congruent fun _ act _ => Grows act where
  still h := fun before result after runs => ⟨[], h before result after runs, fun _ => .nil⟩
  endless _ := nofun
  bind := Grows.bind
  call h := h.recorded.grows

theorem Call.recorded {reading : Reading} (h : Call reading procedure opened call) :
    Recorded procedure opened call := by
  cases h with
  | disjunction depth fuel => exact (disjunction_called congruent_grows reading depth fuel opened).recorded
  | conjunction depth fuel => exact (conjunction_called congruent_grows reading depth fuel opened).recorded
  | negation depth fuel => exact (negation_called congruent_grows reading depth fuel opened).recorded
  | primary depth fuel => exact (primary_called congruent_grows reading depth fuel opened).recorded
  | group depth fuel _ bracket start =>
    exact (group_called congruent_grows reading depth fuel opened bracket start).recorded

theorem query_grows (reading : Reading) (depth : Nat) (fuel : Option Nat) :
    Grows (query reading depth fuel) :=
  query_related congruent_grows reading depth fuel

end Descent

end TagQuery.Query
