import TagQuery.Proofs.Query.Depth
import TagQuery.Proofs.Query.Record
import TagQuery.Proofs.Query.Soundness

/-! The reader as it runs. Its procedures come to an end, each having read something, with the counter
back where it was; the counter is the number of NOTs and groups that are open, and never over the limit
where a call begins. So they answer what the rules of the grammar answer, and nested calls need no more
fuel than the limit. Main steps: what an action is to do, for one action and for two in a row, and each
procedure from those that it calls. -/
namespace TagQuery.Query

/-- What a call puts on record: the counter is the number of NOTs and groups around the call and within
the limit; and a call that succeeds has read some tokens, has put the counter back, and keeps the height
of the tree that it has built. -/
def Event.Sound (limit : Nat) : Event → Prop
  | entered _ opened entry => entry.nesting = opened.length ∧ opened.length ≤ limit
  | completed _ opened entry exit built =>
    (∃ used, used ≠ [] ∧ entry.rest = used ++ exit.rest) ∧ entry.nesting = opened.length ∧
      exit.nesting = entry.nesting ∧ built.height = built.tree.height

/-- The fuel, if it is bounded, is enough for this many nested calls. -/
def Suffices (room : Nat) (fuel : Option Nat) : Prop := ∀ bound ∈ fuel, room ≤ bound

/-- What an action answers, and the tokens that it leaves. -/
abbrev Outcome (α : Type) := Except SyntaxError (α × List Lexeme)

def Outcome.andThen {α β : Type} (outcome : Outcome α) (next : α → List Lexeme → Outcome β) :
    Outcome β :=
  match outcome with
  | .error e => .error e
  | .ok (a, rest) => next a rest

/-- What a rule answers, with its height, and the tokens that it leaves. -/
def Rule.outcome (rule : Rule) (tokens : List Lexeme) : Outcome Built :=
  (rule tokens).map fun p => (⟨p.tree, p.height⟩, p.rest)

def NextOperand.outcome (next : NextOperand) (tokens : List Lexeme) : Outcome Bool :=
  (next tokens).map fun
    | none => (false, tokens)
    | some following => (true, following.1)

def Reading.chainOutcome (reading : Reading) (next : NextOperand) (join : Query → Query → Query)
    (operand : Rule) (left : Built) (tokens : List Lexeme) : Outcome Built :=
  (reading.chain next join operand left.tree left.height tokens).map fun c =>
    (⟨c.tree, c.height⟩, c.rest)

/-- Whatever is on record so far, the action comes to an end with this outcome, one and the same for all
depths from some on and for all fuel that suffices. It puts only sound events on record; and if it
succeeds the counter is back. -/
def Meets {α : Type} (limit room : Nat) (opened tokens : List Lexeme)
    (act : Nat → Option Nat → Descent α) (outcome : Outcome α) : Prop :=
  ∀ events : List Event, (∀ event ∈ events, event.Sound limit) → ∃ after : Memory,
    (∀ event ∈ after.events, event.Sound limit) ∧
    (∀ a rest, outcome = .ok (a, rest) → after.toPlace = ⟨rest, opened.length⟩) ∧
    ∃ enough, ∀ depth ≥ enough, ∀ fuel, Suffices room fuel →
      (act depth fuel).run.run ⟨⟨tokens, opened.length⟩, events⟩ =
        some (outcome.map Prod.fst, after)

variable {α β : Type} {reading : Reading} {limit room start : Nat} {opened tokens rest : List Lexeme}
  {act act' : Nat → Option Nat → Descent α} {outcome : Outcome α} {answer : Outcome β}
  {next : α → List Lexeme → Outcome β} {a : α} {f : Nat → Option Nat → α → Descent β} {e : SyntaxError}
  {built : Built}

theorem Descent.run_pure (a : α) (memory : Memory) :
    (pure a : Descent α).run.run memory = some (.ok a, memory) := rfl

theorem Descent.run_enter (reading : Reading) (start nesting : Nat) (tokens : List Lexeme)
    (events : List Event) :
    (enter reading start).run.run ⟨⟨tokens, nesting⟩, events⟩ =
      some (if reading.limit < nesting + 1 then .error ⟨.tooDeep, start⟩ else .ok (),
        ⟨⟨tokens, nesting + 1⟩, events⟩) := by
  unfold enter
  rw [run_bind]
  change (if reading.limit < nesting + 1 then throw _ else Pure.pure () : Descent Unit).run.run _ = _
  split
  · rfl
  · rfl

theorem Descent.descend_eq {fuel : Option Nat} (enough : Suffices (room + 1) fuel) :
    ∃ below, Suffices room below ∧ descend fuel = pure below := by
  match fuel with
  | none => exact ⟨none, nofun, rfl⟩
  | some 0 => exact absurd (enough 0 rfl) (Nat.not_succ_le_zero room)
  | some (fuel + 1) =>
    refine ⟨some fuel, ?_, rfl⟩
    rintro _ ⟨⟩
    exact Nat.le_of_succ_le_succ (enough _ rfl)

namespace Meets

/-- A procedure that does something else one call further down. -/
theorem step (unfolds : ∀ depth fuel, act (depth + 1) fuel = act' depth fuel)
    (h : Meets limit room opened tokens act' outcome) :
    Meets limit room opened tokens act outcome := by
  intro events sound
  obtain ⟨after, soundAfter, place, enough, runs⟩ := h events sound
  refine ⟨after, soundAfter, place, enough + 1, fun depth deep fuel fueled => ?_⟩
  obtain ⟨depth, rfl⟩ := Nat.exists_eq_add_of_le' (Nat.le_of_add_left_le deep)
  rw [unfolds]
  exact runs depth (Nat.le_of_succ_le_succ deep) fuel fueled

theorem pure : Meets limit room opened tokens (fun _ _ => pure a) (.ok (a, tokens)) :=
  fun events sound => ⟨_, sound, by rintro _ _ ⟨⟩; rfl, 0, fun _ _ _ _ => rfl⟩

theorem throw : Meets limit room opened tokens (fun _ _ => (throw e : Descent α)) (.error e) :=
  fun events sound => ⟨_, sound, by rintro _ _ ⟨⟩, 0, fun _ _ _ _ => rfl⟩

theorem andThen (next : α → List Lexeme → Outcome β)
    (h : Meets limit room opened tokens act outcome)
    (more : ∀ a rest, outcome = .ok (a, rest) →
      Meets limit room opened rest (fun depth fuel => f depth fuel a) (next a rest)) :
    Meets limit room opened tokens (fun depth fuel => act depth fuel >>= f depth fuel)
      (outcome.andThen next) := by
  intro events sound
  obtain ⟨after, soundAfter, place, enough, runs⟩ := h events sound
  cases outcome with
  | error e =>
    refine ⟨after, soundAfter, by rintro _ _ ⟨⟩, enough, fun depth deep fuel fueled => ?_⟩
    rw [Descent.run_bind, runs depth deep fuel fueled]
    rfl
  | ok answered =>
    obtain ⟨⟨rest, nesting⟩, events'⟩ := after
    obtain ⟨rfl, rfl⟩ := Place.mk.inj (place answered.1 answered.2 rfl)
    obtain ⟨last, soundLast, placeLast, enough', runsOn⟩ :=
      more answered.1 answered.2 rfl events' soundAfter
    refine ⟨last, soundLast, placeLast, max enough enough', fun depth deep fuel fueled => ?_⟩
    rw [Descent.run_bind, runs depth (Nat.le_trans (Nat.le_max_left _ _) deep) fuel fueled]
    exact runsOn depth (Nat.le_trans (Nat.le_max_right _ _) deep) fuel fueled

/-- The first of two actions succeeds. -/
theorem bind (h : Meets limit room opened tokens act (.ok (a, rest)))
    (more : Meets limit room opened rest (fun depth fuel => f depth fuel a) answer) :
    Meets limit room opened tokens (fun depth fuel => act depth fuel >>= f depth fuel) answer :=
  andThen (fun _ _ => answer) h (by rintro _ _ ⟨⟩; exact more)

/-- The first of two actions fails. -/
theorem bind_error (h : Meets limit room opened tokens act (.error e)) :
    Meets limit room opened tokens (fun depth fuel => act depth fuel >>= f depth fuel) (.error e) :=
  andThen (fun _ _ => .error e) h (by rintro _ _ ⟨⟩)

/-- An action that succeeds whatever is on record, and puts these events there. -/
theorem of_run (own : List Event) (sound : ∀ event ∈ own, event.Sound limit)
    (runs : ∀ depth fuel events, (act depth fuel).run.run ⟨⟨tokens, opened.length⟩, events⟩ =
      some (.ok a, ⟨⟨rest, opened.length⟩, own ++ events⟩)) :
    Meets limit room opened tokens act (.ok (a, rest)) := by
  intro events before
  refine ⟨⟨⟨rest, opened.length⟩, own ++ events⟩, ?_, by rintro _ _ ⟨⟩; rfl, 0,
    fun depth _ fuel _ => runs depth fuel events⟩
  exact List.forall_mem_append.mpr ⟨sound, before⟩

theorem ofExcept (result : Except SyntaxError α) :
    Meets limit room opened tokens (fun _ _ => Descent.ofExcept result) (result.map (·, tokens)) := by
  cases result with
  | error e => exact throw
  | ok a => exact pure

theorem ofExcept_then (result : Except SyntaxError α) (next : α → List Lexeme → Outcome β)
    (more : ∀ a, Meets limit room opened tokens (fun depth fuel => f depth fuel a) (next a tokens)) :
    Meets limit room opened tokens (fun depth fuel => Descent.ofExcept result >>= f depth fuel)
      (Outcome.andThen (result.map (·, tokens)) next) := by
  cases result with
  | error e => exact throw.bind_error
  | ok a => exact pure.bind (more a)

theorem remaining :
    Meets limit room opened tokens (fun _ _ => Descent.remaining) (.ok (tokens, tokens)) :=
  of_run [] nofun fun _ _ _ => rfl

theorem position (reading : Reading) :
    Meets limit room opened tokens (fun _ _ => Descent.position reading)
      (.ok (reading.position tokens, tokens)) :=
  remaining.bind pure

theorem expectOperand (reading : Reading) (operator : Operator) :
    Meets limit room opened tokens (fun _ _ => Descent.expectOperand reading operator)
      (((reading.afterOperator operator tokens).map fun _ => ()).map (·, tokens)) :=
  remaining.bind (ofExcept _)

theorem advance :
    Meets limit room opened tokens (fun _ _ => Descent.advance) (.ok (tokens.head?, tokens.tail)) :=
  of_run [] nofun fun _ _ _ => rfl

theorem consume_here (token : Token) (start : Nat) (rest : List Lexeme) :
    Meets limit room opened (⟨token, start⟩ :: rest) (fun _ _ => Descent.consume token)
      (.ok (true, rest)) := by
  have here : (⟨token, start⟩ :: rest : List Lexeme).head?.map Lexeme.token = some token := rfl
  refine remaining.bind ?_
  rw [if_pos here]
  exact advance.bind pure

theorem consume_other {token : Token} (other : tokens.head?.map Lexeme.token ≠ some token) :
    Meets limit room opened tokens (fun _ _ => Descent.consume token) (.ok (false, tokens)) := by
  refine remaining.bind ?_
  rw [if_neg other]
  exact pure

theorem phrase (word : Text) :
    Meets limit room opened tokens (fun _ _ => Descent.phrase word)
      (.ok (Text.joinWith [' '] (word :: (leadingWords tokens).1), (leadingWords tokens).2)) :=
  of_run [] nofun fun _ _ _ => rfl

theorem announce (procedure : Procedure) (within : opened.length ≤ limit) :
    Meets limit room opened tokens (fun _ _ => Descent.announce procedure opened)
      (.ok (⟨tokens, opened.length⟩, tokens)) := by
  have sound : (Event.entered procedure opened ⟨tokens, opened.length⟩).Sound limit := ⟨rfl, within⟩
  exact of_run [_] (List.forall_mem_singleton.mpr sound) fun _ _ _ => rfl

theorem report (procedure : Procedure) (advanced : ∃ used, used ≠ [] ∧ tokens = used ++ rest)
    (height : built.height = built.tree.height) :
    Meets limit room opened rest
      (fun _ _ => Descent.report procedure opened ⟨tokens, opened.length⟩ built) (.ok (built, rest)) := by
  have sound : (Event.completed procedure opened ⟨tokens, opened.length⟩ ⟨rest, opened.length⟩
    built).Sound limit := ⟨advanced, rfl, rfl, height⟩
  exact of_run [_] (List.forall_mem_singleton.mpr sound) fun _ _ _ => rfl

/-- A call, whose body is to read something and to keep the height of what it has built. -/
theorem call {body : Nat → Option Nat → Descent Built} {outcome : Outcome Built} (procedure : Procedure)
    (within : opened.length ≤ limit) (runs : Meets limit room opened tokens body outcome)
    (sound : ∀ built rest, outcome = .ok (built, rest) →
      (∃ used, used ≠ [] ∧ tokens = used ++ rest) ∧ built.height = built.tree.height) :
    Meets limit room opened tokens (fun depth fuel => do
      let entry ← Descent.announce procedure opened
      let built ← body depth fuel
      Descent.report procedure opened entry built) outcome := by
  refine (announce procedure within).bind ?_
  cases outcome with
  | error e => exact runs.bind_error
  | ok answered =>
    obtain ⟨advanced, height⟩ := sound answered.1 answered.2 rfl
    exact runs.bind (report procedure advanced height)

/-- The counter is at the limit already. -/
theorem enter_full {f : Nat → Option Nat → Unit → Descent α} (start : Nat)
    (full : opened.length = reading.limit) :
    Meets limit room opened tokens (fun depth fuel => Descent.enter reading start >>= f depth fuel)
      (.error ⟨.tooDeep, start⟩) := by
  intro events sound
  refine ⟨⟨⟨tokens, opened.length + 1⟩, events⟩, sound, by rintro _ _ ⟨⟩, 0, fun _ _ _ _ => ?_⟩
  rw [Descent.run_bind, Descent.run_enter, if_pos (by omega)]
  rfl

/-- What is done inside of a NOT or a group, and what is done behind it. -/
theorem nested {act : Nat → Option Nat → Descent α} (next : α → List Lexeme → Outcome β)
    (opener : Lexeme) (start : Nat) (free : opened.length < reading.limit)
    (inner : Meets limit room (opener :: opened) tokens act outcome)
    (more : ∀ a rest, outcome = .ok (a, rest) →
      Meets limit (room + 1) opened rest (fun depth fuel => f depth fuel a) (next a rest)) :
    Meets limit (room + 1) opened tokens (fun depth fuel => do
      Descent.enter reading start
      let below ← Descent.descend fuel
      let a ← act depth below
      Descent.leave
      f depth fuel a) (outcome.andThen next) := by
  intro events sound
  obtain ⟨after, soundAfter, place, enough, runs⟩ := inner events sound
  have entered : (Descent.enter reading start).run.run ⟨⟨tokens, opened.length⟩, events⟩ =
      some (.ok (), ⟨⟨tokens, (opener :: opened).length⟩, events⟩) := by
    rw [Descent.run_enter, if_neg (by omega)]
    rfl
  cases outcome with
  | error e =>
    refine ⟨after, soundAfter, by rintro _ _ ⟨⟩, enough, fun depth deep fuel fueled => ?_⟩
    obtain ⟨below, fueledBelow, descends⟩ := Descent.descend_eq fueled
    simp only [Descent.run_bind, entered, descends, Descent.run_pure, runs depth deep below fueledBelow]
    rfl
  | ok answered =>
    obtain ⟨⟨rest, nesting⟩, events'⟩ := after
    obtain ⟨rfl, rfl⟩ := Place.mk.inj (place answered.1 answered.2 rfl)
    obtain ⟨last, soundLast, placeLast, enough', runsOn⟩ :=
      more answered.1 answered.2 rfl events' soundAfter
    refine ⟨last, soundLast, placeLast, max enough enough', fun depth deep fuel fueled => ?_⟩
    obtain ⟨below, fueledBelow, descends⟩ := Descent.descend_eq fueled
    have runs := runs depth (Nat.le_trans (Nat.le_max_left _ _) deep) below fueledBelow
    simp only [Descent.run_bind, entered, descends, Descent.run_pure, runs]
    exact runsOn depth (Nat.le_trans (Nat.le_max_right _ _) deep) fuel fueled

end Meets

variable {joins : NextOperand} {join : Query → Query → Query} {operand rule : Rule} {left : Built}

theorem Rule.outcome_eq_ok (h : rule.outcome tokens = .ok (built, rest)) :
    rule.Gives tokens built.tree built.height rest ∧ rest.length < tokens.length := by
  unfold outcome at h
  cases read : rule tokens with
  | error e =>
    rw [read] at h
    cases h
  | ok p =>
    rw [read] at h
    cases h
    exact ⟨gives_of_eq read, p.shorter⟩

theorem NextOperand.length_le_of_outcome {another : Bool}
    (h : joins.outcome tokens = .ok (another, rest)) : rest.length ≤ tokens.length := by
  unfold outcome at h
  cases read : joins tokens with
  | error e =>
    rw [read] at h
    cases h
  | ok following =>
    rw [read] at h
    cases following with
    | none =>
      cases h
      exact Nat.le_refl _
    | some following =>
      cases h
      exact following.2

theorem Reading.leftAssociative_outcome :
    Rule.outcome (reading.leftAssociative joins join operand) tokens =
      (operand.outcome tokens).andThen (reading.chainOutcome joins join operand) := by
  unfold Rule.outcome chainOutcome leftAssociative
  cases operand tokens with
  | error e => rfl
  | ok first =>
    simp only [Except.map, Outcome.andThen]
    cases reading.chain joins join operand first.tree first.height first.rest <;> rfl

theorem Reading.chain_outcome : reading.chainOutcome joins join operand left tokens =
    (joins.outcome tokens).andThen fun another rest =>
      if another = true then
        (operand.outcome rest).andThen fun right behind =>
          Outcome.andThen ((reading.checkHeight (1 + max left.height right.height)
              (reading.position rest)).map (·, behind)) fun height behind =>
            reading.chainOutcome joins join operand ⟨join left.tree right.tree, height⟩ behind
      else .ok (left, rest) := by
  unfold chainOutcome NextOperand.outcome Rule.outcome
  rw [chain]
  split
  · next missing => rw [missing]; rfl
  · next stops => rw [stops]; rfl
  · next following notLonger goes =>
    rw [goes]
    simp only [Except.map, Outcome.andThen, if_true]
    cases operand following with
    | error e => rfl
    | ok right =>
      simp only
      cases reading.checkHeight (1 + max left.height right.height) (reading.position following) with
      | error e => rfl
      | ok grown =>
        simp only
        cases reading.chain joins join operand (join left.tree right.tree) grown right.rest <;> rfl

theorem Reading.nextConjunct_outcome_and : NextOperand.outcome reading.nextConjunct
    (⟨.and, start⟩ :: rest) = (reading.afterOperator .and rest).map fun _ => (true, rest) := by
  simp only [NextOperand.outcome, nextConjunct]
  cases reading.afterOperator .and rest <;> rfl

theorem Reading.nextConjunct_outcome (other : tokens.head?.map Lexeme.token ≠ some .and) :
    NextOperand.outcome reading.nextConjunct tokens =
      .ok (reading.implicitAnd && startsTerm tokens, tokens) := by
  unfold NextOperand.outcome nextConjunct
  split
  · exact absurd rfl other
  · split
    · next follows => rw [follows]; rfl
    · next ends => rw [Bool.eq_false_iff.mpr ends]; rfl

theorem Reading.nextDisjunct_outcome_or : NextOperand.outcome reading.nextDisjunct
    (⟨.or, start⟩ :: rest) = (reading.afterOperator .or rest).map fun _ => (true, rest) := by
  simp only [NextOperand.outcome, nextDisjunct]
  cases reading.afterOperator .or rest <;> rfl

theorem Reading.nextDisjunct_outcome (other : tokens.head?.map Lexeme.token ≠ some .or) :
    NextOperand.outcome reading.nextDisjunct tokens = .ok (false, tokens) := by
  unfold NextOperand.outcome nextDisjunct
  split
  · exact absurd rfl other
  · rfl

/-- A token that comes next, and what is behind it. -/
theorem exists_of_head {token : Token} (here : tokens.head?.map Lexeme.token = some token) :
    ∃ start rest, tokens = ⟨token, start⟩ :: rest := by
  obtain ⟨⟨_, start⟩, first, rfl⟩ := Option.map_eq_some_iff.mp here
  obtain ⟨rest, rfl⟩ := List.head?_eq_some_iff.mp first
  exact ⟨start, rest, rfl⟩

namespace Meets

theorem expectOperand_then {f : Nat → Option Nat → Unit → Descent α} (reading : Reading)
    (operator : Operator) (next : Unit → List Lexeme → Outcome α)
    (more : Meets limit room opened tokens (fun depth fuel => f depth fuel ()) (next () tokens)) :
    Meets limit room opened tokens (fun depth fuel => Descent.expectOperand reading operator >>= f depth fuel)
      (Outcome.andThen (((reading.afterOperator operator tokens).map fun _ => ()).map (·, tokens))
        next) := by
  have expects : Meets limit room opened tokens _ _ := expectOperand reading operator
  cases found : reading.afterOperator operator tokens with
  | error e =>
    rw [found] at expects
    exact expects.bind_error
  | ok following =>
    rw [found] at expects
    exact expects.bind more

theorem behindOperator (reading : Reading) (operator : Operator) :
    Meets limit room opened tokens (fun _ _ => do
      Descent.expectOperand reading operator
      Pure.pure true) ((reading.afterOperator operator tokens).map fun _ => (true, tokens)) := by
  have expects : Meets limit room opened tokens (fun _ _ => do
      Descent.expectOperand reading operator
      Pure.pure true) _ := expectOperand_then reading operator (fun _ rest => .ok (true, rest)) pure
  cases found : reading.afterOperator operator tokens with
  | error e => rwa [found] at expects
  | ok following => rwa [found] at expects

theorem anotherConjunct : Meets limit room opened tokens
    (fun _ _ => Descent.anotherConjunct reading) (NextOperand.outcome reading.nextConjunct tokens) := by
  by_cases here : tokens.head?.map Lexeme.token = some .and
  · obtain ⟨start, rest, rfl⟩ := exists_of_head here
    rw [Reading.nextConjunct_outcome_and]
    exact (consume_here .and start rest).bind (behindOperator reading .and)
  · rw [Reading.nextConjunct_outcome here]
    exact (consume_other here).bind (remaining.bind pure)

theorem anotherDisjunct : Meets limit room opened tokens
    (fun _ _ => Descent.anotherDisjunct reading) (NextOperand.outcome reading.nextDisjunct tokens) := by
  by_cases here : tokens.head?.map Lexeme.token = some .or
  · obtain ⟨start, rest, rfl⟩ := exists_of_head here
    rw [Reading.nextDisjunct_outcome_or]
    exact (consume_here .or start rest).bind (behindOperator reading .or)
  · rw [Reading.nextDisjunct_outcome here]
    exact (consume_other here).bind pure

/-- A loop that reads the further operands of a chain. -/
theorem chain {bound : Nat} {another : Descent Bool} {next : Nat → Option Nat → Descent Built}
    {loop : Nat → Option Nat → Built → Descent Built}
    (unfolds : ∀ depth fuel left, loop (depth + 1) fuel left = do
      if ← another then
        let start ← Descent.position reading
        let right ← next depth fuel
        let height ← Descent.ofExcept (reading.checkHeight (1 + max left.height right.height) start)
        loop depth fuel ⟨join left.tree right.tree, height⟩
      else Pure.pure left)
    (decides : ∀ tokens, Meets limit room opened tokens (fun _ _ => another) (joins.outcome tokens))
    (operands : ∀ tokens, tokens.length ≤ bound →
      Meets limit room opened tokens next (operand.outcome tokens))
    (left : Built) (tokens : List Lexeme) (fits : tokens.length ≤ bound) :
    Meets limit room opened tokens (fun depth fuel => loop depth fuel left)
      (reading.chainOutcome joins join operand left tokens) := by
  refine .step (fun depth fuel => unfolds depth fuel left) ?_
  rw [Reading.chain_outcome]
  refine andThen _ (decides tokens) fun goesOn following decided => ?_
  have notLonger := NextOperand.length_le_of_outcome decided
  cases goesOn with
  | false => exact pure
  | true =>
    refine (position reading).bind ?_
    refine andThen _ (operands following (by omega)) fun right behind read => ?_
    have shorter := (Rule.outcome_eq_ok read).2
    refine ofExcept_then _ _ fun height => ?_
    exact chain unfolds decides operands _ behind (by omega)
termination_by tokens.length

/-- Operands joined by one operator, from the first of them and the loop that reads the others. -/
theorem leftAssociative {another : Descent Bool} {first : Nat → Option Nat → Descent Built}
    {loop : Nat → Option Nat → Built → Descent Built}
    (unfolds : ∀ depth fuel left, loop (depth + 1) fuel left = do
      if ← another then
        let start ← Descent.position reading
        let right ← first depth fuel
        let height ← Descent.ofExcept (reading.checkHeight (1 + max left.height right.height) start)
        loop depth fuel ⟨join left.tree right.tree, height⟩
      else Pure.pure left)
    (decides : ∀ tokens, Meets limit room opened tokens (fun _ _ => another) (joins.outcome tokens))
    (operands : ∀ tokens', tokens'.length ≤ tokens.length →
      Meets limit room opened tokens' first (operand.outcome tokens')) :
    Meets limit room opened tokens (fun depth fuel => first depth fuel >>= loop depth fuel)
      (Rule.outcome (reading.leftAssociative joins join operand) tokens) := by
  rw [Reading.leftAssociative_outcome]
  refine andThen _ (operands tokens (Nat.le_refl _)) fun left rest read => ?_
  exact chain unfolds decides operands left rest (Nat.le_of_lt (Rule.outcome_eq_ok read).2)

end Meets

theorem Rule.Sound.of_outcome {level : Level} (sound : rule.Sound reading level)
    (h : rule.outcome tokens = .ok (built, rest)) :
    (∃ used, used ≠ [] ∧ tokens = used ++ rest) ∧ built.height = built.tree.height := by
  obtain ⟨gives, shorter⟩ := outcome_eq_ok h
  obtain ⟨used, rfl, -, height, -⟩ := sound gives
  refine ⟨⟨used, ?_, rfl⟩, height⟩
  rintro rfl
  exact Nat.lt_irrefl _ shorter

namespace Meets

variable {term : Rule}

theorem conjunction (within : opened.length ≤ limit) (sound : term.Sound reading .term)
    (terms : ∀ tokens', tokens'.length ≤ tokens.length → Meets limit room opened tokens'
      (fun depth fuel => Descent.negation reading depth fuel opened) (term.outcome tokens')) :
    Meets limit room opened tokens (fun depth fuel => Descent.conjunction reading depth fuel opened)
      (Rule.outcome (reading.conjunction term) tokens) := by
  refine .step (fun _ _ => rfl) ?_
  have whole : Rule.Sound reading .conjunction (reading.conjunction term) :=
    Reading.leftAssociative_sound reading.folds_conjunction sound
  refine call .conjunction within ?_ fun built rest => whole.of_outcome
  exact leftAssociative (fun _ _ _ => rfl)
    (fun _ => anotherConjunct) terms

theorem disjunction (within : opened.length ≤ limit) (sound : term.Sound reading .term)
    (terms : ∀ tokens', tokens'.length ≤ tokens.length → Meets limit room opened tokens'
      (fun depth fuel => Descent.negation reading depth fuel opened) (term.outcome tokens')) :
    Meets limit room opened tokens (fun depth fuel => Descent.disjunction reading depth fuel opened)
      (Rule.outcome (reading.disjunction term) tokens) := by
  refine .step (fun _ _ => rfl) ?_
  have whole : Rule.Sound reading .disjunction (reading.disjunction term) :=
    Reading.disjunction_sound sound
  refine call .disjunction within ?_ fun built rest => whole.of_outcome
  refine leftAssociative (fun _ _ _ => rfl)
    (fun _ => anotherDisjunct) fun tokens' shorter => ?_
  exact conjunction within sound fun tokens'' shorter' => terms tokens'' (by omega)

end Meets

theorem Reading.not_outcome {nested : Option Rule} :
    Rule.outcome (reading.termWith nested) (⟨.not, start⟩ :: rest) =
      Outcome.andThen (((reading.afterOperator .not rest).map fun _ => ()).map (·, rest)) fun _ _ =>
        match nested with
        | none => .error ⟨.tooDeep, start⟩
        | some term => (term.outcome rest).andThen fun inner behind =>
          Outcome.andThen ((reading.checkHeight (inner.height + 1) start).map (·, behind))
            fun height behind => .ok (⟨.not inner.tree, height⟩, behind) := by
  simp only [Rule.outcome, termWith]
  cases reading.afterOperator .not rest with
  | error e => rfl
  | ok following =>
    cases nested with
    | none => rfl
    | some term =>
      simp only [negationBody]
      cases term rest with
      | error e => rfl
      | ok inner =>
        simp only [Except.map, Outcome.andThen]
        cases reading.checkHeight (inner.height + 1) start <;> rfl

theorem Reading.groupBody_outcome {bracket : Bracket} {body : Rule} :
    Rule.outcome (reading.groupBody bracket start body) tokens =
      (body.outcome tokens).andThen fun inner behind =>
        if behind.head?.map Lexeme.token = some (.closing bracket) then
          Outcome.andThen ((reading.checkHeight (inner.height + 1) start).map (·, behind.tail))
            fun height behind => .ok (⟨.group inner.tree, height⟩, behind)
        else .error ⟨.unclosed bracket start, reading.position behind⟩ := by
  unfold Rule.outcome groupBody
  split
  · next fails => rw [fails]; rfl
  · next inside read =>
    obtain ⟨tree, height, behind, shorter⟩ := inside
    rw [read]
    split
    · next found stop after closes =>
      obtain rfl : behind = ⟨.closing found, stop⟩ :: after := closes
      by_cases same : found = bracket
      · subst same
        simp only [if_true]
        refine Eq.trans ?_ (if_pos rfl).symm
        cases reading.checkHeight (height + 1) start <;> rfl
      · have unclosed : some (Token.closing found) ≠ some (.closing bracket) := fun here =>
          same (Token.closing.inj (Option.some.inj here))
        rw [if_neg same]
        exact (if_neg unclosed).symm
    · next other =>
      have unclosed : behind.head?.map Lexeme.token ≠ some (.closing bracket) := by
        intro here
        obtain ⟨stop, after, closes⟩ := exists_of_head here
        exact other _ _ _ closes
      exact (if_neg unclosed).symm

theorem Reading.group_outcome {nested : Option Rule} {bracket : Bracket} :
    Rule.outcome (reading.termWith nested) (⟨.opening bracket, start⟩ :: rest) =
      if rest.head?.map Lexeme.token = some (.closing bracket) then .error ⟨.emptyGroup bracket, start⟩
      else match nested with
        | none => .error ⟨.tooDeep, start⟩
        | some term => Rule.outcome (reading.groupBody bracket start (reading.disjunction term)) rest := by
  simp only [Rule.outcome, termWith]
  split
  · rfl
  · cases nested with
    | none => rfl
    | some term =>
      simp only
      cases reading.groupBody bracket start (reading.disjunction term) rest <;> rfl

/-- What a group leaves behind its opening bracket. -/
theorem Reading.group_advances {bracket : Bracket} (limited : 0 < reading.limit)
    (h : Rule.outcome (reading.term room) (⟨.opening bracket, start⟩ :: tokens) = .ok (built, rest)) :
    (∃ used, used ≠ [] ∧ tokens = used ++ rest) ∧ built.height = built.tree.height := by
  refine ⟨?_, (Rule.Sound.of_outcome (Reading.term_sound limited room) h).2⟩
  cases room with
  | zero =>
    rw [term, group_outcome] at h
    split at h <;> cases h
  | succ room =>
    obtain ⟨tree, height⟩ := built
    cases termWith_gives.mp (Rule.outcome_eq_ok h).1 with
    | @group term _ _ stop _ _ _ inner open_ _ body =>
      cases open_
      obtain ⟨used, rfl, -⟩ := disjunction_sound (Reading.term_sound limited room) body
      exact ⟨used ++ [⟨.closing bracket, stop⟩], by simp, by simp⟩

namespace Meets

/-- The terms in one more NOT or group come to their end, if they have fewer tokens than this. -/
def Deeper (reading : Reading) (opened : List Lexeme) (bound : Nat) : Prop :=
  ∀ room opener tokens, tokens.length < bound → (opener :: opened).length + room = reading.limit →
    Meets reading.limit room (opener :: opened) tokens
      (fun depth fuel => Descent.negation reading depth fuel (opener :: opened))
      (Rule.outcome (reading.term room) tokens)

theorem group (limited : 0 < reading.limit) (fits : opened.length + room = reading.limit)
    (deeper : Deeper reading opened (tokens.length + 1)) (bracket : Bracket) (start : Nat) :
    Meets reading.limit room opened tokens
      (fun depth fuel => Descent.group reading depth fuel opened bracket start)
      (Rule.outcome (reading.term room) (⟨.opening bracket, start⟩ :: tokens)) := by
  refine .step (fun _ _ => rfl) ?_
  refine call .group (by omega) ?_ fun built rest => Reading.group_advances limited
  refine remaining.bind ?_
  cases room with
  | zero =>
    rw [Reading.term, Reading.group_outcome]
    split
    · exact throw
    · exact enter_full start fits
  | succ room =>
    rw [Reading.term, Reading.group_outcome]
    split
    · exact throw
    simp only
    rw [Reading.groupBody_outcome]
    refine nested _ ⟨.opening bracket, start⟩ start (by omega) ?_ fun inner behind read => ?_
    · have sound : Rule.Sound reading .term (reading.term room) := Reading.term_sound limited room
      exact disjunction (by rw [List.length_cons]; omega) sound fun tokens' shorter =>
        deeper room _ tokens' (Nat.lt_succ_of_le shorter) (by rw [List.length_cons]; omega)
    by_cases closes : behind.head?.map Lexeme.token = some (.closing bracket)
    · obtain ⟨stop, after, rfl⟩ := exists_of_head closes
      rw [if_pos closes]
      refine (consume_here _ stop after).bind ?_
      exact ofExcept_then _ _ fun height => pure
    · rw [if_neg closes]
      exact (consume_other closes).bind ((position reading).bind throw)

theorem primary (limited : 0 < reading.limit) (fits : opened.length + room = reading.limit)
    (deeper : Deeper reading opened tokens.length)
    (other : tokens.head?.map Lexeme.token ≠ some .not) :
    Meets reading.limit room opened tokens (fun depth fuel => Descent.primary reading depth fuel opened)
      (Rule.outcome (reading.term room) tokens) := by
  refine .step (fun _ _ => rfl) ?_
  have sound : Rule.Sound reading .term (reading.term room) := Reading.term_sound limited room
  refine call .primary (by omega) ?_ fun built rest => sound.of_outcome
  refine advance.bind ?_
  obtain ⟨nested, same⟩ : ∃ nested, reading.term room = reading.termWith nested := by
    cases room <;> exact ⟨_, rfl⟩
  cases tokens with
  | nil =>
    rw [same]
    exact throw
  | cons lexeme rest =>
    obtain ⟨token, start⟩ := lexeme
    cases token with
    | opening bracket =>
      exact group limited fits deeper bracket start
    | not => exact absurd rfl other
    | word text =>
      rw [same]
      simp only [Rule.outcome, Reading.termWith, List.head?_cons, List.tail_cons]
      split
      · exact pure
      · exact (phrase text).bind pure
    | quoted text =>
      rw [same]
      simp only [Rule.outcome, Reading.termWith, List.head?_cons, List.tail_cons]
      split
      · exact throw
      · exact pure
    | all =>
      rw [same]
      exact pure
    | and | or | closing =>
      rw [same]
      exact throw

/-- A term comes to its end, whatever it is nested in. -/
theorem negation (limited : 0 < reading.limit) (room : Nat) (opened tokens : List Lexeme)
    (fits : opened.length + room = reading.limit) :
    Meets reading.limit room opened tokens (fun depth fuel => Descent.negation reading depth fuel opened)
      (Rule.outcome (reading.term room) tokens) := by
  refine .step (fun _ _ => rfl) ?_
  have sound : Rule.Sound reading .term (reading.term room) := Reading.term_sound limited room
  refine call .negation (by omega) ?_ fun built rest => sound.of_outcome
  refine (position reading).bind ?_
  by_cases here : tokens.head?.map Lexeme.token = some .not
  · obtain ⟨start, rest, rfl⟩ := exists_of_head here
    refine (consume_here .not start rest).bind ?_
    cases room with
    | zero =>
      rw [Reading.term, Reading.not_outcome]
      exact expectOperand_then reading .not _ (enter_full start fits)
    | succ room =>
      rw [Reading.term, Reading.not_outcome]
      refine expectOperand_then reading .not _ ?_
      refine nested _ ⟨.not, start⟩ start (by omega) ?_ fun inner behind read => ?_
      · exact negation limited room _ rest (by rw [List.length_cons]; omega)
      · exact ofExcept_then _ _ fun height => pure
  · refine (consume_other here).bind ?_
    exact primary limited fits (fun room opener tokens' _ => negation limited room _ tokens') here
termination_by tokens.length

end Meets

theorem Reading.query_outcome : ((reading.query tokens).map (·, []) : Outcome Query) =
    if tokens.isEmpty = true then .error ⟨.emptyQuery, 0⟩
    else (Rule.outcome (reading.disjunction (reading.term reading.limit)) tokens).andThen
      fun built rest =>
        match rest with
        | [] => .ok (built.tree, [])
        | ⟨.closing bracket, start⟩ :: _ => .error ⟨.unmatched bracket, start⟩
        | ⟨token, start⟩ :: _ => .error ⟨.unexpected token, start⟩ := by
  unfold Reading.query Rule.outcome
  split
  · rfl
  · cases reading.disjunction (reading.term reading.limit) tokens with
    | error e => rfl
    | ok p =>
      obtain ⟨tree, height, rest, shorter⟩ := p
      cases rest with
      | nil => rfl
      | cons lexeme rest =>
        obtain ⟨token, start⟩ := lexeme
        cases token <;> rfl

theorem Meets.query (limited : 0 < reading.limit) : Meets reading.limit reading.limit [] tokens
    (fun depth fuel => Descent.query reading depth fuel) ((reading.query tokens).map (·, [])) := by
  rw [Reading.query_outcome]
  refine remaining.bind ?_
  split
  · exact throw
  refine andThen _ ?_ fun built rest read => remaining.bind ?_
  · exact disjunction (Nat.zero_le _) (Reading.term_sound limited _) fun tokens' _ =>
      negation limited _ [] tokens' (Nat.zero_add _)
  · cases rest with
    | nil => exact pure
    | cons lexeme rest =>
      obtain ⟨token, start⟩ := lexeme
      cases token <;> exact throw

/-- The reader comes to an end on all tokens, and answers what the grammar says. Each call that it makes
is on record, with its end if it succeeds. Each keeps to what `Event.Sound` says: the counter is the
number of NOTs and groups around the call and within the limit, and a call that succeeds has advanced,
has put the counter back and tells the height of its tree. With fuel for as many nested calls as the
limit allows it does just the same. -/
theorem descent_is_bounded (implicitAnd : Bool) (stop : Nat) (tokens : List Lexeme) :
    let reading : Reading := { implicitAnd := implicitAnd, stop := stop }
    (∀ procedure opened call, Descent.Call reading procedure opened call →
      Descent.Recorded procedure opened call) ∧
    ∃ memory : Memory, (∀ event ∈ memory.events, event.Sound maxHeight) ∧
      ((reading.query tokens).isOk = true → Closed memory.events) ∧
      reading.Descends none tokens (reading.query tokens) memory ∧
      reading.Descends (some maxHeight) tokens (reading.query tokens) memory := by
  intro reading
  refine ⟨fun procedure opened call made => made.recorded, ?_⟩
  have limited : 0 < reading.limit := Nat.succ_pos 255
  have whole : Meets reading.limit reading.limit [] tokens _ _ := Meets.query limited
  obtain ⟨memory, sound, -, enough, runs⟩ := whole [] nofun
  have answer : ((reading.query tokens).map (·, ([] : List Lexeme))).map Prod.fst =
      reading.query tokens := by
    cases reading.query tokens <;> rfl
  rw [answer] at runs
  have unbounded := runs enough (Nat.le_refl _) none nofun
  obtain ⟨own, events, closed⟩ := Descent.query_grows reading enough none _ _ _ unbounded
  have fueled : Suffices reading.limit (some maxHeight) := by
    rintro _ ⟨⟩
    exact Nat.le_refl _
  refine ⟨memory, sound, fun ok => ?_, ⟨enough, fun depth deep => runs depth deep none nofun⟩,
    enough, fun depth deep => runs depth deep (some maxHeight) fueled⟩
  rw [events, List.append_nil]
  exact closed ok

/-- `NOT (a)`, as tokens. -/
def groupInNot : List Lexeme :=
  [⟨.not, 0⟩, ⟨.opening .round, 4⟩, ⟨.word ['a'], 5⟩, ⟨.closing .round, 6⟩]

/-- The group in `NOT (a)` is read with one NOT open, and what is in it with two things open. -/
theorem descent_is_bounded_of_nested :
    ∃ memory : Memory, Reading.Descends { implicitAnd := true, stop := 7 } none groupInNot
        (.ok (.not (.group (.tag ['a'])))) memory ∧
      (∀ event ∈ memory.events, event.Sound maxHeight) ∧ Closed memory.events ∧
      memory.events.length = 20 ∧
      .completed .group [⟨.not, 0⟩] ⟨groupInNot.drop 2, 1⟩ ⟨[], 1⟩ ⟨.group (.tag ['a']), 2⟩ ∈
        memory.events ∧
      .completed .disjunction [⟨.opening .round, 4⟩, ⟨.not, 0⟩] ⟨groupInNot.drop 2, 2⟩
        ⟨groupInNot.drop 3, 2⟩ ⟨.tag ['a'], 1⟩ ∈ memory.events := by
  obtain ⟨-, memory, sound, closed, descends, -⟩ := descent_is_bounded true 7 groupInNot
  have told : ((Descent.query { implicitAnd := true, stop := 7 } 10 none).run.run
      ⟨⟨groupInNot, 0⟩, []⟩).any (fun run =>
        run.1.toOption = some (.not (.group (.tag ['a']))) ∧ run.2.events.length = 20 ∧
        .completed .group [⟨.not, 0⟩] ⟨groupInNot.drop 2, 1⟩ ⟨[], 1⟩ ⟨.group (.tag ['a']), 2⟩ ∈
          run.2.events ∧
        .completed .disjunction [⟨.opening .round, 4⟩, ⟨.not, 0⟩] ⟨groupInNot.drop 2, 2⟩
          ⟨groupInNot.drop 3, 2⟩ ⟨.tag ['a'], 1⟩ ∈ run.2.events) = true := by
    decide +kernel
  obtain ⟨⟨answer, after⟩, ended, facts⟩ := (Option.any_eq_true _ _).mp told
  obtain ⟨answered, counted⟩ := of_decide_eq_true facts
  obtain ⟨rfl, rfl⟩ := (Reading.Descends.of_run 10 ended).unique descends
  have parsed : Reading.query { implicitAnd := true, stop := 7 } groupInNot =
      .ok (.not (.group (.tag ['a']))) := by
    cases read : Reading.query { implicitAnd := true, stop := 7 } groupInNot with
    | error e => rw [read] at answered; cases answered
    | ok tree => rw [read] at answered; cases answered; rfl
  rw [parsed] at closed descends
  exact ⟨after, descends, sound, closed rfl, counted⟩

/-- The group is not closed, so the NOT around it stays counted as open. -/
example :
    let tokens : List Lexeme := [⟨.not, 0⟩, ⟨.opening .round, 4⟩, ⟨.word ['a'], 5⟩]
    let run := (Descent.query { implicitAnd := true, stop := 6 } 10 none).run.run ⟨⟨tokens, 0⟩, []⟩
    run.map (fun run => (run.1.toOption, run.2.toPlace, run.2.events.length)) =
      some (none, ⟨[], 1⟩, 14) := by
  decide +kernel

end TagQuery.Query
