import TagQuery.Query.Parser

/-! The reader of queries as it runs. Its procedures call each other over one memory: the tokens that
are left, and a counter of the NOTs and groups that are open. Nothing but the counter bounds how deep
the calls get. `depth` is how many calls, with the rounds of loops, may be open in each other; that some
depth is enough is left to be proved. -/
namespace TagQuery.Query

inductive Procedure where
  | disjunction
  | conjunction
  | negation
  | primary
  | group
  deriving DecidableEq, Repr

/-- Where the reader stands: before these tokens, with this many NOTs and groups counted as open. -/
structure Place where
  rest : List Lexeme
  nesting : Nat
  deriving DecidableEq, Repr

/-- A tree, with the height that is kept for it. -/
structure Built where
  tree : Query
  height : Nat
  deriving DecidableEq, Repr

/-- What a call leaves in the record: where it begins, and, if it succeeds, what it has built and where
it ends. `opened` are the NOTs and opening brackets whose operands are being read, innermost first. -/
inductive Event where
  | entered (procedure : Procedure) (opened : List Lexeme) (entry : Place)
  | completed (procedure : Procedure) (opened : List Lexeme) (entry exit : Place) (built : Built)
  deriving DecidableEq, Repr

/-- What the procedures share. The record of the calls has the latest first. -/
structure Memory extends Place where
  events : List Event
  deriving DecidableEq, Repr

/-- An action of the reader. It can fail, and then the memory stays as it is; and it can go on without
an end. -/
abbrev Descent := ExceptT SyntaxError (StateT Memory Option)

namespace Descent

def ofExcept {α : Type} (result : Except SyntaxError α) : Descent α := ExceptT.mk (pure result)

/-- The action that comes to no end. It also stands where more calls are open than may be. -/
def endless {α : Type} : Descent α := ExceptT.mk fun _ => none

def remaining : Descent (List Lexeme) := do
  pure (← get).rest

def advance : Descent (Option Lexeme) := do
  let memory ← get
  set { memory with rest := memory.rest.tail }
  pure memory.rest.head?

def consume (token : Token) : Descent Bool := do
  if (← remaining).head?.map Lexeme.token = some token then
    let _ ← advance
    pure true
  else pure false

def position (reading : Reading) : Descent Nat := do
  pure (reading.position (← remaining))

/-- Fails unless a term can begin with the next token. -/
def expectOperand (reading : Reading) (operator : Operator) : Descent Unit := do
  ofExcept ((reading.afterOperator operator (← remaining)).map fun _ => ())

/-- Counts one more NOT or group as open. -/
def raise : Descent Nat := do
  let memory ← get
  set { memory with nesting := memory.nesting + 1 }
  pure (memory.nesting + 1)

/-- Goes into a NOT or a group. The counter stays raised when that is one too many. -/
def enter (reading : Reading) (start : Nat) : Descent Unit := do
  if reading.limit < (← raise) then throw ⟨.tooDeep, start⟩

def leave : Descent Unit := modify fun memory => { memory with nesting := memory.nesting - 1 }

def announce (procedure : Procedure) (opened : List Lexeme) : Descent Place := do
  let memory ← get
  set { memory with events := .entered procedure opened memory.toPlace :: memory.events }
  pure memory.toPlace

def report (procedure : Procedure) (opened : List Lexeme) (entry : Place) (built : Built) :
    Descent Built := do
  let memory ← get
  set { memory with
    events := .completed procedure opened entry memory.toPlace built :: memory.events }
  pure built

/-- Uses up fuel for a call that is nested in a NOT or a group. There may be no bound on it; where there
is none left, the reader gets stuck. -/
def descend : Option Nat → Descent (Option Nat)
  | none => pure none
  | some 0 => endless
  | some (fuel + 1) => pure (some fuel)

def anotherConjunct (reading : Reading) : Descent Bool := do
  if ← consume .and then
    expectOperand reading .and
    pure true
  else pure (reading.implicitAnd && startsTerm (← remaining))

def anotherDisjunct (reading : Reading) : Descent Bool := do
  if ← consume .or then
    expectOperand reading .or
    pure true
  else pure false

/-- The words that follow a word, where words in a row are one name. -/
def phrase (word : Text) : Descent Text := do
  let memory ← get
  set { memory with rest := (leadingWords memory.rest).2 }
  pure (Text.joinWith [' '] (word :: (leadingWords memory.rest).1))

mutual

def disjunction (reading : Reading) : (depth : Nat) → Option Nat → List Lexeme → Descent Built
  | 0, _, _ => endless
  | depth + 1, fuel, opened => do
    let entry ← announce .disjunction opened
    let built ← conjunction reading depth fuel opened >>= moreDisjuncts reading depth fuel opened
    report .disjunction opened entry built

def moreDisjuncts (reading : Reading) :
    (depth : Nat) → Option Nat → List Lexeme → Built → Descent Built
  | 0, _, _, _ => endless
  | depth + 1, fuel, opened, left => do
    if ← anotherDisjunct reading then
      let start ← position reading
      let right ← conjunction reading depth fuel opened
      let height ← ofExcept (reading.checkHeight (1 + max left.height right.height) start)
      moreDisjuncts reading depth fuel opened ⟨.or left.tree right.tree, height⟩
    else pure left

def conjunction (reading : Reading) : (depth : Nat) → Option Nat → List Lexeme → Descent Built
  | 0, _, _ => endless
  | depth + 1, fuel, opened => do
    let entry ← announce .conjunction opened
    let built ← negation reading depth fuel opened >>= moreConjuncts reading depth fuel opened
    report .conjunction opened entry built

def moreConjuncts (reading : Reading) :
    (depth : Nat) → Option Nat → List Lexeme → Built → Descent Built
  | 0, _, _, _ => endless
  | depth + 1, fuel, opened, left => do
    if ← anotherConjunct reading then
      let start ← position reading
      let right ← negation reading depth fuel opened
      let height ← ofExcept (reading.checkHeight (1 + max left.height right.height) start)
      moreConjuncts reading depth fuel opened ⟨.and left.tree right.tree, height⟩
    else pure left

def negation (reading : Reading) : (depth : Nat) → Option Nat → List Lexeme → Descent Built
  | 0, _, _ => endless
  | depth + 1, fuel, opened => do
    let entry ← announce .negation opened
    let built ← (do
      let start ← position reading
      if ← consume .not then
        expectOperand reading .not
        enter reading start
        let below ← descend fuel
        let inner ← negation reading depth below (⟨.not, start⟩ :: opened)
        leave
        let height ← ofExcept (reading.checkHeight (inner.height + 1) start)
        pure ⟨.not inner.tree, height⟩
      else primary reading depth fuel opened)
    report .negation opened entry built

def primary (reading : Reading) : (depth : Nat) → Option Nat → List Lexeme → Descent Built
  | 0, _, _ => endless
  | depth + 1, fuel, opened => do
    let entry ← announce .primary opened
    let built ← (do
      match ← advance with
      | none => throw ⟨.unexpectedEnd, reading.stop⟩
      | some ⟨.opening bracket, start⟩ => group reading depth fuel opened bracket start
      | some ⟨.all, _⟩ => pure ⟨.all, 1⟩
      | some ⟨.word text, _⟩ =>
        if reading.implicitAnd then pure ⟨.tag text, 1⟩
        else
          let name ← phrase text
          pure ⟨.tag name, 1⟩
      | some ⟨.quoted text, start⟩ =>
        if text.allBlank then throw ⟨.emptyQuotedTag, start⟩ else pure ⟨.tag text, 1⟩
      | some ⟨.closing bracket, start⟩ => throw ⟨.unmatched bracket, start⟩
      | some ⟨.and, start⟩ => throw ⟨.missingOperandBefore .and, start⟩
      | some ⟨.or, start⟩ => throw ⟨.missingOperandBefore .or, start⟩
      | some ⟨.not, start⟩ => throw ⟨.unexpected .not, start⟩)
    report .primary opened entry built

def group (reading : Reading) :
    (depth : Nat) → Option Nat → List Lexeme → Bracket → (start : Nat) → Descent Built
  | 0, _, _, _, _ => endless
  | depth + 1, fuel, opened, bracket, start => do
    let entry ← announce .group opened
    let built ← (do
      if (← remaining).head?.map Lexeme.token = some (.closing bracket) then
        throw ⟨.emptyGroup bracket, start⟩
      else
        enter reading start
        let below ← descend fuel
        let inner ← disjunction reading depth below (⟨.opening bracket, start⟩ :: opened)
        leave
        if ← consume (.closing bracket) then
          let height ← ofExcept (reading.checkHeight (inner.height + 1) start)
          pure ⟨.group inner.tree, height⟩
        else throw ⟨.unclosed bracket start, ← position reading⟩)
    report .group opened entry built

end

def query (reading : Reading) (depth : Nat) (fuel : Option Nat) : Descent Query := do
  if (← remaining).isEmpty then throw ⟨.emptyQuery, 0⟩
  else
    let built ← disjunction reading depth fuel []
    match ← remaining with
    | [] => pure built.tree
    | ⟨.closing bracket, start⟩ :: _ => throw ⟨.unmatched bracket, start⟩
    | ⟨token, start⟩ :: _ => throw ⟨.unexpected token, start⟩

end Descent

/-- The reader comes to an end: it gives this answer and leaves this memory as soon as the depth is
enough. -/
def Reading.Descends (reading : Reading) (fuel : Option Nat) (tokens : List Lexeme)
    (answer : Except SyntaxError Query) (after : Memory) : Prop :=
  ∃ enough, ∀ depth ≥ enough,
    (Descent.query reading depth fuel).run.run ⟨⟨tokens, 0⟩, []⟩ = some (answer, after)

end TagQuery.Query
