import TagQuery.Proofs.Query.Acceptance

/-! Which tokens can begin a query, told from left to right. A reader of tokens only has to know whether
a term has to begin next, whether words may be added to the last one, and which brackets are open. Main
statement: it comes through the tokens of every query, so where it cannot go on no query goes on. -/
namespace TagQuery.Query

/-- Phrases of the level begin with these tokens: some continuation of them is one. -/
def Begins (implicitAnd : Bool) (level : Level) (tokens : List Token) : Prop :=
  ∃ continuation tree, Derives implicitAnd level (tokens ++ continuation) tree

/-- More tokens can be put behind these so that all together are a whole query. -/
def Completable (implicitAnd : Bool) (tokens : List Token) : Prop :=
  Begins implicitAnd .disjunction tokens

def Token.isWord : Token → Bool
  | word _ => true
  | _ => false

/-- AND and OR, which stand between two operands. -/
def Token.isBinary : Token → Bool
  | and => true
  | or => true
  | _ => false

def endsInWord (tokens : List Token) : Bool := tokens.getLast?.any Token.isWord

/-- Between two tokens, with the brackets that are open there, innermost first. -/
inductive Stance where
  /-- a term has to begin -/
  | ahead (opened : List Bracket)
  /-- a term has ended, perhaps in a word -/
  | behind (inWord : Bool) (opened : List Bracket)
  deriving DecidableEq, Repr

namespace Stance

/-- Where a token leads with which a term begins. -/
def enter (opened : List Bracket) : Token → Option Stance
  | .word _ => some (behind true opened)
  | .quoted text => if text.allBlank then none else some (behind false opened)
  | .all => some (behind false opened)
  | .not => some (ahead opened)
  | .opening bracket => some (ahead (bracket :: opened))
  | .and => none
  | .or => none
  | .closing _ => none

def leave (bracket : Bracket) : List Bracket → Option Stance
  | [] => none
  | innermost :: outer => if innermost = bracket then some (behind false outer) else none

/-- Where a token leads, if it may stand here. -/
def step (implicitAnd : Bool) : Stance → Token → Option Stance
  | ahead opened, token => enter opened token
  | behind _ opened, .and => some (ahead opened)
  | behind _ opened, .or => some (ahead opened)
  | behind _ opened, .closing bracket => leave bracket opened
  | behind inWord opened, .word text =>
    if implicitAnd || inWord then enter opened (.word text) else none
  | behind _ opened, token => if implicitAnd then enter opened token else none

/-- Where some tokens lead, if they may stand here. -/
def walk (implicitAnd : Bool) (stance : Stance) (tokens : List Token) : Option Stance :=
  tokens.foldlM (step implicitAnd) stance

variable {implicitAnd : Bool} {stance : Stance} {token : Token} {tokens before after : List Token}

@[simp] theorem walk_nil : walk implicitAnd stance [] = some stance := rfl

theorem walk_cons :
    walk implicitAnd stance (token :: tokens) =
      (step implicitAnd stance token).bind (walk implicitAnd · tokens) := rfl

theorem walk_append :
    walk implicitAnd stance (before ++ after) =
      (walk implicitAnd stance before).bind (walk implicitAnd · after) :=
  List.foldlM_append

/-- Where juxtaposition is AND, a token with which a term begins may stand behind a term. -/
theorem step_behind (allowed : implicitAnd = true) (starts : token.startsTerm = true)
    (inWord : Bool) (opened : List Bracket) :
    step implicitAnd (behind inWord opened) token = step implicitAnd (ahead opened) token := by
  subst allowed
  cases token with
  | and | or | closing _ => cases starts
  | _ => rfl

/-- Behind AND or OR a term has to begin. -/
theorem step_binary (binary : token.isBinary = true) (inWord : Bool) (opened : List Bracket) :
    step implicitAnd (behind inWord opened) token = some (ahead opened) := by
  cases token with
  | and | or => rfl
  | _ => cases binary

/-- Only a token with which a term begins may stand where one has to begin. -/
theorem step_ahead (starts : token.startsTerm = false) (opened : List Bracket) :
    step implicitAnd (ahead opened) token = none := by
  cases token with
  | and | or | closing _ => rfl
  | _ => cases starts

end Stance

theorem endsInWord_append (before : List Token) {after : List Token} (some_tokens : after ≠ []) :
    endsInWord (before ++ after) = endsInWord after := by
  rw [endsInWord, endsInWord, List.getLast?_append, List.getLast?_eq_some_getLast some_tokens,
    Option.some_or]

theorem endsInWord_concat (before : List Token) (token : Token) :
    endsInWord (before ++ [token]) = token.isWord := by
  rw [endsInWord, List.getLast?_concat, Option.any_some]

theorem endsInWord_words (first : Text) (more : List Text) :
    endsInWord (.word first :: more.map .word) = true := by
  induction more generalizing first with
  | nil => rfl
  | cons second more ih =>
    exact (endsInWord_append [.word first] (List.cons_ne_nil _ _)).trans (ih second)

open Stance (walk ahead behind)

variable {implicitAnd : Bool} {level : Level} {tokens before after : List Token} {tree : Query}

/-- More words are added to a word. -/
theorem Stance.walk_words (more : List Text) (opened : List Bracket) :
    walk implicitAnd (behind true opened) (more.map .word) = some (behind true opened) := by
  induction more with
  | nil => rfl
  | cons text more ih =>
    have next : step implicitAnd (behind true opened) (.word text) = some (behind true opened) := by
      simp only [step, Bool.or_true, if_true, enter]
    rw [List.map_cons, walk_cons, next]
    exact ih

/-- Two operands with AND or OR between them lead where the second one does. -/
theorem Stance.walk_binary {token : Token} (binary : token.isBinary = true) {opened : List Bracket}
    {inWord : Bool} (some_tokens : after ≠ [])
    (first : walk implicitAnd (ahead opened) before = some (behind inWord opened))
    (second : walk implicitAnd (ahead opened) after = some (behind (endsInWord after) opened)) :
    walk implicitAnd (ahead opened) (before ++ token :: after) =
      some (behind (endsInWord (before ++ token :: after)) opened) := by
  have last : endsInWord (token :: after) = endsInWord after :=
    endsInWord_append [token] some_tokens
  rw [walk_append, first, Option.bind_some, walk_cons, step_binary binary, Option.bind_some, second,
    endsInWord_append _ (List.cons_ne_nil _ _), last]

/-- The tokens of a phrase lead from where a term has to begin to where one has ended, with the same
brackets open. -/
theorem Derives.walk (h : Derives implicitAnd level tokens tree) (opened : List Bracket) :
    Stance.walk implicitAnd (ahead opened) tokens = some (behind (endsInWord tokens) opened) := by
  induction h generalizing opened with
  | word text => rfl
  | words first more whole =>
    rw [Stance.walk_cons, endsInWord_words]
    exact Stance.walk_words more opened
  | quoted text visible =>
    simp only [Stance.walk_cons, Stance.step, Stance.enter, visible, Bool.false_eq_true, if_false]
    rfl
  | all => rfl
  | @not tokens _ operand ih =>
    have last : endsInWord (.not :: tokens) = endsInWord tokens :=
      endsInWord_append [.not] operand.tokens_ne_nil
    rw [Stance.walk_cons, last]
    exact ih opened
  | @group bracket tokens _ body ih =>
    have last : endsInWord (.opening bracket :: (tokens ++ [.closing bracket])) = false :=
      endsInWord_concat (.opening bracket :: tokens) (.closing bracket)
    have inside := ih (bracket :: opened)
    rw [Stance.walk_cons, last]
    change Stance.walk implicitAnd (ahead (bracket :: opened)) _ = _
    rw [Stance.walk_append, inside, Option.bind_some, Stance.walk_cons]
    simp only [Stance.step, Stance.leave, if_true]
    rfl
  | ofTerm _ ih | ofConjunction _ ih => exact ih opened
  | and _ second ihl ihr | or _ second ihl ihr =>
    exact Stance.walk_binary rfl second.tokens_ne_nil (ihl opened) (ihr opened)
  | juxtaposed allowed _ second ihl ihr =>
    obtain ⟨first, more, rfl, starts⟩ := second.head_startsTerm
    rw [Stance.walk_append, ihl, endsInWord_append _ (List.cons_ne_nil _ _), ← ihr opened,
      Option.bind_some, Stance.walk_cons, Stance.walk_cons, Stance.step_behind allowed starts]

namespace Begins

theorem of_append (h : Begins implicitAnd level (before ++ after)) :
    Begins implicitAnd level before := by
  obtain ⟨continuation, tree, derived⟩ := h
  exact ⟨after ++ continuation, tree, by rwa [← List.append_assoc]⟩

theorem nil : Begins implicitAnd .term [] := ⟨[.all], .all, .all⟩

theorem not (h : Begins implicitAnd .term tokens) : Begins implicitAnd .term (.not :: tokens) := by
  obtain ⟨continuation, tree, derived⟩ := h
  exact ⟨continuation, .not tree, .not derived⟩

theorem opening (h : Begins implicitAnd .disjunction tokens) (bracket : Bracket) :
    Begins implicitAnd .term (.opening bracket :: tokens) := by
  obtain ⟨continuation, tree, derived⟩ := h
  refine ⟨continuation ++ [.closing bracket], .group tree, ?_⟩
  rw [List.cons_append, ← List.append_assoc]
  exact .group bracket derived

theorem and (h : Begins implicitAnd .term tokens)
    (first : Derives implicitAnd .conjunction before tree) :
    Begins implicitAnd .conjunction (before ++ .and :: tokens) := by
  obtain ⟨continuation, right, derived⟩ := h
  exact ⟨continuation, .and tree right, by simpa using first.and derived⟩

theorem juxtaposed (h : Begins implicitAnd .term tokens)
    (first : Derives implicitAnd .conjunction before tree) (allowed : implicitAnd = true) :
    Begins implicitAnd .conjunction (before ++ tokens) := by
  obtain ⟨continuation, right, derived⟩ := h
  exact ⟨continuation, .and tree right, by simpa using first.juxtaposed allowed derived⟩

theorem or (h : Begins implicitAnd .conjunction tokens)
    (first : Derives implicitAnd .disjunction before tree) :
    Begins implicitAnd .disjunction (before ++ .or :: tokens) := by
  obtain ⟨continuation, right, derived⟩ := h
  exact ⟨continuation, .or tree right, by simpa using first.or derived⟩

end Begins

/-- The tokens cannot stand where a term has to begin, whichever brackets are open. -/
def Stuck (implicitAnd : Bool) (tokens : List Token) : Prop :=
  ∀ opened, walk implicitAnd (ahead opened) tokens = none

/-- No query begins with tokens that lead nowhere. -/
theorem not_completable_of_walk (stuck : walk implicitAnd (ahead []) tokens = none) :
    ¬ Completable implicitAnd tokens := by
  rintro ⟨continuation, tree, derived⟩
  have through := derived.walk []
  rw [Stance.walk_append, stuck] at through
  cases through

namespace Stuck

theorem not_completable (h : Stuck implicitAnd tokens) : ¬ Completable implicitAnd tokens :=
  not_completable_of_walk (h [])

theorem not (h : Stuck implicitAnd tokens) : Stuck implicitAnd (.not :: tokens) := h

theorem opening (h : Stuck implicitAnd tokens) (bracket : Bracket) :
    Stuck implicitAnd (.opening bracket :: tokens) := fun opened => h (bracket :: opened)

theorem of_startsTerm {token : Token} (starts : token.startsTerm = false) :
    Stuck implicitAnd [token] := by
  intro opened
  rw [Stance.walk_cons, Stance.step_ahead starts]
  rfl

theorem blank {text : Text} (blank : text.allBlank = true) : Stuck implicitAnd [.quoted text] := by
  intro opened
  simp only [Stance.walk_cons, Stance.step, Stance.enter, blank, if_true]
  rfl

theorem binary {token : Token} (h : Stuck implicitAnd tokens)
    (first : Derives implicitAnd level before tree) (binary : token.isBinary = true) :
    Stuck implicitAnd (before ++ token :: tokens) := by
  intro opened
  rw [Stance.walk_append, first.walk, Option.bind_some, Stance.walk_cons, Stance.step_binary binary]
  exact h opened

/-- Behind a term another one begins as if it had to. -/
theorem juxtaposed {token : Token} (h : Stuck implicitAnd (token :: tokens))
    (first : Derives implicitAnd level before tree) (allowed : implicitAnd = true)
    (starts : token.startsTerm = true) : Stuck implicitAnd (before ++ token :: tokens) := by
  intro opened
  rw [Stance.walk_append, first.walk, Option.bind_some, Stance.walk_cons,
    Stance.step_behind allowed starts]
  exact h opened

end Stuck

end TagQuery.Query
