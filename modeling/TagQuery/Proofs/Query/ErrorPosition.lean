import Mathlib.Control.Monad.Basic
import TagQuery.Proofs.Query.Failures
import TagQuery.Proofs.Query.Positions

/-! An error points at the first token that no query can have there. Main steps: a rule that fails has
passed over tokens with which a phrase of its level begins, and stands before one that none goes on
with; positions tell the two apart, for tokens start in order. -/
namespace TagQuery.Query

variable {reading : Reading} {next : NextOperand} {join : Query → Query → Query} {operand : Rule}
  {inner outer level : Level} {e : SyntaxError} {before passed ahead tokens : List Lexeme}

/-- Where an error points: at the next token or the end, or at the opening bracket of an empty group,
whose closing bracket is next. -/
inductive Reading.Blames (reading : Reading) : List Lexeme → List Lexeme → SyntaxError → Prop
  | next {cause : SyntaxCause} (passed ahead : List Lexeme)
      (filled : ∀ bracket, cause ≠ .emptyGroup bracket) :
      Blames reading passed ahead ⟨cause, reading.position ahead⟩
  | emptyGroup (bracket : Bracket) (before : List Lexeme) (opened closed : Nat)
      (after : List Lexeme) :
      Blames reading (before ++ [⟨.opening bracket, opened⟩]) (⟨.closing bracket, closed⟩ :: after)
        ⟨.emptyGroup bracket, opened⟩

theorem Reading.Blames.behind (before : List Lexeme) (h : reading.Blames passed ahead e) :
    reading.Blames (before ++ passed) ahead e := by
  cases h with
  | next passed ahead filled => exact .next _ ahead filled
  | emptyGroup bracket between opened closed after =>
    rw [← List.append_assoc]
    exact .emptyGroup bracket _ opened closed after

/-- An error between two tokens: phrases of the level begin with those before, none goes on with the
next, and the error points there. -/
structure Reading.Halts (reading : Reading) (level : Level) (passed ahead : List Lexeme)
    (e : SyntaxError) : Prop where
  begins : Begins reading.implicitAnd level (passed.map Lexeme.token)
  stuck : ∀ lexeme ∈ ahead.head?,
    Stuck reading.implicitAnd ((passed ++ [lexeme]).map Lexeme.token)
  blames : reading.Blames passed ahead e

/-- An error at one place of some tokens that stand behind others. -/
def Reading.HaltsIn (reading : Reading) (level : Level) (before tokens : List Lexeme)
    (e : SyntaxError) : Prop :=
  ∃ passed ahead, tokens = passed ++ ahead ∧ reading.Halts level (before ++ passed) ahead e

/-- The errors of a rule, the limit on the height apart, are such errors. -/
def Rule.Halts (reading : Reading) (level : Level) (rule : Rule) : Prop :=
  ∀ ⦃tokens : List Lexeme⦄ ⦃e : SyntaxError⦄, rule tokens = .error e → e.cause ≠ .tooDeep →
    reading.HaltsIn level [] tokens e

/-- An error where a term has to begin and none does. -/
theorem Reading.HaltsIn.atOnce {cause : SyntaxCause}
    (stuck : ∀ lexeme ∈ tokens.head?, Stuck reading.implicitAnd [lexeme.token])
    (filled : ∀ bracket, cause ≠ .emptyGroup bracket) :
    reading.HaltsIn .term [] tokens ⟨cause, reading.position tokens⟩ :=
  ⟨[], tokens, rfl, .nil, stuck, .next [] tokens filled⟩

theorem stuck_of_startsTerm (missing : startsTerm tokens = false) :
    ∀ lexeme ∈ tokens.head?, Stuck reading.implicitAnd [lexeme.token] := by
  intro lexeme member
  obtain ⟨rest, rfl⟩ := List.head?_eq_some_iff.mp member
  exact .of_startsTerm missing

theorem Reading.HaltsIn.missing (operator : Operator) (missing : startsTerm tokens = false) :
    reading.HaltsIn .term [] tokens ⟨.missingOperandAfter operator, reading.position tokens⟩ :=
  .atOnce (stuck_of_startsTerm missing) fun _ => SyntaxCause.noConfusion

/-- An error stays where it is when its tokens stand behind others, if what begins a phrase does so
there, and what leads nowhere leads nowhere. -/
theorem Reading.HaltsIn.behind (operator : List Lexeme) (h : reading.HaltsIn inner [] tokens e)
    (begins : ∀ {used : List Token}, Begins reading.implicitAnd inner used →
      Begins reading.implicitAnd outer (before.map Lexeme.token ++ (operator.map Lexeme.token ++ used)))
    (stuck : ∀ {first : Lexeme} {more : List Token}, first ∈ tokens.head? →
      Stuck reading.implicitAnd (first.token :: more) →
      Stuck reading.implicitAnd
        (before.map Lexeme.token ++ (operator.map Lexeme.token ++ first.token :: more))) :
    reading.HaltsIn outer before (operator ++ tokens) e := by
  obtain ⟨passed, ahead, rfl, halts⟩ := h
  refine ⟨operator ++ passed, ahead, (List.append_assoc _ _ _).symm, ?_, fun lexeme member => ?_, ?_⟩
  · simpa only [List.map_append, List.nil_append] using begins halts.begins
  · have none : Stuck reading.implicitAnd ((passed ++ [lexeme]).map Lexeme.token) :=
      halts.stuck lexeme member
    cases passed with
    | nil => simpa using stuck (by simpa using member) none
    | cons first passed => simpa using stuck rfl none
  · simpa only [List.nil_append] using (halts.blames.behind operator).behind before

/-- How chains fail: behind an operator at once, or in an operand. -/
structure Reading.Stalls (reading : Reading) (next : NextOperand) (inner outer : Level) : Prop where
  missing : ∀ {before tokens : List Lexeme} {left : Query} {e : SyntaxError},
    Derives reading.implicitAnd outer (before.map Lexeme.token) left → next tokens = .error e →
    reading.HaltsIn outer before tokens e
  operand : ∀ {before tokens following : List Lexeme} {left : Query} {e : SyntaxError},
    Derives reading.implicitAnd outer (before.map Lexeme.token) left →
    next.GoesOn tokens following → reading.HaltsIn inner [] following e →
    reading.HaltsIn outer before tokens e

theorem Reading.HaltsIn.single (folds : reading.Folds next join inner outer)
    (h : reading.HaltsIn inner [] tokens e) : reading.HaltsIn outer [] tokens e :=
  h.behind [] (fun ⟨more, tree, derived⟩ => ⟨more, tree, folds.single derived⟩) fun _ stuck => stuck

theorem Reading.HaltsIn.and {left : Query} {start : Nat} (h : reading.HaltsIn .term [] tokens e)
    (first : Derives reading.implicitAnd .conjunction (before.map Lexeme.token) left) :
    reading.HaltsIn .conjunction before (⟨.and, start⟩ :: tokens) e :=
  h.behind [⟨.and, start⟩] (fun begins => begins.and first) fun _ stuck => stuck.binary first rfl

theorem Reading.HaltsIn.or {left : Query} {start : Nat}
    (h : reading.HaltsIn .conjunction [] tokens e)
    (first : Derives reading.implicitAnd .disjunction (before.map Lexeme.token) left) :
    reading.HaltsIn .disjunction before (⟨.or, start⟩ :: tokens) e :=
  h.behind [⟨.or, start⟩] (fun begins => begins.or first) fun _ stuck => stuck.binary first rfl

theorem Reading.stalls_conjunction (reading : Reading) :
    reading.Stalls reading.nextConjunct .term .conjunction where
  missing first h := by
    obtain ⟨start, rest, rfl, missing, rfl⟩ := nextConjunct_eq_error h
    exact (HaltsIn.missing .and missing).and first
  operand first goes h := by
    obtain ⟨-, start, rfl⟩ | ⟨allowed, starts, rfl⟩ := nextConjunct_goesOn.mp goes
    · exact h.and first
    · refine h.behind [] (fun begins => begins.juxtaposed first allowed) fun member stuck => ?_
      obtain ⟨rest, rfl⟩ := List.head?_eq_some_iff.mp member
      exact stuck.juxtaposed first allowed starts

theorem Reading.stalls_disjunction (reading : Reading) :
    reading.Stalls reading.nextDisjunct .conjunction .disjunction where
  missing first h := by
    obtain ⟨start, rest, rfl, missing, rfl⟩ := nextDisjunct_eq_error h
    exact ((HaltsIn.missing .or missing).single reading.folds_conjunction).or first
  operand first goes h := by
    obtain ⟨-, start, rfl⟩ := nextDisjunct_goesOn.mp goes
    exact h.or first

/-- A chain that fails behind a phrase fails at one place behind it. -/
theorem Reading.chain_halts {reading : Reading} {next : NextOperand}
    {join : Query → Query → Query} {operand : Rule} {inner outer : Level} {e : SyntaxError}
    {before tokens : List Lexeme} {left : Query} {height : Nat}
    (folds : reading.Folds next join inner outer) (stalls : reading.Stalls next inner outer)
    (operands : operand.Sound reading inner) (halts : operand.Halts reading inner)
    (phrase : Derives reading.implicitAnd outer (before.map Lexeme.token) left)
    (h : reading.chain next join operand left height tokens = .error e)
    (shallow : e.cause ≠ .tooDeep) : reading.HaltsIn outer before tokens e := by
  obtain missing | ⟨following, goes, fails | ⟨right, rightHeight, between, read, shorter, later⟩⟩ :=
    chain_eq_error h
  · exact stalls.missing phrase missing
  · exact stalls.operand phrase goes (halts fails shallow)
  · have later := later.resolve_left shallow
    obtain ⟨operator, rfl, joined⟩ := folds.joined goes
    obtain ⟨used, rfl, second, -⟩ := operands read
    have longer : Derives reading.implicitAnd outer
        ((before ++ (operator ++ used)).map Lexeme.token) (join left right) := by
      simpa only [List.map_append] using joined phrase second
    obtain ⟨passed, ahead, rfl, there⟩ :=
      chain_halts folds stalls operands halts longer later shallow
    exact ⟨operator ++ used ++ passed, ahead, by simp, by simpa using there⟩
termination_by tokens.length

theorem Reading.leftAssociative_halts (folds : reading.Folds next join inner outer)
    (stalls : reading.Stalls next inner outer) (operands : operand.Sound reading inner)
    (halts : operand.Halts reading inner) :
    (reading.leftAssociative next join operand).Halts reading outer := by
  intro tokens e h shallow
  obtain fails | ⟨first, height, between, read, later⟩ := leftAssociative_eq_error h
  · exact (halts fails shallow).single folds
  · obtain ⟨used, rfl, phrase, -⟩ := operands read
    obtain ⟨passed, ahead, rfl, there⟩ :=
      chain_halts folds stalls operands halts (folds.single phrase) later shallow
    exact ⟨used ++ passed, ahead, (List.append_assoc _ _ _).symm, there⟩

theorem Reading.disjunction_halts {term : Rule} (terms : term.Sound reading .term)
    (halts : term.Halts reading .term) :
    Rule.Halts reading .disjunction (reading.disjunction term) :=
  leftAssociative_halts reading.folds_disjunction reading.stalls_disjunction
    (leftAssociative_sound reading.folds_conjunction terms)
    (leftAssociative_halts reading.folds_conjunction reading.stalls_conjunction terms halts)

/-- Behind a disjunction that a rule has read nothing can come next, unless it closes the innermost
bracket that is open there. -/
theorem Reading.disjunction_ends {term : Rule} {tree : Query} {height : Nat} {rest : List Lexeme}
    (terms : term.Sound reading .term) (ends : term.Leaves reading.BehindTerm)
    (body : Rule.Gives (reading.disjunction term) tokens tree height rest) :
    ∃ used, tokens = used ++ rest ∧
      Derives reading.implicitAnd .disjunction (used.map Lexeme.token) tree ∧
      ∀ lexeme ∈ rest.head?, ∀ opened : List Bracket,
        (∀ bracket, lexeme.token = .closing bracket → opened.head? ≠ some bracket) →
        Stance.walk reading.implicitAnd (.ahead opened)
          ((used ++ [lexeme]).map Lexeme.token) = none := by
  obtain ⟨used, rfl, derived, -⟩ := disjunction_sound terms body
  obtain ⟨_, split, -, left⟩ := disjunction_leaves ends body
  obtain rfl := List.append_cancel_right split
  refine ⟨used, rfl, derived, fun lexeme member opened open_ => ?_⟩
  obtain ⟨more, rfl⟩ := List.head?_eq_some_iff.mp member
  rw [List.map_append, Stance.walk_append, derived.walk, Option.bind_some, List.map_singleton,
    Stance.walk_cons, left.step_eq_none open_, Option.bind_none]

theorem Reading.termWith_halts {nested : Option Rule}
    (terms : ∀ term ∈ nested, Rule.Sound reading .term term ∧ term.Leaves reading.BehindTerm ∧
      term.Halts reading .term) :
    Rule.Halts reading .term (reading.termWith nested) := by
  intro tokens e h shallow
  cases TermFails.of_eq h with
  | deep high => exact absurd high shallow
  | nothing => exact .atOnce (fun _ => nofun) fun _ => SyntaxCause.noConfusion
  | @blank text start rest blank =>
    refine .atOnce ?_ fun _ => SyntaxCause.noConfusion
    rintro _ ⟨⟩
    exact .blank blank
  | @misplaced token cause start rest starts filled =>
    exact .atOnce (stuck_of_startsTerm starts) filled
  | notAlone start missing =>
    exact (HaltsIn.missing .not missing).behind [⟨.not, start⟩] Begins.not fun _ => Stuck.not
  | @not term start rest _ open_ fails =>
    obtain ⟨-, -, halts⟩ := terms term open_
    exact (halts fails shallow).behind [⟨.not, start⟩] Begins.not fun _ => Stuck.not
  | emptyGroup bracket start stop rest =>
    refine ⟨[⟨.opening bracket, start⟩], ⟨.closing bracket, stop⟩ :: rest, rfl, ?_, ?_,
      .emptyGroup bracket [] start stop rest⟩
    · exact Begins.opening ⟨[.all], .all, .ofConjunction (.ofTerm .all)⟩ bracket
    · rintro _ ⟨⟩
      exact Stuck.opening (.of_startsTerm rfl) bracket
  | @group term bracket start rest _ open_ fails =>
    obtain ⟨sound, -, halts⟩ := terms term open_
    have inside := disjunction_halts sound halts fails shallow
    exact inside.behind [⟨.opening bracket, start⟩] (fun begins => begins.opening bracket)
      fun _ stuck => stuck.opening bracket
  | @unclosed term bracket start _ tokens rest tree open_ body other =>
    obtain ⟨sound, ends, -⟩ := terms term open_
    obtain ⟨used, rfl, derived, stuck⟩ := disjunction_ends sound ends body
    refine ⟨⟨.opening bracket, start⟩ :: used, rest, rfl, ?_, fun lexeme member opened => ?_,
      .next _ rest fun _ => SyntaxCause.noConfusion⟩
    · exact Begins.opening ⟨[], tree, by simpa using derived⟩ bracket
    · refine stuck lexeme member (bracket :: opened) fun found closes innermost => ?_
      cases innermost
      exact other lexeme member closes

theorem Reading.term_halts (limited : 0 < reading.limit) (room : Nat) :
    Rule.Halts reading .term (reading.term room) := by
  induction room with
  | zero =>
    refine termWith_halts fun term member => ?_
    cases member
  | succ room ih =>
    refine termWith_halts fun term member => ?_
    cases member
    exact ⟨term_sound limited room, term_leaves room, ih⟩

/-- A query that fails of something else than its height fails between tokens that begin a query and
one with which they no longer do. -/
theorem Reading.query_halts (limited : 0 < reading.limit) (some_tokens : tokens ≠ [])
    (h : reading.query tokens = .error e) (shallow : e.cause ≠ .tooDeep) :
    ∃ passed ahead, tokens = passed ++ ahead ∧
      Completable reading.implicitAnd (passed.map Lexeme.token) ∧
      (∀ lexeme ∈ ahead.head?,
        ¬ Completable reading.implicitAnd ((passed ++ [lexeme]).map Lexeme.token)) ∧
      reading.Blames passed ahead e := by
  have sound : Rule.Sound reading .term (reading.term reading.limit) := term_sound limited _
  have ends := reading.term_leaves reading.limit
  unfold query at h
  split at h
  · next none => exact absurd (List.isEmpty_iff.mp none) some_tokens
  · split at h
    · next fails =>
      cases h
      obtain ⟨passed, ahead, rfl, halts⟩ :=
        disjunction_halts sound (term_halts limited reading.limit) fails shallow
      exact ⟨passed, ahead, rfl, halts.begins,
        fun lexeme member => (halts.stuck lexeme member).not_completable, halts.blames⟩
    · next parsed read =>
      -- A query has been read, and something is left behind it.
      obtain ⟨used, split, derived, stuck⟩ := disjunction_ends sound ends (Rule.gives_of_eq read)
      refine ⟨used, parsed.rest, split, ⟨[], parsed.tree, by simpa using derived⟩, ?_, ?_⟩
      · intro lexeme member
        apply not_completable_of_walk
        apply stuck lexeme member
        intro bracket _
        exact (Option.some_ne_none bracket).symm
      split at h
      · cases h
      · next left =>
        cases h
        rw [left]
        exact .next used (_ :: _) fun _ => SyntaxCause.noConfusion
      · next left =>
        cases h
        rw [left]
        exact .next used (_ :: _) fun _ => SyntaxCause.noConfusion

def tokensBefore (lexemes : List Lexeme) (position : Nat) : List Token :=
  (lexemes.filter (·.start < position)).map Lexeme.token

def tokensUpTo (lexemes : List Lexeme) (position : Nat) : List Token :=
  (lexemes.filter (·.start ≤ position)).map Lexeme.token

theorem tokensBefore_of_forall_lt {lexemes : List Lexeme} {position : Nat}
    (before : ∀ lexeme ∈ lexemes, lexeme.start < position) :
    tokensBefore lexemes position = lexemes.map Lexeme.token :=
  congrArg (List.map Lexeme.token)
    (List.filter_eq_self.mpr fun lexeme member => decide_eq_true (before lexeme member))

section Sorted

variable {lexeme : Lexeme} {rest : List Lexeme}

/-- Tokens that start in order are told apart by the position of one of them. -/
theorem tokensBefore_of_pairwise (sorted : (passed ++ lexeme :: rest).Pairwise (·.start < ·.start)) :
    tokensBefore (passed ++ lexeme :: rest) lexeme.start = passed.map Lexeme.token := by
  obtain ⟨-, behind, before⟩ := List.pairwise_append.mp sorted
  have here : (passed.filter (·.start < lexeme.start)).map Lexeme.token = passed.map Lexeme.token :=
    tokensBefore_of_forall_lt fun other member => before other member lexeme List.mem_cons_self
  have later : (lexeme :: rest).filter (·.start < lexeme.start) = [] := by
    refine List.filter_eq_nil_iff.mpr fun other member => ?_
    obtain rfl | member := List.mem_cons.mp member
    · simp
    · have := List.rel_of_pairwise_cons behind member
      simpa using Nat.le_of_lt this
  rw [tokensBefore, List.filter_append, later, List.append_nil, here]

theorem tokensUpTo_of_pairwise (sorted : (passed ++ lexeme :: rest).Pairwise (·.start < ·.start)) :
    tokensUpTo (passed ++ lexeme :: rest) lexeme.start = (passed ++ [lexeme]).map Lexeme.token := by
  obtain ⟨-, behind, before⟩ := List.pairwise_append.mp sorted
  have here : passed.filter (·.start ≤ lexeme.start) = passed :=
    List.filter_eq_self.mpr fun other member =>
      decide_eq_true (Nat.le_of_lt (before other member lexeme List.mem_cons_self))
  have later : rest.filter (·.start ≤ lexeme.start) = [] := by
    refine List.filter_eq_nil_iff.mpr fun other member => ?_
    have := List.rel_of_pairwise_cons behind member
    simpa using this
  simp [tokensUpTo, here, later]

end Sorted

/-- Where a text that has tokens and is not nested too deeply is not a query, the error points at a
token or at the end. The tokens before that place can be completed to a query, and not together with
the one there. Only the error of an empty group points one token earlier, at the opening bracket. -/
theorem parse_error_position {dialect : Dialect} {text : Text} {lexemes : List Lexeme}
    {e : SyntaxError} (tokenized : tokenize dialect text = .ok lexemes) (some_tokens : lexemes ≠ [])
    (fails : parse dialect text = .error e) (shallow : e.cause ≠ .tooDeep) :
    (e.position = text.byteLength ∨ ∃ lexeme ∈ lexemes, lexeme.start = e.position) ∧
    Completable dialect.implicitAnd (tokensBefore lexemes e.position) ∧
    ((∀ bracket, e.cause ≠ .emptyGroup bracket) →
      ∀ lexeme ∈ lexemes, lexeme.start = e.position →
        ¬ Completable dialect.implicitAnd (tokensUpTo lexemes e.position)) ∧
    ∀ bracket, e.cause = .emptyGroup bracket →
      ∃ before closed after,
        lexemes = before ++ ⟨.opening bracket, e.position⟩ :: ⟨.closing bracket, closed⟩ :: after ∧
        Completable dialect.implicitAnd (tokensUpTo lexemes e.position) ∧
        ¬ Completable dialect.implicitAnd (tokensUpTo lexemes closed) := by
  have limited : 0 < maxHeight := by decide
  obtain ⟨sorted, inside⟩ := tokenize_starts tokenized
  simp only [parse, tokenized] at fails
  obtain ⟨passed, ahead, rfl, completable, stuck, blames⟩ :=
    Reading.query_halts limited some_tokens fails shallow
  cases blames with
  | next _ _ filled =>
    cases ahead with
    | nil =>
      rw [List.append_nil] at inside ⊢
      rw [← tokensBefore_of_forall_lt inside] at completable
      refine ⟨.inl rfl, completable, fun _ lexeme member here => ?_, fun bracket empty => ?_⟩
      · exact absurd here (Nat.ne_of_lt (inside lexeme member))
      · exact absurd empty (filled bracket)
    | cons lexeme rest =>
      have stuck := stuck lexeme rfl
      rw [← tokensBefore_of_pairwise sorted] at completable
      rw [← tokensUpTo_of_pairwise sorted] at stuck
      exact ⟨.inr ⟨lexeme, by simp, rfl⟩, completable, fun _ _ _ _ => stuck,
        fun bracket empty => absurd empty (filled bracket)⟩
  | emptyGroup bracket before opened closed after =>
    have closing := stuck ⟨.closing bracket, closed⟩ rfl
    have split : before ++ [⟨.opening bracket, opened⟩] ++ ⟨.closing bracket, closed⟩ :: after =
        before ++ ⟨.opening bracket, opened⟩ :: ⟨.closing bracket, closed⟩ :: after := by simp
    rw [← tokensUpTo_of_pairwise sorted] at closing
    rw [split] at sorted closing ⊢
    have shorter : Completable dialect.implicitAnd (before.map Lexeme.token) := by
      rw [List.map_append] at completable
      exact completable.of_append
    rw [← tokensBefore_of_pairwise sorted] at shorter
    rw [← tokensUpTo_of_pairwise sorted] at completable
    refine ⟨.inr ⟨⟨.opening bracket, opened⟩, by simp, rfl⟩, shorter, fun filled => ?_, ?_⟩
    · exact absurd rfl (filled bracket)
    · rintro _ ⟨⟩
      exact ⟨before, closed, after, rfl, completable, closing⟩

/-- A bracket of the other kind cannot close a group, and the error points at it. -/
theorem parse_error_position_of_brackets :
    parse {} "(cat]".toList = .error ⟨.unclosed .round 0, 4⟩ ∧
      Completable true [.opening .round, .word "cat".toList] ∧
      ¬ Completable true [.opening .round, .word "cat".toList, .closing .square] := by
  have fails : parse {} "(cat]".toList = .error ⟨.unclosed .round 0, 4⟩ := by decide +kernel
  have tokenized : tokenize {} "(cat]".toList =
      .ok [⟨.opening .round, 0⟩, ⟨.word "cat".toList, 1⟩, ⟨.closing .square, 4⟩] := by rfl
  obtain ⟨-, completable, stuck, -⟩ :=
    parse_error_position tokenized (List.cons_ne_nil _ _) fails SyntaxCause.noConfusion
  exact ⟨fails, completable, stuck (fun _ => SyntaxCause.noConfusion) ⟨.closing .square, 4⟩
    (by decide) rfl⟩

example : parse {} "cat [ ]".toList = .error ⟨.emptyGroup .square, 4⟩ := by decide +kernel

end TagQuery.Query
