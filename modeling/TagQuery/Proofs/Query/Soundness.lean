import TagQuery.Proofs.Query.Rules
import TagQuery.Query.Grammar

/-! Soundness of the reader: the tokens that a rule has read derive its tree, and the height that it
keeps is the height of the tree and not over the limit. Conjunctions and disjunctions are chains of
one shape, so the argument about chains is made once. -/
namespace TagQuery.Query

variable {reading : Reading} {next : NextOperand} {join : Query → Query → Query} {operand : Rule}
  {inner outer : Level}

/-- What a rule reads are phrases of a level, with their heights, which are not over the limit. -/
def Rule.Sound (reading : Reading) (level : Level) (rule : Rule) : Prop :=
  ∀ {tokens rest : List Lexeme} {tree : Query} {height : Nat},
    rule.Gives tokens tree height rest →
      ∃ used, tokens = used ++ rest ∧
        Derives reading.implicitAnd level (used.map Lexeme.token) tree ∧
        height = tree.height ∧ tree.height ≤ reading.limit

/-- Chains of phrases of an inner level, joined in this way, are the phrases of an outer level. -/
structure Reading.Folds (reading : Reading) (next : NextOperand) (join : Query → Query → Query)
    (inner outer : Level) : Prop where
  single : ∀ {tokens : List Token} {tree : Query},
    Derives reading.implicitAnd inner tokens tree → Derives reading.implicitAnd outer tokens tree
  joined : ∀ {tokens following : List Lexeme}, next.GoesOn tokens following →
    ∃ operator, tokens = operator ++ following ∧
      ∀ {before after : List Token} {left right : Query},
        Derives reading.implicitAnd outer before left →
        Derives reading.implicitAnd inner after right →
        Derives reading.implicitAnd outer (before ++ (operator.map Lexeme.token ++ after))
          (join left right)
  height_join : ∀ left right, (join left right).height = 1 + max left.height right.height

theorem Reading.folds_conjunction (reading : Reading) :
    reading.Folds reading.nextConjunct .and .term .conjunction where
  single := .ofTerm
  joined h := by
    obtain ⟨-, start, rfl⟩ | ⟨allowed, -, rfl⟩ := nextConjunct_goesOn.mp h
    · exact ⟨[⟨.and, start⟩], rfl, .and⟩
    · exact ⟨[], rfl, .juxtaposed allowed⟩
  height_join _ _ := rfl

theorem Reading.folds_disjunction (reading : Reading) :
    reading.Folds reading.nextDisjunct .or .conjunction .disjunction where
  single := .ofConjunction
  joined h := by
    obtain ⟨-, start, rfl⟩ := nextDisjunct_goesOn.mp h
    exact ⟨[⟨.or, start⟩], rfl, .or⟩
  height_join _ _ := rfl

/-- The rest of a chain goes on with the phrase before it. -/
theorem Reading.ChainGives.sound (folds : reading.Folds next join inner outer)
    (operands : operand.Sound reading inner) {tokens rest : List Lexeme} {left tree : Query}
    {leftHeight height : Nat} {before : List Token}
    (phrase : Derives reading.implicitAnd outer before left)
    (heightLeft : leftHeight = left.height) (fitsLeft : left.height ≤ reading.limit)
    (h : reading.ChainGives next join operand left leftHeight tokens tree height rest) :
    ∃ used, tokens = used ++ rest ∧
      Derives reading.implicitAnd outer (before ++ used.map Lexeme.token) tree ∧
      height = tree.height ∧ tree.height ≤ reading.limit := by
  obtain ⟨-, rfl, rfl, rfl⟩ | ⟨following, right, rightHeight, between, goes, read, fits, shorter,
    more⟩ := h.cases
  · exact ⟨[], rfl, by simpa using phrase, heightLeft, fitsLeft⟩
  · obtain ⟨operator, rfl, joined⟩ := folds.joined goes
    obtain ⟨operandTokens, rfl, second, rfl, -⟩ := operands read
    have heightJoin := folds.height_join left right
    rw [heightLeft, ← heightJoin] at more fits
    obtain ⟨used, rfl, whole, eqHeight, small⟩ :=
      ChainGives.sound folds operands (joined phrase second) rfl fits more
    refine ⟨operator ++ operandTokens ++ used, by simp, ?_, eqHeight, small⟩
    simpa using whole
termination_by tokens.length

theorem Reading.leftAssociative_sound (folds : reading.Folds next join inner outer)
    (operands : operand.Sound reading inner) :
    (reading.leftAssociative next join operand).Sound reading outer := by
  intro tokens rest tree height h
  obtain ⟨first, firstHeight, between, read, more⟩ := leftAssociative_gives.mp h
  obtain ⟨before, rfl, phrase, eqHeight, fits⟩ := operands read
  obtain ⟨used, rfl, whole, heightTree, small⟩ :=
    more.sound folds operands (folds.single phrase) eqHeight fits
  exact ⟨before ++ used, by simp, by simpa using whole, heightTree, small⟩

theorem Reading.disjunction_sound {term : Rule} (terms : term.Sound reading .term) :
    Rule.Sound reading .disjunction (reading.disjunction term) :=
  leftAssociative_sound reading.folds_disjunction
    (leftAssociative_sound reading.folds_conjunction terms)

/-- The leading words are words of the text. -/
theorem eq_append_leadingWords (tokens : List Lexeme) :
    ∃ used, tokens = used ++ (leadingWords tokens).2 ∧
      used.map Lexeme.token = (leadingWords tokens).1.map .word := by
  fun_induction leadingWords tokens with
  | case1 text start rest ih =>
    obtain ⟨used, split, words⟩ := ih
    exact ⟨⟨.word text, start⟩ :: used, congrArg _ split, congrArg _ words⟩
  | case2 tokens => exact ⟨[], rfl, rfl⟩

theorem Reading.termWith_sound (room : 0 < reading.limit) {nested : Option Rule}
    (terms : ∀ term ∈ nested, Rule.Sound reading .term term) :
    Rule.Sound reading .term (reading.termWith nested) := by
  intro tokens rest tree height h
  cases termWith_gives.mp h with
  | word text start rest => exact ⟨[⟨.word text, start⟩], rfl, .word text, rfl, room⟩
  | words text start rest whole =>
    obtain ⟨used, split, words⟩ := eq_append_leadingWords rest
    refine ⟨⟨.word text, start⟩ :: used, congrArg _ split, ?_, rfl, room⟩
    rw [List.map_cons, words]
    exact .words text _ whole
  | quoted text start rest visible =>
    exact ⟨[⟨.quoted text, start⟩], rfl, .quoted text visible, rfl, room⟩
  | all start rest => exact ⟨[⟨.all, start⟩], rfl, .all, rfl, room⟩
  | @not term start _ _ _ inner nested_ _ operand fits =>
    obtain ⟨used, rfl, phrase, rfl, -⟩ := terms term nested_ operand
    exact ⟨⟨.not, start⟩ :: used, rfl, .not phrase, Nat.add_comm _ _,
      by rw [height, Nat.add_comm]; exact fits⟩
  | @group term bracket start stop _ _ _ inner nested_ _ body fits =>
    obtain ⟨used, rfl, phrase, rfl, -⟩ := disjunction_sound (terms term nested_) body
    refine ⟨⟨.opening bracket, start⟩ :: (used ++ [⟨.closing bracket, stop⟩]), by simp, ?_,
      Nat.add_comm _ _, by rw [height, Nat.add_comm]; exact fits⟩
    simpa using Derives.group bracket phrase

/-- Every term that is read is a term of the grammar. -/
theorem Reading.term_sound (limited : 0 < reading.limit) (room : Nat) :
    Rule.Sound reading .term (reading.term room) := by
  induction room with
  | zero =>
    refine termWith_sound limited fun term member => ?_
    cases member
  | succ room ih =>
    refine termWith_sound limited fun term member => ?_
    cases member
    exact ih

end TagQuery.Query
