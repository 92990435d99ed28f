import TagQuery.Proofs.Query.Viability

/-! Where the reader stops when it fails, the limit on the height apart. It has passed over tokens with
which a query can begin, and stands before one that cannot come next. Main steps: what each rule fails
of, what a rule that succeeds leaves behind it, and the rules in turn as in the proof of soundness. -/
namespace TagQuery.Query

variable {reading : Reading} {next : NextOperand} {join : Query → Query → Query} {operand : Rule}
  {inner outer : Level} {e : SyntaxError} {tokens : List Lexeme}

theorem Reading.checkHeight_eq_error {height position : Nat}
    (h : reading.checkHeight height position = .error e) : e.cause = .tooDeep := by
  unfold checkHeight at h
  split at h
  · cases h
    rfl
  · cases h

theorem Reading.afterOperator_eq_error {operator : Operator}
    (h : reading.afterOperator operator tokens = .error e) : startsTerm tokens = false ∧
      e = ⟨.missingOperandAfter operator, reading.position tokens⟩ := by
  unfold afterOperator at h
  split at h
  · cases h
  · next missing =>
    cases h
    exact ⟨Bool.eq_false_iff.mpr missing, rfl⟩

theorem Reading.nextConjunct_eq_error (h : reading.nextConjunct tokens = .error e) :
    ∃ start rest, tokens = ⟨.and, start⟩ :: rest ∧ startsTerm rest = false ∧
      e = ⟨.missingOperandAfter .and, reading.position rest⟩ := by
  unfold nextConjunct at h
  split at h
  · next start rest =>
    split at h
    · next missing =>
      cases h
      exact ⟨start, rest, rfl, afterOperator_eq_error missing⟩
    · cases h
  · split at h <;> cases h

theorem Reading.nextDisjunct_eq_error (h : reading.nextDisjunct tokens = .error e) :
    ∃ start rest, tokens = ⟨.or, start⟩ :: rest ∧ startsTerm rest = false ∧
      e = ⟨.missingOperandAfter .or, reading.position rest⟩ := by
  unfold nextDisjunct at h
  split at h
  · next start rest =>
    split at h
    · next missing =>
      cases h
      exact ⟨start, rest, rfl, afterOperator_eq_error missing⟩
    · cases h
  · cases h

/-- A chain fails for want of an operand, in an operand, or further on. -/
theorem Reading.chain_eq_error {left : Query} {height : Nat}
    (h : reading.chain next join operand left height tokens = .error e) :
    next tokens = .error e ∨ ∃ following, next.GoesOn tokens following ∧
      (operand following = .error e ∨ ∃ right rightHeight between,
        operand.Gives following right rightHeight between ∧ between.length < tokens.length ∧
        (e.cause = .tooDeep ∨ reading.chain next join operand (join left right)
          (1 + max height rightHeight) between = .error e)) := by
  rw [chain] at h
  split at h
  · next missing =>
    cases h
    exact .inl missing
  · cases h
  · next following notLonger goes =>
    refine .inr ⟨following, ⟨notLonger, goes⟩, ?_⟩
    split at h
    · next fails =>
      cases h
      exact .inl fails
    · next right read =>
      refine .inr ⟨_, _, _, Rule.gives_of_eq read, Nat.lt_of_lt_of_le right.shorter notLonger, ?_⟩
      split at h
      · next high =>
        cases h
        exact .inl (checkHeight_eq_error high)
      · next grown fits =>
        obtain ⟨-, rfl⟩ := checkHeight_eq_ok.mp fits
        split at h
        · next later =>
          cases h
          exact .inr later
        · cases h

theorem Reading.leftAssociative_eq_error
    (h : reading.leftAssociative next join operand tokens = .error e) :
    operand tokens = .error e ∨ ∃ first firstHeight between,
      operand.Gives tokens first firstHeight between ∧
      reading.chain next join operand first firstHeight between = .error e := by
  unfold leftAssociative at h
  split at h
  · next fails =>
    cases h
    exact .inl fails
  · next first read =>
    split at h
    · next later =>
      cases h
      exact .inr ⟨_, _, _, Rule.gives_of_eq read, later⟩
    · cases h

/-- What a term can fail of, by its first token. -/
inductive Reading.TermFails (reading : Reading) (nested : Option Rule) :
    List Lexeme → SyntaxError → Prop
  | deep {tokens : List Lexeme} {e : SyntaxError} (high : e.cause = .tooDeep) :
      TermFails reading nested tokens e
  | nothing : TermFails reading nested [] ⟨.unexpectedEnd, reading.stop⟩
  | blank {text : Text} (start : Nat) (rest : List Lexeme) (blank : text.allBlank = true) :
      TermFails reading nested (⟨.quoted text, start⟩ :: rest) ⟨.emptyQuotedTag, start⟩
  | misplaced {token : Token} {cause : SyntaxCause} (start : Nat) (rest : List Lexeme)
      (starts : token.startsTerm = false) (filled : ∀ bracket, cause ≠ .emptyGroup bracket) :
      TermFails reading nested (⟨token, start⟩ :: rest) ⟨cause, start⟩
  | notAlone (start : Nat) {rest : List Lexeme} (missing : startsTerm rest = false) :
      TermFails reading nested (⟨.not, start⟩ :: rest)
        ⟨.missingOperandAfter .not, reading.position rest⟩
  | not {term : Rule} (start : Nat) {rest : List Lexeme} {e : SyntaxError}
      (open_ : nested = some term) (fails : term rest = .error e) :
      TermFails reading nested (⟨.not, start⟩ :: rest) e
  | emptyGroup (bracket : Bracket) (start stop : Nat) (rest : List Lexeme) :
      TermFails reading nested (⟨.opening bracket, start⟩ :: ⟨.closing bracket, stop⟩ :: rest)
        ⟨.emptyGroup bracket, start⟩
  | group {term : Rule} (bracket : Bracket) (start : Nat) {rest : List Lexeme} {e : SyntaxError}
      (open_ : nested = some term) (fails : reading.disjunction term rest = .error e) :
      TermFails reading nested (⟨.opening bracket, start⟩ :: rest) e
  | unclosed {term : Rule} {bracket : Bracket} {start height : Nat} {tokens rest : List Lexeme}
      {tree : Query} (open_ : nested = some term)
      (body : (reading.disjunction term).Gives tokens tree height rest)
      (other : ∀ lexeme ∈ rest.head?, lexeme.token ≠ .closing bracket) :
      TermFails reading nested (⟨.opening bracket, start⟩ :: tokens)
        ⟨.unclosed bracket start, reading.position rest⟩

/-- A group fails in its contents, or because it is not closed behind them. -/
theorem Reading.groupBody_eq_error {bracket : Bracket} {opened : Nat} {body : Rule}
    (h : reading.groupBody bracket opened body tokens = .error e) :
    e.cause = .tooDeep ∨ body tokens = .error e ∨ ∃ tree height rest,
      body.Gives tokens tree height rest ∧
      (∀ lexeme ∈ rest.head?, lexeme.token ≠ .closing bracket) ∧
      e = ⟨.unclosed bracket opened, reading.position rest⟩ := by
  unfold groupBody at h
  split at h
  · next fails =>
    cases h
    exact .inr (.inl fails)
  · next inside read =>
    split at h
    · next found start rest closes =>
      split at h
      · split at h
        · next high =>
          cases h
          exact .inl (checkHeight_eq_error high)
        · cases h
      · next different =>
        cases h
        refine .inr (.inr ⟨_, _, _, ⟨inside, read, rfl, rfl, closes⟩, ?_, rfl⟩)
        rintro lexeme ⟨⟩ same
        exact different (Token.closing.inj same)
    · next open_ =>
      cases h
      refine .inr (.inr ⟨_, _, _, Rule.gives_of_eq read, ?_, rfl⟩)
      rintro ⟨token, start⟩ member rfl
      obtain ⟨rest, split⟩ := List.head?_eq_some_iff.mp member
      exact open_ _ _ _ split

theorem Reading.negationBody_eq_error {start : Nat} {term : Rule}
    (h : reading.negationBody start term tokens = .error e) :
    e.cause = .tooDeep ∨ term tokens = .error e := by
  unfold negationBody at h
  split at h
  · next fails =>
    cases h
    exact .inr fails
  · split at h
    · next high =>
      cases h
      exact .inl (checkHeight_eq_error high)
    · cases h

/-- A term that fails does so in one of these ways. -/
theorem Reading.TermFails.of_eq {nested : Option Rule}
    (h : reading.termWith nested tokens = .error e) : reading.TermFails nested tokens e := by
  unfold termWith at h
  split at h
  · cases h
    exact .nothing
  · split at h <;> cases h
  · next text start rest =>
    split at h
    · next blank =>
      cases h
      exact .blank start rest blank
    · cases h
  · cases h
  · next bracket start rest =>
    cases h
    exact .misplaced start rest rfl fun _ => SyntaxCause.noConfusion
  · next start rest =>
    cases h
    exact .misplaced start rest rfl fun _ => SyntaxCause.noConfusion
  · next start rest =>
    cases h
    exact .misplaced start rest rfl fun _ => SyntaxCause.noConfusion
  · next start rest =>
    split at h
    · next missing =>
      cases h
      obtain ⟨alone, rfl⟩ := afterOperator_eq_error missing
      exact .notAlone start alone
    · cases h
      exact .deep rfl
    · next term _ =>
      split at h
      · next fails =>
        cases h
        rcases negationBody_eq_error fails with high | fails
        · exact .deep high
        · exact .not start rfl fails
      · cases h
  · next bracket start rest =>
    split at h
    · next empty =>
      cases h
      obtain ⟨⟨_, stop⟩, first, rfl⟩ := Option.map_eq_some_iff.mp empty
      obtain ⟨more, rfl⟩ := List.head?_eq_some_iff.mp first
      exact .emptyGroup bracket start stop more
    · split at h
      · cases h
        exact .deep rfl
      · next term =>
        split at h
        · next fails =>
          cases h
          rcases groupBody_eq_error fails with high | fails | ⟨_, _, _, body, other, rfl⟩
          · exact .deep high
          · exact .group bracket start rfl fails
          · exact .unclosed rfl body other
        · cases h

/-- The rule leaves tokens that may follow its last one: whether they may can turn on that one being a
word. -/
def Rule.Leaves (rule : Rule) (May : Bool → List Lexeme → Prop) : Prop :=
  ∀ ⦃tokens rest : List Lexeme⦄ ⦃tree : Query⦄ ⦃height : Nat⦄,
    rule.Gives tokens tree height rest →
    ∃ used, tokens = used ++ rest ∧ used ≠ [] ∧ May (endsInWord (used.map Lexeme.token)) rest

theorem endsInWord_map_append {before after : List Lexeme} (some_tokens : after ≠ []) :
    endsInWord ((before ++ after).map Lexeme.token) = endsInWord (after.map Lexeme.token) := by
  rw [List.map_append, endsInWord_append _ fun none => some_tokens (List.map_eq_nil_iff.mp none)]

/-- What a chain leaves is what its last operand leaves, and no operand follows. -/
theorem Reading.ChainGives.leaves (folds : reading.Folds next join inner outer)
    {May : Bool → List Lexeme → Prop} (operands : operand.Leaves May)
    {tokens before rest : List Lexeme} {left tree : Query} {leftHeight height : Nat}
    (here : May (endsInWord (before.map Lexeme.token)) tokens)
    (h : reading.ChainGives next join operand left leftHeight tokens tree height rest) :
    ∃ used, tokens = used ++ rest ∧
      May (endsInWord ((before ++ used).map Lexeme.token)) rest ∧ next rest = .ok none := by
  obtain ⟨stops, -, -, rfl⟩ | ⟨following, right, rightHeight, between, goes, read, -, shorter, more⟩ :=
    h.cases
  · exact ⟨[], rfl, by rwa [List.append_nil], stops⟩
  · obtain ⟨operator, rfl, -⟩ := folds.joined goes
    obtain ⟨last, rfl, some_tokens, there⟩ := operands read
    obtain ⟨used, rfl, left, stops⟩ := ChainGives.leaves folds operands there more
    refine ⟨operator ++ (last ++ used), by simp, ?_, stops⟩
    rwa [← List.append_assoc, endsInWord_map_append (List.append_ne_nil_of_left_ne_nil some_tokens _)]
termination_by tokens.length

theorem Reading.leftAssociative_leaves (folds : reading.Folds next join inner outer)
    {May : Bool → List Lexeme → Prop} (operands : operand.Leaves May) :
    (reading.leftAssociative next join operand).Leaves fun inWord rest =>
      May inWord rest ∧ next rest = .ok none := by
  intro tokens rest tree height h
  obtain ⟨first, firstHeight, between, read, more⟩ := leftAssociative_gives.mp h
  obtain ⟨before, rfl, some_tokens, here⟩ := operands read
  obtain ⟨used, rfl, left, stops⟩ := more.leaves folds operands here
  exact ⟨before ++ used, by simp, List.append_ne_nil_of_left_ne_nil some_tokens _, left, stops⟩

/-- Behind a term: where words in a row are one name, no word follows a word. -/
def Reading.BehindTerm (reading : Reading) (inWord : Bool) (rest : List Lexeme) : Prop :=
  reading.implicitAnd = false → inWord = true → ∀ lexeme ∈ rest.head?, lexeme.token.isWord = false

def Reading.BehindDisjunction (reading : Reading) (inWord : Bool) (rest : List Lexeme) : Prop :=
  (reading.BehindTerm inWord rest ∧ reading.nextConjunct rest = .ok none) ∧
    reading.nextDisjunct rest = .ok none

theorem Reading.disjunction_leaves {term : Rule} (terms : term.Leaves reading.BehindTerm) :
    Rule.Leaves (reading.disjunction term) reading.BehindDisjunction :=
  leftAssociative_leaves reading.folds_disjunction
    (leftAssociative_leaves reading.folds_conjunction terms)

/-- The leading words are all of them. -/
theorem isWord_head_leadingWords (tokens : List Lexeme) :
    ∀ lexeme ∈ (leadingWords tokens).2.head?, lexeme.token.isWord = false := by
  fun_induction leadingWords tokens with
  | case1 text start rest ih => exact ih
  | case2 tokens noWord =>
    rintro ⟨token, start⟩ member
    obtain ⟨rest, rfl⟩ := List.head?_eq_some_iff.mp member
    cases token with
    | word text => exact absurd rfl (noWord text start rest)
    | _ => rfl

theorem Reading.termWith_leaves {nested : Option Rule}
    (terms : ∀ term ∈ nested, term.Leaves reading.BehindTerm) :
    Rule.Leaves (reading.termWith nested) reading.BehindTerm := by
  intro tokens rest tree height h
  have noWord {rest : List Lexeme} : reading.BehindTerm false rest := fun _ inWord => by cases inWord
  cases termWith_gives.mp h with
  | word text start rest single =>
    refine ⟨[⟨.word text, start⟩], rfl, List.cons_ne_nil _ _, fun whole => ?_⟩
    rw [single] at whole
    cases whole
  | words text start rest =>
    obtain ⟨used, split, -⟩ := eq_append_leadingWords rest
    exact ⟨⟨.word text, start⟩ :: used, congrArg _ split, List.cons_ne_nil _ _,
      fun _ _ => isWord_head_leadingWords rest⟩
  | quoted text start rest => exact ⟨[⟨.quoted text, start⟩], rfl, List.cons_ne_nil _ _, noWord⟩
  | all start rest => exact ⟨[⟨.all, start⟩], rfl, List.cons_ne_nil _ _, noWord⟩
  | @not term start _ _ _ _ nested_ _ operand =>
    obtain ⟨used, rfl, some_tokens, left⟩ := terms term nested_ operand
    refine ⟨⟨.not, start⟩ :: used, rfl, List.cons_ne_nil _ _, ?_⟩
    rwa [← List.singleton_append, endsInWord_map_append some_tokens]
  | @group term bracket start stop _ _ _ _ nested_ _ body =>
    obtain ⟨used, rfl, -⟩ := disjunction_leaves (terms term nested_) body
    refine ⟨⟨.opening bracket, start⟩ :: (used ++ [⟨.closing bracket, stop⟩]), by simp,
      List.cons_ne_nil _ _, ?_⟩
    rw [← List.cons_append, endsInWord_map_append (List.cons_ne_nil _ _)]
    exact noWord

theorem Reading.term_leaves (room : Nat) : Rule.Leaves (reading.term room) reading.BehindTerm := by
  induction room with
  | zero =>
    refine termWith_leaves fun term member => ?_
    cases member
  | succ room ih =>
    refine termWith_leaves fun term member => ?_
    cases member
    exact ih

/-- What a disjunction leaves begins with no token that may come next, unless it closes a bracket. -/
theorem Reading.BehindDisjunction.step_eq_none {inWord : Bool} {lexeme : Lexeme} {rest : List Lexeme}
    (h : reading.BehindDisjunction inWord (lexeme :: rest)) {opened : List Bracket}
    (open_ : ∀ bracket, lexeme.token = .closing bracket → opened.head? ≠ some bracket) :
    Stance.step reading.implicitAnd (.behind inWord opened) lexeme.token = none := by
  obtain ⟨⟨behindTerm, noConjunct⟩, noDisjunct⟩ := h
  obtain ⟨token, start⟩ := lexeme
  have operand (starts : token.startsTerm = true) (noAnd : token ≠ .and) :
      reading.implicitAnd = false := by
    refine Bool.eq_false_iff.mpr fun allowed => ?_
    have goes : NextOperand.GoesOn reading.nextConjunct (⟨token, start⟩ :: rest) _ :=
      nextConjunct_goesOn.mpr (.inr ⟨allowed, starts, rfl⟩)
    obtain ⟨_, goes⟩ := goes
    rw [noConjunct] at goes
    cases goes
  cases token with
  | and =>
    unfold nextConjunct at noConjunct
    dsimp only at noConjunct
    split at noConjunct <;> cases noConjunct
  | or =>
    unfold nextDisjunct at noDisjunct
    dsimp only at noDisjunct
    split at noDisjunct <;> cases noDisjunct
  | closing bracket =>
    cases opened with
    | nil => rfl
    | cons innermost outer =>
      exact if_neg fun same => open_ bracket rfl (congrArg some same)
  | word text =>
    have whole := operand rfl Token.noConfusion
    have apart : inWord = false := by
      refine Bool.eq_false_iff.mpr fun inside => ?_
      cases behindTerm whole inside _ rfl
    simp only [Stance.step, whole, apart, Bool.or_self, Bool.false_eq_true, if_false]
  | quoted _ | all | not | opening _ =>
    have whole := operand rfl Token.noConfusion
    simp only [Stance.step, whole, Bool.false_eq_true, if_false]

end TagQuery.Query
