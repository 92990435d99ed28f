import TagQuery.Query.Parser

/-! What the rules of the reader give: which tree and height, and which tokens are left. Each rule has
one lemma that says when it succeeds, in terms of the rules that it calls, and from here on nothing
looks into the rules themselves. -/
namespace TagQuery.Query

variable {reading : Reading} {next : NextOperand} {join : Query → Query → Query} {operand : Rule}

/-- The rule succeeds with a tree, its height, and the tokens that are left. -/
def Rule.Gives (rule : Rule) (tokens : List Lexeme) (tree : Query) (height : Nat)
    (rest : List Lexeme) : Prop :=
  ∃ p, rule tokens = .ok p ∧ p.tree = tree ∧ p.height = height ∧ p.rest = rest

theorem Rule.gives_of_eq {rule : Rule} {tokens : List Lexeme} {p : Parsed tokens}
    (h : rule tokens = .ok p) : rule.Gives tokens p.tree p.height p.rest :=
  ⟨p, h, rfl, rfl, rfl⟩

/-- A rule gives one answer. -/
theorem Rule.Gives.unique {rule : Rule} {tokens rest rest' : List Lexeme} {tree tree' : Query}
    {height height' : Nat} (h : rule.Gives tokens tree height rest)
    (h' : rule.Gives tokens tree' height' rest') : tree = tree' ∧ rest = rest' := by
  obtain ⟨p, hp, rfl, -, rfl⟩ := h
  obtain ⟨p', hp', rfl, -, rfl⟩ := h'
  rw [hp] at hp'
  cases hp'
  exact ⟨rfl, rfl⟩

/-- A chain goes on with an operand that begins with these tokens. -/
def NextOperand.GoesOn (next : NextOperand) (tokens following : List Lexeme) : Prop :=
  ∃ notLonger, next tokens = .ok (some ⟨following, notLonger⟩)

/-- The rest of a chain, read behind a tree of some height. -/
def Reading.ChainGives (reading : Reading) (next : NextOperand) (join : Query → Query → Query)
    (operand : Rule) (left : Query) (leftHeight : Nat) (tokens : List Lexeme) (tree : Query)
    (height : Nat) (rest : List Lexeme) : Prop :=
  ∃ c, reading.chain next join operand left leftHeight tokens = .ok c ∧
    c.tree = tree ∧ c.height = height ∧ c.rest = rest

theorem Reading.checkHeight_eq_ok {height position grown : Nat} :
    reading.checkHeight height position = .ok grown ↔ height ≤ reading.limit ∧ grown = height := by
  unfold checkHeight
  split
  · next above => simp only [reduceCtorEq, false_iff]; omega
  · next fits => simp only [Except.ok.injEq]; omega

theorem Reading.afterOperator_eq_ok {operator : Operator} {tokens rest : List Lexeme} :
    reading.afterOperator operator tokens = .ok rest ↔ startsTerm tokens = true ∧ rest = tokens := by
  unfold afterOperator
  split
  · next starts => simp only [Except.ok.injEq, starts, true_and, eq_comm]
  · next starts => simp only [reduceCtorEq, starts, Bool.false_eq_true, false_and]

theorem Reading.ChainGives.stop {left : Query} {height : Nat} {tokens : List Lexeme}
    (stops : next tokens = .ok none) :
    reading.ChainGives next join operand left height tokens left height tokens := by
  refine ⟨⟨left, height, tokens, Nat.le_refl _⟩, ?_, rfl, rfl, rfl⟩
  rw [chain]
  split
  · next fails => rw [stops] at fails; cases fails
  · rfl
  · next goes => rw [stops] at goes; cases goes

theorem Reading.ChainGives.step {left right tree : Query} {leftHeight rightHeight height : Nat}
    {tokens following between rest : List Lexeme} (goes : next.GoesOn tokens following)
    (read : operand.Gives following right rightHeight between)
    (fits : 1 + max leftHeight rightHeight ≤ reading.limit)
    (more : reading.ChainGives next join operand (join left right) (1 + max leftHeight rightHeight)
      between tree height rest) :
    reading.ChainGives next join operand left leftHeight tokens tree height rest := by
  obtain ⟨notLonger, goes⟩ := goes
  obtain ⟨p, hp, rfl, rfl, rfl⟩ := read
  obtain ⟨c, hc, rfl, rfl, rfl⟩ := more
  have shrinks : p.rest.length < tokens.length := Nat.lt_of_lt_of_le p.shorter notLonger
  have small : reading.checkHeight (1 + max leftHeight p.height) (reading.position following) =
      .ok (1 + max leftHeight p.height) := checkHeight_eq_ok.mpr ⟨fits, rfl⟩
  refine ⟨⟨c.tree, c.height, c.rest, Nat.le_trans c.notLonger (Nat.le_of_lt shrinks)⟩, ?_,
    rfl, rfl, rfl⟩
  rw [chain]
  split
  · next fails => rw [goes] at fails; cases fails
  · next stops => rw [goes] at stops; cases stops
  · next rest' _ goes' =>
    rw [goes] at goes'
    cases goes'
    simp only [hp, small, hc]

/-- A chain has come to its end, or it goes on behind one more operand. -/
theorem Reading.ChainGives.cases {left tree : Query} {leftHeight height : Nat}
    {tokens rest : List Lexeme}
    (h : reading.ChainGives next join operand left leftHeight tokens tree height rest) :
    (next tokens = .ok none ∧ tree = left ∧ height = leftHeight ∧ rest = tokens) ∨
    ∃ following right rightHeight between, next.GoesOn tokens following ∧
      operand.Gives following right rightHeight between ∧
      1 + max leftHeight rightHeight ≤ reading.limit ∧ between.length < tokens.length ∧
      reading.ChainGives next join operand (join left right) (1 + max leftHeight rightHeight)
        between tree height rest := by
  obtain ⟨c, h, rfl, rfl, rfl⟩ := h
  rw [chain] at h
  split at h
  · cases h
  · next stops =>
    cases h
    exact .inl ⟨stops, rfl, rfl, rfl⟩
  · next following notLonger goes =>
    split at h
    · cases h
    · next right read =>
      split at h
      · cases h
      · next grown fits =>
        obtain ⟨small, rfl⟩ := checkHeight_eq_ok.mp fits
        split at h
        · cases h
        · next done more =>
          cases h
          exact .inr ⟨following, right.tree, right.height, right.rest, ⟨notLonger, goes⟩,
            Rule.gives_of_eq read, small, Nat.lt_of_lt_of_le right.shorter notLonger,
            done, more, rfl, rfl, rfl⟩

theorem Reading.leftAssociative_gives {tokens rest : List Lexeme} {tree : Query} {height : Nat} :
    (reading.leftAssociative next join operand).Gives tokens tree height rest ↔
      ∃ first firstHeight between, operand.Gives tokens first firstHeight between ∧
        reading.ChainGives next join operand first firstHeight between tree height rest := by
  constructor
  · rintro ⟨p, h, rfl, rfl, rfl⟩
    unfold leftAssociative at h
    split at h
    · cases h
    · next first read =>
      split at h
      · cases h
      · next done more =>
        cases h
        exact ⟨_, _, _, Rule.gives_of_eq read, done, more, rfl, rfl, rfl⟩
  · rintro ⟨_, _, _, ⟨p, hp, rfl, rfl, rfl⟩, c, hc, rfl, rfl, rfl⟩
    refine ⟨⟨c.tree, c.height, c.rest, Nat.lt_of_le_of_lt c.notLonger p.shorter⟩, ?_,
      rfl, rfl, rfl⟩
    simp only [leftAssociative, hp, hc]

/-- Another conjunct stands behind AND, or at once where juxtaposition is AND. -/
theorem Reading.nextConjunct_goesOn {tokens following : List Lexeme} :
    NextOperand.GoesOn reading.nextConjunct tokens following ↔
      (startsTerm following = true ∧ ∃ start, tokens = ⟨.and, start⟩ :: following) ∨
      (reading.implicitAnd = true ∧ startsTerm tokens = true ∧ tokens = following) := by
  constructor
  · rintro ⟨notLonger, h⟩
    unfold nextConjunct at h
    split at h
    · next start rest =>
      split at h
      · cases h
      · next starts =>
        cases h
        exact .inl ⟨(afterOperator_eq_ok.mp starts).1, start, rfl⟩
    · split at h
      · next both =>
        cases h
        exact .inr ⟨(Bool.and_eq_true_iff.mp both).1, (Bool.and_eq_true_iff.mp both).2, rfl⟩
      · cases h
  · rintro (⟨starts, start, rfl⟩ | ⟨allowed, starts, rfl⟩)
    · have after : reading.afterOperator .and following = .ok following :=
        afterOperator_eq_ok.mpr ⟨starts, rfl⟩
      exact ⟨Nat.le_succ _, by simp only [nextConjunct, after]⟩
    · refine ⟨Nat.le_refl _, ?_⟩
      unfold nextConjunct
      split
      · cases starts
      · simp only [allowed, starts, Bool.and_self, if_true]

theorem Reading.nextConjunct_stops {tokens : List Lexeme}
    (noAnd : ∀ start rest, tokens ≠ ⟨.and, start⟩ :: rest)
    (noTerm : ¬ (reading.implicitAnd = true ∧ startsTerm tokens = true)) :
    reading.nextConjunct tokens = .ok none := by
  unfold nextConjunct
  split
  · next start rest => exact absurd rfl (noAnd start rest)
  · exact if_neg fun both => noTerm (Bool.and_eq_true_iff.mp both)

/-- Another disjunct stands behind OR. -/
theorem Reading.nextDisjunct_goesOn {tokens following : List Lexeme} :
    NextOperand.GoesOn reading.nextDisjunct tokens following ↔
      startsTerm following = true ∧ ∃ start, tokens = ⟨.or, start⟩ :: following := by
  constructor
  · rintro ⟨notLonger, h⟩
    unfold nextDisjunct at h
    split at h
    · next start rest =>
      split at h
      · cases h
      · next starts =>
        cases h
        exact ⟨(afterOperator_eq_ok.mp starts).1, start, rfl⟩
    · cases h
  · rintro ⟨starts, start, rfl⟩
    have after : reading.afterOperator .or following = .ok following :=
      afterOperator_eq_ok.mpr ⟨starts, rfl⟩
    exact ⟨Nat.le_succ _, by simp only [nextDisjunct, after]⟩

theorem Reading.nextDisjunct_stops {tokens : List Lexeme}
    (noOr : ∀ start rest, tokens ≠ ⟨.or, start⟩ :: rest) :
    reading.nextDisjunct tokens = .ok none := by
  unfold nextDisjunct
  split
  · next start rest => exact absurd rfl (noOr start rest)
  · rfl

/-- What a term can be, by its first token. -/
inductive Reading.TermGives (reading : Reading) (nested : Option Rule) :
    List Lexeme → Query → Nat → List Lexeme → Prop
  | word (text : Text) (start : Nat) (rest : List Lexeme) (single : reading.implicitAnd = true) :
      TermGives reading nested (⟨.word text, start⟩ :: rest) (.tag text) 1 rest
  | words (text : Text) (start : Nat) (rest : List Lexeme) (whole : reading.implicitAnd = false) :
      TermGives reading nested (⟨.word text, start⟩ :: rest)
        (.tag (Text.joinWith [' '] (text :: (leadingWords rest).1))) 1 (leadingWords rest).2
  | quoted (text : Text) (start : Nat) (rest : List Lexeme) (visible : text.allBlank = false) :
      TermGives reading nested (⟨.quoted text, start⟩ :: rest) (.tag text) 1 rest
  | all (start : Nat) (rest : List Lexeme) :
      TermGives reading nested (⟨.all, start⟩ :: rest) .all 1 rest
  | not {term : Rule} {start height : Nat} {tokens rest : List Lexeme} {inner : Query}
      (open_ : nested = some term) (starts : startsTerm tokens = true)
      (operand : term.Gives tokens inner height rest) (fits : height + 1 ≤ reading.limit) :
      TermGives reading nested (⟨.not, start⟩ :: tokens) (.not inner) (height + 1) rest
  | group {term : Rule} {bracket : Bracket} {start stop height : Nat} {tokens rest : List Lexeme}
      {inner : Query} (open_ : nested = some term)
      (filled : tokens.head?.map Lexeme.token ≠ some (.closing bracket))
      (body : (reading.disjunction term).Gives tokens inner height (⟨.closing bracket, stop⟩ :: rest))
      (fits : height + 1 ≤ reading.limit) :
      TermGives reading nested (⟨.opening bracket, start⟩ :: tokens) (.group inner) (height + 1) rest

theorem Reading.negationBody_gives {start height : Nat} {term : Rule} {tokens rest : List Lexeme}
    {tree : Query} :
    Rule.Gives (reading.negationBody start term) tokens tree height rest ↔
      ∃ inner innerHeight, term.Gives tokens inner innerHeight rest ∧
        innerHeight + 1 ≤ reading.limit ∧ tree = .not inner ∧ height = innerHeight + 1 := by
  constructor
  · rintro ⟨p, h, rfl, rfl, rfl⟩
    unfold negationBody at h
    split at h
    · cases h
    · next inside read =>
      split at h
      · cases h
      · next grown fits =>
        obtain ⟨small, rfl⟩ := checkHeight_eq_ok.mp fits
        cases h
        exact ⟨inside.tree, inside.height, Rule.gives_of_eq read, small, rfl, rfl⟩
  · rintro ⟨_, _, ⟨p, read, rfl, rfl, rfl⟩, small, rfl, rfl⟩
    have fits : reading.checkHeight (p.height + 1) start = .ok (p.height + 1) :=
      checkHeight_eq_ok.mpr ⟨small, rfl⟩
    refine ⟨⟨.not p.tree, p.height + 1, p.rest, p.shorter⟩, ?_, rfl, rfl, rfl⟩
    simp only [negationBody, read, fits]

theorem Reading.groupBody_gives {bracket : Bracket} {opened height : Nat} {body : Rule}
    {tokens rest : List Lexeme} {tree : Query} :
    Rule.Gives (reading.groupBody bracket opened body) tokens tree height rest ↔
      ∃ inner innerHeight stop,
        body.Gives tokens inner innerHeight (⟨.closing bracket, stop⟩ :: rest) ∧
        innerHeight + 1 ≤ reading.limit ∧ tree = .group inner ∧ height = innerHeight + 1 := by
  constructor
  · rintro ⟨p, h, rfl, rfl, rfl⟩
    unfold groupBody at h
    split at h
    · cases h
    · next inside read =>
      split at h
      · next found stop after closes =>
        split at h
        · next same =>
          subst same
          split at h
          · cases h
          · next grown fits =>
            obtain ⟨small, rfl⟩ := checkHeight_eq_ok.mp fits
            cases h
            exact ⟨inside.tree, inside.height, stop, ⟨inside, read, rfl, rfl, closes⟩, small,
              rfl, rfl⟩
        · cases h
      · cases h
  · rintro ⟨_, _, stop, ⟨p, read, rfl, rfl, closes⟩, small, rfl, rfl⟩
    have fits : reading.checkHeight (p.height + 1) opened = .ok (p.height + 1) :=
      checkHeight_eq_ok.mpr ⟨small, rfl⟩
    have shorter : rest.length < tokens.length := by
      have := p.shorter
      rw [closes, List.length_cons] at this
      omega
    refine ⟨⟨.group p.tree, p.height + 1, rest, shorter⟩, ?_, rfl, rfl, rfl⟩
    unfold groupBody
    simp only [read]
    split
    · next found _ after closes' =>
      rw [closes] at closes'
      cases closes'
      simp only [if_true, fits]
    · next other =>
      exact absurd closes (other _ _ _)

/-- A term that succeeds has one of these forms. -/
theorem Reading.TermGives.of_gives {nested : Option Rule} {tokens rest : List Lexeme} {tree : Query}
    {height : Nat} (h : Rule.Gives (reading.termWith nested) tokens tree height rest) :
    reading.TermGives nested tokens tree height rest := by
  obtain ⟨p, h, rfl, rfl, rfl⟩ := h
  unfold termWith at h
  split at h
  · cases h
  · next text start rest =>
    split at h
    · next single =>
      cases h
      exact .word text start rest single
    · next whole =>
      cases h
      exact .words text start rest (Bool.eq_false_iff.mpr whole)
  · next text start rest =>
    split at h
    · cases h
    · next visible =>
      cases h
      exact .quoted text start rest (Bool.eq_false_iff.mpr visible)
  · next start rest =>
    cases h
    exact .all start rest
  · cases h
  · cases h
  · cases h
  · next start rest =>
    split at h
    · cases h
    · cases h
    · next term starts =>
      split at h
      · cases h
      · next inside read =>
        cases h
        obtain ⟨inner, height, operand, fits, eqTree, eqHeight⟩ :=
          negationBody_gives.mp (Rule.gives_of_eq read)
        rw [eqTree, eqHeight]
        exact .not rfl (afterOperator_eq_ok.mp starts).1 operand fits
  · next bracket start rest =>
    split at h
    · cases h
    · next filled =>
      split at h
      · cases h
      · next term =>
        split at h
        · cases h
        · next inside read =>
          cases h
          obtain ⟨inner, height, stop, body, fits, eqTree, eqHeight⟩ :=
            groupBody_gives.mp (Rule.gives_of_eq read)
          rw [eqTree, eqHeight]
          exact .group rfl filled body fits

/-- A term of each form succeeds. -/
theorem Reading.TermGives.gives {nested : Option Rule} {tokens rest : List Lexeme} {tree : Query}
    {height : Nat} (h : reading.TermGives nested tokens tree height rest) :
    Rule.Gives (reading.termWith nested) tokens tree height rest := by
  cases h with
  | word text start rest single =>
    exact ⟨⟨.tag text, 1, rest, Nat.lt_succ_self _⟩, if_pos single, rfl, rfl, rfl⟩
  | words text start rest whole =>
    exact ⟨⟨_, 1, _, Nat.lt_succ_of_le (length_leadingWords_le rest)⟩,
      if_neg (Bool.eq_false_iff.mp whole), rfl, rfl, rfl⟩
  | quoted text start rest visible =>
    exact ⟨⟨.tag text, 1, rest, Nat.lt_succ_self _⟩, if_neg (Bool.eq_false_iff.mp visible),
      rfl, rfl, rfl⟩
  | all start rest => exact ⟨_, rfl, rfl, rfl, rfl⟩
  | @not term start _ tokens _ _ nested_ starts operand fits =>
    subst nested_
    have after : reading.afterOperator .not tokens = .ok tokens :=
      afterOperator_eq_ok.mpr ⟨starts, rfl⟩
    obtain ⟨p, read, eqTree, eqHeight, eqRest⟩ :
        Rule.Gives (reading.negationBody start term) tokens _ _ _ :=
      negationBody_gives.mpr ⟨_, _, operand, fits, rfl, rfl⟩
    exact ⟨_, by simp only [termWith, after, read]; rfl, eqTree, eqHeight, eqRest⟩
  | @group term bracket start _ _ tokens _ _ nested_ filled body fits =>
    subst nested_
    obtain ⟨p, read, eqTree, eqHeight, eqRest⟩ :
        Rule.Gives (reading.groupBody bracket start (reading.disjunction term)) tokens _ _ _ :=
      groupBody_gives.mpr ⟨_, _, _, body, fits, rfl, rfl⟩
    exact ⟨_, by simp only [termWith, filled, if_false, read]; rfl, eqTree, eqHeight, eqRest⟩

theorem Reading.termWith_gives {nested : Option Rule} {tokens rest : List Lexeme} {tree : Query}
    {height : Nat} :
    Rule.Gives (reading.termWith nested) tokens tree height rest ↔
      reading.TermGives nested tokens tree height rest :=
  ⟨TermGives.of_gives, TermGives.gives⟩

end TagQuery.Query
