import TagQuery.Proofs.Query.Soundness

/-! The reader accepts exactly the phrases of the grammar whose trees are not too high. Main steps: a
phrase is read to its end whatever follows that cannot continue it, and the height of a tree bounds
how many NOTs and groups are open at one place. -/
namespace TagQuery.Query

/-- The most NOTs and groups that are open at one place of the tree. -/
def nesting : Query → Nat
  | tag _ => 0
  | all => 0
  | and left right => max left.nesting right.nesting
  | or left right => max left.nesting right.nesting
  | not inner => inner.nesting + 1
  | group inner => inner.nesting + 1

theorem nesting_lt_height (q : Query) : q.nesting < q.height := by
  induction q with
  | tag _ | all => exact Nat.one_pos
  | and _ _ ihl ihr | or _ _ ihl ihr => simp only [nesting, height]; omega
  | not _ ih | group _ ih => simp only [nesting, height]; omega

/-- A token that can continue a phrase of a level. -/
def Token.continues (implicitAnd : Bool) (level : Level) : Token → Bool
  | word _ => !implicitAnd || level ≠ .term
  | quoted _ => implicitAnd && level ≠ .term
  | not => implicitAnd && level ≠ .term
  | all => implicitAnd && level ≠ .term
  | opening _ => implicitAnd && level ≠ .term
  | and => level ≠ .term
  | or => level = .disjunction
  | closing _ => false

/-- A phrase of the level ends where these tokens begin. -/
def Ends (implicitAnd : Bool) (level : Level) (rest : List Lexeme) : Prop :=
  ∀ lexeme ∈ rest.head?, lexeme.token.continues implicitAnd level = false

namespace Ends

variable {implicitAnd : Bool} {level : Level} {rest : List Lexeme}

theorem nil : Ends implicitAnd level [] := by
  intro lexeme member
  cases member

theorem cons {lexeme : Lexeme} :
    Ends implicitAnd level (lexeme :: rest) ↔ lexeme.token.continues implicitAnd level = false := by
  simp [Ends]

/-- Where a phrase ends, a phrase of a tighter level ends. -/
theorem conjunction (h : Ends implicitAnd .disjunction rest) :
    Ends implicitAnd .conjunction rest := by
  intro lexeme member
  have closed := h lexeme member
  revert closed
  cases lexeme.token <;> simp [Token.continues]

theorem term (h : Ends implicitAnd .conjunction rest) : Ends implicitAnd .term rest := by
  intro lexeme member
  have closed := h lexeme member
  revert closed
  cases lexeme.token <;> simp [Token.continues]

/-- A term ends at once where words in a row are not one name. -/
theorem term_of_implicitAnd (allowed : implicitAnd = true) (rest : List Lexeme) :
    Ends implicitAnd .term rest := by
  intro lexeme _
  subst allowed
  cases lexeme.token <;> rfl

/-- No further conjunct follows where a conjunction ends. -/
theorem nextConjunct_stops {reading : Reading} (h : Ends reading.implicitAnd .conjunction rest) :
    reading.nextConjunct rest = .ok none := by
  apply Reading.nextConjunct_stops
  · rintro start after rfl
    simp [cons, Token.continues] at h
  · rintro ⟨allowed, starts⟩
    cases rest with
    | nil => cases starts
    | cons lexeme after =>
      rw [cons, allowed] at h
      revert h starts
      simp only [startsTerm]
      cases lexeme.token <;> simp [Token.continues, Token.startsTerm]

/-- No further disjunct follows where a disjunction ends. -/
theorem nextDisjunct_stops {reading : Reading} (h : Ends reading.implicitAnd .disjunction rest) :
    reading.nextDisjunct rest = .ok none := by
  apply Reading.nextDisjunct_stops
  rintro start after rfl
  simp [cons, Token.continues] at h

/-- No word follows where a term ends and words in a row are one name. -/
theorem leadingWords_eq (h : Ends false .term rest) : leadingWords rest = ([], rest) := by
  unfold leadingWords
  split
  · simp [cons, Token.continues] at h
  · rfl

end Ends

/-- A phrase begins with a token with which a term can begin. -/
theorem Derives.head_startsTerm {implicitAnd : Bool} {level : Level} {tokens : List Token}
    {tree : Query} (h : Derives implicitAnd level tokens tree) :
    ∃ first more, tokens = first :: more ∧ first.startsTerm = true := by
  induction h with
  | word | words | quoted | all | not | group => exact ⟨_, _, rfl, rfl⟩
  | ofTerm _ ih | ofConjunction _ ih => exact ih
  | and _ _ ih | juxtaposed _ _ _ ih | or _ _ ih =>
    obtain ⟨first, more, rfl, starts⟩ := ih
    exact ⟨first, _, rfl, starts⟩

theorem Derives.startsTerm {implicitAnd : Bool} {level : Level} {used : List Lexeme} {tree : Query}
    (h : Derives implicitAnd level (used.map Lexeme.token) tree) (rest : List Lexeme) :
    startsTerm (used ++ rest) = true := by
  obtain ⟨first, more, split, starts⟩ := h.head_startsTerm
  obtain ⟨lexeme, _, rfl, rfl, -⟩ := List.map_eq_cons_iff.mp split
  exact starts

theorem Derives.head_ne_closing {implicitAnd : Bool} {level : Level} {used : List Lexeme}
    {tree : Query} (h : Derives implicitAnd level (used.map Lexeme.token) tree) (bracket : Bracket)
    (rest : List Lexeme) :
    (used ++ rest).head?.map Lexeme.token ≠ some (.closing bracket) := by
  obtain ⟨first, more, split, starts⟩ := h.head_startsTerm
  obtain ⟨lexeme, _, rfl, rfl, -⟩ := List.map_eq_cons_iff.mp split
  intro closes
  rw [List.cons_append, List.head?_cons, Option.map_some, Option.some.injEq] at closes
  rw [closes] at starts
  cases starts

section Chains

variable {reading : Reading} {next : NextOperand} {join : Query → Query → Query} {operand : Rule}
  {inner : Level}

/-- A phrase is read up to where more operands may follow; what the whole chain gives is what is given
behind the tree of the phrase. -/
def Reading.ReadsChain (reading : Reading) (next : NextOperand) (join : Query → Query → Query)
    (operand : Rule) (inner : Level) (used : List Lexeme) (tree : Query) : Prop :=
  ∀ rest whole height stop, Ends reading.implicitAnd inner rest →
    reading.ChainGives next join operand tree tree.height rest whole height stop →
    (reading.leftAssociative next join operand).Gives (used ++ rest) whole height stop

/-- A phrase is read whatever follows that cannot continue it. -/
def Reading.ReadsPhrase (reading : Reading) (rule : Rule) (level : Level) (used : List Lexeme)
    (tree : Query) : Prop :=
  ∀ rest, Ends reading.implicitAnd level rest → rule.Gives (used ++ rest) tree tree.height rest

theorem Reading.ReadsPhrase.chain {used : List Lexeme} {tree : Query}
    (h : reading.ReadsPhrase operand inner used tree) :
    reading.ReadsChain next join operand inner used tree := by
  intro rest whole height stop ends more
  exact leftAssociative_gives.mpr ⟨tree, tree.height, rest, h rest ends, more⟩

theorem Reading.ReadsChain.step (operator : List Lexeme) {before after : List Lexeme}
    {left right : Query}
    (first : reading.ReadsChain next join operand inner before left)
    (second : reading.ReadsPhrase operand inner after right)
    (operatorEnds : ∀ rest, Ends reading.implicitAnd inner (operator ++ (after ++ rest)))
    (goes : ∀ rest, next.GoesOn (operator ++ (after ++ rest)) (after ++ rest))
    (heightJoin : (join left right).height = 1 + max left.height right.height)
    (fits : (join left right).height ≤ reading.limit) :
    reading.ReadsChain next join operand inner (before ++ (operator ++ after)) (join left right) := by
  intro rest whole height stop ends more
  rw [heightJoin] at more fits
  have grown := ChainGives.step (goes rest) (second rest ends) fits more
  have read := first _ whole height stop (operatorEnds rest) grown
  simpa only [List.append_assoc] using read

theorem Reading.ReadsChain.phrase {outer : Level} {used : List Lexeme} {tree : Query}
    (h : reading.ReadsChain next join operand inner used tree)
    (tighter : ∀ rest, Ends reading.implicitAnd outer rest → Ends reading.implicitAnd inner rest)
    (stops : ∀ rest, Ends reading.implicitAnd outer rest → next rest = .ok none) :
    reading.ReadsPhrase (reading.leftAssociative next join operand) outer used tree := by
  intro rest ends
  exact h rest tree tree.height rest (tighter rest ends) (.stop (stops rest ends))

end Chains

/-- How a phrase of each level is read when so many NOTs and groups may still be opened. -/
def Reading.Reads (reading : Reading) (room : Nat) : Level → List Lexeme → Query → Prop
  | .term => reading.ReadsPhrase (reading.term room) .term
  | .conjunction => reading.ReadsChain reading.nextConjunct .and (reading.term room) .term
  | .disjunction =>
    reading.ReadsChain reading.nextDisjunct .or (reading.conjunction (reading.term room)) .conjunction

section Levels

variable {reading : Reading} {room : Nat} {used : List Lexeme} {tree : Query}

theorem Reading.Reads.conjunction (h : reading.Reads room .conjunction used tree) :
    reading.ReadsPhrase (reading.conjunction (reading.term room)) .conjunction used tree :=
  ReadsChain.phrase h (fun _ => Ends.term) (fun _ => Ends.nextConjunct_stops)

theorem Reading.Reads.disjunction (h : reading.Reads room .disjunction used tree) :
    reading.ReadsPhrase (reading.disjunction (reading.term room)) .disjunction used tree :=
  ReadsChain.phrase h (fun _ => Ends.conjunction) (fun _ => Ends.nextDisjunct_stops)

/-- Whatever the room is, a term has one of its forms. -/
theorem Reading.term_gives_leaf {tokens rest : List Lexeme} {height : Nat}
    (h : ∀ nested, reading.TermGives nested tokens tree height rest) :
    Rule.Gives (reading.term room) tokens tree height rest := by
  cases room with
  | zero => exact termWith_gives.mpr (h none)
  | succ room => exact termWith_gives.mpr (h (some (reading.term room)))

end Levels

theorem leadingWords_append {more : List Text} {used rest : List Lexeme}
    (words : used.map Lexeme.token = more.map .word) (ends : Ends false .term rest) :
    leadingWords (used ++ rest) = (more, rest) := by
  induction more generalizing used with
  | nil =>
    obtain rfl := List.map_eq_nil_iff.mp words
    exact ends.leadingWords_eq
  | cons text more ih =>
    obtain ⟨⟨_, start⟩, tail, rfl, rfl, wordsTail⟩ := List.map_eq_cons_iff.mp words
    simp only [List.cons_append, leadingWords, ih wordsTail]

/-- Every phrase whose tree is within the limit is read, when there is room for its nesting. -/
theorem Derives.reads {reading : Reading} {level : Level} {tokens : List Token} {tree : Query}
    (h : Derives reading.implicitAnd level tokens tree) {used : List Lexeme} {room : Nat}
    (tokensEq : used.map Lexeme.token = tokens) (fits : tree.height ≤ reading.limit)
    (nested : tree.nesting ≤ room) : reading.Reads room level used tree := by
  -- By induction on the derivation. An operand is read before it is known whether the chain goes on
  -- behind it, so for the two binary levels the rest of the chain is left open.
  induction h generalizing used room with
  | word text =>
    obtain ⟨⟨_, start⟩, rfl, rfl⟩ := List.map_eq_singleton_iff.mp tokensEq
    intro rest ends
    refine Reading.term_gives_leaf fun nested => ?_
    by_cases single : reading.implicitAnd = true
    · exact .word text start rest single
    · have whole : reading.implicitAnd = false := Bool.eq_false_iff.mpr single
      rw [whole] at ends
      have form : reading.TermGives nested _ _ 1 _ := .words text start rest whole
      rw [ends.leadingWords_eq] at form
      simpa [Text.joinWith, height] using form
  | words first more whole =>
    obtain ⟨⟨_, start⟩, tail, rfl, rfl, wordsTail⟩ := List.map_eq_cons_iff.mp tokensEq
    intro rest ends
    rw [whole] at ends
    refine Reading.term_gives_leaf fun nested => ?_
    have form : reading.TermGives nested _ _ 1 _ := .words first start (tail ++ rest) whole
    rwa [leadingWords_append wordsTail ends] at form
  | quoted text visible =>
    obtain ⟨⟨_, start⟩, rfl, rfl⟩ := List.map_eq_singleton_iff.mp tokensEq
    intro rest ends
    exact Reading.term_gives_leaf fun nested => .quoted text start rest visible
  | all =>
    obtain ⟨⟨_, start⟩, rfl, rfl⟩ := List.map_eq_singleton_iff.mp tokensEq
    intro rest ends
    exact Reading.term_gives_leaf fun nested => .all start rest
  | @not _ inner operand ih =>
    obtain ⟨⟨_, start⟩, tail, rfl, rfl, tailEq⟩ := List.map_eq_cons_iff.mp tokensEq
    subst tailEq
    obtain ⟨room, rfl⟩ : ∃ r, room = r + 1 := ⟨room - 1, by simp only [nesting] at nested; omega⟩
    simp only [height, nesting] at fits nested
    intro rest ends
    have inside : reading.Reads room .term tail inner := ih rfl (by omega) (by omega)
    have small : inner.height + 1 ≤ reading.limit := by omega
    rw [height, Nat.add_comm 1]
    exact Reading.termWith_gives.mpr (.not rfl (operand.startsTerm rest) (inside rest ends) small)
  | @group bracket _ inner body ih =>
    obtain ⟨⟨_, start⟩, others, rfl, rfl, othersEq⟩ := List.map_eq_cons_iff.mp tokensEq
    obtain ⟨middle, last, rfl, rfl, lastEq⟩ := List.map_eq_append_iff.mp othersEq
    obtain ⟨⟨_, stop⟩, rfl, rfl⟩ := List.map_eq_singleton_iff.mp lastEq
    obtain ⟨room, rfl⟩ : ∃ r, room = r + 1 := ⟨room - 1, by simp only [nesting] at nested; omega⟩
    simp only [height, nesting] at fits nested
    intro rest _
    have inside : reading.Reads room .disjunction middle inner := ih rfl (by omega) (by omega)
    have closed : Ends reading.implicitAnd .disjunction (⟨.closing bracket, stop⟩ :: rest) :=
      Ends.cons.mpr rfl
    have filled := body.head_ne_closing bracket (⟨.closing bracket, stop⟩ :: rest)
    have small : inner.height + 1 ≤ reading.limit := by omega
    rw [height, Nat.add_comm 1, List.cons_append, List.append_assoc]
    exact Reading.termWith_gives.mpr (.group rfl filled (inside.disjunction _ closed) small)
  | ofTerm _ ih => exact Reading.ReadsPhrase.chain (ih tokensEq fits nested)
  | and first second ihl ihr =>
    obtain ⟨before, others, rfl, rfl, othersEq⟩ := List.map_eq_append_iff.mp tokensEq
    obtain ⟨⟨_, start⟩, after, rfl, rfl, rfl⟩ := List.map_eq_cons_iff.mp othersEq
    simp only [height, nesting] at fits nested
    refine Reading.ReadsChain.step [⟨.and, start⟩] (ihl rfl (by omega) (by omega))
      (ihr rfl (by omega) (by omega)) (fun rest => ?_) (fun rest => ?_) rfl ?_
    · exact Ends.cons.mpr rfl
    · exact Reading.nextConjunct_goesOn.mpr (.inl ⟨second.startsTerm rest, start, rfl⟩)
    · simp only [height]; omega
  | juxtaposed allowed first second ihl ihr =>
    obtain ⟨before, after, rfl, rfl, rfl⟩ := List.map_eq_append_iff.mp tokensEq
    simp only [height, nesting] at fits nested
    refine Reading.ReadsChain.step [] (ihl rfl (by omega) (by omega))
      (ihr rfl (by omega) (by omega)) (fun rest => ?_) (fun rest => ?_) rfl ?_
    · exact Ends.term_of_implicitAnd allowed _
    · exact Reading.nextConjunct_goesOn.mpr (.inr ⟨allowed, second.startsTerm rest, rfl⟩)
    · simp only [height]; omega
  | ofConjunction _ ih => exact Reading.ReadsPhrase.chain (ih tokensEq fits nested).conjunction
  | or first second ihl ihr =>
    obtain ⟨before, others, rfl, rfl, othersEq⟩ := List.map_eq_append_iff.mp tokensEq
    obtain ⟨⟨_, start⟩, after, rfl, rfl, rfl⟩ := List.map_eq_cons_iff.mp othersEq
    simp only [height, nesting] at fits nested
    refine Reading.ReadsChain.step [⟨.or, start⟩] (ihl rfl (by omega) (by omega))
      (ihr rfl (by omega) (by omega)).conjunction (fun rest => ?_) (fun rest => ?_) rfl ?_
    · exact Ends.cons.mpr rfl
    · exact Reading.nextDisjunct_goesOn.mpr ⟨second.startsTerm rest, start, rfl⟩
    · simp only [height]; omega

/-- A whole query within the limit is read to its end. -/
theorem Derives.gives {reading : Reading} {tokens : List Lexeme} {tree : Query}
    (h : Derives reading.implicitAnd .disjunction (tokens.map Lexeme.token) tree)
    (fits : tree.height ≤ reading.limit) :
    Rule.Gives (reading.disjunction (reading.term reading.limit)) tokens tree tree.height [] := by
  have nested : tree.nesting ≤ reading.limit :=
    Nat.le_trans (Nat.le_of_lt (nesting_lt_height tree)) fits
  have read : reading.Reads reading.limit .disjunction tokens tree := h.reads rfl fits nested
  simpa using read.disjunction [] Ends.nil

/-- The grammar is unambiguous. -/
theorem Derives.unique {implicitAnd : Bool} {level : Level} {tokens : List Token}
    {tree other : Query} (h : Derives implicitAnd level tokens tree)
    (h' : Derives implicitAnd level tokens other) : tree = other := by
  -- A reader whose limit neither tree exceeds reads both.
  let reading : Reading := ⟨implicitAnd, 0, max tree.height other.height⟩
  let lexemes : List Lexeme := tokens.map (⟨·, 0⟩)
  have same : lexemes.map Lexeme.token = tokens := by simp [lexemes, Function.comp_def]
  rw [← same] at h h'
  have read : Rule.Gives (reading.disjunction (reading.term reading.limit)) lexemes tree _ [] :=
    h.toDisjunction.gives (Nat.le_max_left _ _)
  have read' : Rule.Gives (reading.disjunction (reading.term reading.limit)) lexemes other _ [] :=
    h'.toDisjunction.gives (Nat.le_max_right _ _)
  exact (read.unique read').1

theorem Reading.query_eq_ok_iff {reading : Reading} (limited : 0 < reading.limit)
    {tokens : List Lexeme} {tree : Query} :
    reading.query tokens = .ok tree ↔
      Derives reading.implicitAnd .disjunction (tokens.map Lexeme.token) tree ∧
        tree.height ≤ reading.limit := by
  constructor
  · intro h
    unfold query at h
    split at h
    · cases h
    · split at h
      · cases h
      · next parsed read =>
        split at h
        · next done =>
          cases h
          obtain ⟨used, split, derived, -, fits⟩ :=
            disjunction_sound (term_sound limited _) (Rule.gives_of_eq read)
          rw [done, List.append_nil] at split
          subst split
          exact ⟨derived, fits⟩
        · cases h
        · cases h
  · rintro ⟨derived, fits⟩
    obtain ⟨parsed, read, rfl, -, done⟩ := derived.gives fits
    have some_tokens : tokens.isEmpty = false := by
      cases tokens with
      | nil => exact absurd rfl derived.tokens_ne_nil
      | cons => rfl
    unfold query
    rw [some_tokens]
    simp only [Bool.false_eq_true, if_false, read, done]

/-- A text is read as a tree exactly when its tokens derive the tree and the tree is not too high. -/
theorem parse_eq_ok_iff {dialect : Dialect} {text : Text} {tree : Query} :
    parse dialect text = .ok tree ↔
      ∃ lexemes, tokenize dialect text = .ok lexemes ∧
        Derives dialect.implicitAnd .disjunction (lexemes.map Lexeme.token) tree ∧
        tree.height ≤ maxHeight := by
  have limited : 0 < maxHeight := by decide
  unfold parse
  cases tokenize dialect text with
  | error start => simp
  | ok lexemes =>
    have read :
        Reading.query { implicitAnd := dialect.implicitAnd, stop := text.byteLength } lexemes =
          .ok tree ↔ _ := Reading.query_eq_ok_iff limited
    simpa using read

/-- The reader accepts the whole queries of the grammar whose trees are not too high, and nothing else;
and no tokens derive two trees. -/
theorem parse_accepts_grammar (dialect : Dialect) :
    (∀ (text : Text) (tree : Query), parse dialect text = .ok tree ↔
      ∃ lexemes, tokenize dialect text = .ok lexemes ∧
        Derives dialect.implicitAnd .disjunction (lexemes.map Lexeme.token) tree ∧
        tree.height ≤ maxHeight) ∧
    ∀ (tokens : List Token) (tree other : Query),
      Derives dialect.implicitAnd .disjunction tokens tree →
      Derives dialect.implicitAnd .disjunction tokens other → tree = other :=
  ⟨fun _ _ => parse_eq_ok_iff, fun _ _ _ => Derives.unique⟩

/-- Two names and an operator between them derive one tree, and are read as it. -/
theorem parse_accepts_grammar_of_conjunction :
    Derives true .disjunction [.word ['a'], .and, .word ['b']] (.and (.tag ['a']) (.tag ['b'])) ∧
      parse {} "a AND b".toList = .ok (.and (.tag ['a']) (.tag ['b'])) ∧
      ∀ other, Derives true .disjunction [.word ['a'], .and, .word ['b']] other →
        .and (.tag ['a']) (.tag ['b']) = other := by
  have first : Derives true .conjunction [.word ['a']] (.tag ['a']) := .ofTerm (.word _)
  have derived := Derives.ofConjunction (first.and (.word ['b']))
  refine ⟨derived, ?_, fun other => (parse_accepts_grammar {}).2 _ _ other derived⟩
  exact ((parse_accepts_grammar {}).1 _ _).mpr ⟨_, rfl, derived, by decide⟩

end TagQuery.Query
