import TagQuery.Proofs.Query.Keywords

/-! Which keywords of accepted settings are read as every item. Settings are accepted if no keyword is
empty or has a blank in it, but an operator is never read as one, and what a bracket or a quote is in is
not read as one word. Main steps: the tokens of a text without blanks that is no word, and the words
that are read as every item. -/
namespace TagQuery.Query

variable {dialect : Dialect} {position start : Nat} {lexemes : List Lexeme} {text word : Text}
  {c : Char}

/-- Every item is derived from the one token that means so. -/
theorem Derives.tokens_eq_of_all {implicitAnd : Bool} {level : Level} {tokens : List Token}
    (h : Derives implicitAnd level tokens .all) : tokens = [.all] := by
  generalize asked : Query.all = tree at h
  induction h with
  | all => rfl
  | ofTerm _ ih | ofConjunction _ ih => exact ih asked
  | _ => cases asked

/-- The reader stands in a quoted text that began there. -/
def ScanState.IsQuoting (start : Nat) : ScanState → Prop
  | inQuotes opened _ | escaping opened _ => opened = start
  | _ => False

/-- A quoted text that is closed is the next token. -/
theorem scan_quoting {state : ScanState} (quoting : state.IsQuoting start)
    (read : scan dialect state position [] text = .ok lexemes) :
    ∃ name, lexemes.head? = some ⟨.quoted name, start⟩ := by
  induction text generalizing state position lexemes with
  | nil =>
    cases state with
    | between | inWord => exact quoting.elim
    | inQuotes | escaping => cases read
  | cons c text ih =>
    obtain ⟨later, readLater, rfl⟩ := scan_cons_eq_ok read
    cases state with
    | between | inWord => exact quoting.elim
    | inQuotes opened seen =>
      obtain rfl : opened = start := quoting
      simp only [ScanState.step] at readLater ⊢
      split at readLater
      · next closes =>
        rw [if_pos closes]
        exact ⟨_, rfl⟩
      · next other =>
        rw [if_neg other]
        split at readLater
        · next escapes =>
          rw [if_pos escapes]
          have quoting : (ScanState.escaping opened seen).IsQuoting opened := rfl
          exact ih quoting readLater
        · next plain =>
          rw [if_neg plain]
          have quoting : (ScanState.inQuotes opened (c :: seen)).IsQuoting opened := rfl
          exact ih quoting readLater
    | escaping opened seen =>
      have quoting : (ScanState.inQuotes opened (c :: seen)).IsQuoting start := quoting
      exact ih quoting readLater

/-- A bracket is a token, and a quote begins one. -/
theorem scan_delimiter (delimiter : isDelimiter c = true) (visible : Text.isBlank c = false)
    (read : scan dialect .between position [] (c :: text) = .ok lexemes) :
    ∃ lexeme ∈ lexemes.head?, lexeme.token ≠ .all := by
  obtain ⟨later, readLater, rfl⟩ := scan_cons_eq_ok read
  simp only [isDelimiter, visible, Bool.false_or, Bool.or_eq_true, decide_eq_true_eq] at delimiter
  rcases delimiter with (((rfl | rfl) | rfl) | rfl) | rfl
  · exact ⟨_, rfl, Token.noConfusion⟩
  · exact ⟨_, rfl, Token.noConfusion⟩
  · exact ⟨_, rfl, Token.noConfusion⟩
  · exact ⟨_, rfl, Token.noConfusion⟩
  · have quoting : (ScanState.inQuotes position []).IsQuoting position := rfl
    obtain ⟨name, first⟩ := scan_quoting quoting readLater
    exact ⟨_, first, Token.noConfusion⟩

/-- Without blanks, a text with a bracket or a quote in it is not read as one token that means every
item: the first of them is a token of its own, or begins one. -/
theorem tokens_ne_all_of_delimiter (visible : text.any Text.isBlank = false)
    (delimiter : text.any isDelimiter = true) (read : tokenize dialect text = .ok lexemes) :
    lexemes.map Lexeme.token ≠ [.all] := by
  intro single
  obtain ⟨c, found⟩ : ∃ c, text.find? isDelimiter = some c := by
    simpa [Option.isSome_iff_exists] using List.find?_isSome.mpr (List.any_eq_true.mp delimiter)
  obtain ⟨ends, before, rest, rfl, plain⟩ := List.find?_eq_some_iff_append.mp found
  have here : Text.isBlank c = false := by
    simp only [List.any_append, List.any_cons, Bool.or_eq_false_iff] at visible
    exact visible.2.1
  by_cases first : before = []
  · subst first
    obtain ⟨lexeme, among, other⟩ := scan_delimiter ends here read
    obtain ⟨more, rfl⟩ := List.head?_eq_some_iff.mp among
    exact other (List.cons.inj single).1
  · have word : before.any isDelimiter = false := by simpa using plain
    have spelled : Spells dialect before [dialect.classify before] := Spells.word first word
    obtain ⟨own, sole, together⟩ := spelled 0 (c :: rest) (delimited_cons.mpr ends)
    rw [tokenize, together] at read
    obtain ⟨later, readLater, rfl⟩ := map_append_eq_ok read
    obtain ⟨lexeme, among, -⟩ := scan_delimiter ends here readLater
    obtain ⟨more, rfl⟩ := List.head?_eq_some_iff.mp among
    rw [List.map_append, sole] at single
    cases (List.cons.inj single).2

/-- Without blanks, only a word is read as every item. -/
theorem parse_eq_all_iff (visible : word.any Text.isBlank = false) :
    parse dialect word = .ok .all ↔ isOperand word = true ∧ dialect.isKeyword word = true := by
  constructor
  · intro read
    obtain ⟨lexemes, scanned, derived, -⟩ := parse_eq_ok_iff.mp read
    have single : lexemes.map Lexeme.token = [.all] := derived.tokens_eq_of_all
    have plain : word.any isDelimiter = false := Bool.eq_false_iff.mpr fun delimiter =>
      tokens_ne_all_of_delimiter visible delimiter scanned single
    have some_char : word ≠ [] := by
      rintro rfl
      cases scanned
      cases single
    have spelled : Spells dialect word [dialect.classify word] := Spells.word some_char plain
    obtain ⟨found, again, sole⟩ := spelled.tokenize
    rw [scanned] at again
    cases again
    have means : dialect.classify word = .all := (List.cons.inj (sole.symm.trans single)).1
    exact Dialect.isOperand_of_classify some_char plain means
  · exact fun ⟨operand, keyword⟩ => parse_eq_all_of_isKeyword operand keyword

/-- The keywords that settings are accepted with are neither empty nor have blanks in them. -/
theorem visible_of_accepted {settings : Settings} {keyword : Text}
    (accepted : settings.fault? = none) (among : keyword ∈ settings.dialect.allKeywords) :
    keyword ≠ [] ∧ keyword.any Text.isBlank = false := by
  have usable : Settings.isUnusable keyword = false :=
    Bool.eq_false_iff.mpr (List.find?_eq_none.mp (Option.map_eq_none_iff.mp accepted) keyword among)
  obtain ⟨trimmed, visible⟩ := Bool.or_eq_false_iff.mp usable
  refine ⟨?_, visible⟩
  rintro rfl
  cases trimmed

/-- A keyword of accepted settings is read as every item exactly if no bracket and no quote is in it
and it is no operator. The settings are accepted without looking at either. -/
theorem keyword_read_as_all_iff (settings : Settings) {keyword : Text}
    (accepted : settings.fault? = none) (among : keyword ∈ settings.dialect.allKeywords) :
    parse settings.dialect keyword = .ok .all ↔
      (∀ c ∈ keyword, c ∉ "()[]\"".toList) ∧ isOperator keyword = false := by
  obtain ⟨some_char, visible⟩ := visible_of_accepted accepted among
  have means : settings.dialect.isKeyword keyword = true :=
    List.any_eq_true.mpr ⟨keyword, among, beq_self_eq_true _⟩
  have unbroken : keyword.any isDelimiter = false ↔ ∀ c ∈ keyword, c ∉ "()[]\"".toList := by
    rw [List.any_eq_false] at visible ⊢
    refine forall₂_congr fun c member => ?_
    have here : Text.isBlank c = false := Bool.eq_false_iff.mpr (visible c member)
    simp [isDelimiter, here, and_assoc]
  rw [parse_eq_all_iff visible, and_iff_left means, ← unbroken]
  simp [isOperand, some_char]

theorem keyword_read_as_all_of_letters :
    let settings : Settings := { dialect := { allKeywords := ["x&y".toList, "ÄLL".toList] } }
    settings.fault? = none ∧ parse settings.dialect "ÄLL".toList = .ok .all := by
  intro settings
  have accepted : settings.fault? = none := by decide
  have among : "ÄLL".toList ∈ settings.dialect.allKeywords := by decide
  have plain : ∀ c ∈ "ÄLL".toList, c ∉ "()[]\"".toList := by simp
  exact ⟨accepted, (keyword_read_as_all_iff settings accepted among).mpr ⟨plain, by decide⟩⟩

/-- Settings are accepted with an operator among the keywords and with a word in brackets; but the one
cannot be read by itself, and the other is read as a tag in a group. -/
theorem keyword_not_read_as_all_of_and :
    let settings : Settings := { dialect := { allKeywords := ["and".toList, "[x]".toList] } }
    settings.fault? = none ∧
      parse settings.dialect "and".toList = .error ⟨.missingOperandBefore .and, 0⟩ ∧
      parse settings.dialect "[x]".toList = .ok (.group (.tag "x".toList)) := by
  intro settings
  have name : Derives true .disjunction [.word "x".toList] (.tag "x".toList) :=
    Derives.toDisjunction (.word _)
  have grouped : Derives true .disjunction [.opening .square, .word "x".toList, .closing .square]
      (.group (.tag "x".toList)) := Derives.toDisjunction (.group .square name)
  exact ⟨by decide, rfl, parse_eq_ok_iff.mpr ⟨_, rfl, grouped, by decide⟩⟩

end TagQuery.Query
