import TagQuery.Proofs.Query.RoundTrip

/-! Queries inside of larger ones. A text that can be read by itself is read as the same tokens wherever
it stands between delimiters: what comes before it only moves its tokens, and what follows ends its last
word. So a valid query in brackets is a term of any other one. -/
namespace TagQuery.Query

variable {dialect : Dialect} {state moved : ScanState} {position position' : Nat} {c : Char}
  {text text' rest : Text} {lexemes : List Lexeme} {tree tree' : Query}

/-- Two states of the reader that differ in positions only. -/
inductive ScanState.Alike : ScanState → ScanState → Prop
  | between : Alike .between .between
  | inWord (start start' : Nat) (seen : Text) : Alike (.inWord start seen) (.inWord start' seen)
  | inQuotes (start start' : Nat) (seen : Text) : Alike (.inQuotes start seen) (.inQuotes start' seen)
  | escaping (start start' : Nat) (seen : Text) : Alike (.escaping start seen) (.escaping start' seen)

theorem ScanState.enter_alike (position position' : Nat) (c : Char) :
    (enter position c).1.toList.map Lexeme.token = (enter position' c).1.toList.map Lexeme.token ∧
      (enter position c).2.Alike (enter position' c).2 := by
  unfold enter
  repeat' split
  all_goals exact ⟨rfl, by constructor⟩

/-- A character is read alike at any position. -/
theorem ScanState.Alike.step (alike : state.Alike moved) (dialect : Dialect)
    (position position' : Nat) (c : Char) :
    (state.step dialect position c).1.map Lexeme.token =
        (moved.step dialect position' c).1.map Lexeme.token ∧
      (state.step dialect position c).2.Alike (moved.step dialect position' c).2 := by
  obtain ⟨own, next⟩ := enter_alike position position' c
  cases alike with
  | between => exact ⟨own, next⟩
  | inWord start start' seen =>
    simp only [ScanState.step]
    split
    · exact ⟨congrArg (dialect.classify seen.reverse :: ·) own, next⟩
    · exact ⟨rfl, .inWord start start' _⟩
  | inQuotes start start' seen =>
    simp only [ScanState.step]
    repeat' split
    · exact ⟨rfl, .between⟩
    · exact ⟨rfl, .escaping start start' _⟩
    · exact ⟨rfl, .inQuotes start start' _⟩
  | escaping start start' seen => exact ⟨rfl, .inQuotes start start' _⟩

/-- What is read to its end is read alike from another position, up to a delimiter that follows. -/
theorem scan_append (alike : state.Alike moved)
    (read : scan dialect state position [] text = .ok lexemes) (ends : Delimited rest) :
    ∃ lexemes', lexemes'.map Lexeme.token = lexemes.map Lexeme.token ∧
      scan dialect moved position' [] (text ++ rest) =
        (scan dialect .between (position' + text.byteLength) [] rest).map (lexemes' ++ ·) := by
  induction text generalizing state moved position position' lexemes with
  | nil =>
    cases alike with
    | between =>
      cases read
      exact ⟨[], rfl, (map_nil_append _).symm⟩
    | inWord start start' seen =>
      cases read
      refine ⟨[⟨dialect.classify (seen.reverse ++ []), start'⟩], by simp, ?_⟩
      have nothing : ([] : Text).any isDelimiter = false := rfl
      exact scan_inWord nothing ends
    | inQuotes | escaping => cases read
  | cons c text ih =>
    obtain ⟨later, readLater, rfl⟩ := scan_cons_eq_ok read
    obtain ⟨own, next⟩ := alike.step dialect position position' c
    obtain ⟨lexemes', same, readOn⟩ := ih next readLater
    refine ⟨(moved.step dialect position' c).1 ++ lexemes', ?_, ?_⟩
    · rw [List.map_append, List.map_append, own, same]
    · rw [List.cons_append, scan_cons, readOn, map_append_map, Text.byteLength_cons, Nat.add_assoc]

/-- What can be read by itself spells its tokens wherever a delimiter follows. -/
theorem Spells.of_tokenize (read : Query.tokenize dialect text = .ok lexemes) :
    Spells dialect text (lexemes.map Lexeme.token) :=
  fun _ _ ends => scan_append .between read ends

/-- A valid query says its tree, also in a larger text. -/
theorem says_of_parse (read : parse dialect text = .ok tree) : Says dialect .disjunction text tree := by
  obtain ⟨lexemes, scanned, derived, -⟩ := parse_eq_ok_iff.mp read
  exact ⟨_, Spells.of_tokenize scanned, derived⟩

def Bracket.enclose (bracket : Bracket) (text : Text) : Text :=
  bracket.opener :: (text ++ [bracket.closer])

/-- A valid query in brackets says a group, at every level. -/
theorem says_enclose (read : parse dialect text = .ok tree) (bracket : Bracket) (place : Level) :
    Says dialect place (bracket.enclose text) (.group tree) :=
  ((says_of_parse read).group bracket).loosen (by cases place <;> decide)

/-- Valid queries in brackets, joined by an operator, are read as the operator over their trees, each in
a group, unless that tree is too high. -/
theorem enclosed_queries_compose (dialect : Dialect) (bracket bracket' : Bracket)
    (read : parse dialect text = .ok tree) (read' : parse dialect text' = .ok tree') (whole : Query) :
    (parse dialect (bracket.enclose text ++ " AND ".toList ++ bracket'.enclose text') = .ok whole ↔
      whole = .and (.group tree) (.group tree') ∧ whole.height ≤ maxHeight) ∧
    (parse dialect (bracket.enclose text ++ " OR ".toList ++ bracket'.enclose text') = .ok whole ↔
      whole = .or (.group tree) (.group tree') ∧ whole.height ≤ maxHeight) ∧
    (parse dialect ("NOT ".toList ++ bracket.enclose text) = .ok whole ↔
      whole = .not (.group tree) ∧ whole.height ≤ maxHeight) := by
  have group := says_enclose read bracket
  have group' := says_enclose read' bracket'
  refine ⟨?_, ?_, ?_⟩
  · exact ((group .conjunction).and (group' .term)).parse_eq_ok_iff
  · exact ((group .disjunction).or (group' .conjunction)).parse_eq_ok_iff
  · exact (group .term).not.parse_eq_ok_iff

/-- A disjunction, and a query whose last word ends with a backslash, keep to their brackets. -/
theorem enclosed_queries_compose_of_disjunction :
    parse {} "a OR b".toList = .ok (.or (.tag ['a']) (.tag ['b'])) ∧
      parse {} "c\\".toList = .ok (.tag ['c', '\\']) ∧
      parse {} "(a OR b) AND [c\\]".toList =
        .ok (.and (.group (.or (.tag ['a']) (.tag ['b']))) (.group (.tag ['c', '\\']))) := by
  have read : parse {} "a OR b".toList = .ok (.or (.tag ['a']) (.tag ['b'])) := by
    have left : Derives true .disjunction [.word ['a']] (.tag ['a']) := (Derives.word _).toDisjunction
    exact parse_eq_ok_iff.mpr ⟨_, rfl, left.or (.ofTerm (.word ['b'])), by decide⟩
  have read' : parse {} "c\\".toList = .ok (.tag ['c', '\\']) := by
    exact parse_eq_ok_iff.mpr ⟨_, rfl, (Derives.word _).toDisjunction, by decide⟩
  refine ⟨read, read', ?_⟩
  exact (enclosed_queries_compose {} .round .square read read' _).1.mpr ⟨rfl, by decide⟩

end TagQuery.Query
