import TagQuery.Query.Token

/-! How texts are read as tokens, piece by piece. A piece of text spells some tokens when it is read
as them wherever a delimiter or the end follows; pieces are put together where one begins with a
delimiter. Positions are left out, for they only say where a token stands. -/
namespace TagQuery.Query

/-- One character read: its tokens stand in front of those of the rest. -/
theorem scan_cons (dialect : Dialect) (state : ScanState) (position : Nat) (c : Char)
    (rest : Text) :
    scan dialect state position [] (c :: rest) =
      (scan dialect (state.step dialect position c).2 (position + c.utf8Size) [] rest).map
        ((state.step dialect position c).1 ++ ·) := by
  rw [scan, scan_eq_append]
  simp

/-- Tokens put in front of others that stand in front already. -/
theorem map_append_map (first second : List Lexeme) (read : Except Nat (List Lexeme)) :
    (read.map (second ++ ·)).map (first ++ ·) = read.map (first ++ second ++ ·) := by
  cases read with
  | error e => rfl
  | ok ls => simp [Except.map]

theorem map_nil_append (read : Except Nat (List Lexeme)) : read.map (fun ls => ls) = read := by
  cases read <;> rfl

theorem map_append_eq_ok {own lexemes : List Lexeme} {read : Except Nat (List Lexeme)}
    (h : read.map (own ++ ·) = .ok lexemes) :
    ∃ later, read = .ok later ∧ lexemes = own ++ later := by
  cases read with
  | error e => cases h
  | ok later => exact ⟨later, rfl, (Except.ok.inj h).symm⟩

theorem map_append_eq_error {own : List Lexeme} {read : Except Nat (List Lexeme)} {e : Nat}
    (h : read.map (own ++ ·) = .error e) : read = .error e := by
  cases read with
  | error e' => exact congrArg _ (Except.error.inj h)
  | ok later => cases h

theorem scan_cons_eq_ok {dialect : Dialect} {state : ScanState} {position : Nat} {c : Char}
    {rest : Text} {lexemes : List Lexeme}
    (read : scan dialect state position [] (c :: rest) = .ok lexemes) :
    ∃ later,
      scan dialect (state.step dialect position c).2 (position + c.utf8Size) [] rest = .ok later ∧
        lexemes = (state.step dialect position c).1 ++ later := by
  rw [scan_cons] at read
  exact map_append_eq_ok read

/-- A delimiter or the end comes next. -/
def Delimited (rest : Text) : Prop := ∀ c ∈ rest.head?, isDelimiter c = true

theorem delimited_nil : Delimited [] := by
  intro c member
  cases member

theorem delimited_cons {c : Char} {rest : Text} :
    Delimited (c :: rest) ↔ isDelimiter c = true := by
  simp [Delimited]

/-- The text is read as these tokens wherever a delimiter or the end follows. -/
def Spells (dialect : Dialect) (text : Text) (tokens : List Token) : Prop :=
  ∀ position rest, Delimited rest →
    ∃ lexemes, lexemes.map Lexeme.token = tokens ∧
      scan dialect .between position [] (text ++ rest) =
        (scan dialect .between (position + text.byteLength) [] rest).map (lexemes ++ ·)

variable {dialect : Dialect} {text : Text} {tokens : List Token}

/-- What spells some tokens is read as them by itself. -/
theorem Spells.tokenize (h : Spells dialect text tokens) :
    ∃ lexemes, Query.tokenize dialect text = .ok lexemes ∧ lexemes.map Lexeme.token = tokens := by
  obtain ⟨lexemes, same, read⟩ := h 0 [] delimited_nil
  refine ⟨lexemes, ?_, same⟩
  rw [List.append_nil] at read
  simpa [Query.tokenize, scan, ScanState.finish, Except.map] using read

theorem Spells.nil : Spells dialect [] [] := by
  intro position rest _
  refine ⟨[], rfl, ?_⟩
  simp only [List.nil_append, Text.byteLength_nil, Nat.add_zero, map_nil_append]

/-- Two pieces, of which the second begins with a delimiter. -/
theorem Spells.append {first second : Text} {before after : List Token}
    (hf : Spells dialect first before) (hs : Spells dialect second after)
    (some_second : second ≠ []) (delimited : Delimited second) :
    Spells dialect (first ++ second) (before ++ after) := by
  intro position rest ends
  have follows : Delimited (second ++ rest) := by
    cases second with
    | nil => exact absurd rfl some_second
    | cons c _ => exact delimited_cons.mpr (delimited_cons.mp delimited)
  obtain ⟨firstLexemes, rfl, readFirst⟩ := hf position _ follows
  obtain ⟨secondLexemes, rfl, readSecond⟩ := hs (position + first.byteLength) rest ends
  refine ⟨firstLexemes ++ secondLexemes, List.map_append, ?_⟩
  rw [List.append_assoc, readFirst, readSecond, map_append_map, Text.byteLength_append,
    Nat.add_assoc]

/-- A character between tokens that leaves the reader between tokens. -/
theorem Spells.cons {c : Char} (own : List Token)
    (step : ∀ position, ∃ lexemes, lexemes.map Lexeme.token = own ∧
      ScanState.between.step dialect position c = (lexemes, .between))
    (h : Spells dialect text tokens) : Spells dialect (c :: text) (own ++ tokens) := by
  intro position rest ends
  obtain ⟨ownLexemes, rfl, here⟩ := step position
  obtain ⟨lexemes, rfl, read⟩ := h (position + c.utf8Size) rest ends
  refine ⟨ownLexemes ++ lexemes, List.map_append, ?_⟩
  rw [List.cons_append, scan_cons, here, Text.byteLength_cons, ← Nat.add_assoc]
  simp only [read, map_append_map]

theorem Spells.space (h : Spells dialect text tokens) : Spells dialect (' ' :: text) tokens :=
  .cons [] (fun _ => ⟨[], rfl, rfl⟩) h

theorem Spells.opening (bracket : Bracket) (h : Spells dialect text tokens) :
    Spells dialect (bracket.opener :: text) (.opening bracket :: tokens) :=
  .cons [.opening bracket]
    (fun position => ⟨[⟨.opening bracket, position⟩], rfl, by cases bracket <;> rfl⟩) h

theorem Spells.closing (bracket : Bracket) (h : Spells dialect text tokens) :
    Spells dialect (bracket.closer :: text) (.closing bracket :: tokens) :=
  .cons [.closing bracket]
    (fun position => ⟨[⟨.closing bracket, position⟩], rfl, by cases bracket <;> rfl⟩) h

/-- A word goes on to the next delimiter. -/
theorem scan_inWord {start position : Nat} {seen more rest : Text}
    (plain : more.any isDelimiter = false) (ends : Delimited rest) :
    scan dialect (.inWord start seen) position [] (more ++ rest) =
      (scan dialect .between (position + more.byteLength) [] rest).map
        ([⟨dialect.classify (seen.reverse ++ more), start⟩] ++ ·) := by
  induction more generalizing position seen with
  | nil =>
    cases rest with
    | nil => simp [scan, ScanState.finish, Except.map]
    | cons c rest =>
      have delimiter := delimited_cons.mp ends
      simp only [List.nil_append, scan_cons, ScanState.step, delimiter, if_true,
        Text.byteLength_nil, Nat.add_zero, List.append_nil]
      cases scan dialect (ScanState.enter position c).2 _ [] rest <;> rfl
  | cons c more ih =>
    rw [List.any_cons, Bool.or_eq_false_iff] at plain
    obtain ⟨other, plain⟩ := plain
    have step : (ScanState.inWord start seen).step dialect position c =
        ([], .inWord start (c :: seen)) := by simp [ScanState.step, other]
    rw [List.cons_append, scan_cons, step, ih plain, map_append_map, Text.byteLength_cons,
      ← Nat.add_assoc]
    simp

/-- A word without delimiters is one token. -/
theorem Spells.word {word : Text} (some_char : word ≠ [])
    (plain : word.any isDelimiter = false) :
    Spells dialect word [dialect.classify word] := by
  intro position rest ends
  obtain ⟨c, more, rfl⟩ := List.exists_cons_of_ne_nil some_char
  rw [List.any_cons, Bool.or_eq_false_iff] at plain
  obtain ⟨other, plain⟩ := plain
  refine ⟨[⟨dialect.classify (c :: more), position⟩], rfl, ?_⟩
  have begins : ScanState.between.step dialect position c = ([], .inWord position [c]) := by
    simp only [isDelimiter, Bool.or_eq_false_iff, decide_eq_false_iff_not] at other
    simp [ScanState.step, ScanState.enter, other]
  rw [List.cons_append, scan_cons, begins, scan_inWord plain ends, map_append_map,
    Text.byteLength_cons, ← Nat.add_assoc]
  rfl

/-- A word in front of a piece, with a space between them. -/
theorem Spells.spaced (word : Text) (some_char : word ≠ [])
    (plain : word.any isDelimiter = false) (h : Spells dialect text tokens) :
    Spells dialect (word ++ ' ' :: text) (dialect.classify word :: tokens) :=
  (Spells.word some_char plain).append h.space (List.cons_ne_nil _ _) (delimited_cons.mpr rfl)

/-- A word between two pieces, with a space on either side. -/
theorem Spells.between {first : Text} {before : List Token} (word : Text) (some_char : word ≠ [])
    (plain : word.any isDelimiter = false) (hf : Spells dialect first before)
    (hs : Spells dialect text tokens) :
    Spells dialect (first ++ ' ' :: (word ++ ' ' :: text))
      (before ++ dialect.classify word :: tokens) :=
  hf.append (hs.spaced word some_char plain).space (List.cons_ne_nil _ _) (delimited_cons.mpr rfl)

/-- Inside quotes an escaped character stands for itself. -/
theorem scan_escapedChar {start position : Nat} {seen rest : Text} (c : Char) :
    scan dialect (.inQuotes start seen) position [] (escapedChar c ++ rest) =
      scan dialect (.inQuotes start (c :: seen)) (position + Text.byteLength (escapedChar c)) []
        rest := by
  have noQuote : ¬ '\\' = '"' := by decide
  unfold escapedChar
  split
  · simp only [List.cons_append, List.nil_append, scan_cons, ScanState.step, Text.byteLength_cons,
      Text.byteLength_nil, Nat.add_zero, ← Nat.add_assoc, map_nil_append, if_true, noQuote, if_false]
  · next plain =>
    obtain ⟨noBackslash, noQuote⟩ := not_or.mp plain
    simp only [List.cons_append, List.nil_append, scan_cons, ScanState.step, Text.byteLength_cons,
      Text.byteLength_nil, Nat.add_zero, map_nil_append, noBackslash, noQuote, if_false]

/-- A quoted name goes on to the closing quote, and its escapes are undone. -/
theorem scan_inQuotes {start position : Nat} {seen name rest : Text} :
    scan dialect (.inQuotes start seen) position [] (name.flatMap escapedChar ++ '"' :: rest) =
      (scan dialect .between
        (position + Text.byteLength (name.flatMap escapedChar ++ ['"'])) [] rest).map
        ([⟨.quoted (seen.reverse ++ name), start⟩] ++ ·) := by
  induction name generalizing position seen with
  | nil => simp [scan_cons, ScanState.step]
  | cons c name ih =>
    simp only [List.flatMap_cons, List.append_assoc, scan_escapedChar, ih, Text.byteLength_append,
      List.reverse_cons, List.singleton_append, Nat.add_assoc]

theorem Spells.quoted (name : Text) :
    Spells dialect ('"' :: (name.flatMap escapedChar ++ ['"'])) [.quoted name] := by
  intro position rest _
  refine ⟨[⟨.quoted name, position⟩], rfl, ?_⟩
  have opens : ScanState.between.step dialect position '"' = ([], .inQuotes position []) := rfl
  rw [List.cons_append, List.append_assoc, scan_cons, opens, Text.byteLength_cons, ← Nat.add_assoc]
  simp only [List.singleton_append, scan_inQuotes, List.nil_append, map_nil_append,
    List.reverse_nil]

/-- The text of a word or a quoted name can be seen. -/
def Token.Visible : Token → Prop
  | word text => text.allBlank = false
  | _ => True

def ScanState.Visible : ScanState → Prop
  | inWord _ seen => Text.allBlank seen.reverse = false
  | _ => True

theorem Dialect.classify_visible {dialect : Dialect} {word : Text} (visible : word.allBlank = false) :
    (dialect.classify word).Visible := by
  unfold Dialect.classify
  repeat' split
  all_goals first | exact visible | trivial

theorem ScanState.enter_visible (position : Nat) (c : Char) :
    (∀ lexeme ∈ (enter position c).1, lexeme.token.Visible) ∧ (enter position c).2.Visible := by
  unfold enter
  repeat' split
  all_goals simp_all [Token.Visible, ScanState.Visible, Text.allBlank]

theorem ScanState.step_visible {state : ScanState} (dialect : Dialect) (position : Nat) (c : Char)
    (visible : state.Visible) :
    (∀ lexeme ∈ (state.step dialect position c).1, lexeme.token.Visible) ∧
      (state.step dialect position c).2.Visible := by
  have entered := enter_visible position c
  cases state with
  | between => simpa [step] using entered
  | inWord start seen =>
    simp only [step]
    split
    · refine ⟨fun lexeme member => ?_, entered.2⟩
      rcases List.mem_cons.mp member with rfl | own
      · exact Dialect.classify_visible visible
      · exact entered.1 lexeme (Option.mem_toList.mp own)
    · refine ⟨fun lexeme member => absurd member List.not_mem_nil, ?_⟩
      simp only [ScanState.Visible, Text.allBlank] at visible ⊢
      rw [List.reverse_cons, List.all_append, visible, Bool.false_and]
  | inQuotes start seen =>
    simp only [step]
    repeat' split
    all_goals simp [Token.Visible, ScanState.Visible]
  | escaping start seen => simp [step, ScanState.Visible]

/-- What every step keeps of the reader and gives of the tokens holds of all tokens that are read. -/
theorem scan_invariant {dialect : Dialect} {Kept : ScanState → Prop} {Good : Token → Prop}
    (step : ∀ state position c, Kept state →
      (∀ lexeme ∈ (state.step dialect position c).1, Good lexeme.token) ∧
        Kept (state.step dialect position c).2)
    (finish : ∀ start seen, Kept (.inWord start seen) → Good (dialect.classify seen.reverse))
    {text : Text} {state : ScanState} {position : Nat} {lexemes : List Lexeme} (kept : Kept state)
    (read : scan dialect state position [] text = .ok lexemes) :
    ∀ lexeme ∈ lexemes, Good lexeme.token := by
  induction text generalizing state position lexemes with
  | nil =>
    cases state with
    | between => cases read; simp
    | inWord start seen =>
      cases read
      simpa using finish start seen kept
    | inQuotes start seen => cases read
    | escaping start seen => cases read
  | cons c rest ih =>
    obtain ⟨own, next⟩ := step state position c kept
    obtain ⟨later, readLater, rfl⟩ := scan_cons_eq_ok read
    intro lexeme member
    rcases List.mem_append.mp member with first | second
    · exact own lexeme first
    · exact ih next readLater lexeme second

/-- The words that are read from a text can be seen. -/
theorem tokenize_visible {dialect : Dialect} {text : Text} {lexemes : List Lexeme}
    (read : tokenize dialect text = .ok lexemes) : ∀ lexeme ∈ lexemes, lexeme.token.Visible := by
  have starts : ScanState.between.Visible := trivial
  have step (state : ScanState) (position : Nat) (c : Char) (visible : state.Visible) :=
    ScanState.step_visible dialect position c visible
  exact scan_invariant step (fun _ _ visible => Dialect.classify_visible visible) starts read

end TagQuery.Query
