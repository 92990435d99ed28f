import TagQuery.Proofs.Query.Embedding
import TagQuery.Proofs.Query.Positions
import TagQuery.Proofs.Query.Words

/-! The spans of tokens. A text is taken apart into the spans of its tokens, one behind the other, and
blanks; so nothing of it is dropped, and nothing is read twice. Main steps: what the reader has in hand
when it stands in the middle of a token, and what each character makes of it. Reading fails only at a
quote that opens and is never closed. -/
namespace TagQuery.Query

/-- What stands between two quotes, and the text that it means: each character that a backslash escapes
stands for itself. -/
inductive Unescapes : Text → Text → Prop
  | nil : Unescapes [] []
  | plain {c : Char} {interior text : Text} (noQuote : c ≠ '"') (noBackslash : c ≠ '\\')
      (more : Unescapes interior text) : Unescapes (c :: interior) (c :: text)
  | escaped (c : Char) {interior text : Text} (more : Unescapes interior text) :
      Unescapes ('\\' :: c :: interior) (c :: text)

/-- A quote comes that nothing escapes. -/
def Closes (text : Text) : Prop :=
  ∃ interior name rest, Unescapes interior name ∧ text = interior ++ '"' :: rest

/-- A run of characters of which none ends a word. -/
def IsWord (span : Text) : Prop := span ≠ [] ∧ ∀ c ∈ span, isDelimiter c = false

/-- How a token is written: a bracket and a word as they are, a keyword as a word that is read as it,
and a quoted text with both quotes. -/
def Token.WrittenAs (dialect : Dialect) (span : Text) : Token → Prop
  | .opening bracket => span = [bracket.opener]
  | .closing bracket => span = [bracket.closer]
  | .quoted text => ∃ interior, span = '"' :: (interior ++ ['"']) ∧ Unescapes interior text
  | .word text => span = text ∧ IsWord text ∧ dialect.classify text = .word text
  | keyword => IsWord span ∧ dialect.classify span = keyword

/-- Words and keywords end only where a delimiter or the end comes next. -/
def Token.isBare : Token → Bool
  | quoted _ => false
  | opening _ => false
  | closing _ => false
  | _ => true

structure Spanned where
  lexeme : Lexeme
  span : Text
  deriving DecidableEq, Repr

def Spanned.stop (spanned : Spanned) : Nat := spanned.lexeme.start + spanned.span.byteLength

def Spanned.Covers (spanned : Spanned) (place : Nat) : Prop :=
  spanned.lexeme.start ≤ place ∧ place < spanned.stop

/-- What tokens tell about the text, from some position on, that they are read from. -/
structure AccountsFor (dialect : Dialect) (position : Nat) (text : Text) (tokens : List Spanned) :
    Prop where
  increasing : tokens.Pairwise (·.lexeme.start < ·.lexeme.start)
  disjoint : tokens.Pairwise (·.stop ≤ ·.lexeme.start)
  /-- A span stands in the text where its token starts, between two characters. -/
  located : ∀ spanned ∈ tokens, ∃ before after, text = before ++ (spanned.span ++ after) ∧
    spanned.lexeme.start = position + before.byteLength ∧
      (spanned.lexeme.token.isBare = true → Delimited after)
  written : ∀ spanned ∈ tokens, spanned.lexeme.token.WrittenAs dialect spanned.span
  /-- Outside of the spans there are blanks only. -/
  blank : ∀ (before : Text) c after, text = before ++ c :: after →
    (∀ spanned ∈ tokens, ¬ spanned.Covers (position + before.byteLength)) → Text.isBlank c = true

/-- A text from some position on, taken apart into blanks and the spans of tokens. -/
inductive Cut (dialect : Dialect) : Nat → Text → List Spanned → Prop
  | nil (position : Nat) : Cut dialect position [] []
  | blank {position : Nat} {c : Char} {text : Text} {tokens : List Spanned}
      (blank : Text.isBlank c = true) (rest : Cut dialect (position + c.utf8Size) text tokens) :
      Cut dialect position (c :: text) tokens
  | token {position : Nat} {span text : Text} {token : Token} {tokens : List Spanned}
      (written : token.WrittenAs dialect span) (ends : token.isBare = true → Delimited text)
      (rest : Cut dialect (position + span.byteLength) text tokens) :
      Cut dialect position (span ++ text) (⟨⟨token, position⟩, span⟩ :: tokens)

variable {dialect : Dialect} {position start : Nat} {c : Char} {token : Token}
  {state next : ScanState} {span raw text interior interior' name name' : Text}
  {lexemes given : List Lexeme} {tokens : List Spanned}

theorem Unescapes.append (h : Unescapes interior name) (h' : Unescapes interior' name') :
    Unescapes (interior ++ interior') (name ++ name') := by
  induction h with
  | nil => exact h'
  | plain noQuote noBackslash _ ih => exact .plain noQuote noBackslash ih
  | escaped c _ ih => exact .escaped c ih

theorem IsWord.append (word : IsWord span) (other : isDelimiter c = false) :
    IsWord (span ++ [c]) := by
  refine ⟨by simp, fun d member => ?_⟩
  rcases List.mem_append.mp member with before | last
  · exact word.2 d before
  · rwa [List.mem_singleton.mp last]

theorem Dialect.classify_cases (dialect : Dialect) (word : Text) :
    dialect.classify word = .and ∨ dialect.classify word = .or ∨ dialect.classify word = .not ∨
      dialect.classify word = .all ∨ dialect.classify word = .word word := by
  unfold classify
  repeat' split
  all_goals simp

/-- What a word is read as is written as the word. -/
theorem IsWord.writtenAs (word : IsWord span) (dialect : Dialect) :
    (dialect.classify span).WrittenAs dialect span := by
  rcases dialect.classify_cases span with given | given | given | given | given
  all_goals rw [given]
  · exact ⟨word, given⟩
  · exact ⟨word, given⟩
  · exact ⟨word, given⟩
  · exact ⟨word, given⟩
  · exact ⟨rfl, word, given⟩

namespace ScanState

/-- The part of a token that was read before this position. -/
def Holds (position : Nat) (raw : Text) : ScanState → Prop
  | between => raw = []
  | inWord start seen => start + raw.byteLength = position ∧ raw = seen.reverse ∧ IsWord raw
  | inQuotes start seen => start + raw.byteLength = position ∧
      ∃ interior, raw = '"' :: interior ∧ Unescapes interior seen.reverse
  | escaping start seen => start + raw.byteLength = position ∧
      ∃ interior, raw = '"' :: (interior ++ ['\\']) ∧ Unescapes interior seen.reverse

/-- What was read up to a position is taken apart into the tokens given there and what the reader then
has in hand, whatever follows. -/
def Leads (dialect : Dialect) (first : Nat) (front : Text) (given : List Lexeme) (next : ScanState)
    (position : Nat) : Prop :=
  ∃ raw, next.Holds position raw ∧
    ∀ text tokens, Cut dialect (next.since position) (raw ++ text) tokens →
      ∃ own, own.map Spanned.lexeme = given ∧ Cut dialect first (front ++ text) (own ++ tokens)

/-- The reader goes on with the token. -/
theorem Leads.going (next : ScanState) (holds : next.Holds position raw) :
    Leads dialect (next.since position) raw [] next position :=
  ⟨raw, holds, fun _ _ rest => ⟨[], rfl, rest⟩⟩

/-- A token is complete, and the reader stands behind it. -/
theorem Leads.complete (token : Token) (written : token.WrittenAs dialect span)
    (closed : token.isBare = false) (reached : start + span.byteLength = position) :
    Leads dialect start span [⟨token, start⟩] between position := by
  subst reached
  refine ⟨[], rfl, fun text tokens rest => ⟨[⟨⟨token, start⟩, span⟩], rfl, ?_⟩⟩
  exact .token written (fun bare => Bool.noConfusion (closed.symm.trans bare)) rest

theorem enter_leads (dialect : Dialect) (position : Nat) (c : Char) :
    Leads dialect position [c] (enter position c).1.toList (enter position c).2
      (position + c.utf8Size) := by
  unfold enter
  split
  · next blank => exact ⟨[], rfl, fun text tokens rest => ⟨[], rfl, .blank blank rest⟩⟩
  next visible =>
  split
  · next here => exact .complete (.opening .round) (congrArg ([·]) here) rfl rfl
  next noRound =>
  split
  · next here => exact .complete (.opening .square) (congrArg ([·]) here) rfl rfl
  next noSquare =>
  split
  · next here => exact .complete (.closing .round) (congrArg ([·]) here) rfl rfl
  next noRoundEnd =>
  split
  · next here => exact .complete (.closing .square) (congrArg ([·]) here) rfl rfl
  next noSquareEnd =>
  split
  · next here =>
    subst here
    exact .going (inQuotes position []) ⟨rfl, [], rfl, .nil⟩
  next noQuote =>
  have word : IsWord [c] := by simp [IsWord, isDelimiter, *]
  exact .going (inWord position [c]) ⟨rfl, rfl, word⟩

/-- A word is complete at the delimiter behind it. -/
theorem Leads.behind (word : IsWord span) (delimiter : isDelimiter c = true)
    (behind : Leads dialect (start + span.byteLength) [c] given next position) :
    Leads dialect start (span ++ [c]) (⟨dialect.classify span, start⟩ :: given) next position := by
  obtain ⟨raw, holds, leads⟩ := behind
  refine ⟨raw, holds, fun text tokens rest => ?_⟩
  obtain ⟨own, same, cut⟩ := leads text tokens rest
  refine ⟨⟨⟨dialect.classify span, start⟩, span⟩ :: own, congrArg _ same, ?_⟩
  rw [List.append_assoc]
  exact .token (word.writtenAs dialect) (fun _ => delimited_cons.mpr delimiter) cut

theorem Holds.step (holds : state.Holds position raw) (dialect : Dialect) (c : Char) :
    Leads dialect (state.since position) (raw ++ [c]) (state.step dialect position c).1
      (state.step dialect position c).2 (position + c.utf8Size) := by
  cases state with
  | between =>
    subst holds
    exact enter_leads dialect position c
  | inWord start seen =>
    obtain ⟨rfl, rfl, word⟩ := holds
    simp only [ScanState.step]
    split
    · next delimiter => exact (enter_leads dialect _ c).behind word delimiter
    · next other =>
      refine .going (inWord start (c :: seen)) ⟨?_, by simp, word.append (Bool.eq_false_iff.mpr other)⟩
      simp [Nat.add_assoc]
  | inQuotes start seen =>
    obtain ⟨rfl, interior, rfl, means⟩ := holds
    have reached (d : Char) : start + Text.byteLength ('"' :: (interior ++ [d])) =
        start + Text.byteLength ('"' :: interior) + d.utf8Size := by simp [Nat.add_assoc]
    simp only [ScanState.step]
    split
    · next closes =>
      subst closes
      exact .complete (.quoted seen.reverse) ⟨interior, rfl, means⟩ rfl (reached '"')
    next noQuote =>
    split
    · next escapes =>
      subst escapes
      exact .going (escaping start seen) ⟨reached '\\', interior, rfl, means⟩
    · next noBackslash =>
      have goesOn : Unescapes (interior ++ [c]) (c :: seen).reverse := by
        simpa using means.append (.plain noQuote noBackslash .nil)
      exact .going (inQuotes start (c :: seen)) ⟨reached c, interior ++ [c], rfl, goesOn⟩
  | escaping start seen =>
    obtain ⟨rfl, interior, rfl, means⟩ := holds
    have goesOn : Unescapes (interior ++ ['\\', c]) (c :: seen).reverse := by
      simpa using means.append (.escaped c .nil)
    refine .going (inQuotes start (c :: seen)) ⟨?_, interior ++ ['\\', c], by simp, goesOn⟩
    simp [Nat.add_assoc]

end ScanState

/-- What is read to its end is taken apart into the tokens that it is read as. -/
theorem scan_cut (holds : state.Holds position raw)
    (read : scan dialect state position [] text = .ok lexemes) :
    ∃ tokens, tokens.map Spanned.lexeme = lexemes ∧
      Cut dialect (state.since position) (raw ++ text) tokens := by
  induction text generalizing state position raw lexemes with
  | nil =>
    cases state with
    | between =>
      cases read
      subst holds
      exact ⟨[], rfl, .nil position⟩
    | inWord start seen =>
      cases read
      obtain ⟨rfl, rfl, word⟩ := holds
      refine ⟨[⟨⟨dialect.classify seen.reverse, start⟩, seen.reverse⟩], rfl, ?_⟩
      exact .token (word.writtenAs dialect) (fun _ => delimited_nil) (.nil _)
    | inQuotes | escaping => cases read
  | cons c rest ih =>
    obtain ⟨later, readLater, rfl⟩ := scan_cons_eq_ok read
    obtain ⟨raw', holds', leads⟩ := holds.step dialect c
    obtain ⟨tokens, rfl, cut⟩ := ih holds' readLater
    obtain ⟨own, same, whole⟩ := leads rest tokens cut
    refine ⟨own ++ tokens, by rw [List.map_append, same], ?_⟩
    rwa [List.append_assoc] at whole

theorem Token.WrittenAs.byteLength_pos (written : token.WrittenAs dialect span) :
    0 < span.byteLength := by
  have some_char : span ≠ [] := by
    cases token with
    | opening | closing =>
      rw [show span = _ from written]
      exact List.cons_ne_nil _ _
    | quoted =>
      obtain ⟨interior, rfl, -⟩ := written
      exact List.cons_ne_nil _ _
    | word =>
      obtain ⟨rfl, word, -⟩ := written
      exact word.1
    | and | or | not | all => exact written.1.1
  obtain ⟨c, more, rfl⟩ := List.exists_cons_of_ne_nil some_char
  exact Nat.lt_of_lt_of_le c.utf8Size_pos (Nat.le_add_right _ _)

namespace AccountsFor

theorem nil (dialect : Dialect) (position : Nat) : AccountsFor dialect position [] [] :=
  ⟨.nil, .nil, nofun, nofun, fun before c after same => by simp at same⟩

theorem le_start (h : AccountsFor dialect position text tokens) {spanned : Spanned}
    (member : spanned ∈ tokens) : position ≤ spanned.lexeme.start := by
  obtain ⟨before, after, -, start, -⟩ := h.located spanned member
  omega

/-- A blank in front of a text. -/
theorem cons (blank : Text.isBlank c = true)
    (h : AccountsFor dialect (position + c.utf8Size) text tokens) :
    AccountsFor dialect position (c :: text) tokens where
  increasing := h.increasing
  disjoint := h.disjoint
  located := by
    intro spanned member
    obtain ⟨before, after, rfl, start, ends⟩ := h.located spanned member
    exact ⟨c :: before, after, rfl, by rw [start, Text.byteLength_cons, Nat.add_assoc], ends⟩
  written := h.written
  blank := by
    intro before d after same outside
    cases before with
    | nil =>
      obtain ⟨rfl, rfl⟩ := List.cons.inj same
      exact blank
    | cons _ before =>
      obtain ⟨rfl, rfl⟩ := List.cons.inj same
      rw [Text.byteLength_cons, ← Nat.add_assoc] at outside
      exact h.blank before d after rfl outside

/-- A token in front of a text. -/
theorem append (written : token.WrittenAs dialect span) (ends : token.isBare = true → Delimited text)
    (h : AccountsFor dialect (position + span.byteLength) text tokens) :
    AccountsFor dialect position (span ++ text) (⟨⟨token, position⟩, span⟩ :: tokens) where
  increasing := .cons (fun _ member => Nat.lt_of_lt_of_le
    (Nat.lt_add_of_pos_right written.byteLength_pos) (h.le_start member)) h.increasing
  disjoint := .cons (fun _ => h.le_start) h.disjoint
  located := by
    refine List.forall_mem_cons.mpr ⟨⟨[], text, rfl, rfl, ends⟩, fun spanned member => ?_⟩
    obtain ⟨before, after, rfl, start, ends⟩ := h.located spanned member
    refine ⟨span ++ before, after, (List.append_assoc ..).symm, ?_, ends⟩
    rw [start, Text.byteLength_append, Nat.add_assoc]
  written := List.forall_mem_cons.mpr ⟨written, h.written⟩
  blank := by
    intro before c after same outside
    obtain ⟨here, outside⟩ := List.forall_mem_cons.mp outside
    -- A character of the span is covered, so the character stands behind the span.
    obtain ⟨between, rfl, rfl⟩ : ∃ between, before = span ++ between ∧ text = between ++ c :: after := by
      rcases List.append_eq_append_iff.mp same with inRest | ⟨last, rfl, own⟩
      · exact inRest
      · cases last with
        | nil => exact ⟨[], by simp, own.symm⟩
        | cons d last =>
          refine absurd ⟨Nat.le_add_right _ _, ?_⟩ here
          have size := d.utf8Size_pos
          simp only [Spanned.stop, Text.byteLength_append, Text.byteLength_cons]
          omega
    rw [Text.byteLength_append, ← Nat.add_assoc] at outside
    exact h.blank between c after rfl outside

end AccountsFor

theorem Cut.accountsFor (cut : Cut dialect position text tokens) :
    AccountsFor dialect position text tokens := by
  induction cut with
  | nil position => exact .nil dialect position
  | blank blank _ ih => exact ih.cons blank
  | token written ends _ ih => exact ih.append written ends

theorem closes_quote (rest : Text) : Closes ('"' :: rest) := ⟨[], [], rest, .nil, rfl⟩

theorem closes_escaped : Closes ('\\' :: c :: text) ↔ Closes text := by
  constructor
  · rintro ⟨interior, name, rest, means, same⟩
    cases means with
    | nil => cases same
    | plain _ noBackslash => exact absurd (List.cons.inj same).1.symm noBackslash
    | escaped d more =>
      cases same
      exact ⟨_, _, rest, more, rfl⟩
  · rintro ⟨interior, name, rest, means, rfl⟩
    exact ⟨_, _, rest, .escaped c means, rfl⟩

theorem closes_plain (noQuote : c ≠ '"') (noBackslash : c ≠ '\\') :
    Closes (c :: text) ↔ Closes text := by
  constructor
  · rintro ⟨interior, name, rest, means, same⟩
    cases means with
    | nil => exact absurd (List.cons.inj same).1 noQuote
    | plain _ _ more =>
      cases same
      exact ⟨_, _, rest, more, rfl⟩
    | escaped => exact absurd (List.cons.inj same).1 noBackslash
  · rintro ⟨interior, name, rest, means, rfl⟩
    exact ⟨_, _, rest, .plain noQuote noBackslash means, rfl⟩

theorem not_closes_nil : ¬ Closes [] := by
  rintro ⟨interior, name, rest, -, same⟩
  simp at same

theorem not_closes_backslash : ¬ Closes ['\\'] := by
  rintro ⟨interior, name, rest, means, same⟩
  cases means with
  | nil => cases same
  | plain _ noBackslash => exact noBackslash (List.cons.inj same).1.symm
  | escaped => cases same

namespace ScanState

/-- The backslash whose character is still to come. -/
def pending : ScanState → Text
  | escaping _ _ => ['\\']
  | _ => []

/-- A character in a quoted text closes it, or the reader stays in it. -/
theorem IsQuoting.step (quoting : state.IsQuoting start) (dialect : Dialect) (position : Nat)
    (c : Char) :
    ((state.step dialect position c).2 = between ∧ ∀ rest, Closes (state.pending ++ c :: rest)) ∨
    ((state.step dialect position c).2.IsQuoting start ∧ ∀ rest,
      (Closes (state.pending ++ c :: rest) ↔
        Closes ((state.step dialect position c).2.pending ++ rest))) := by
  cases state with
  | between | inWord => exact quoting.elim
  | inQuotes opened seen =>
    simp only [ScanState.step]
    split
    · next closes =>
      subst closes
      exact .inl ⟨rfl, closes_quote⟩
    next noQuote =>
    split
    · next escapes =>
      subst escapes
      exact .inr ⟨quoting, fun _ => Iff.rfl⟩
    · next noBackslash => exact .inr ⟨quoting, fun _ => closes_plain noQuote noBackslash⟩
  | escaping opened seen => exact .inr ⟨quoting, fun _ => closes_escaped⟩

/-- Outside of quoted texts, the reader enters one only at a quote. -/
theorem IsQuoting.of_step {dialect : Dialect} (outside : ∀ start, ¬ state.IsQuoting start)
    (quoting : (state.step dialect position c).2.IsQuoting start) :
    c = '"' ∧ start = position ∧ (state.step dialect position c).2.pending = [] := by
  have entered (h : (enter position c).2.IsQuoting start) :
      c = '"' ∧ start = position ∧ (enter position c).2.pending = [] := by
    unfold enter at h ⊢
    repeat' split at h
    all_goals first
      | exact h.elim
      | skip
    next noRound noSquare noRoundEnd noSquareEnd here =>
      obtain rfl : position = start := h
      subst here
      exact ⟨rfl, rfl, rfl⟩
  cases state with
  | between => exact entered quoting
  | inWord opened seen =>
    simp only [ScanState.step] at quoting ⊢
    split at quoting
    · next delimiter =>
      rw [if_pos delimiter]
      exact entered quoting
    · exact quoting.elim
  | inQuotes opened seen | escaping opened seen => exact absurd rfl (outside opened)

theorem IsQuoting.eq {start' : Nat} (quoting : state.IsQuoting start)
    (quoting' : state.IsQuoting start') : start = start' := by
  cases state with
  | between | inWord => exact quoting.elim
  | inQuotes | escaping => exact quoting.symm.trans quoting'

/-- Outside of quoted texts, the text may end. -/
theorem exists_finish (outside : ∀ start, ¬ state.IsQuoting start) (dialect : Dialect) :
    ∃ lexemes, state.finish dialect = .ok lexemes := by
  cases state with
  | between | inWord => exact ⟨_, rfl⟩
  | inQuotes opened seen | escaping opened seen => exact absurd rfl (outside opened)

end ScanState

/-- A quoted text that is never closed is an error at its first quote. -/
theorem scan_unclosed (quoting : state.IsQuoting start) (unclosed : ¬ Closes (state.pending ++ text)) :
    scan dialect state position [] text = .error start := by
  induction text generalizing state position with
  | nil =>
    cases state with
    | between | inWord => exact quoting.elim
    | inQuotes | escaping =>
      obtain rfl := quoting
      rfl
  | cons c rest ih =>
    rcases quoting.step dialect position c with ⟨-, closes⟩ | ⟨quoting, same⟩
    · exact absurd (closes rest) unclosed
    · rw [scan_cons, ih quoting (mt (same rest).mpr unclosed)]
      rfl

/-- An error is at the quote of the text that the reader is in, or at one that opens later; what is
before that one can be read. -/
theorem scan_error (failed : scan dialect state position [] text = .error start) :
    (state.IsQuoting start ∧ ¬ Closes (state.pending ++ text)) ∨
    ∃ before after lexemes, text = before ++ '"' :: after ∧ start = position + before.byteLength ∧
      scan dialect state position [] before = .ok lexemes ∧ ¬ Closes after := by
  induction text generalizing state position with
  | nil =>
    cases state with
    | between | inWord => cases failed
    | inQuotes opened seen =>
      obtain rfl : opened = start := Except.error.inj failed
      exact .inl ⟨rfl, not_closes_nil⟩
    | escaping opened seen =>
      obtain rfl : opened = start := Except.error.inj failed
      exact .inl ⟨rfl, not_closes_backslash⟩
  | cons c rest ih =>
    rw [scan_cons] at failed
    rcases ih (map_append_eq_error failed) with
      ⟨quoting, unclosed⟩ | ⟨before, after, lexemes, rfl, rfl, read, unclosed⟩
    · by_cases outside : ∀ start, ¬ state.IsQuoting start
      · obtain ⟨rfl, rfl, none⟩ := quoting.of_step outside
        obtain ⟨lexemes, read⟩ := ScanState.exists_finish outside dialect
        rw [none] at unclosed
        exact .inr ⟨[], rest, lexemes, rfl, rfl, by simp [scan, read, Except.map], unclosed⟩
      · obtain ⟨opened, inside⟩ : ∃ opened, state.IsQuoting opened := by simpa using outside
        rcases inside.step dialect position c with ⟨left, -⟩ | ⟨still, same⟩
        · rw [left] at quoting
          exact quoting.elim
        · obtain rfl := still.eq quoting
          exact .inl ⟨inside, mt (same rest).mp unclosed⟩
    · refine .inr ⟨c :: before, after, _, rfl, ?_, by rw [scan_cons, read]; rfl, unclosed⟩
      rw [Text.byteLength_cons, Nat.add_assoc]

/-- A text cannot be read exactly if a quote that opens there, behind what can be read by itself, has no
unescaped quote behind it. The error is at that quote. -/
theorem tokenize_eq_error_iff : tokenize dialect text = .error start ↔
    ∃ before after lexemes, text = before ++ '"' :: after ∧ start = before.byteLength ∧
      tokenize dialect before = .ok lexemes ∧ ¬ Closes after := by
  constructor
  · intro failed
    rcases scan_error failed with ⟨quoting, -⟩ | ⟨before, after, lexemes, rfl, rfl, read, unclosed⟩
    · exact quoting.elim
    · exact ⟨before, after, lexemes, rfl, Nat.zero_add _, read, unclosed⟩
  · rintro ⟨before, after, lexemes, rfl, rfl, read, unclosed⟩
    have ends : Delimited ('"' :: after) := delimited_cons.mpr rfl
    obtain ⟨own, -, together⟩ := scan_append .between read ends
    rw [tokenize, together, Nat.zero_add]
    have opens : ScanState.between.step dialect before.byteLength '"' =
        ([], .inQuotes before.byteLength []) := rfl
    have inside : (ScanState.inQuotes before.byteLength []).IsQuoting before.byteLength := rfl
    rw [scan_cons, opens, scan_unclosed inside unclosed]
    rfl

/-- Reading a text drops nothing and reads nothing twice: the tokens account for all of it. Only a quote
that opens and is never closed makes it fail, and the error is where that quote stands. -/
theorem tokens_account_for_text (dialect : Dialect) (text : Text) :
    (∀ lexemes, tokenize dialect text = .ok lexemes → ∃ tokens,
      tokens.map Spanned.lexeme = lexemes ∧ AccountsFor dialect 0 text tokens) ∧
    ∀ start, tokenize dialect text = .error start ↔
      ∃ before after lexemes, text = before ++ '"' :: after ∧ start = before.byteLength ∧
        tokenize dialect before = .ok lexemes ∧ ¬ Closes after := by
  refine ⟨fun lexemes read => ?_, fun start => tokenize_eq_error_iff⟩
  have nothing : ScanState.between.Holds 0 [] := rfl
  obtain ⟨tokens, same, cut⟩ := scan_cut nothing read
  exact ⟨tokens, same, cut.accountsFor⟩

/-- Escapes and characters of several bytes, and an escaped quote at the end. -/
theorem tokens_account_for_text_of_escapes :
    (∃ tokens, tokens.map Spanned.lexeme = [⟨.word "é".toList, 0⟩, ⟨.opening .square, 3⟩,
        ⟨.quoted "a\"ü".toList, 4⟩, ⟨.closing .square, 11⟩, ⟨.not, 13⟩] ∧
      AccountsFor {} 0 "é [\"a\\\"ü\"] NOT".toList tokens) ∧
    tokenize {} "é \"a\\\"".toList = .error 3 := by
  refine ⟨(tokens_account_for_text {} _).1 _ rfl, ?_⟩
  have unclosed : ¬ Closes "a\\\"".toList :=
    mt (closes_plain (by decide) (by decide)).mp (mt closes_escaped.mp not_closes_nil)
  exact ((tokens_account_for_text {} _).2 3).mpr ⟨"é ".toList, _, _, rfl, rfl, rfl, unclosed⟩

end TagQuery.Query
