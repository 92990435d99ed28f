import TagQuery.Proofs.Reader
import TagQuery.Toml.Quoting

/-! Quoted text is read as the text that was quoted. Main steps: a text between quotes is spelled piece
by piece, with a bound on the quotes that stand next to each other; each form spells its text so; and
text so spelled is read up to the closing quotes, one or three of them. -/
namespace TagQuery.Toml

open Reader

/-- A text as it is written between quotes: each of its characters is a quote that stands as it is, or
is read as one piece. At most `most` quotes stand next to each other; `quotes` of them are right in
front. -/
inductive Spelled (piece : Char → Reader Text) (q : Char) (most : Nat) : Nat → Text → Text → Prop
  | nil (quotes : Nat) : Spelled piece q most quotes [] []
  | quote {quotes : Nat} {written t : Text} (few : quotes < most)
      (more : Spelled piece q most (quotes + 1) written t) :
      Spelled piece q most quotes (q :: written) (q :: t)
  | char {quotes : Nat} {c d : Char} {own written t : Text} (other : c ≠ q)
      (reads : ∀ rest, (piece c).read (own ++ rest) = some ([d], rest))
      (more : Spelled piece q most 0 written t) :
      Spelled piece q most quotes (c :: (own ++ written)) (d :: t)

variable {piece : Char → Reader Text} {q c : Char} {most quotes : Nat} {written t found rest : Text}

theorem Spelled.untilFrom_closing (h : Spelled piece q 0 quotes written t) (found rest : Text) :
    untilFrom (closing q) piece found (written ++ q :: rest) = some (found.reverse ++ t, rest) := by
  induction h generalizing found with
  | nil quotes =>
    have closes : (closing q).read (q :: rest) = some ([], rest) := by simp [closing]
    exact untilFrom_stop closes
  | quote few => exact absurd few (Nat.not_lt_zero _)
  | @char quotes c d own written t other reads more ih =>
    have goesOn : (closing q).read (c :: (own ++ (written ++ q :: rest))) = none := by
      simp [closing, other]
    rw [List.cons_append, List.append_assoc, untilFrom_piece goesOn (reads _), ih]
    simp

/-- Three quotes close, with up to two in front of them. -/
theorem read_closingLines (quotes : Nat) (few : quotes ≤ 2) (ends : ∀ c ∈ rest.head?, c ≠ q) :
    (closingLines q).read (List.replicate quotes q ++ q :: q :: q :: rest) =
      some (List.replicate quotes q, rest) := by
  have three (u : Text) : (exactly [q, q, q]).read (q :: q :: q :: u) = some ((), u) :=
    read_exactly_append [q, q, q] u
  have no_more : (optional (Reader.char q)).read rest = some (none, rest) :=
    read_optional_none (read_char_none ends)
  have one_more (u : Text) : (optional (Reader.char q)).read (q :: u) = some (some (), u) :=
    read_optional_some (by simp)
  match quotes, few with
  | 0, _ => simp [closingLines, three, no_more]
  | 1, _ => simp [closingLines, three, one_more, no_more]
  | 2, _ => simp [closingLines, three, one_more]

theorem read_closingLines_none (short : ¬ [q, q, q] <+: t) : (closingLines q).read t = none := by
  simp [closingLines, read_exactly_none short]

theorem Spelled.untilFrom_closingLines (plain : ∀ rest, (piece q).read rest = some ([q], rest))
    (h : Spelled piece q 2 quotes written t) (found : Text) (ends : ∀ c ∈ rest.head?, c ≠ q) :
    untilFrom (closingLines q) piece found (written ++ q :: q :: q :: rest) =
      some (found.reverse ++ t, rest) := by
  induction h generalizing found with
  | nil quotes => exact untilFrom_stop (read_closingLines 0 (Nat.zero_le 2) ends)
  | @char quotes c d own written t other reads more ih =>
    have short : ¬ [q, q, q] <+: c :: (own ++ (written ++ q :: q :: q :: rest)) := fun h =>
      other (List.cons_prefix_cons.mp h).1.symm
    rw [List.cons_append, List.append_assoc,
      untilFrom_piece (read_closingLines_none short) (reads _), ih]
    simp
  | @quote quotes written t few more ih =>
    have goOn (short : ¬ [q, q, q] <+: q :: (written ++ q :: q :: q :: rest)) :
        untilFrom (closingLines q) piece found (q :: (written ++ q :: q :: q :: rest)) =
          some (found.reverse ++ q :: t, rest) := by
      rw [untilFrom_piece (read_closingLines_none short) (plain _), ih]
      simp
    -- Whether the quotes are closing ones depends on up to two characters behind the first.
    cases more with
    | nil => exact untilFrom_stop (read_closingLines 1 (by decide) ends)
    | char other reads more =>
      refine goOn fun h => other ?_
      exact (List.cons_prefix_cons.mp (List.cons_prefix_cons.mp h).2).1.symm
    | quote few' more' =>
      cases more' with
      | nil => exact untilFrom_stop (read_closingLines 2 (by decide) ends)
      | quote few'' => omega
      | char other reads more =>
        refine goOn fun h => other ?_
        have behind := (List.cons_prefix_cons.mp (List.cons_prefix_cons.mp h).2).2
        exact (List.cons_prefix_cons.mp behind).1.symm

def basicPieces (lines : Bool) : Char → Reader Text := if lines then basicLinesPiece else basicPiece

theorem read_basicPieces_plain (lines : Bool) (plain : isPlain c = true) (noBackslash : c ≠ '\\') :
    (basicPieces lines c).read rest = some ([c], rest) := by
  have noReturn : c ≠ '\r' := ne_of_test plain (by decide)
  have noFeed : c ≠ '\n' := ne_of_test plain (by decide)
  cases lines with
  | false => simp [basicPieces, basicPiece, noBackslash, plain]
  | true =>
    simp [basicPieces, basicLinesPiece, linesPiece, basicPiece, noBackslash, plain, noReturn, noFeed]

/-- Behind a backslash stands an escape, where it does not break the line. -/
theorem read_basicPieces_escape (lines : Bool) {x : Char} {t : Text}
    (visible : isSpace x = false) (noLine : x ≠ '\n' ∧ x ≠ '\r')
    (reads : escape.read (x :: t) = some (c, rest)) :
    (basicPieces lines '\\').read (x :: t) = some ([c], rest) := by
  cases lines with
  | false => simp [basicPieces, basicPiece, reads]
  | true =>
    have unbroken : brokenLine.read (x :: t) = none := by
      simp [brokenLine, lineEnd, exactly, visible, noLine]
    simp [basicPieces, basicLinesPiece, linesPiece, basicPiece, unbroken, reads]

theorem toNat_lt_of_not_isPlain (control : ¬ isPlain c = true) : c.toNat < 128 := by
  simp only [isPlain, Bool.or_eq_true, Bool.and_eq_true, decide_eq_true_eq] at control
  omega

/-- A control character by its number. -/
theorem read_escape_controlDigits (control : c.toNat < 128) :
    escape.read ('u' :: (controlDigits c ++ rest)) = some (c, rest) := by
  have digits : ∀ n < 128, Text.isHexDigit (Nat.digitChar (n / 16)) = true ∧
      Text.isHexDigit (Nat.digitChar (n % 16)).toUpper = true ∧
      Text.ofDigits 16 ['0', '0', Nat.digitChar (n / 16), (Nat.digitChar (n % 16)).toUpper] = n := by
    decide
  obtain ⟨high, low, value⟩ := digits c.toNat control
  have zero : Text.isHexDigit '0' = true := by decide
  have valid : c.toNat.isValidChar := c.valid
  have named : Text.character? c.toNat = some c := by
    rw [Text.character?, if_pos valid, Char.ofNat_toNat]
  simp [escape, escape.named, exactlyMany, controlDigits, zero, high, low, value, named, ofOption]

/-- A character that stands for itself. -/
theorem Spelled.itself (other : c ≠ q) (reads : ∀ rest, (piece c).read rest = some ([c], rest))
    (more : Spelled piece q most 0 written t) :
    Spelled piece q most quotes (c :: written) (c :: t) :=
  @Spelled.char piece q most quotes c c [] written t other reads more

/-- A character that stands behind a backslash, as `x` and what belongs to it. -/
theorem Spelled.escaped {lines : Bool} (x : Char) (own : Text)
    (visible : isSpace x = false ∧ x ≠ '\n' ∧ x ≠ '\r')
    (reads : ∀ rest, escape.read (x :: (own ++ rest)) = some (c, rest))
    (more : Spelled (basicPieces lines) '"' most 0 written t) :
    Spelled (basicPieces lines) '"' most quotes ('\\' :: (x :: own ++ written)) (c :: t) :=
  .char (by decide) (fun _ => read_basicPieces_escape lines visible.1 visible.2 (reads _)) more

theorem Spelled.basicChar {lines : Bool} (other : c ≠ '"')
    (more : Spelled (basicPieces lines) '"' most 0 written t) :
    Spelled (basicPieces lines) '"' most quotes (Toml.basicChar lines c ++ written) (c :: t) := by
  unfold Toml.basicChar
  split
  · next here =>
    subst here
    exact .escaped 'b' [] (by decide) (fun _ => rfl) more
  split
  · next here =>
    subst here
    exact .escaped 't' [] (by decide) (fun _ => rfl) more
  split
  · next here =>
    subst here
    cases lines with
    | false => exact .escaped 'n' [] (by decide) (fun _ => rfl) more
    | true => exact .itself (by decide) (fun _ => rfl) more
  split
  · next here =>
    subst here
    exact .escaped 'f' [] (by decide) (fun _ => rfl) more
  split
  · next here =>
    subst here
    exact .escaped 'r' [] (by decide) (fun _ => rfl) more
  split
  · next here =>
    subst here
    exact .escaped '\\' [] (by decide) (fun _ => rfl) more
  next noBackslash =>
  split
  · next plain => exact .itself other (fun _ => read_basicPieces_plain lines plain noBackslash) more
  · next control =>
    have low := toNat_lt_of_not_isPlain control
    exact .escaped 'u' (controlDigits c) (by decide) (fun _ => read_escape_controlDigits low) more

theorem Spelled.basicText (lines : Bool) (most quotes : Nat) (t : Text) :
    Spelled (basicPieces lines) '"' most quotes (Toml.basicText lines most quotes t) t := by
  induction t generalizing quotes with
  | nil => exact .nil quotes
  | cons c t ih =>
    unfold Toml.basicText
    split
    · next here =>
      subst here
      split
      · next few => exact .quote few (ih _)
      · next many => exact .escaped '"' [] (by decide) (fun _ => rfl) (ih 0)
    · next other => exact .basicChar other (ih 0)

/-- The longest run of a character, behind some of it. -/
def runFrom (q : Char) (now most : Nat) (t : Text) : Nat :=
  (t.foldl (fun (now, most) c => if c = q then (now + 1, max most (now + 1)) else (0, most))
    (now, most)).2

theorem runFrom_cons (q : Char) (now most : Nat) (c : Char) (t : Text) :
    runFrom q now most (c :: t) =
      if c = q then runFrom q (now + 1) (max most (now + 1)) t else runFrom q 0 most t := by
  simp only [runFrom, List.foldl_cons]
  split <;> rfl

theorem le_runFrom (q : Char) (now most : Nat) (t : Text) : most ≤ runFrom q now most t := by
  induction t generalizing now most with
  | nil => exact Nat.le_refl _
  | cons c t ih =>
    rw [runFrom_cons]
    split
    · exact Nat.le_trans (Nat.le_max_left _ _) (ih _ _)
    · exact ih _ _

theorem runFrom_eq (absent : q ∉ t) (now most : Nat) : runFrom q now most t = most := by
  induction t generalizing now with
  | nil => rfl
  | cons c t ih =>
    obtain ⟨other, further⟩ := not_or.mp (mt List.mem_cons.mpr absent)
    rw [runFrom_cons, if_neg (Ne.symm other), ih further]

/-- A text without too long a run of quotes spells itself, where its characters are pieces. -/
theorem Spelled.self {now longest : Nat}
    (pieces : ∀ c ∈ t, c ≠ q → ∀ rest, (piece c).read rest = some ([c], rest))
    (short : runFrom q now longest t ≤ most) : Spelled piece q most now t t := by
  induction t generalizing now longest with
  | nil => exact .nil now
  | cons c t ih =>
    obtain ⟨here, others⟩ := List.forall_mem_cons.mp pieces
    rw [runFrom_cons] at short
    split at short
    · next same =>
      subst same
      have few : max longest (now + 1) ≤ most := Nat.le_trans (le_runFrom c _ _ t) short
      exact .quote (by omega) (ih others short)
    · next other => exact .itself other (here other) (ih others short)

namespace Quoting

def char : Quoting → Char
  | basic => '"'
  | literal => '\''
  | basicLines => '"'
  | literalLines => '\''

/-- The most quotes that stand next to each other between the quotes of a form. -/
def adjacent : Quoting → Nat
  | basic => 0
  | literal => 0
  | basicLines => 2
  | literalLines => 2

/-- The pieces of which a text in a form is read. -/
def pieces : Quoting → Char → Reader Text
  | basic => basicPiece
  | literal => literalPiece
  | basicLines => basicLinesPiece
  | literalLines => linesPiece literalPiece

/-- The quotes of a form around what is written; if this goes over several lines, it begins on a line of
its own. -/
def around (quoting : Quoting) (written : Text) : Text :=
  match quoting with
  | basic => ['"'] ++ written ++ ['"']
  | literal => ['\''] ++ written ++ ['\'']
  | basicLines => ['"', '"', '"'] ++ (lineFeed written ++ written) ++ ['"', '"', '"']
  | literalLines => ['\'', '\'', '\''] ++ (lineFeed written ++ written) ++ ['\'', '\'', '\'']

end Quoting

def Unquoted (rest : Text) : Prop := ∀ c ∈ rest.head?, c ≠ '"' ∧ c ≠ '\''

/-- Quoted text on one line does not look like quoted text over several lines. -/
theorem Spelled.not_three (h : Spelled piece q 0 quotes written t) (ends : ∀ c ∈ rest.head?, c ≠ q) :
    ¬ [q, q, q] <+: q :: (written ++ q :: rest) := by
  intro looks
  have behind := (List.cons_prefix_cons.mp looks).2
  cases h with
  | nil =>
    have third := (List.cons_prefix_cons.mp behind).2
    cases rest with
    | nil => cases List.prefix_nil.mp third
    | cons c rest => exact ends c rfl (List.cons_prefix_cons.mp third).1.symm
  | quote few => exact absurd few (Nat.not_lt_zero _)
  | char other => exact other (List.cons_prefix_cons.mp behind).1.symm

/-- No line ends right here if no line feed is near. -/
theorem read_lineEnd_none (noFeed : '\n' ∉ t.take 2) : lineEnd.read t = none := by
  have first : ∀ d ∈ t.head?, d ≠ '\n' := by
    rintro d here rfl
    obtain ⟨u, rfl⟩ := List.head?_eq_some_iff.mp here
    exact noFeed List.mem_cons_self
  have second : ¬ ['\r', '\n'] <+: t := by
    rintro ⟨u, rfl⟩
    exact noFeed (by simp)
  simp [lineEnd, read_char_none first, read_exactly_none second]

/-- The body of a form that may go over several lines. -/
theorem Spelled.read_linesBody (h : Spelled piece q 2 0 written t)
    (plain : ∀ rest, (piece q).read rest = some ([q], rest)) (ends : ∀ c ∈ rest.head?, c ≠ q)
    (noFeed : q ≠ '\n') :
    (linesBody q piece).read (lineFeed written ++ (written ++ q :: q :: q :: rest)) =
      some (t, rest) := by
  have body := h.untilFrom_closingLines plain [] ends
  unfold lineFeed
  split
  · have dropped (u : Text) : (optional lineEnd).read ('\n' :: u) = some (some (), u) :=
      read_optional_some (by simp [lineEnd])
    simp [linesBody, dropped, untilStop, body]
  · next oneLine =>
    have near : '\n' ∉ (written ++ q :: q :: q :: rest).take 2 := by
      have other : '\n' ≠ q := Ne.symm noFeed
      simp only [List.contains_iff_mem] at oneLine
      rcases written with _ | ⟨c, _ | ⟨d, written⟩⟩ <;> simp_all
    have kept := read_optional_none (read_lineEnd_none near)
    simp [linesBody, kept, untilStop, body]

theorem read_quotedLines_none (noDouble : ¬ ['"', '"', '"'] <+: t)
    (noSingle : ¬ ['\'', '\'', '\''] <+: t) : quotedLines.read t = none := by
  simp [quotedLines, Quoting.mark, read_exactly_none noDouble, read_exactly_none noSingle]

/-- Text that is spelled between the quotes of a form is read, where no other quote comes next. -/
theorem Quoting.read_around (quoting : Quoting)
    (h : Spelled quoting.pieces quoting.char quoting.adjacent 0 written t) (ends : Unquoted rest) :
    quotedText.read (quoting.around written ++ rest) = some (t, rest) := by
  have noDouble : ∀ c ∈ rest.head?, c ≠ '"' := fun c here => (ends c here).1
  have noSingle : ∀ c ∈ rest.head?, c ≠ '\'' := fun c here => (ends c here).2
  cases quoting with
  | basic =>
    have body : untilFrom (closing '"') basicPiece [] (written ++ '"' :: rest) = some (t, rest) :=
      h.untilFrom_closing [] rest
    have noLines : quotedLines.read ('"' :: (written ++ '"' :: rest)) = none :=
      read_quotedLines_none (h.not_three noDouble) (by simp)
    simp [quotedText, around, noLines, quotedLine, untilStop, body]
  | literal =>
    have body : untilFrom (closing '\'') literalPiece [] (written ++ '\'' :: rest) = some (t, rest) :=
      h.untilFrom_closing [] rest
    have noLines : quotedLines.read ('\'' :: (written ++ '\'' :: rest)) = none :=
      read_quotedLines_none (by simp) (h.not_three noSingle)
    simp [quotedText, around, noLines, quotedLine, untilStop, body]
  | basicLines =>
    have body : (linesBody '"' basicLinesPiece).read
        (lineFeed written ++ (written ++ '"' :: '"' :: '"' :: rest)) = some (t, rest) :=
      h.read_linesBody (fun _ => rfl) noDouble (by decide)
    simp [quotedText, quotedLines, around, mark, exactly, body]
  | literalLines =>
    have body : (linesBody '\'' (linesPiece literalPiece)).read
        (lineFeed written ++ (written ++ '\'' :: '\'' :: '\'' :: rest)) = some (t, rest) :=
      h.read_linesBody (fun _ => rfl) noSingle (by decide)
    simp [quotedText, quotedLines, around, mark, exactly, body]

/-- Whether a form shows a text as it is, so that no character needs an escape. -/
def Quoting.Verbatim (t : Text) : Quoting → Prop
  | basic => hasControl t = false ∧ '\n' ∉ t ∧ '"' ∉ t ∧ '\\' ∉ t
  | literal => hasControl t = false ∧ '\n' ∉ t ∧ '\'' ∉ t
  | basicLines => hasControl t = false ∧ longestRun '"' t ≤ 2 ∧ '\\' ∉ t
  | literalLines => hasControl t = false ∧ longestRun '\'' t ≤ 2

theorem isPlain_of_mem (shown : hasControl t = false) (here : c ∈ t) (noFeed : c ≠ '\n') :
    isPlain c = true := by
  simp only [hasControl, List.any_eq_false, Bool.and_eq_true, not_and, decide_eq_true_eq] at shown
  have := shown c here
  simp_all

theorem read_literalPiece (plain : isPlain c = true) :
    (literalPiece c).read rest = some ([c], rest) := by
  rw [literalPiece, if_pos plain, read_pure]

theorem read_linesPiece_plain (plain : isPlain c = true) (noFeed : c ≠ '\n') :
    (linesPiece piece c).read rest = (piece c).read rest := by
  have noReturn : c ≠ '\r' := ne_of_test plain (by decide)
  rw [linesPiece, if_neg noFeed, if_neg noReturn]

theorem Quoting.Verbatim.spelled {quoting : Quoting} (h : quoting.Verbatim t) :
    Spelled quoting.pieces quoting.char quoting.adjacent 0 t t := by
  cases quoting with
  | basic =>
    obtain ⟨shown, oneLine, noQuote, noBackslash⟩ := h
    refine Spelled.self (fun c here _ rest => ?_) (Nat.le_of_eq (runFrom_eq noQuote 0 0))
    exact read_basicPieces_plain false (isPlain_of_mem shown here (ne_of_mem_of_not_mem here oneLine))
      (ne_of_mem_of_not_mem here noBackslash)
  | literal =>
    obtain ⟨shown, oneLine, noQuote⟩ := h
    refine Spelled.self (fun c here _ rest => ?_) (Nat.le_of_eq (runFrom_eq noQuote 0 0))
    exact read_literalPiece (isPlain_of_mem shown here (ne_of_mem_of_not_mem here oneLine))
  | basicLines =>
    obtain ⟨shown, few, noBackslash⟩ := h
    refine Spelled.self (fun c here _ rest => ?_) few
    by_cases feed : c = '\n'
    · subst feed
      rfl
    · exact read_basicPieces_plain true (isPlain_of_mem shown here feed)
        (ne_of_mem_of_not_mem here noBackslash)
  | literalLines =>
    obtain ⟨shown, few⟩ := h
    refine Spelled.self (fun c here _ rest => ?_) few
    by_cases feed : c = '\n'
    · subst feed
      rfl
    · have plain := isPlain_of_mem shown here feed
      exact (read_linesPiece_plain plain feed).trans (read_literalPiece plain)

/-- Between the quotes of such a form, the text is read as itself. -/
theorem Quoting.Verbatim.whole_around {quoting : Quoting} (h : quoting.Verbatim t) :
    quotedText.whole (quoting.around t) = some t := by
  have reads : quotedText.read (quoting.around t ++ []) = some (t, []) :=
    quoting.read_around h.spelled nofun
  rw [List.append_nil] at reads
  rw [whole, reads]

/-- What a form writes between its quotes. -/
def Quoting.content (t : Text) : Quoting → Text
  | basic => basicText false 0 0 t
  | literal => t
  | basicLines => basicText true 2 0 t
  | literalLines => t

theorem feed_mem_basicChar_iff : '\n' ∈ basicChar true c ↔ c = '\n' := by
  by_cases feed : c = '\n'
  · subst feed
    decide
  · refine iff_of_false (fun bad => ?_) feed
    unfold basicChar at bad
    rw [if_neg feed] at bad
    iterate 5
      split at bad
      · exact absurd bad (by decide)
    split at bad
    · exact feed (List.mem_singleton.mp bad).symm
    · next control =>
      have numbers : ∀ n < 128, '\n' ∉ "\\u".toList ++
          ['0', '0', Nat.digitChar (n / 16), (Nat.digitChar (n % 16)).toUpper] := by decide
      exact numbers c.toNat (toNat_lt_of_not_isPlain control) bad

theorem feed_mem_basicText_iff {most quotes : Nat} :
    '\n' ∈ basicText true most quotes t ↔ '\n' ∈ t := by
  induction t generalizing quotes with
  | nil => rfl
  | cons c t ih =>
    rw [basicText]
    split
    · next quote =>
      subst quote
      split <;> simp [ih]
    · rw [List.mem_append, feed_mem_basicChar_iff, ih, List.mem_cons, eq_comm]

/-- Escapes neither make nor hide a line feed. -/
theorem lineFeed_basicText (t : Text) : lineFeed (basicText true 2 0 t) = lineFeed t := by
  simp only [lineFeed, List.contains_iff_mem, feed_mem_basicText_iff]

theorem Quoting.write_eq_around (quoting : Quoting) (t : Text) :
    quoting.write t = quoting.around (quoting.content t) := by
  cases quoting <;> simp [write, around, content, mark, lineFeed_basicText]

/-- The form in which a text is written can hold it. -/
theorem Quoting.spelled_best (t : Text) :
    Spelled (best t).pieces (best t).char (best t).adjacent 0 ((best t).content t) t := by
  have basicForm : Spelled basicPiece '"' 0 0 (basicText false 0 0 t) t := .basicText false 0 0 t
  have basicLinesForm : Spelled basicLinesPiece '"' 2 0 (basicText true 2 0 t) t :=
    .basicText true 2 0 t
  unfold best
  split
  · split
    · exact basicLinesForm
    · exact basicForm
  next shown =>
  have shown := Bool.eq_false_iff.mpr shown
  split
  · exact basicForm
  split
  · next noQuote =>
    simp only [Bool.and_eq_true, Bool.not_eq_true', List.contains_eq_mem, decide_eq_false_iff_not]
      at noQuote
    have verbatim : literal.Verbatim t := ⟨shown, noQuote.2, noQuote.1⟩
    exact verbatim.spelled
  split
  · exact basicLinesForm
  split
  · next few =>
    have verbatim : literalLines.Verbatim t := ⟨shown, few⟩
    exact verbatim.spelled
  · split
    · exact basicLinesForm
    · exact basicForm

theorem read_quote (t : Text) (ends : Unquoted rest) :
    quotedText.read (quote t ++ rest) = some (t, rest) := by
  rw [quote, Quoting.write_eq_around]
  exact Quoting.read_around _ (Quoting.spelled_best t) ends

theorem quote_head (t : Text) : ∃ q u, (q = '"' ∨ q = '\'') ∧ quote t = q :: u := by
  unfold quote Quoting.write
  cases Quoting.best t with
  | basic => exact ⟨_, _, .inl rfl, rfl⟩
  | literal => exact ⟨_, _, .inr rfl, rfl⟩
  | basicLines => exact ⟨_, _, .inl rfl, rfl⟩
  | literalLines => exact ⟨_, _, .inr rfl, rfl⟩

def escapeTabs (t : Text) : Text := t.flatMap fun c => if c = '\t' then ['\\', 't'] else [c]

theorem escapeTabs_cons (c : Char) (t : Text) :
    escapeTabs (c :: t) = (if c = '\t' then ['\\', 't'] else [c]) ++ escapeTabs t :=
  List.flatMap_cons

theorem basicChar_plain (lines : Bool) (plain : isPlain c = true) (noBackslash : c ≠ '\\') :
    basicChar lines c = if c = '\t' then ['\\', 't'] else [c] := by
  have noBackspace : c ≠ '\x08' := ne_of_test plain (by decide)
  have noFeed : c ≠ '\n' := ne_of_test plain (by decide)
  have noFormFeed : c ≠ '\x0c' := ne_of_test plain (by decide)
  have noReturn : c ≠ '\r' := ne_of_test plain (by decide)
  rw [basicChar, if_neg noBackspace, if_neg noFeed, if_neg noFormFeed, if_neg noReturn,
    if_neg noBackslash, if_pos plain]
  rfl

/-- A basic form escapes nothing but tabs where it has no need to. -/
theorem basicText_eq_escapeTabs {lines : Bool} {now longest : Nat} (shown : hasControl t = false)
    (noBackslash : '\\' ∉ t) (feeds : lines = false → '\n' ∉ t)
    (short : runFrom '"' now longest t ≤ most) : basicText lines most now t = escapeTabs t := by
  induction t generalizing now longest with
  | nil => rfl
  | cons c t ih =>
    have plain : c ≠ '\n' → isPlain c = true := isPlain_of_mem shown List.mem_cons_self
    have shown' : hasControl t = false := (Bool.or_eq_false_iff.mp shown).2
    have noBackslash' : '\\' ∉ t := fun h => noBackslash (List.mem_cons_of_mem c h)
    have feeds' : lines = false → '\n' ∉ t := fun one h => feeds one (List.mem_cons_of_mem c h)
    rw [runFrom_cons] at short
    rw [basicText, escapeTabs_cons]
    split at short
    · next here =>
      subst here
      have few : now < most := by
        have := Nat.le_trans (le_runFrom '"' _ _ t) short
        omega
      rw [if_pos rfl, if_pos few, ih shown' noBackslash' feeds' short]
      rfl
    · next other =>
      have own : basicChar lines c = if c = '\t' then ['\\', 't'] else [c] := by
        by_cases feed : c = '\n'
        · subst feed
          cases lines with
          | false => exact absurd List.mem_cons_self (feeds rfl)
          | true => rfl
        · exact basicChar_plain lines (plain feed) fun h => noBackslash (h ▸ List.mem_cons_self)
      rw [if_neg other, own, ih shown' noBackslash' feeds' short]

/-- Where a form needs no escapes, such a form is chosen. -/
theorem Quoting.best_verbatim {quoting : Quoting} (h : quoting.Verbatim t) : (best t).Verbatim t := by
  have shown : hasControl t = false := by cases quoting <;> exact h.1
  unfold best
  rw [if_neg (by simp [shown])]
  simp only [List.contains_eq_mem, Bool.and_eq_true, Bool.not_eq_true', decide_eq_false_iff_not,
    decide_eq_true_eq]
  split
  · next asBasic => exact ⟨shown, asBasic.2, asBasic.1.2, asBasic.1.1⟩
  next notBasic =>
  split
  · next asLiteral => exact ⟨shown, asLiteral.2, asLiteral.1⟩
  next notLiteral =>
  split
  · next asBasicLines => exact ⟨shown, asBasicLines.2, asBasicLines.1⟩
  next notBasicLines =>
  split
  · next asLiteralLines => exact ⟨shown, asLiteralLines⟩
  next notLiteralLines =>
  cases quoting with
  | basic => exact absurd ⟨⟨h.2.2.2, h.2.2.1⟩, h.2.1⟩ notBasic
  | literal => exact absurd ⟨h.2.2, h.2.1⟩ notLiteral
  | basicLines => exact absurd ⟨h.2.2, h.2.1⟩ notBasicLines
  | literalLines => exact absurd h.2 notLiteralLines

theorem Quoting.Verbatim.content_eq {quoting : Quoting} (h : quoting.Verbatim t) :
    quoting.content t = t ∨ quoting.content t = escapeTabs t := by
  cases quoting with
  | basic =>
    obtain ⟨shown, oneLine, noQuote, noBackslash⟩ := h
    have short : runFrom '"' 0 0 t ≤ 0 := Nat.le_of_eq (runFrom_eq noQuote 0 0)
    exact .inr (basicText_eq_escapeTabs shown noBackslash (fun _ => oneLine) short)
  | literal => exact .inl rfl
  | basicLines =>
    obtain ⟨shown, few, noBackslash⟩ := h
    exact .inr (basicText_eq_escapeTabs shown noBackslash nofun few)
  | literalLines => exact .inl rfl

/-- A text is written as it is, but perhaps for its tabs, where some form shows it so. -/
theorem quote_of_verbatim {quoting : Quoting} (h : quoting.Verbatim t) :
    quote t = (Quoting.best t).around t ∨ quote t = (Quoting.best t).around (escapeTabs t) := by
  rw [quote, Quoting.write_eq_around]
  rcases (Quoting.best_verbatim h).content_eq with asItIs | tabsApart
  · exact .inl (congrArg _ asItIs)
  · exact .inr (congrArg _ tabsApart)

end TagQuery.Toml
