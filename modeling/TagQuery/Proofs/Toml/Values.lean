import TagQuery.Proofs.Toml.Quoting
import TagQuery.Toml.Printer
import TagQuery.Toml.Statement

/-! The values that are written are read again. Main steps: digits up to the end of a line are neither a
time nor a number with a fraction, and are the number that they write; and an array is read element by
element, with the blanks and ends of lines between its elements. -/
namespace TagQuery.Toml

open Reader

variable {t rest : Text} {c : Char}

theorem isDigit_decimal (n : Nat) : ∀ c ∈ Text.decimal n, c.isDigit = true := fun _ here =>
  Nat.isDigit_of_mem_toDigits (by decide) (by decide) here

theorem decimal_ne_nil (n : Nat) : Text.decimal n ≠ [] := Nat.toDigits_ne_nil

theorem digitValue_of_isDigit (h : c.isDigit = true) : Text.digitValue c = c.toNat - '0'.toNat := by
  have bound : c.toNat ≤ 57 := by
    simp only [Char.isDigit, Bool.and_eq_true, decide_eq_true_eq] at h
    exact h.2
  rw [Text.digitValue, if_pos bound]
  rfl

theorem foldl_digits {digits : Text} (all : ∀ c ∈ digits, c.isDigit = true) (n : Nat) :
    digits.foldl (fun n c => n * 10 + Text.digitValue c) n = Nat.ofDigitChars 10 digits n := by
  induction digits generalizing n with
  | nil => rfl
  | cons c digits ih =>
    obtain ⟨digit, others⟩ := List.forall_mem_cons.mp all
    rw [List.foldl_cons, Nat.ofDigitChars_cons, digitValue_of_isDigit digit, Nat.mul_comm, ih others]

theorem ofDigits_decimal (n : Nat) : Text.ofDigits 10 (Text.decimal n) = n :=
  (foldl_digits (isDigit_decimal n) 0).trans (Nat.ofDigitChars_toDigits (by decide) (by decide))

/-- Only zero begins with a zero. -/
theorem eq_zero_of_head_decimal (n : Nat) (zero : (Text.decimal n).head? = some '0') : n = 0 := by
  induction n using Nat.strongRecOn with
  | ind n ih =>
    by_cases small : n < 10
    · have only : ∀ n < 10, (Text.decimal n).head? = some '0' → n = 0 := by decide
      exact only n small zero
    · have shorter : Text.decimal n = Text.decimal (n / 10) ++ [Nat.digitChar (n % 10)] :=
        Nat.toDigits_of_base_le (by decide) (by omega)
      rw [shorter, List.head?_append, Option.or_of_isSome (by simp [decimal_ne_nil])] at zero
      have := ih (n / 10) (by omega) zero
      omega

/-- Digits, and then the end of the line. -/
inductive DigitsLine : Text → Prop
  | feed (rest : Text) : DigitsLine ('\n' :: rest)
  | digit {c : Char} {t : Text} (digit : c.isDigit = true) (more : DigitsLine t) : DigitsLine (c :: t)

theorem DigitsLine.append {digits : Text} (all : ∀ c ∈ digits, c.isDigit = true) (rest : Text) :
    DigitsLine (digits ++ '\n' :: rest) := by
  induction digits with
  | nil => exact .feed rest
  | cons c digits ih =>
    obtain ⟨digit, others⟩ := List.forall_mem_cons.mp all
    exact .digit digit (ih others)

/-- What comes next is a digit or the end of the line. -/
theorem DigitsLine.head (h : DigitsLine t) : ∀ c ∈ t.head?, c.isDigit = true ∨ c = '\n' := by
  intro c here
  cases h with
  | feed =>
    cases here
    exact .inr rfl
  | digit digit =>
    cases here
    exact .inl digit

theorem DigitsLine.ne_head (h : DigitsLine t) (other : c.isDigit = false ∧ c ≠ '\n') :
    ∀ d ∈ t.head?, d ≠ c := by
  intro d here
  rcases h.head d here with digit | rfl
  · exact ne_of_test digit other.1
  · exact Ne.symm other.2

theorem DigitsLine.read_char (h : DigitsLine t) (other : c.isDigit = false ∧ c ≠ '\n') :
    (Reader.char c).read t = none := read_char_none (h.ne_head other)

/-- Digits that are taken off leave digits up to the end of the line. -/
theorem DigitsLine.exactlyMany (h : DigitsLine t) {n : Nat} {digits : Text}
    (reads : (Reader.exactlyMany Char.isDigit n).read t = some (digits, rest)) : DigitsLine rest := by
  induction n generalizing t digits with
  | zero =>
    cases reads
    exact h
  | succ n ih =>
    cases h with
    | feed => simp [Reader.exactlyMany] at reads
    | @digit c t digit more =>
      simp only [Reader.exactlyMany, read_bind, read_one_cons, digit, if_true, Option.bind_some,
        read_pure, Option.bind_eq_some_iff] at reads
      obtain ⟨⟨digits', rest'⟩, reads', same⟩ := reads
      cases same
      exact ih more reads'

theorem DigitsLine.twoDigits (h : DigitsLine t) {least most n : Nat}
    (reads : (twoDigits least most).read t = some (n, rest)) : DigitsLine rest := by
  simp only [Toml.twoDigits, read_bind, Option.bind_eq_some_iff] at reads
  obtain ⟨⟨digits, rest'⟩, reads', accepted⟩ := reads
  split at accepted
  · cases accepted
    exact h.exactlyMany reads'
  · cases accepted

/-- No letter comes behind the first digit. -/
theorem DigitsLine.read_exactly (h : DigitsLine t) {d : Char} (other : d.isDigit = false ∧ d ≠ '\n') :
    (exactly ['0', d]).read t = none := by
  cases h with
  | feed => simp [exactly]
  | digit digit more => simp [exactly, more.read_char other]

theorem DigitsLine.read_time (h : DigitsLine t) : time.read t = none := by
  have noDate : date.read t = none :=
    read_bind_none fun _ _ year => by
      simp [(h.exactlyMany year).read_char]
  have noTimeOfDay : timeOfDay.read t = none :=
    read_bind_none fun _ _ hour => by
      simp [(h.twoDigits hour).read_char]
  simp [time, noDate, noTimeOfDay]

theorem splitOn_of_notMem {separator : Char} (absent : separator ∉ t) : t.splitOn separator = [t] := by
  induction t with
  | nil => rfl
  | cons c t ih =>
    obtain ⟨other, further⟩ := not_or.mp (mt List.mem_cons.mpr absent)
    rw [Text.splitOn_cons, if_neg (Ne.symm other), ih further]
    rfl

theorem read_grouped_decimal (n : Nat) (rest : Text) :
    (grouped Char.isDigit).read (Text.decimal n ++ '\n' :: rest) =
      some (Text.decimal n, '\n' :: rest) := by
  have noUnderscore : '_' ∉ Text.decimal n := fun here =>
    ne_of_test (isDigit_decimal n '_' here) (by decide) rfl
  have all : ∀ c ∈ Text.decimal n, (c.isDigit || decide (c = '_')) = true := fun c here => by
    rw [isDigit_decimal n c here, Bool.true_or]
  have written : (run1 fun c => c.isDigit || c = '_').read (Text.decimal n ++ '\n' :: rest) =
      some (Text.decimal n, '\n' :: rest) := read_run1_append (decimal_ne_nil n) all (by simp)
  have noneLost : ∀ c ∈ Text.decimal n, c ≠ '_' := fun c here =>
    ne_of_mem_of_not_mem here noUnderscore
  simpa [grouped, written, splitOn_of_notMem noUnderscore, decimal_ne_nil] using noneLost

/-- The digits of a number, read at the end of a line. -/
theorem read_decimalDigits (n : Nat) (rest : Text) :
    decimalDigits.read (Text.decimal n ++ '\n' :: rest) = some (Text.decimal n, '\n' :: rest) := by
  have noNeedless : ¬ ((Text.decimal n).length ≠ 1 ∧ (Text.decimal n).head? = some '0') := by
    rintro ⟨long, zero⟩
    rw [eq_zero_of_head_decimal n zero] at long
    exact long rfl
  rw [decimalDigits, read_bind, read_grouped_decimal, Option.bind_some, if_neg noNeedless, read_pure]

theorem DigitsLine.read_sign (h : DigitsLine t) : sign.read t = some (false, t) := by
  have unsigned : (one fun c => c = '+' || c = '-').read t = none := by
    cases h with
    | feed => rfl
    | @digit c t digit more =>
      have noPlus : c ≠ '+' := ne_of_test digit (by decide)
      have noMinus : c ≠ '-' := ne_of_test digit (by decide)
      simp [noPlus, noMinus]
  simp [sign, read_optional_none unsigned]

theorem read_float_decimal (n : Nat) (rest : Text) :
    float.read (Text.decimal n ++ '\n' :: rest) = none := by
  have line : DigitsLine (Text.decimal n ++ '\n' :: rest) := .append (isDigit_decimal n) rest
  have noFraction : (optional fraction).read ('\n' :: rest) = some (none, '\n' :: rest) :=
    read_optional_none (by simp [fraction])
  have noExponent : (optional exponent).read ('\n' :: rest) = some (none, '\n' :: rest) :=
    read_optional_none (by simp [exponent])
  have noLetters (c : Char) (word : Text) (letter : c.isDigit = false ∧ c ≠ '\n') :
      (exactly (c :: word)).read (Text.decimal n ++ '\n' :: rest) = none := by
    rw [exactly, read_bind, line.read_char letter, Option.bind_none]
  have noInf := noLetters 'i' ['n', 'f'] (by decide)
  have noNan := noLetters 'n' ['a', 'n'] (by decide)
  simp [float, fractional, special, line.read_sign, read_decimalDigits, noFraction, noExponent, noInf,
    noNan]

theorem read_integer_decimal (n : Nat) (fits : (n : Int) ≤ maxInteger) (rest : Text) :
    integer.read (Text.decimal n ++ '\n' :: rest) = some (.integer n, '\n' :: rest) := by
  have line : DigitsLine (Text.decimal n ++ '\n' :: rest) := .append (isDigit_decimal n) rest
  have noBase (letter : Char) (base : Nat) (digit : Char → Bool)
      (other : letter.isDigit = false ∧ letter ≠ '\n') :
      (basedInteger letter base digit).read (Text.decimal n ++ '\n' :: rest) = none := by
    rw [basedInteger, read_bind, line.read_exactly other, Option.bind_none]
  have notLess : minInteger ≤ n := Int.le_trans (by decide) (Int.natCast_nonneg n)
  have accepted : (fitting n).read ('\n' :: rest) = some (.integer n, '\n' :: rest) := by
    rw [fitting, if_pos ⟨notLess, fits⟩, read_pure]
  simp [integer, noBase, decimalInteger, line.read_sign, read_decimalDigits, ofDigits_decimal, accepted]

theorem read_scalar_text (t : Text) (ends : Unquoted rest) :
    scalar.read (quote t ++ rest) = some (.text t, rest) := by
  obtain ⟨q, u, isQuote, written⟩ := quote_head t
  have reads := read_quote t ends
  rw [written, List.cons_append] at reads ⊢
  simp [scalar, isQuote, reads]

theorem read_scalar_truth (b : Bool) (rest : Text) :
    scalar.read (Text.truth b ++ rest) = some (.flag b, rest) := by
  cases b <;> simp [scalar, Text.truth, exactly]

theorem read_scalar_decimal (n : Nat) (fits : (n : Int) ≤ maxInteger) (rest : Text) :
    scalar.read (Text.decimal n ++ '\n' :: rest) = some (.integer n, '\n' :: rest) := by
  have line : DigitsLine (Text.decimal n ++ '\n' :: rest) := .append (isDigit_decimal n) rest
  have noTime := line.read_time
  have noFloat := read_float_decimal n rest
  have reads := read_integer_decimal n fits rest
  obtain ⟨c, digits, written⟩ := List.exists_cons_of_ne_nil (decimal_ne_nil n)
  rw [written, List.cons_append] at line noTime noFloat reads ⊢
  have noQuote : ¬ (c = '"' ∨ c = '\'') := by
    rintro (rfl | rfl) <;> exact line.ne_head (by decide) _ rfl rfl
  have noTrue : c ≠ 't' := line.ne_head (by decide) c rfl
  have noFalse : c ≠ 'f' := line.ne_head (by decide) c rfl
  simp [scalar, noQuote, noTrue, noFalse, noTime, noFloat, reads]

theorem read_value_scalar (room : Nat) (noBracket : t.head? ≠ some '[')
    (noBrace : t.head? ≠ some '\x7b') : (value room).read t = scalar.read t := by
  cases room with
  | zero => rfl
  | succ room => simp [value, noBracket, noBrace]

theorem read_value_array (room : Nat) (bracket : t.head? = some '[') :
    (value (room + 1)).read t = (array (value room)).read t := by
  simp [value, bracket]

def ReadsTexts (value : Reader Value) : Prop :=
  ∀ t rest, Unquoted rest → value.read (quote t ++ rest) = some (.text t, rest)

theorem readsTexts_value (room : Nat) : ReadsTexts (value room) := by
  intro t rest ends
  have reads := read_scalar_text t ends
  obtain ⟨q, u, isQuote, written⟩ := quote_head t
  rw [written, List.cons_append] at reads ⊢
  rw [read_value_scalar room, reads]
  · rcases isQuote with rfl | rfl <;> simp
  · rcases isQuote with rfl | rfl <;> simp

variable {reader : Reader Value}

/-- The filler in front of an element that is written on a line of its own, or on the same line. -/
theorem dropFiller_blank (blank : Text) (only : ∀ c ∈ blank, c = ' ' ∨ c = '\n')
    (stays : dropFiller false t = t) :
    dropFiller false (blank ++ t) = t := by
  induction blank with
  | nil => exact stays
  | cons c blank ih =>
    obtain ⟨here, others⟩ := List.forall_mem_cons.mp only
    rcases here with rfl | rfl
    · rw [List.cons_append, dropFiller.eq_def]
      simp [ih others, isSpace]
    · rw [List.cons_append, dropFiller.eq_def]
      simp [ih others]

theorem dropFiller_stop (stop : c = '"' ∨ c = '\'' ∨ c = ',' ∨ c = ']') :
    dropFiller false (c :: t) = c :: t := by
  rcases stop with rfl | rfl | rfl | rfl <;> rw [dropFiller.eq_def] <;> simp [isSpace]

theorem read_element_text (reads : ReadsTexts reader) (blank t : Text)
    (only : ∀ c ∈ blank, c = ' ' ∨ c = '\n') (next : c = ',' ∨ c = ']') (rest : Text) :
    (element reader).read (blank ++ (quote t ++ c :: rest)) = some (some (.text t), c :: rest) := by
  have unquoted : Unquoted (c :: rest) := by
    rintro d here
    cases here
    rcases next with rfl | rfl <;> decide
  have content := reads t (c :: rest) unquoted
  have behind : dropFiller false (c :: rest) = c :: rest := dropFiller_stop (.inr (.inr next))
  obtain ⟨q, u, isQuote, written⟩ := quote_head t
  rw [written, List.cons_append] at content ⊢
  have front : dropFiller false (blank ++ q :: (u ++ c :: rest)) = q :: (u ++ c :: rest) :=
    dropFiller_blank blank only (dropFiller_stop (by rcases isQuote with h | h <;> simp [h]))
  have noEnd : q ≠ ']' := by rcases isQuote with rfl | rfl <;> decide
  simp [element, filler, front, noEnd, content, behind]

theorem read_element_end (reader : Reader Value) (blank : Text)
    (only : ∀ c ∈ blank, c = ' ' ∨ c = '\n') (rest : Text) :
    (element reader).read (blank ++ ']' :: rest) = some (none, ']' :: rest) := by
  have front : dropFiller false (blank ++ ']' :: rest) = ']' :: rest :=
    dropFiller_blank blank only (dropFiller_stop (by simp))
  simp [element, filler, front]

/-- The elements after the first one of an array that takes several lines. -/
theorem read_elements (reads : ReadsTexts reader) (ts : List Text) (found : List (Option Value))
    (rest : Text) :
    afterEachFrom ',' (element reader) found
        (',' :: '\n' :: (ts.flatMap writeElement ++ ']' :: rest)) =
      some (found.reverse ++ ts.map (fun t => some (.text t)) ++ [none], ']' :: rest) := by
  induction ts generalizing found with
  | nil =>
    have ends : (element reader).read ('\n' :: ']' :: rest) = some (none, ']' :: rest) :=
      read_element_end reader ['\n'] (by simp) rest
    rw [List.flatMap_nil, List.nil_append, afterEachFrom_item ends, afterEachFrom_stop (by simp)]
    simp
  | cons t ts ih =>
    have here := read_element_text reads "\n    ".toList t (by simp) (.inl rfl)
      ('\n' :: (ts.flatMap writeElement ++ ']' :: rest))
    have line : '\n' :: ((t :: ts).flatMap writeElement ++ ']' :: rest) =
        "\n    ".toList ++ (quote t ++ ',' :: '\n' :: (ts.flatMap writeElement ++ ']' :: rest)) := by
      simp [writeElement]
    rw [line, afterEachFrom_item here, ih]
    simp

theorem read_array {first : Option Value} {more : List (Option Value)} {u : Text}
    (start : (element reader).read t = some (first, u))
    (further : afterEachFrom ',' (element reader) [] u = some (more, ']' :: rest)) :
    (array reader).read ('[' :: t) = some (.array ((first :: more).filterMap id), rest) := by
  have others : (afterEach ',' (element reader)).read u = some (more, ']' :: rest) := further
  simp [array, start, others]

theorem read_array_writeTexts (reads : ReadsTexts reader) (ts : List Text) (rest : Text) :
    (array reader).read (writeTexts ts ++ rest) = some (.array (ts.map .text), rest) := by
  have stop : afterEachFrom ',' (element reader) [] (']' :: rest) = some ([], ']' :: rest) :=
    afterEachFrom_stop (by simp)
  match ts with
  | [] => exact read_array (read_element_end reader [] nofun rest) stop
  | [t] =>
    have only : writeTexts [t] ++ rest = '[' :: ([] ++ (quote t ++ ']' :: rest)) := by simp [writeTexts]
    rw [only]
    exact read_array (read_element_text reads [] t nofun (.inr rfl) rest) stop
  | t :: u :: ts =>
    have several : writeTexts (t :: u :: ts) ++ rest = '[' :: ("\n    ".toList ++
        (quote t ++ ',' :: '\n' :: ((u :: ts).flatMap writeElement ++ ']' :: rest))) := by
      simp [writeTexts, writeElement]
    rw [several, read_array (read_element_text reads _ t (by simp) (.inl rfl) _)
      (read_elements reads (u :: ts) [] rest)]
    simp [List.filterMap_append, List.filterMap_map]

theorem head_writeTexts (ts : List Text) : (writeTexts ts).head? = some '[' := by
  match ts with
  | [] => rfl
  | [_] => rfl
  | _ :: _ :: _ => rfl

end TagQuery.Toml
