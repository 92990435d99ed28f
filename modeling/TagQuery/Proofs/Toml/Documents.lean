import TagQuery.Proofs.Toml.Values
import TagQuery.Toml.Document

/-! A document that is written is read as what was written. Main steps: each of its lines is read as one
statement; the lines are read one after the other; and the statements build one table for each section,
with its keys in order. -/
namespace TagQuery.Toml

open Reader

variable {t rest key : Text} {c : Char}

inductive Written where
  | text (content : Text)
  | number (n : Nat)
  | flag (set : Bool)
  | texts (contents : List Text)
  deriving DecidableEq

namespace Written

def value : Written → Value
  | text content => .text content
  | number n => .integer n
  | flag set => .flag set
  | texts contents => .array (contents.map .text)

def write : Written → Text
  | text content => quote content
  | number n => Text.decimal n
  | flag set => Text.truth set
  | texts contents => writeTexts contents

def Fits : Written → Prop
  | number n => (n : Int) ≤ maxInteger
  | _ => True

theorem read_write (written : Written) (fits : written.Fits) (rest : Text) :
    (Toml.value maxOpen).read (written.write ++ '\n' :: rest) = some (written.value, '\n' :: rest) := by
  have line : Unquoted ('\n' :: rest) := by
    rintro c here
    cases here
    decide
  cases written with
  | text content => exact readsTexts_value maxOpen content _ line
  | number n =>
    have digits : DigitsLine (Text.decimal n ++ '\n' :: rest) := .append (isDigit_decimal n) rest
    have noBracket := fun h => digits.ne_head (c := '[') (by decide) '[' h rfl
    have noBrace := fun h => digits.ne_head (c := '\x7b') (by decide) '\x7b' h rfl
    exact (read_value_scalar maxOpen noBracket noBrace).trans (read_scalar_decimal n fits rest)
  | flag set =>
    have noBracket : (Text.truth set ++ '\n' :: rest).head? ≠ some '[' := by cases set <;> nofun
    have noBrace : (Text.truth set ++ '\n' :: rest).head? ≠ some '\x7b' := by cases set <;> nofun
    exact (read_value_scalar maxOpen noBracket noBrace).trans (read_scalar_truth set _)
  | texts contents =>
    have bracket : (writeTexts contents ++ '\n' :: rest).head? = some '[' := by
      rw [List.head?_append, head_writeTexts, Option.some_or]
    have reads := read_array_writeTexts (readsTexts_value 78) contents ('\n' :: rest)
    exact (read_value_array 78 bracket).trans reads

/-- What is written does not begin with a blank. -/
theorem head_write (written : Written) (rest : Text) :
    ∀ c ∈ (written.write ++ rest).head?, isSpace c = false := by
  intro c here
  cases written with
  | text content =>
    obtain ⟨q, u, isQuote, shown⟩ := quote_head content
    rw [write, shown] at here
    cases here
    rcases isQuote with rfl | rfl <;> rfl
  | number n =>
    obtain ⟨d, digits, shown⟩ := List.exists_cons_of_ne_nil (decimal_ne_nil n)
    have digit : d.isDigit = true := isDigit_decimal n d (shown ▸ List.mem_cons_self)
    rw [write, shown] at here
    cases here
    have noBlank : c ≠ ' ' := ne_of_test digit (by decide)
    have noTab : c ≠ '\t' := ne_of_test digit (by decide)
    simp [isSpace, noBlank, noTab]
  | flag set =>
    cases set <;>
    · cases here
      rfl
  | texts contents =>
    rw [write, List.head?_append, head_writeTexts] at here
    cases here
    rfl

end Written

theorem read_spaces {blank : Text} (all : ∀ c ∈ blank, isSpace c = true)
    (ends : ∀ c ∈ rest.head?, isSpace c = false) : spaces.read (blank ++ rest) = some ((), rest) := by
  have passed := read_run_append all ends
  rw [spaces, read_bind, passed, Option.bind_some, read_pure]

def IsBareKey (key : Text) : Prop := key ≠ [] ∧ ∀ c ∈ key, isBare c = true

instance (key : Text) : Decidable (IsBareKey key) :=
  decidable_of_iff (key ≠ [] ∧ key.all isBare = true) (by rw [IsBareKey, List.all_eq_true])

theorem isSpace_of_isBare (bare : isBare c = true) : isSpace c = false := by
  have noBlank : c ≠ ' ' := ne_of_test bare (by decide)
  have noTab : c ≠ '\t' := ne_of_test bare (by decide)
  simp [isSpace, noBlank, noTab]

/-- No blank stands in front of a key. -/
theorem read_spaces_key (bare : IsBareKey key) (rest : Text) :
    spaces.read (key ++ rest) = some ((), key ++ rest) := by
  obtain ⟨c, key', rfl⟩ := List.exists_cons_of_ne_nil bare.1
  refine @read_spaces _ [] nofun fun d here => ?_
  cases here
  exact isSpace_of_isBare (bare.2 c List.mem_cons_self)

theorem read_segment {blank : Text} (bare : IsBareKey key) (all : ∀ c ∈ blank, isSpace c = true)
    (ends : isSpace c = false ∧ isBare c = false) (rest : Text) :
    segment.read (key ++ (blank ++ c :: rest)) = some (key, c :: rest) := by
  have name : (run1 isBare).read (key ++ (blank ++ c :: rest)) = some (key, blank ++ c :: rest) := by
    refine read_run1_append bare.1 bare.2 fun d here => ?_
    cases blank with
    | nil =>
      cases here
      exact ends.2
    | cons d' blank =>
      cases here
      have space := all d List.mem_cons_self
      exact Bool.eq_false_iff.mpr fun bare => by simp [isSpace_of_isBare bare] at space
  have behind : spaces.read (blank ++ c :: rest) = some ((), c :: rest) := by
    refine read_spaces all fun d here => ?_
    cases here
    exact ends.1
  simp [segment, read_spaces_key bare, name, behind]

/-- A dotted key of one segment. -/
theorem read_keyPath (bare : IsBareKey key) (blank : Text) (all : ∀ c ∈ blank, isSpace c = true)
    (ends : isSpace c = false ∧ isBare c = false ∧ c ≠ '.') (rest : Text) :
    keyPath.read (key ++ (blank ++ c :: rest)) = some (⟨[], key⟩, c :: rest) := by
  have first := read_segment bare all ⟨ends.1, ends.2.1⟩ rest
  have only : (afterEach '.' segment).read (c :: rest) = some ([], c :: rest) :=
    afterEachFrom_stop fun d here => by
      cases here
      exact ends.2.2
  simp [keyPath, first, only, KeyPath.ofSegments, KeyPath.length, maxSegments]

/-- A line of its own says one statement. -/
def Says (line : Text) (s : Statement) : Prop :=
  ∀ rest, statement.read (line ++ '\n' :: rest) = some (s, '\n' :: rest)

theorem says_of_lineContent {line : Text} {s : Statement}
    (reads : ∀ rest, lineContent.read (line ++ '\n' :: rest) = some (s, '\n' :: rest)) :
    Says line s := by
  intro rest
  have noRemark : (optional comment).read ('\n' :: rest) = some (none, '\n' :: rest) :=
    read_optional_none (by simp [comment])
  have noReturn : carriageReturn.read ('\n' :: rest) = some ((), '\n' :: rest) := rfl
  simp [statement, reads, noRemark, noReturn]

theorem says_blank : Says [] .blank := says_of_lineContent fun _ => rfl

theorem says_header (bare : IsBareKey key) :
    Says ('[' :: key ++ [']']) (.header (.table ⟨[], key⟩)) := by
  refine says_of_lineContent fun rest => ?_
  have path : keyPath.read (key ++ ']' :: '\n' :: rest) = some (⟨[], key⟩, ']' :: '\n' :: rest) :=
    read_keyPath bare [] nofun (by decide) _
  have notTwo : (exactly ['[', '[']).read ('[' :: (key ++ ']' :: '\n' :: rest)) = none := by
    refine read_exactly_none fun looks => ?_
    obtain ⟨c, key', rfl⟩ := List.exists_cons_of_ne_nil bare.1
    have same : '[' = c := (List.cons_prefix_cons.mp (List.cons_prefix_cons.mp looks).2).1
    exact ne_of_test (bare.2 c List.mem_cons_self) (by decide) same.symm
  have reads : header.read ('[' :: (key ++ ']' :: '\n' :: rest)) =
      some (.table ⟨[], key⟩, '\n' :: rest) := by
    simp [header, notTwo, path]
  have front (u : Text) : spaces.read ('[' :: u) = some ((), '[' :: u) := rfl
  have behind : spaces.read ('\n' :: rest) = some ((), '\n' :: rest) := rfl
  simp [lineContent, front, reads, behind]

theorem says_assign (bare : IsBareKey key) {written : Written} (fits : written.Fits) :
    Says (key ++ " = ".toList ++ written.write) (.assign ⟨[], key⟩ written.value) := by
  refine says_of_lineContent fun rest => ?_
  have path (u : Text) : keyPath.read (key ++ ' ' :: '=' :: u) = some (⟨[], key⟩, '=' :: u) :=
    read_keyPath bare [' '] (by simp [isSpace]) (by decide) u
  have between : spaces.read (' ' :: (written.write ++ '\n' :: rest)) =
      some ((), written.write ++ '\n' :: rest) :=
    @read_spaces _ [' '] (by simp [isSpace]) (written.head_write _)
  have behind : spaces.read ('\n' :: rest) = some ((), '\n' :: rest) := rfl
  have reads : (entry (value maxOpen)).read
      (key ++ ' ' :: '=' :: ' ' :: (written.write ++ '\n' :: rest)) =
      some ((⟨[], key⟩, written.value), '\n' :: rest) := by
    simp [entry, path, between, written.read_write fits, behind]
  have front := read_spaces_key bare (' ' :: '=' :: ' ' :: (written.write ++ '\n' :: rest))
  obtain ⟨c, key', rfl⟩ := List.exists_cons_of_ne_nil bare.1
  have start := bare.2 c List.mem_cons_self
  have goesOn : ¬ (c = '\n' ∨ c = '\r' ∨ c = '#') := by
    rintro (rfl | rfl | rfl) <;> cases start
  have noHeader : c ≠ '[' := ne_of_test start (by decide)
  rw [List.cons_append] at front reads
  simp [lineContent, front, goesOn, noHeader, reads]

/-- Lines, each up to its end, with what they say. -/
abbrev SaidLines := List (Text × Statement)

def SaidLines.text (lines : SaidLines) : Text := lines.flatMap fun l => l.1 ++ ['\n']

@[simp] theorem SaidLines.text_append (lines more : SaidLines) :
    SaidLines.text (lines ++ more) = lines.text ++ more.text := List.flatMap_append

variable {said : SaidLines}

theorem read_lines (stated : ∀ l ∈ said, Says l.1 l.2) (found : List Statement) :
    afterEachFrom '\n' statement found ('\n' :: said.text) =
      some (found.reverse ++ said.map Prod.snd ++ [.blank], []) := by
  induction said generalizing found with
  | nil =>
    have last : statement.read [] = some (.blank, []) := rfl
    rw [SaidLines.text, List.flatMap_nil, afterEachFrom_item last, afterEachFrom_stop (by simp)]
    simp
  | cons l said ih =>
    obtain ⟨here, others⟩ := List.forall_mem_cons.mp stated
    have line : SaidLines.text (l :: said) = l.1 ++ '\n' :: SaidLines.text said := by
      simp [SaidLines.text]
    rw [line, afterEachFrom_item (here _), ih others]
    simp

theorem whole_statements (stated : ∀ l ∈ said, Says l.1 l.2)
    (noMark : ∀ c ∈ said.text.head?, c ≠ '\uFEFF') :
    statements.whole said.text = some (said.map Prod.snd ++ [.blank]) := by
  have unmarked : (optional (char '\uFEFF')).read said.text = some (none, said.text) :=
    read_optional_none (read_char_none noMark)
  cases said with
  | nil =>
    have last : statement.read [] = some (.blank, []) := rfl
    have more : (afterEach '\n' statement).read [] = some ([], []) := afterEachFrom_stop (by simp)
    rw [SaidLines.text, List.flatMap_nil] at unmarked ⊢
    simp [whole, statements, unmarked, last, more]
  | cons l said =>
    obtain ⟨here, others⟩ := List.forall_mem_cons.mp stated
    have line : SaidLines.text (l :: said) = l.1 ++ '\n' :: SaidLines.text said := by
      simp [SaidLines.text]
    have more : (afterEach '\n' statement).read ('\n' :: SaidLines.text said) =
        some (said.map Prod.snd ++ [.blank], []) := read_lines others []
    rw [line] at unmarked ⊢
    simp [whole, statements, unmarked, here (SaidLines.text said), more]

theorem Entries.find?_eq_none {entries : Entries} (absent : key ∉ entries.map Prod.fst) :
    entries.find? key = none := by
  induction entries with
  | nil => rfl
  | cons p entries ih =>
    obtain ⟨other, further⟩ := not_or.mp (mt List.mem_cons.mpr absent)
    rw [Entries.find?_cons, if_neg (Ne.symm other), ih further]

theorem Entries.set_eq_append {entries : Entries} (absent : key ∉ entries.map Prod.fst) (v : Value) :
    entries.set key v = entries ++ [(key, v)] := by
  induction entries with
  | nil => rfl
  | cons p entries ih =>
    obtain ⟨other, further⟩ := not_or.mp (mt List.mem_cons.mpr absent)
    rw [Entries.set, if_neg (Ne.symm other), ih further]
    rfl

/-- Keys that are all different are given their values in order. -/
theorem assignAll_distinct {entries given : Entries}
    (distinct : ((entries ++ given).map Prod.fst).Nodup) :
    assignAll .header entries (given.map fun p => (⟨[], p.1⟩, p.2)) = some (entries ++ given) := by
  induction given generalizing entries with
  | nil => rw [List.map_nil, assignAll, List.append_nil]
  | cons p given ih =>
    have regrouped : entries ++ p :: given = (entries ++ [p]) ++ given := by simp
    have absent : p.1 ∉ entries.map Prod.fst := fun here => by
      rw [List.map_append] at distinct
      exact (List.nodup_append.mp distinct).2.2 p.1 here p.1 List.mem_cons_self rfl
    have assigned : assign ⟨[], p.1⟩ p.2 .header entries = some (entries ++ [p]) := by
      simp [assign, descend, Entries.find?_eq_none absent, Entries.set_eq_append absent]
    rw [regrouped] at distinct ⊢
    simp only [List.map_cons, assignAll, assigned]
    exact ih distinct

/-- A section as it is written: its name, and under it keys with what they hold. -/
structure WrittenSection where
  name : String
  keys : List (String × Written)

namespace WrittenSection

def text (part : WrittenSection) : Text :=
  writeSection part.name (part.keys.map fun k => writeLine k.1 k.2.write)

def entries (part : WrittenSection) : Entries := part.keys.map fun k => (k.1.toList, k.2.value)

def lines (part : WrittenSection) : SaidLines :=
  ('[' :: part.name.toList ++ [']'], .header (.table ⟨[], part.name.toList⟩)) ::
    part.keys.map fun k =>
      (k.1.toList ++ " = ".toList ++ k.2.write, .assign ⟨[], k.1.toList⟩ k.2.value)

def read (part : WrittenSection) : Section :=
  ⟨.table ⟨[], part.name.toList⟩, part.entries.map fun p => (⟨[], p.1⟩, p.2)⟩

/-- A section that can be read again: its name and its keys need no quotes, its keys are different, and
what they hold fits. -/
structure WellFormed (part : WrittenSection) : Prop where
  name : IsBareKey part.name.toList
  keys : ∀ k ∈ part.keys, IsBareKey k.1.toList ∧ k.2.Fits
  distinct : (part.keys.map fun k => k.1.toList).Nodup

variable {part : WrittenSection}

theorem text_lines (part : WrittenSection) : part.lines.text = part.text := by
  simp [lines, SaidLines.text, text, writeSection, writeLine, List.flatMap_def, Function.comp_def]

theorem WellFormed.stated (h : part.WellFormed) : ∀ l ∈ part.lines, Says l.1 l.2 := by
  refine List.forall_mem_cons.mpr ⟨says_header h.name, ?_⟩
  rintro l here
  obtain ⟨k, among, rfl⟩ := List.mem_map.mp here
  obtain ⟨bare, fits⟩ := h.keys k among
  exact says_assign bare fits

/-- The lines of a section are read as the section, where no more keys come behind them. -/
theorem sections_lines (part : WrittenSection) (more : List Statement)
    (behind : (sections more).1 = []) :
    sections (part.lines.map Prod.snd ++ more) = ([], part.read :: (sections more).2) := by
  have given (keys : List (KeyPath × Value)) :
      sections (keys.map (fun p => .assign p.1 p.2) ++ more) = (keys, (sections more).2) := by
    induction keys with
    | nil => exact Prod.ext behind rfl
    | cons p keys ih => simp only [List.map_cons, List.cons_append, sections, ih]
  have shape : part.lines.map Prod.snd =
      .header (.table ⟨[], part.name.toList⟩) :: part.read.lines.map fun p => .assign p.1 p.2 := by
    simp [lines, read, entries, Function.comp_def]
  rw [shape, List.cons_append, sections, given]
  rfl

end WrittenSection

variable {parts : List WrittenSection}

/-- The lines of a document, with an empty line between sections. -/
def documentLines : List WrittenSection → SaidLines
  | [] => []
  | [part] => part.lines
  | part :: next :: parts => part.lines ++ ([], .blank) :: documentLines (next :: parts)

theorem writeSections_cons (t u : Text) (ts : List Text) :
    writeSections (t :: u :: ts) = t ++ '\n' :: writeSections (u :: ts) := by
  simp [writeSections, Text.joinWith]

theorem text_documentLines (parts : List WrittenSection) :
    (documentLines parts).text = writeSections (parts.map WrittenSection.text) := by
  fun_induction documentLines parts with
  | case1 => rfl
  | case2 part => simp [part.text_lines, writeSections, Text.joinWith]
  | case3 part next parts ih =>
    have emptyLine : SaidLines.text (([], .blank) :: documentLines (next :: parts)) =
        '\n' :: SaidLines.text (documentLines (next :: parts)) := rfl
    simp only [SaidLines.text_append, part.text_lines, emptyLine, ih, List.map_cons, writeSections_cons]

theorem sections_documentLines (parts : List WrittenSection) :
    sections ((documentLines parts).map Prod.snd ++ [.blank]) = ([], parts.map WrittenSection.read) := by
  fun_induction documentLines parts with
  | case1 => rfl
  | case2 part => exact part.sections_lines [.blank] rfl
  | case3 part next parts ih =>
    have behind : sections (.blank :: ((documentLines (next :: parts)).map Prod.snd ++ [.blank])) =
        ([], (next :: parts).map WrittenSection.read) := ih
    have here := part.sections_lines _ (congrArg Prod.fst behind)
    rw [behind] at here
    rw [List.map_append, List.append_assoc]
    exact here

theorem says_documentLines (wellFormed : ∀ part ∈ parts, part.WellFormed) :
    ∀ l ∈ documentLines parts, Says l.1 l.2 := by
  fun_induction documentLines parts with
  | case1 => exact nofun
  | case2 part => exact (wellFormed part List.mem_cons_self).stated
  | case3 part next parts ih =>
    obtain ⟨here, others⟩ := List.forall_mem_cons.mp wellFormed
    exact List.forall_mem_append.mpr ⟨here.stated, List.forall_mem_cons.mpr ⟨says_blank, ih others⟩⟩

def document (parts : List WrittenSection) : Entries :=
  parts.map fun part => (part.name.toList, .table .header part.entries)

theorem addSections_distinct {entries : Entries} (wellFormed : ∀ part ∈ parts, part.WellFormed)
    (distinct : ((entries ++ document parts).map Prod.fst).Nodup) :
    addSections entries (parts.map WrittenSection.read) = some (entries ++ document parts) := by
  induction parts generalizing entries with
  | nil => simp [addSections, document]
  | cons part parts ih =>
    obtain ⟨here, others⟩ := List.forall_mem_cons.mp wellFormed
    have regrouped : entries ++ document (part :: parts) =
        (entries ++ [(part.name.toList, .table .header part.entries)]) ++ document parts := by
      simp [document]
    have absent : part.name.toList ∉ entries.map Prod.fst := fun stands => by
      rw [List.map_append] at distinct
      exact (List.nodup_append.mp distinct).2.2 _ stands _ List.mem_cons_self rfl
    have inner : assignAll .header [] (part.entries.map fun p => (⟨[], p.1⟩, p.2)) =
        some part.entries := by
      refine @assignAll_distinct [] part.entries ?_
      simpa [WrittenSection.entries, Function.comp_def] using here.distinct
    have added : addSection entries part.read =
        some (entries ++ [(part.name.toList, .table .header part.entries)]) := by
      simp [addSection, WrittenSection.read, descend, Entries.find?_eq_none absent, inner,
        Entries.set_eq_append absent]
    rw [regrouped] at distinct ⊢
    simp only [List.map_cons, addSections, added]
    exact ih others distinct

/-- A document is read as what was written. -/
theorem ofText_writeSections (wellFormed : ∀ part ∈ parts, part.WellFormed)
    (distinct : (parts.map fun part => part.name.toList).Nodup) :
    Entries.ofText (writeSections (parts.map WrittenSection.text)) = some (document parts) := by
  have noMark : ∀ c ∈ (documentLines parts).text.head?, c ≠ '\uFEFF' := by
    intro c here
    match parts with
    | [] => cases here
    | [part] =>
      cases here
      decide
    | part :: next :: parts =>
      cases here
      decide
  have names : (([] ++ document parts).map Prod.fst).Nodup := by
    simpa [document, Function.comp_def] using distinct
  rw [Entries.ofText, ← text_documentLines, whole_statements (says_documentLines wellFormed) noMark,
    Option.bind_some, Entries.ofStatements, sections_documentLines]
  exact addSections_distinct wellFormed names

end TagQuery.Toml
