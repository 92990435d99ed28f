import TagQuery.Query.Printer

/-! The tokens of a query text. A text is read character by character; each token keeps the byte
position at which it starts. -/
namespace TagQuery.Query

/-- How query text is read: whether adjacent terms mean AND (otherwise adjacent words are one tag),
and which words mean every item in scope. -/
structure Dialect where
  implicitAnd : Bool := true
  allKeywords : List Text := ["all".toList, "*".toList]
  deriving DecidableEq, Repr

inductive Bracket where
  | round
  | square
  deriving DecidableEq, Repr

def Bracket.opener : Bracket → Char
  | round => '('
  | square => '['

def Bracket.closer : Bracket → Char
  | round => ')'
  | square => ']'

inductive Token where
  /-- a bare word -/
  | word (text : Text)
  /-- a quoted text, without its quotes and escapes -/
  | quoted (text : Text)
  | and
  | or
  | not
  | all
  | opening (bracket : Bracket)
  | closing (bracket : Bracket)
  deriving DecidableEq, Repr

def Token.shown : Token → Text
  | word text => '\'' :: (text ++ ['\''])
  | quoted text => '"' :: (text ++ ['"'])
  | and => "AND".toList
  | or => "OR".toList
  | not => "NOT".toList
  | all => "ALL".toList
  | opening bracket => ['\'', bracket.opener, '\'']
  | closing bracket => ['\'', bracket.closer, '\'']

/-- A token and the byte position of its first character. -/
structure Lexeme where
  token : Token
  start : Nat
  deriving DecidableEq, Repr

def Dialect.classify (dialect : Dialect) (word : Text) : Token :=
  if word.sameWord "and".toList then .and
  else if word.sameWord "or".toList then .or
  else if word.sameWord "not".toList then .not
  else if dialect.allKeywords.any (Text.sameWord word) then .all
  else .word word

/-- Where the reader stands: between tokens, in a word, in a quoted text, or after a backslash in
one. The last three keep where the token began and its text so far, latest character first. -/
inductive ScanState where
  | between
  | inWord (start : Nat) (seen : Text)
  | inQuotes (start : Nat) (seen : Text)
  | escaping (start : Nat) (seen : Text)
  deriving DecidableEq, Repr

/-- What a character does that does not belong to the token before it: the token it is, if it is
one by itself, and where the reader stands then. -/
def ScanState.enter (position : Nat) (c : Char) : Option Lexeme × ScanState :=
  if Text.isBlank c then (none, .between)
  else if c = '(' then (some ⟨.opening .round, position⟩, .between)
  else if c = '[' then (some ⟨.opening .square, position⟩, .between)
  else if c = ')' then (some ⟨.closing .round, position⟩, .between)
  else if c = ']' then (some ⟨.closing .square, position⟩, .between)
  else if c = '"' then (none, .inQuotes position [])
  else (none, .inWord position [c])

/-- One character: the tokens that it completes, and where the reader stands then. -/
def ScanState.step (dialect : Dialect) (position : Nat) (c : Char) :
    ScanState → List Lexeme × ScanState
  | between => ((enter position c).1.toList, (enter position c).2)
  | inWord start seen =>
    if isDelimiter c then
      (⟨dialect.classify seen.reverse, start⟩ :: (enter position c).1.toList, (enter position c).2)
    else ([], inWord start (c :: seen))
  | inQuotes start seen =>
    if c = '"' then ([⟨.quoted seen.reverse, start⟩], between)
    else if c = '\\' then ([], escaping start seen)
    else ([], inQuotes start (c :: seen))
  | escaping start seen => ([], inQuotes start (c :: seen))

/-- The end of the text: it completes a word, and it is an error inside quotes, at the opening
quote. -/
def ScanState.finish (dialect : Dialect) : ScanState → Except Nat (List Lexeme)
  | between => .ok []
  | inWord start seen => .ok [⟨dialect.classify seen.reverse, start⟩]
  | inQuotes start _ => .error start
  | escaping start _ => .error start

/-- Reads the rest of a text; `found` holds the tokens before it, latest first. The error is the
position of a quote that is never closed. -/
def scan (dialect : Dialect) (state : ScanState) (position : Nat) (found : List Lexeme) :
    Text → Except Nat (List Lexeme)
  | [] => (state.finish dialect).map (found.reverse ++ ·)
  | c :: rest =>
    let next := state.step dialect position c
    scan dialect next.2 (position + c.utf8Size) (next.1.reverse ++ found) rest

def tokenize (dialect : Dialect) (text : Text) : Except Nat (List Lexeme) :=
  scan dialect .between 0 [] text

/-- The tokens found before only stand in front of those still to come. -/
theorem scan_eq_append (dialect : Dialect) (text : Text) :
    ∀ (state : ScanState) (position : Nat) (found : List Lexeme),
      scan dialect state position found text =
        (scan dialect state position [] text).map (found.reverse ++ ·) := by
  induction text with
  | nil =>
    intro state position found
    simp only [scan, List.reverse_nil, List.nil_append]
    cases state.finish dialect <;> rfl
  | cons c rest ih =>
    intro state position found
    simp only [scan]
    rw [ih _ _ ((state.step dialect position c).1.reverse ++ found),
      ih _ _ ((state.step dialect position c).1.reverse ++ [])]
    cases scan dialect (state.step dialect position c).2 (position + c.utf8Size) [] rest with
    | error e => rfl
    | ok ls => simp [Except.map, List.append_assoc]

example : tokenize {} "é AND\"a\\\"b\"".toList =
    .ok [⟨.word ['é'], 0⟩, ⟨.and, 3⟩, ⟨.quoted "a\"b".toList, 6⟩] := by rfl

end TagQuery.Query
