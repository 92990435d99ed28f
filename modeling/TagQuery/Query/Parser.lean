import TagQuery.Query.SyntaxError

/-! Reading a query. The grammar, loosest binding first, is

    disjunction := conjunction (OR conjunction)*
    conjunction := term (AND term | term)*
    term        := NOT term | '(' disjunction ')' | '[' disjunction ']' | ALL | name

where juxtaposed terms are allowed with `implicitAnd` only, and both binary operators fold to the
left. Every rule answers with the tokens it leaves, which are fewer than those it was given. -/
namespace TagQuery.Query

/-- What a rule has read from `tokens`: a tree, its height, and the tokens that are left. -/
structure Parsed (tokens : List Lexeme) where
  tree : Query
  height : Nat
  rest : List Lexeme
  shorter : rest.length < tokens.length

abbrev Rule := (tokens : List Lexeme) → Except SyntaxError (Parsed tokens)

/-- What a rule needs to know about the query beside its tokens: whether juxtaposition is AND, the
position of the end, and the most levels that the tree may have, which is also the most operators
NOT and groups that may be open at one place. -/
structure Reading where
  implicitAnd : Bool
  stop : Nat
  limit : Nat := maxHeight
  deriving DecidableEq, Repr

def Reading.position (reading : Reading) : List Lexeme → Nat
  | [] => reading.stop
  | lexeme :: _ => lexeme.start

/-- A token with which a term can begin. -/
def Token.startsTerm : Token → Bool
  | word _ => true
  | quoted _ => true
  | not => true
  | all => true
  | opening _ => true
  | and => false
  | or => false
  | closing _ => false

def startsTerm : List Lexeme → Bool
  | [] => false
  | lexeme :: _ => lexeme.token.startsTerm

def Reading.checkHeight (reading : Reading) (height position : Nat) : Except SyntaxError Nat :=
  if reading.limit < height then .error ⟨.tooDeep, position⟩ else .ok height

/-- The tokens after an operator, when a term can follow there. -/
def Reading.afterOperator (reading : Reading) (operator : Operator) (tokens : List Lexeme) :
    Except SyntaxError (List Lexeme) :=
  if startsTerm tokens then .ok tokens
  else .error ⟨.missingOperandAfter operator, reading.position tokens⟩

/-- A decision about the next operand of a chain: there is none, or it begins with these tokens. -/
abbrev NextOperand :=
  (tokens : List Lexeme) →
    Except SyntaxError (Option { rest : List Lexeme // rest.length ≤ tokens.length })

/-- The next operand of a conjunction: after AND, or at once where juxtaposition is AND. -/
def Reading.nextConjunct (reading : Reading) : NextOperand
  | ⟨.and, _⟩ :: rest =>
    match reading.afterOperator .and rest with
    | .error e => .error e
    | .ok _ => .ok (some ⟨rest, Nat.le_succ _⟩)
  | tokens =>
    if reading.implicitAnd && startsTerm tokens then .ok (some ⟨tokens, Nat.le_refl _⟩)
    else .ok none

def Reading.nextDisjunct (reading : Reading) : NextOperand
  | ⟨.or, _⟩ :: rest =>
    match reading.afterOperator .or rest with
    | .error e => .error e
    | .ok _ => .ok (some ⟨rest, Nat.le_succ _⟩)
  | _ => .ok none

/-- A chain read to its end from `tokens`: the tree so far, and no more tokens than before. -/
structure Chain (tokens : List Lexeme) where
  tree : Query
  height : Nat
  rest : List Lexeme
  notLonger : rest.length ≤ tokens.length

/-- Reads further operands and folds them to the left of a tree. -/
def Reading.chain (reading : Reading) (next : NextOperand) (join : Query → Query → Query)
    (operand : Rule) (left : Query) (height : Nat) (tokens : List Lexeme) :
    Except SyntaxError (Chain tokens) :=
  match next tokens with
  | .error e => .error e
  | .ok none => .ok ⟨left, height, tokens, Nat.le_refl _⟩
  | .ok (some ⟨rest, notLonger⟩) =>
    match operand rest with
    | .error e => .error e
    | .ok right =>
      match reading.checkHeight (1 + max height right.height) (reading.position rest) with
      | .error e => .error e
      | .ok grown =>
        have shrinks : right.rest.length < tokens.length :=
          Nat.lt_of_lt_of_le right.shorter notLonger
        match reading.chain next join operand (join left right.tree) grown right.rest with
        | .error e => .error e
        | .ok done =>
          .ok ⟨done.tree, done.height, done.rest,
            Nat.le_trans done.notLonger (Nat.le_of_lt shrinks)⟩
termination_by tokens.length

/-- Operands joined by one operator, folded to the left. -/
def Reading.leftAssociative (reading : Reading) (next : NextOperand)
    (join : Query → Query → Query) (operand : Rule) : Rule := fun tokens =>
  match operand tokens with
  | .error e => .error e
  | .ok first =>
    match reading.chain next join operand first.tree first.height first.rest with
    | .error e => .error e
    | .ok done =>
      .ok ⟨done.tree, done.height, done.rest, Nat.lt_of_le_of_lt done.notLonger first.shorter⟩

def Reading.conjunction (reading : Reading) (term : Rule) : Rule :=
  reading.leftAssociative reading.nextConjunct .and term

def Reading.disjunction (reading : Reading) (term : Rule) : Rule :=
  reading.leftAssociative reading.nextDisjunct .or (reading.conjunction term)

/-- The words that the tokens begin with, and the tokens after them. -/
def leadingWords : List Lexeme → List Text × List Lexeme
  | ⟨.word text, _⟩ :: rest => (text :: (leadingWords rest).1, (leadingWords rest).2)
  | tokens => ([], tokens)

theorem length_leadingWords_le (tokens : List Lexeme) :
    (leadingWords tokens).2.length ≤ tokens.length := by
  fun_induction leadingWords tokens with
  | case1 _ _ _ ih => exact Nat.le_succ_of_le ih
  | case2 _ _ => exact Nat.le_refl _

/-- A group whose opening bracket, at `opened`, has just been read; `body` reads what is inside. -/
def Reading.groupBody (reading : Reading) (bracket : Bracket) (opened : Nat) (body : Rule) :
    Rule := fun tokens =>
  match body tokens with
  | .error e => .error e
  | .ok inside =>
    match closes : inside.rest with
    | ⟨.closing found, start⟩ :: rest =>
      if found = bracket then
        match reading.checkHeight (inside.height + 1) opened with
        | .error e => .error e
        | .ok height =>
          .ok ⟨.group inside.tree, height, rest, by
            have := inside.shorter
            rw [closes, List.length_cons] at this
            omega⟩
      else .error ⟨.unclosed bracket opened, start⟩
    | rest => .error ⟨.unclosed bracket opened, reading.position rest⟩

/-- A negation whose operator, at `start`, has just been read; `term` reads its operand. -/
def Reading.negationBody (reading : Reading) (start : Nat) (term : Rule) : Rule := fun tokens =>
  match term tokens with
  | .error e => .error e
  | .ok inside =>
    match reading.checkHeight (inside.height + 1) start with
    | .error e => .error e
    | .ok height => .ok ⟨.not inside.tree, height, inside.rest, inside.shorter⟩

/-- A term. `nested` reads the terms inside it, and is absent when no more NOTs and groups may be
opened. -/
def Reading.termWith (reading : Reading) (nested : Option Rule) : Rule
  | [] => .error ⟨.unexpectedEnd, reading.stop⟩
  | ⟨.word text, _⟩ :: rest =>
    if reading.implicitAnd then .ok ⟨.tag text, 1, rest, Nat.lt_succ_self _⟩
    else
      .ok ⟨.tag (Text.joinWith [' '] (text :: (leadingWords rest).1)), 1, (leadingWords rest).2,
        Nat.lt_succ_of_le (length_leadingWords_le rest)⟩
  | ⟨.quoted text, start⟩ :: rest =>
    if text.allBlank then .error ⟨.emptyQuotedTag, start⟩
    else .ok ⟨.tag text, 1, rest, Nat.lt_succ_self _⟩
  | ⟨.all, _⟩ :: rest => .ok ⟨.all, 1, rest, Nat.lt_succ_self _⟩
  | ⟨.closing bracket, start⟩ :: _ => .error ⟨.unmatched bracket, start⟩
  | ⟨.and, start⟩ :: _ => .error ⟨.missingOperandBefore .and, start⟩
  | ⟨.or, start⟩ :: _ => .error ⟨.missingOperandBefore .or, start⟩
  | ⟨.not, start⟩ :: rest =>
    match reading.afterOperator .not rest, nested with
    | .error e, _ => .error e
    | .ok _, none => .error ⟨.tooDeep, start⟩
    | .ok _, some term =>
      match reading.negationBody start term rest with
      | .error e => .error e
      | .ok p => .ok ⟨p.tree, p.height, p.rest, Nat.lt_succ_of_lt p.shorter⟩
  | ⟨.opening bracket, start⟩ :: rest =>
    if (rest.head?.map Lexeme.token) = some (.closing bracket) then
      .error ⟨.emptyGroup bracket, start⟩
    else
      match nested with
      | none => .error ⟨.tooDeep, start⟩
      | some term =>
        match reading.groupBody bracket start (reading.disjunction term) rest with
        | .error e => .error e
        | .ok p => .ok ⟨p.tree, p.height, p.rest, Nat.lt_succ_of_lt p.shorter⟩

/-- A term in which at most `room` NOTs and groups may be open at one place. -/
def Reading.term (reading : Reading) : Nat → Rule
  | 0 => reading.termWith none
  | room + 1 => reading.termWith (some (reading.term room))

def Reading.query (reading : Reading) (tokens : List Lexeme) : Except SyntaxError Query :=
  if tokens.isEmpty then .error ⟨.emptyQuery, 0⟩
  else
    match reading.disjunction (reading.term reading.limit) tokens with
    | .error e => .error e
    | .ok parsed =>
      match parsed.rest with
      | [] => .ok parsed.tree
      | ⟨.closing bracket, start⟩ :: _ => .error ⟨.unmatched bracket, start⟩
      | ⟨token, start⟩ :: _ => .error ⟨.unexpected token, start⟩

def parse (dialect : Dialect) (text : Text) : Except SyntaxError Query :=
  match tokenize dialect text with
  | .error start => .error ⟨.missingClosingQuote, start⟩
  | .ok tokens =>
    Reading.query { implicitAnd := dialect.implicitAnd, stop := text.byteLength } tokens

example : (parse {} "a b OR NOT(c)".toList).toOption =
    some (.or (.and (.tag ['a']) (.tag ['b'])) (.not (.group (.tag ['c'])))) := by decide +kernel
example : (match parse {} "cat AND".toList with | .error e => some e | .ok _ => none) =
    some ⟨.missingOperandAfter .and, 7⟩ := by decide +kernel

end TagQuery.Query
