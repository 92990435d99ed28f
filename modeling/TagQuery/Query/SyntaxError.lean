import TagQuery.Query.Token

/-! What can be wrong with a query text, where, and how it is said. -/
namespace TagQuery.Query

inductive Operator where
  | and
  | or
  | not
  deriving DecidableEq, Repr

def Operator.token : Operator → Token
  | and => .and
  | or => .or
  | not => .not

/-- The most levels a tree may have, and the most operators NOT and groups that may be open at one
place of a query. -/
def maxHeight : Nat := 256

inductive SyntaxCause where
  | emptyQuery
  | missingClosingQuote
  | emptyQuotedTag
  | unexpectedEnd
  /-- a bracket that closes nothing -/
  | unmatched (bracket : Bracket)
  /-- a token after a complete query -/
  | unexpected (token : Token)
  | missingOperandAfter (operator : Operator)
  | missingOperandBefore (operator : Operator)
  | emptyGroup (bracket : Bracket)
  /-- a group, opened at a position, that is not closed where it has to be -/
  | unclosed (bracket : Bracket) (opened : Nat)
  | tooDeep
  deriving DecidableEq, Repr

structure SyntaxError where
  cause : SyntaxCause
  position : Nat
  deriving DecidableEq, Repr

def SyntaxCause.message : SyntaxCause → Text
  | emptyQuery => "empty query".toList
  | missingClosingQuote => "missing closing quote".toList
  | emptyQuotedTag => "empty quoted tag".toList
  | unexpectedEnd => "unexpected end of query".toList
  | unmatched bracket => "unmatched ".toList ++ (Token.closing bracket).shown
  | unexpected token => "unexpected ".toList ++ token.shown
  | missingOperandAfter operator => "expected operand after ".toList ++ operator.token.shown
  | missingOperandBefore operator => "expected operand before ".toList ++ operator.token.shown
  | emptyGroup bracket => "empty group '".toList ++ [bracket.opener, bracket.closer, '\'']
  | unclosed bracket opened =>
    "expected ".toList ++ (Token.closing bracket).shown ++ " to close ".toList
      ++ (Token.opening bracket).shown ++ " at byte ".toList ++ Text.decimal opened
  | tooDeep => "query nested too deeply (limit ".toList ++ Text.decimal maxHeight ++ [')']

example : SyntaxCause.message (.unclosed .square 12) =
    "expected ']' to close '[' at byte 12".toList := by decide +kernel
example : SyntaxCause.message .tooDeep = "query nested too deeply (limit 256)".toList := by
  decide +kernel

end TagQuery.Query
