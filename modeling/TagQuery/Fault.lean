import TagQuery.Query.SyntaxError

/-! What can go wrong, and the sentence that says it. -/
namespace TagQuery

inductive Fault where
  /-- the query text is not a query -/
  | query (detail : Text) (position : Nat)
  /-- the evaluation was abandoned -/
  | cancelled
  /-- one question put to a store was not answered -/
  | lookup (asked reason : Text)
  /-- the database reported an error -/
  | storage (reason : Text)
  /-- a setting has a value that cannot be used -/
  | setting (reason : Text)
  /-- a settings file is not in its format, or settings cannot be written in it -/
  | settingsFormat
  /-- a file of records is not in its format -/
  | recordsFormat
  /-- a file cannot be read or written -/
  | file
  deriving DecidableEq, Repr

namespace Fault

def message : Fault → Text
  | query detail position =>
    "syntax error at byte ".toList ++ Text.decimal position ++ ": ".toList ++ detail
  | cancelled => "evaluation cancelled".toList
  | lookup asked reason => "lookup failed: ".toList ++ asked ++ ": ".toList ++ reason
  | storage reason => "storage error: ".toList ++ reason
  | setting reason => "configuration error: ".toList ++ reason
  | settingsFormat => "configuration error: malformed settings".toList
  | recordsFormat => "malformed records".toList
  | file => "I/O error".toList

/-- The byte of the query text that the fault points at. -/
def position? : Fault → Option Nat
  | query _ position => some position
  | _ => none

/-- Whether the query text itself is at fault. -/
def isQueryFault (fault : Fault) : Bool := fault.position?.isSome

end Fault

def Query.SyntaxError.toFault (e : Query.SyntaxError) : Fault :=
  .query e.cause.message e.position

example : Fault.message (.lookup "tag 'x'".toList (Fault.message (.storage "locked".toList))) =
    "lookup failed: tag 'x': storage error: locked".toList := by decide +kernel

end TagQuery
