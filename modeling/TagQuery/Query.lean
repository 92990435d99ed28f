import TagQuery.Tag

/-! Boolean tag queries as trees. A group is an expression that was written in brackets. -/
namespace TagQuery

inductive Query where
  /-- the items that carry a tag -/
  | tag (name : Text)
  /-- every item in scope -/
  | all
  /-- the items of both operands -/
  | and (left right : Query)
  /-- the items of either operand -/
  | or (left right : Query)
  /-- the items in scope that the operand leaves out -/
  | not (inner : Query)
  /-- a bracketed expression -/
  | group (inner : Query)
  deriving DecidableEq, Repr

namespace Query

/-- The tag names at the leaves, from left to right. -/
def names : Query → List Text
  | tag name => [name]
  | all => []
  | and left right => left.names ++ right.names
  | or left right => left.names ++ right.names
  | not inner => inner.names
  | group inner => inner.names

/-- The tags of the query: one spelling each, in first-seen order. -/
def tags (q : Query) : List Text := Tag.distinct q.names

def size : Query → Nat
  | tag _ => 1
  | all => 1
  | and left right => 1 + left.size + right.size
  | or left right => 1 + left.size + right.size
  | not inner => 1 + inner.size
  | group inner => 1 + inner.size

/-- The number of nodes on a longest way down. -/
def height : Query → Nat
  | tag _ => 1
  | all => 1
  | and left right => 1 + max left.height right.height
  | or left right => 1 + max left.height right.height
  | not inner => 1 + inner.height
  | group inner => 1 + inner.height

end Query
end TagQuery
