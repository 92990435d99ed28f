import TagQuery.Query.Token

/-! The grammar of queries, as a relation between tokens and the trees that they derive. It knows
neither positions nor a limit on the height. -/
namespace TagQuery.Query

/-- The levels of the grammar, loosest binding first. -/
inductive Level where
  | disjunction
  | conjunction
  | term
  deriving DecidableEq, Repr

/-- The tokens derive the tree at a level. Both binary operators fold to the left, and juxtaposed
terms are a conjunction with `implicitAnd` only. Otherwise words in a row are one name. -/
inductive Derives (implicitAnd : Bool) : Level → List Token → Query → Prop
  | word (text : Text) : Derives implicitAnd .term [.word text] (.tag text)
  | words (first : Text) (more : List Text) (whole : implicitAnd = false) :
      Derives implicitAnd .term (.word first :: more.map .word)
        (.tag (Text.joinWith [' '] (first :: more)))
  | quoted (text : Text) (visible : text.allBlank = false) :
      Derives implicitAnd .term [.quoted text] (.tag text)
  | all : Derives implicitAnd .term [.all] .all
  | not {tokens : List Token} {inner : Query} (operand : Derives implicitAnd .term tokens inner) :
      Derives implicitAnd .term (.not :: tokens) (.not inner)
  | group (bracket : Bracket) {tokens : List Token} {inner : Query}
      (body : Derives implicitAnd .disjunction tokens inner) :
      Derives implicitAnd .term (.opening bracket :: (tokens ++ [.closing bracket])) (.group inner)
  | ofTerm {tokens : List Token} {tree : Query} (term : Derives implicitAnd .term tokens tree) :
      Derives implicitAnd .conjunction tokens tree
  | and {before after : List Token} {left right : Query}
      (first : Derives implicitAnd .conjunction before left)
      (second : Derives implicitAnd .term after right) :
      Derives implicitAnd .conjunction (before ++ .and :: after) (.and left right)
  | juxtaposed {before after : List Token} {left right : Query} (allowed : implicitAnd = true)
      (first : Derives implicitAnd .conjunction before left)
      (second : Derives implicitAnd .term after right) :
      Derives implicitAnd .conjunction (before ++ after) (.and left right)
  | ofConjunction {tokens : List Token} {tree : Query}
      (conjunction : Derives implicitAnd .conjunction tokens tree) :
      Derives implicitAnd .disjunction tokens tree
  | or {before after : List Token} {left right : Query}
      (first : Derives implicitAnd .disjunction before left)
      (second : Derives implicitAnd .conjunction after right) :
      Derives implicitAnd .disjunction (before ++ .or :: after) (.or left right)

namespace Derives

/-- Nothing is derived from no tokens. -/
theorem tokens_ne_nil {implicitAnd : Bool} {level : Level} {tokens : List Token} {tree : Query}
    (h : Derives implicitAnd level tokens tree) : tokens ≠ [] := by
  induction h with
  | juxtaposed _ _ _ ihl _ => exact fun h => ihl (List.append_eq_nil_iff.mp h).1
  | ofTerm _ ih => exact ih
  | ofConjunction _ ih => exact ih
  | _ => simp

/-- A tree of any level is a whole query. -/
theorem toDisjunction {implicitAnd : Bool} {level : Level} {tokens : List Token} {tree : Query}
    (h : Derives implicitAnd level tokens tree) : Derives implicitAnd .disjunction tokens tree :=
  match level, h with
  | .term, h => .ofConjunction (.ofTerm h)
  | .conjunction, h => .ofConjunction h
  | .disjunction, h => h

/-- A whole query in brackets is a term. -/
theorem bracketed {implicitAnd : Bool} {level : Level} {tokens : List Token} {tree : Query}
    (h : Derives implicitAnd level tokens tree) (bracket : Bracket) :
    Derives implicitAnd .term (.opening bracket :: (tokens ++ [.closing bracket])) (.group tree) :=
  .group bracket h.toDisjunction

end Derives

example : Derives true .disjunction [.word ['a'], .not, .word ['b'], .or, .all]
    (.or (.and (.tag ['a']) (.not (.tag ['b']))) .all) := by
  have name : Derives true .conjunction [.word ['a']] (.tag ['a']) := .ofTerm (.word _)
  have both := Derives.juxtaposed rfl name (.not (.word ['b']))
  exact .or (.ofConjunction both) (.ofTerm .all)

end TagQuery.Query
