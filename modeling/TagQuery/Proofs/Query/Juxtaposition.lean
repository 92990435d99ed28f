import TagQuery.Proofs.Query.Viability
import Mathlib.Data.List.Chain

/-! What it changes that juxtaposed terms are a conjunction. Main steps, both by induction on a
derivation: a conjunction from which AND is left out is a juxtaposition, with the same tree; and where no
two words stand side by side, every rule of the one grammar is a rule of the other. -/
namespace TagQuery.Query

/-- Some of the tokens AND are left out, and everything else is kept. -/
inductive OmitsAnds : List Token → List Token → Prop
  | nil : OmitsAnds [] []
  | keep (token : Token) {kept tokens : List Token} (rest : OmitsAnds kept tokens) :
      OmitsAnds (token :: kept) (token :: tokens)
  | skip {kept tokens : List Token} (rest : OmitsAnds kept tokens) :
      OmitsAnds kept (.and :: tokens)

namespace OmitsAnds

variable {kept tokens before after : List Token} {token : Token}

theorem of_nil (h : OmitsAnds kept []) : kept = [] := by
  cases h
  rfl

/-- Any other token is kept. -/
theorem of_cons (other : token ≠ .and) (h : OmitsAnds kept (token :: tokens)) :
    ∃ rest, kept = token :: rest ∧ OmitsAnds rest tokens := by
  cases h with
  | keep _ rest => exact ⟨_, rfl, rest⟩
  | skip rest => exact absurd rfl other

theorem of_singleton (other : token ≠ .and) (h : OmitsAnds kept [token]) : kept = [token] := by
  obtain ⟨rest, rfl, nothing⟩ := h.of_cons other
  rw [nothing.of_nil]

/-- What is kept of two pieces is kept of the one and of the other. -/
theorem of_append (h : OmitsAnds kept (before ++ after)) : ∃ keptBefore keptAfter,
    kept = keptBefore ++ keptAfter ∧ OmitsAnds keptBefore before ∧ OmitsAnds keptAfter after := by
  induction before generalizing kept with
  | nil => exact ⟨[], kept, rfl, .nil, h⟩
  | cons token before ih =>
    rw [List.cons_append] at h
    cases h with
    | keep _ rest =>
      obtain ⟨keptBefore, keptAfter, rfl, first, second⟩ := ih rest
      exact ⟨token :: keptBefore, keptAfter, rfl, first.keep token, second⟩
    | skip rest =>
      obtain ⟨keptBefore, keptAfter, rfl, first, second⟩ := ih rest
      exact ⟨keptBefore, keptAfter, rfl, first.skip, second⟩

end OmitsAnds

/-- Where juxtaposed terms are a conjunction, AND says nothing. -/
theorem Derives.omitAnds {level : Level} {kept tokens : List Token} {tree : Query}
    (h : Derives true level tokens tree) (omits : OmitsAnds kept tokens) :
    Derives true level kept tree := by
  induction h generalizing kept with
  | word text =>
    obtain rfl := omits.of_singleton Token.noConfusion
    exact .word text
  | words _ _ whole => cases whole
  | quoted text visible =>
    obtain rfl := omits.of_singleton Token.noConfusion
    exact .quoted text visible
  | all =>
    obtain rfl := omits.of_singleton Token.noConfusion
    exact .all
  | not _ ih =>
    obtain ⟨rest, rfl, operand⟩ := omits.of_cons Token.noConfusion
    exact .not (ih operand)
  | group bracket _ ih =>
    obtain ⟨rest, rfl, inside⟩ := omits.of_cons Token.noConfusion
    obtain ⟨body, last, rfl, bodyOmits, lastOmits⟩ := inside.of_append
    obtain rfl := lastOmits.of_singleton Token.noConfusion
    exact .group bracket (ih bodyOmits)
  | ofTerm _ ih => exact .ofTerm (ih omits)
  | and _ _ ihl ihr =>
    obtain ⟨left, right, rfl, leftOmits, rightOmits⟩ := omits.of_append
    cases rightOmits with
    | keep _ operand => exact .and (ihl leftOmits) (ihr operand)
    | skip operand => exact .juxtaposed rfl (ihl leftOmits) (ihr operand)
  | juxtaposed _ _ _ ihl ihr =>
    obtain ⟨left, right, rfl, leftOmits, rightOmits⟩ := omits.of_append
    exact .juxtaposed rfl (ihl leftOmits) (ihr rightOmits)
  | ofConjunction _ ih => exact .ofConjunction (ih omits)
  | or _ _ ihl ihr =>
    obtain ⟨left, right, rfl, leftOmits, rightOmits⟩ := omits.of_append
    obtain ⟨operand, rfl, operandOmits⟩ := rightOmits.of_cons Token.noConfusion
    exact .or (ihl leftOmits) (ihr operandOmits)

def Token.Apart (first second : Token) : Prop := ¬ (first.isWord = true ∧ second.isWord = true)

/-- Where no two words stand side by side, a query without juxtaposition is one with it. -/
theorem Derives.of_apart {level : Level} {tokens : List Token} {tree : Query}
    (h : Derives false level tokens tree) (apart : tokens.IsChain Token.Apart) :
    Derives true level tokens tree := by
  induction h with
  | word text => exact .word text
  | words first more _ =>
    cases more with
    | nil => simpa [Text.joinWith] using Derives.word first
    | cons second more => exact absurd ⟨rfl, rfl⟩ (List.isChain_cons_cons.mp apart).1
  | quoted text visible => exact .quoted text visible
  | all => exact .all
  | not _ ih => exact .not (ih apart.of_cons)
  | group bracket _ ih => exact .group bracket (ih apart.of_cons.left_of_append)
  | ofTerm _ ih => exact .ofTerm (ih apart)
  | and _ _ ihl ihr => exact .and (ihl apart.left_of_append) (ihr apart.right_of_append.of_cons)
  | juxtaposed allowed => cases allowed
  | ofConjunction _ ih => exact .ofConjunction (ih apart)
  | or _ _ ihl ihr => exact .or (ihl apart.left_of_append) (ihr apart.right_of_append.of_cons)

/-- Where juxtaposed terms are a conjunction, any of the tokens AND may be left out of a query, which is
read as the same tree; and a query in which no two words stand side by side is read as the same tree
whether or not they are. -/
theorem juxtaposition_reads_alike (stop stop' : Nat) (tokens : List Lexeme) (tree : Query) :
    (∀ kept : List Lexeme, OmitsAnds (kept.map Lexeme.token) (tokens.map Lexeme.token) →
      Reading.query { implicitAnd := true, stop } tokens = .ok tree →
      Reading.query { implicitAnd := true, stop := stop' } kept = .ok tree) ∧
    ((tokens.map Lexeme.token).IsChain Token.Apart →
      Reading.query { implicitAnd := false, stop } tokens = .ok tree →
      Reading.query { implicitAnd := true, stop := stop' } tokens = .ok tree) := by
  have limited : 0 < maxHeight := by decide
  constructor
  · intro kept omits read
    obtain ⟨derived, fits⟩ := (Reading.query_eq_ok_iff limited).mp read
    exact (Reading.query_eq_ok_iff limited).mpr ⟨derived.omitAnds omits, fits⟩
  · intro apart read
    obtain ⟨derived, fits⟩ := (Reading.query_eq_ok_iff limited).mp read
    exact (Reading.query_eq_ok_iff limited).mpr ⟨derived.of_apart apart, fits⟩

/-- One of two ANDs is left out in front of a negation, and both are kept in the other reading. -/
theorem juxtaposition_reads_alike_of_negation :
    let tokens : List Lexeme := [⟨.word ['a'], 0⟩, ⟨.and, 2⟩, ⟨.word ['b'], 6⟩, ⟨.and, 8⟩,
      ⟨.not, 12⟩, ⟨.word ['c'], 16⟩]
    let kept : List Lexeme := [⟨.word ['a'], 0⟩, ⟨.and, 2⟩, ⟨.word ['b'], 6⟩, ⟨.not, 8⟩,
      ⟨.word ['c'], 12⟩]
    let tree : Query := .and (.and (.tag ['a']) (.tag ['b'])) (.not (.tag ['c']))
    OmitsAnds (kept.map Lexeme.token) (tokens.map Lexeme.token) ∧
      (tokens.map Lexeme.token).IsChain Token.Apart ∧
      Reading.query { implicitAnd := false, stop := 17 } tokens = .ok tree ∧
      Reading.query { implicitAnd := true, stop := 17 } tokens = .ok tree ∧
      Reading.query { implicitAnd := true, stop := 13 } kept = .ok tree := by
  intro tokens kept tree
  have omits : OmitsAnds (kept.map Lexeme.token) (tokens.map Lexeme.token) :=
    .keep _ (.keep _ (.keep _ (.skip (.keep _ (.keep _ .nil)))))
  have apart : (tokens.map Lexeme.token).IsChain Token.Apart := by
    simp [tokens, Token.Apart, Token.isWord]
  have read : Reading.query { implicitAnd := false, stop := 17 } tokens = .ok tree := by
    decide +kernel
  have alike := (juxtaposition_reads_alike 17 17 tokens tree).2 apart read
  exact ⟨omits, apart, read, alike, (juxtaposition_reads_alike 17 13 tokens tree).1 kept omits alike⟩

end TagQuery.Query
