import TagQuery.Proofs.Query.Acceptance
import TagQuery.Proofs.Query.Spelling

/-! The canonical text of a tree says the tree, with a group where the text has square brackets and
with the leaves that the dialect reads its words as. Main steps: the text is put together from pieces
that say its parts, a tree that was read has its groups already, and the usual keywords change no
leaf. -/
namespace TagQuery.Query

/-- How tightly the phrases of a level bind. -/
def Level.least : Level → Nat
  | disjunction => 0
  | conjunction => 1
  | term => 2

/-- The tightest level of the grammar that has the tree. -/
def level : Query → Level
  | or _ _ => .disjunction
  | and _ _ => .conjunction
  | _ => .term

theorem tightness_eq_least_level (q : Query) : q.tightness = q.level.least := by
  cases q <;> rfl

/-- What a level derives is derived by every looser one. -/
theorem Derives.loosen {implicitAnd : Bool} {inner outer : Level} {tokens : List Token}
    {tree : Query} (h : Derives implicitAnd inner tokens tree) (looser : outer.least ≤ inner.least) :
    Derives implicitAnd outer tokens tree := by
  cases outer with
  | disjunction => exact h.toDisjunction
  | conjunction =>
    cases inner with
    | disjunction => exact absurd looser (by decide)
    | conjunction => exact h
    | term => exact .ofTerm h
  | term =>
    cases inner with
    | disjunction | conjunction => exact absurd looser (by decide)
    | term => exact h

/-- The text is a phrase of the level, with this tree. -/
def Says (dialect : Dialect) (level : Level) (text : Text) (tree : Query) : Prop :=
  ∃ tokens, Spells dialect text tokens ∧ Derives dialect.implicitAnd level tokens tree

namespace Says

variable {dialect : Dialect} {place : Level} {text : Text} {tree : Query}

theorem loosen {inner : Level} (h : Says dialect inner text tree)
    (looser : place.least ≤ inner.least) : Says dialect place text tree := by
  obtain ⟨tokens, spelled, derived⟩ := h
  exact ⟨tokens, spelled, derived.loosen looser⟩

theorem group (bracket : Bracket) (h : Says dialect place text tree) :
    Says dialect .term (bracket.opener :: (text ++ [bracket.closer])) (.group tree) := by
  obtain ⟨tokens, spelled, derived⟩ := h
  have closer : Spells dialect [bracket.closer] [.closing bracket] := Spells.nil.closing bracket
  have ends : Delimited [bracket.closer] := delimited_cons.mpr (by cases bracket <;> decide)
  have inside := spelled.append closer (List.cons_ne_nil _ _) ends
  exact ⟨_, inside.opening bracket, derived.bracketed bracket⟩

/-- An operand is put in brackets where its place asks for it, and then it is a term. -/
theorem operand {operand : Query} (place : Level) (h : Says dialect operand.level text tree) :
    Says dialect place (bracketText place.least operand text)
      (bracketGroup place.least operand tree) := by
  unfold bracketText bracketGroup
  rw [tightness_eq_least_level]
  split
  · have term : place.least ≤ Level.term.least := by cases place <;> decide
    exact (h.group .square).loosen term
  · next tight => exact h.loosen (Nat.le_of_not_lt tight)

theorem and {left right : Query} {leftText rightText : Text}
    (first : Says dialect .conjunction leftText left)
    (second : Says dialect .term rightText right) :
    Says dialect .conjunction (leftText ++ " AND ".toList ++ rightText) (.and left right) := by
  obtain ⟨before, spelledLeft, derivedLeft⟩ := first
  obtain ⟨after, spelledRight, derivedRight⟩ := second
  have spelled := Spells.between "AND".toList (by decide) (by decide) spelledLeft spelledRight
  rw [List.append_assoc]
  exact ⟨_, spelled, derivedLeft.and derivedRight⟩

theorem or {left right : Query} {leftText rightText : Text}
    (first : Says dialect .disjunction leftText left)
    (second : Says dialect .conjunction rightText right) :
    Says dialect .disjunction (leftText ++ " OR ".toList ++ rightText) (.or left right) := by
  obtain ⟨before, spelledLeft, derivedLeft⟩ := first
  obtain ⟨after, spelledRight, derivedRight⟩ := second
  have spelled := Spells.between "OR".toList (by decide) (by decide) spelledLeft spelledRight
  rw [List.append_assoc]
  exact ⟨_, spelled, derivedLeft.or derivedRight⟩

theorem not (h : Says dialect .term text tree) :
    Says dialect .term ("NOT ".toList ++ text) (.not tree) := by
  obtain ⟨tokens, spelled, derived⟩ := h
  exact ⟨_, spelled.spaced "NOT".toList (by decide) (by decide), derived.not⟩

end Says

/-- The tag names of the tree can be seen. -/
def Visible (q : Query) : Prop := ∀ name ∈ q.names, name.allBlank = false

def isOperator (word : Text) : Bool :=
  word.sameWord "and".toList || word.sameWord "or".toList || word.sameWord "not".toList

/-- Whether a text is one word that is no operator. -/
def isOperand (word : Text) : Bool :=
  !word.isEmpty && !word.any isDelimiter && !isOperator word

def Dialect.isKeyword (dialect : Dialect) (word : Text) : Bool :=
  dialect.allKeywords.any (Text.sameWord word)

def Dialect.leaf (dialect : Dialect) (word : Text) : Query :=
  if dialect.isKeyword word then .all else .tag word

/-- The tree with the leaves that the dialect reads the words of its canonical text as. A name without
quotes may be a keyword, and `ALL` may be none. -/
def Dialect.reread (dialect : Dialect) : Query → Query
  | .tag name => if needsQuotes name then .tag name else dialect.leaf name
  | .all => dialect.leaf "ALL".toList
  | .and left right => .and (dialect.reread left) (dialect.reread right)
  | .or left right => .or (dialect.reread left) (dialect.reread right)
  | .not inner => .not (dialect.reread inner)
  | .group inner => .group (dialect.reread inner)

@[simp] theorem Dialect.height_leaf (dialect : Dialect) (word : Text) :
    (dialect.leaf word).height = 1 := by
  unfold leaf
  split <;> rfl

@[simp] theorem Dialect.height_reread (dialect : Dialect) (tree : Query) :
    (dialect.reread tree).height = tree.height := by
  induction tree with
  | tag name =>
    rw [reread]
    split
    · rfl
    · exact dialect.height_leaf name
  | all => exact dialect.height_leaf _
  | and left right ihl ihr | or left right ihl ihr => simp only [reread, height, ihl, ihr]
  | not inner ih | group inner ih => simp only [reread, height, ih]

theorem Dialect.reread_bracketGroup (dialect : Dialect) (least : Nat) (operand tree : Query) :
    dialect.reread (bracketGroup least operand tree) =
      bracketGroup least operand (dialect.reread tree) := by
  unfold bracketGroup
  split <;> rfl

/-- A name that needs no quotes is no keyword, and `ALL` is one. -/
structure Dialect.Canonical (dialect : Dialect) : Prop where
  bare : ∀ name, needsQuotes name = false → dialect.isKeyword name = false
  all : dialect.isKeyword "ALL".toList = true

/-- Such a dialect changes no leaf. -/
theorem Dialect.Canonical.reread_eq {dialect : Dialect} (canonical : dialect.Canonical)
    (tree : Query) : dialect.reread tree = tree := by
  induction tree with
  | tag name =>
    rw [reread]
    split
    · rfl
    · next bare => simp only [leaf, canonical.bare name (Bool.eq_false_iff.mpr bare),
        Bool.false_eq_true, if_false]
  | all => simp only [reread, leaf, canonical.all, if_true]
  | and left right ihl ihr | or left right ihl ihr => simp only [reread, ihl, ihr]
  | not inner ih | group inner ih => simp only [reread, ih]

/-- The names that are written without quotes. -/
theorem needsQuotes_eq_false_iff {name : Text} :
    needsQuotes name = false ↔
      isOperand name = true ∧ name ≠ "*".toList ∧ name.sameWord "all".toList = false := by
  simp only [needsQuotes, reservedWords, isOperand, isOperator, List.any_cons, List.any_nil,
    Bool.or_eq_false_iff, Bool.and_eq_true, Bool.not_eq_true', beq_eq_false_iff_ne]
  constructor
  · rintro ⟨⟨⟨some_char, noStar⟩, plain⟩, noAnd, noOr, noNot, noAll, -⟩
    exact ⟨⟨⟨some_char, plain⟩, ⟨noAnd, noOr⟩, noNot⟩, noStar, noAll⟩
  · rintro ⟨⟨⟨some_char, plain⟩, ⟨noAnd, noOr⟩, noNot⟩, noStar, noAll⟩
    exact ⟨⟨⟨some_char, noStar⟩, plain⟩, noAnd, noOr, noNot, noAll, trivial⟩

/-- No letter becomes a star in lower case. -/
theorem sameWord_star {name : Text} : name.sameWord "*".toList = true ↔ name = "*".toList := by
  have fixed : ∀ c : Char, c.toLower = '*' ↔ c = '*' := by
    intro c
    unfold Char.toLower
    split
    · next upper =>
      constructor
      · intro lowered
        have low : (c.val.toNat + 32) % 2 ^ 32 = 42 := congrArg (fun d => d.val.toNat) lowered
        have least : 65 ≤ c.val.toNat := UInt32.le_iff_toNat_le.mp upper.1
        have most : c.val.toNat ≤ 90 := UInt32.le_iff_toNat_le.mp upper.2
        omega
      · rintro rfl
        exact absurd upper (by decide)
    · exact Iff.rfl
  show (name.map Char.toLower == ['*']) = true ↔ name = ['*']
  rw [beq_iff_eq, List.map_eq_singleton_iff]
  constructor
  · rintro ⟨c, rfl, lowered⟩
    rw [(fixed c).mp lowered]
  · rintro rfl
    exact ⟨'*', rfl, rfl⟩

/-- The usual words for every item are read as they are written, whether or not adjacent terms are
joined. -/
theorem Dialect.canonical (implicitAnd : Bool) : Dialect.Canonical { implicitAnd } where
  bare := by
    intro name bare
    obtain ⟨-, noStar, noAll⟩ := needsQuotes_eq_false_iff.mp bare
    have noStar : name.sameWord "*".toList = false :=
      Bool.eq_false_iff.mpr fun same => noStar (sameWord_star.mp same)
    simp only [Dialect.isKeyword, List.any_cons, List.any_nil, noAll, noStar, Bool.or_self]
  all := by cases implicitAnd <;> rfl

section Rendered

variable {dialect : Dialect}

/-- A word that is no operator says its leaf. -/
theorem says_leaf {word : Text} (operand : isOperand word = true) :
    Says dialect .term word (dialect.leaf word) := by
  simp only [isOperand, isOperator, Bool.and_eq_true, Bool.not_eq_true', Bool.or_eq_false_iff,
    List.isEmpty_eq_false_iff] at operand
  obtain ⟨⟨some_char, plain⟩, ⟨noAnd, noOr⟩, noNot⟩ := operand
  have spelled : Spells dialect word [dialect.classify word] := Spells.word some_char plain
  simp only [Dialect.classify, noAnd, noOr, noNot, Bool.false_eq_true, if_false] at spelled
  unfold Dialect.leaf Dialect.isKeyword
  split at spelled
  · next keyword =>
    rw [if_pos keyword]
    exact ⟨_, spelled, .all⟩
  · next name =>
    rw [if_neg name]
    exact ⟨_, spelled, .word word⟩

theorem says_quoted {name : Text} (visible : name.allBlank = false) :
    Says dialect .term ('"' :: (name.flatMap escapedChar ++ ['"'])) (.tag name) :=
  ⟨_, Spells.quoted name, .quoted name visible⟩

theorem says_writtenName {name : Text} (visible : name.allBlank = false) :
    Says dialect .term (writtenName name) (dialect.reread (.tag name)) := by
  unfold writtenName Dialect.reread
  split
  · exact says_quoted visible
  · next bare => exact says_leaf (needsQuotes_eq_false_iff.mp (Bool.eq_false_iff.mpr bare)).1

/-- The canonical text of a tree is a phrase of the tree's own level, and says the tree with a group
for every pair of square brackets, as the dialect reads its leaves. -/
theorem says_render {tree : Query} (visible : tree.Visible) :
    Says dialect tree.level tree.render (dialect.reread tree.bracketed) := by
  -- An operand is said at its own level by induction, and brackets bring it to that of its place.
  induction tree with
  | tag name => exact says_writtenName (visible name List.mem_cons_self)
  | all => exact says_leaf (by decide)
  | and left right ihl ihr =>
    have first := ihl fun name member => visible name (List.mem_append_left _ member)
    have second := ihr fun name member => visible name (List.mem_append_right _ member)
    simp only [bracketed, Dialect.reread, Dialect.reread_bracketGroup]
    exact (first.operand .conjunction).and (second.operand .term)
  | or left right ihl ihr =>
    have first := ihl fun name member => visible name (List.mem_append_left _ member)
    have second := ihr fun name member => visible name (List.mem_append_right _ member)
    simp only [bracketed, Dialect.reread, Dialect.reread_bracketGroup]
    exact (first.operand .disjunction).or (second.operand .conjunction)
  | not inner ih =>
    simp only [bracketed, Dialect.reread, Dialect.reread_bracketGroup]
    exact ((ih visible).operand .term).not
  | group inner ih => exact (ih visible).group .round

end Rendered

theorem bracketGroup_of_le {least : Nat} {operand result : Query}
    (tight : least ≤ operand.tightness) :
    bracketGroup least operand result = result :=
  if_neg (Nat.not_lt.mpr tight)

/-- A tree that the grammar derives has a group wherever its text would have square brackets. -/
theorem Derives.bracketed_eq {implicitAnd : Bool} {level : Level} {tokens : List Token}
    {tree : Query} (h : Derives implicitAnd level tokens tree) :
    tree.bracketed = tree ∧ level.least ≤ tree.tightness := by
  induction h with
  | word | words | quoted | all => exact ⟨rfl, Nat.le_refl _⟩
  | ofTerm _ ih => exact ⟨ih.1, Nat.le_trans (by decide) ih.2⟩
  | ofConjunction _ ih => exact ⟨ih.1, Nat.zero_le _⟩
  | group _ _ ih => exact ⟨congrArg Query.group ih.1, Nat.le_refl _⟩
  | not _ ih =>
    obtain ⟨same, tight⟩ := ih
    simp only [Level.least] at tight
    refine ⟨?_, Nat.le_refl _⟩
    rw [Query.bracketed, bracketGroup_of_le tight, same]
  | and _ _ ihl ihr | juxtaposed _ _ _ ihl ihr | or _ _ ihl ihr =>
    obtain ⟨sameLeft, tightLeft⟩ := ihl
    obtain ⟨sameRight, tightRight⟩ := ihr
    simp only [Level.least] at tightLeft tightRight
    refine ⟨?_, Nat.le_refl _⟩
    rw [Query.bracketed, bracketGroup_of_le tightLeft, bracketGroup_of_le tightRight, sameLeft,
      sameRight]

/-- A tree whose tokens can be seen has names that can be seen. -/
theorem Derives.visible {implicitAnd : Bool} {level : Level} {tokens : List Token}
    {tree : Query} (h : Derives implicitAnd level tokens tree)
    (visible : ∀ token ∈ tokens, token.Visible) : tree.Visible := by
  induction h with
  | word text => simpa [Query.Visible, names, Token.Visible] using visible
  | words first more _ =>
    have seen : first.allBlank = false := visible _ List.mem_cons_self
    have joined : Text.allBlank (Text.joinWith [' '] (first :: more)) = false := by
      obtain ⟨after, split⟩ : ∃ after, Text.joinWith [' '] (first :: more) = first ++ after := by
        cases more <;> simp [Text.joinWith, List.intercalate]
      rw [split, Text.allBlank, List.all_append, ← Text.allBlank, seen, Bool.false_and]
    simpa [Query.Visible, names] using joined
  | quoted text seen => simpa [Query.Visible, names] using seen
  | all => simp [Query.Visible, names]
  | not _ ih => exact ih fun token member => visible token (List.mem_cons_of_mem _ member)
  | group _ _ ih =>
    exact ih fun token member =>
      visible token (List.mem_cons_of_mem _ (List.mem_append_left _ member))
  | ofTerm _ ih | ofConjunction _ ih => exact ih visible
  | and _ _ ihl ihr | or _ _ ihl ihr =>
    intro name member
    rcases List.mem_append.mp member with inLeft | inRight
    · exact ihl (fun token member => visible token (List.mem_append_left _ member)) name inLeft
    · exact ihr (fun token member => visible token
        (List.mem_append_right _ (List.mem_cons_of_mem _ member))) name inRight
  | juxtaposed _ _ _ ihl ihr =>
    intro name member
    rcases List.mem_append.mp member with inLeft | inRight
    · exact ihl (fun token member => visible token (List.mem_append_left _ member)) name inLeft
    · exact ihr (fun token member => visible token (List.mem_append_right _ member)) name inRight

/-- A tree that was read from a text has names that can be seen. -/
theorem visible_of_parse {dialect : Dialect} {text : Text} {tree : Query}
    (read : parse dialect text = .ok tree) : tree.Visible := by
  obtain ⟨lexemes, scanned, derived, -⟩ := parse_eq_ok_iff.mp read
  refine derived.visible fun token member => ?_
  obtain ⟨lexeme, among, rfl⟩ := List.mem_map.mp member
  exact tokenize_visible scanned lexeme among

/-- What a text that says a tree is read as. -/
theorem Says.parse_eq_ok_iff {dialect : Dialect} {level : Level} {text : Text} {tree other : Query}
    (h : Says dialect level text tree) :
    parse dialect text = .ok other ↔ other = tree ∧ other.height ≤ maxHeight := by
  obtain ⟨tokens, spelled, derived⟩ := h
  obtain ⟨lexemes, scanned, rfl⟩ := spelled.tokenize
  rw [Query.parse_eq_ok_iff]
  constructor
  · rintro ⟨found, again, derivedOther, fits⟩
    rw [scanned] at again
    cases again
    exact ⟨derivedOther.unique derived.toDisjunction, fits⟩
  · rintro ⟨rfl, fits⟩
    exact ⟨lexemes, scanned, derived.toDisjunction, fits⟩

/-- In a dialect that changes no leaf, only groups are added. -/
theorem parse_render_eq_ok_iff {dialect : Dialect} (canonical : dialect.Canonical)
    {tree other : Query} (visible : tree.Visible) :
    parse dialect tree.render = .ok other ↔ other = tree.bracketed ∧ other.height ≤ maxHeight := by
  rw [(says_render visible).parse_eq_ok_iff, canonical.reread_eq]

/-- Printing and reading are inverse, whether or not adjacent terms are joined. The canonical text of a
tree whose names can be seen is read as the tree with a group for every pair of square brackets, and is
an error exactly when that tree is too high; and whatever was read, in any dialect, is read again from
its canonical text. -/
theorem render_parse_inverse (implicitAnd : Bool) :
    (∀ tree : Query, tree.Visible →
      (tree.bracketed.height ≤ maxHeight →
        parse { implicitAnd } tree.render = .ok tree.bracketed) ∧
      (maxHeight < tree.bracketed.height →
        ∃ e : SyntaxError, parse { implicitAnd } tree.render = .error e)) ∧
    ∀ (dialect : Dialect) (text : Text) (tree : Query),
      parse dialect text = .ok tree → parse { implicitAnd } tree.render = .ok tree := by
  have canonical := Dialect.canonical implicitAnd
  refine ⟨fun tree visible => ⟨fun fits => ?_, fun high => ?_⟩, fun dialect text tree read => ?_⟩
  · exact (parse_render_eq_ok_iff canonical visible).mpr ⟨rfl, fits⟩
  · cases outcome : parse { implicitAnd } tree.render with
    | error e => exact ⟨e, rfl⟩
    | ok other =>
      obtain ⟨rfl, fits⟩ := (parse_render_eq_ok_iff canonical visible).mp outcome
      exact absurd fits (Nat.not_le.mpr high)
  · obtain ⟨_, _, derived, fits⟩ := parse_eq_ok_iff.mp read
    have same : tree = tree.bracketed := derived.bracketed_eq.1.symm
    exact (parse_render_eq_ok_iff canonical (visible_of_parse read)).mpr ⟨same, fits⟩

/-- The brackets around the disjunction are read as a group, and the name `or` stays a name. -/
theorem render_parse_inverse_of_disjunction :
    Visible (and (or (tag ['a']) (tag ['b'])) (tag "or".toList)) ∧
      parse { implicitAnd := false } (render (and (or (tag ['a']) (tag ['b'])) (tag "or".toList))) =
        .ok (and (group (or (tag ['a']) (tag ['b']))) (tag "or".toList)) := by
  have visible : Visible (and (or (tag ['a']) (tag ['b'])) (tag "or".toList)) := by
    unfold Visible
    decide
  exact ⟨visible, ((render_parse_inverse false).1 _ visible).1 (by decide)⟩

end TagQuery.Query
