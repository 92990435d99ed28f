import TagQuery.Proofs.Query.RoundTrip
import TagQuery.Settings

/-! When the canonical text keeps its meaning under the keywords of the settings. It spells every item
`ALL` and leaves a name bare unless one of the usual keywords would be read in its place, whatever the
settings call every item. Main steps: which leaves a dialect changes, and which words a keyword makes
mean every item. -/
namespace TagQuery.Query

variable {dialect : Dialect}

def hasAll : Query → Bool
  | tag _ => false
  | all => true
  | and left right | or left right => left.hasAll || right.hasAll
  | not inner | group inner => inner.hasAll

theorem Dialect.leaf_eq_all_iff {word : Text} :
    dialect.leaf word = .all ↔ dialect.isKeyword word = true := by
  unfold leaf
  split <;> simp_all

theorem Dialect.leaf_eq_tag_iff {word : Text} :
    dialect.leaf word = .tag word ↔ dialect.isKeyword word = false := by
  unfold leaf
  split <;> simp_all

/-- The dialect changes no leaf of a tree if `ALL` is a keyword where the tree has it, and no bare name
of the tree is one. -/
theorem Dialect.reread_eq_self_iff {tree : Query} :
    dialect.reread tree = tree ↔
      (tree.hasAll = true → dialect.isKeyword "ALL".toList = true) ∧
      ∀ name ∈ tree.names, needsQuotes name = false → dialect.isKeyword name = false := by
  induction tree with
  | tag name =>
    simp only [reread, hasAll, names, List.mem_singleton, forall_eq, Bool.false_eq_true,
      false_imp_iff, true_and]
    split
    · next quoted => simp [quoted]
    · next bare => simp [leaf_eq_tag_iff, bare]
  | all => simp [reread, hasAll, names, leaf_eq_all_iff]
  | and left right ihl ihr | or left right ihl ihr =>
    simp only [reread, and.injEq, or.injEq, ihl, ihr, hasAll, names, Bool.or_eq_true,
      List.mem_append, or_imp, forall_and]
    exact and_and_and_comm
  | not inner ih | group inner ih =>
    simpa only [reread, not.injEq, group.injEq, hasAll, names] using ih

/-- A tree that asks for every item is derived from a token that means so. -/
theorem Derives.all_mem {implicitAnd : Bool} {level : Level} {tokens : List Token} {tree : Query}
    (h : Derives implicitAnd level tokens tree) (everywhere : tree.hasAll = true) :
    .all ∈ tokens := by
  induction h with
  | word | words | quoted => cases everywhere
  | all => exact List.mem_cons_self
  | not _ ih => exact List.mem_cons_of_mem _ (ih everywhere)
  | group _ _ ih => exact List.mem_cons_of_mem _ (List.mem_append_left _ (ih everywhere))
  | ofTerm _ ih | ofConjunction _ ih => exact ih everywhere
  | and _ _ ihl ihr | or _ _ ihl ihr =>
    rcases Bool.or_eq_true_iff.mp everywhere with inLeft | inRight
    · exact List.mem_append_left _ (ihl inLeft)
    · exact List.mem_append_right _ (List.mem_cons_of_mem _ (ihr inRight))
  | juxtaposed _ _ _ ihl ihr =>
    rcases Bool.or_eq_true_iff.mp everywhere with inLeft | inRight
    · exact List.mem_append_left _ (ihl inLeft)
    · exact List.mem_append_right _ (ihr inRight)

theorem isDelimiter_toLower (c : Char) : isDelimiter c.toLower = isDelimiter c := by
  have ascii : ∀ n < 128, isDelimiter (Char.ofNat n).toLower = isDelimiter (Char.ofNat n) := by
    decide +kernel
  by_cases low : c.toNat < 128
  · simpa using ascii c.toNat low
  · have notUpper : ¬ (c.val ≥ 'A'.val ∧ c.val ≤ 'Z'.val) := fun upper =>
      low (Nat.lt_of_le_of_lt (UInt32.le_iff_toNat_le.mp upper.2) (by decide))
    have same : c.toLower = c := dif_neg notUpper
    rw [same]

/-- Words that differ in the case of letters only are operators and words together. -/
theorem isOperand_congr {word other : Text} (same : word.sameWord other = true) :
    isOperand word = isOperand other := by
  have same : word.map Char.toLower = other.map Char.toLower := beq_iff_eq.mp same
  have empty : word.isEmpty = other.isEmpty := by
    rw [← List.isEmpty_map (f := Char.toLower), same, List.isEmpty_map]
  have delimiters (t : Text) : t.any isDelimiter = (t.map Char.toLower).any isDelimiter := by
    rw [List.any_map]
    exact List.any_congr rfl fun c => (isDelimiter_toLower c).symm
  simp only [isOperand, isOperator, Text.sameWord, empty, delimiters word, delimiters other, same]

/-- What the reader has seen of a word is not empty, and no part of it is a delimiter. -/
def ScanState.IsPlain : ScanState → Prop
  | inWord _ seen => seen ≠ [] ∧ seen.any isDelimiter = false
  | _ => True

/-- If the token means every item, it was read from a word that means so. -/
def Dialect.Meant (dialect : Dialect) (token : Token) : Prop :=
  token = .all → ∃ word, isOperand word = true ∧ dialect.isKeyword word = true

theorem Dialect.classify_eq_all_iff {word : Text} :
    dialect.classify word = .all ↔ isOperator word = false ∧ dialect.isKeyword word = true := by
  unfold classify isOperator isKeyword
  repeat' split
  all_goals simp_all

theorem Dialect.isOperand_of_classify {word : Text} (some_char : word ≠ [])
    (plain : word.any isDelimiter = false) (means : dialect.classify word = .all) :
    isOperand word = true ∧ dialect.isKeyword word = true := by
  obtain ⟨operand, keyword⟩ := classify_eq_all_iff.mp means
  exact ⟨by simp [isOperand, some_char, plain, operand], keyword⟩

theorem Dialect.classify_meant {word : Text} (some_char : word ≠ [])
    (plain : word.any isDelimiter = false) : dialect.Meant (dialect.classify word) :=
  fun means => ⟨word, isOperand_of_classify some_char plain means⟩

theorem ScanState.enter_isPlain (position : Nat) (c : Char) :
    (∀ lexeme ∈ (enter position c).1, dialect.Meant lexeme.token) ∧
      (enter position c).2.IsPlain := by
  unfold enter
  repeat' split
  all_goals simp_all [Dialect.Meant, IsPlain, isDelimiter]

theorem ScanState.step_isPlain (state : ScanState) (position : Nat) (c : Char)
    (plain : state.IsPlain) :
    (∀ lexeme ∈ (state.step dialect position c).1, dialect.Meant lexeme.token) ∧
      (state.step dialect position c).2.IsPlain := by
  have entered : (∀ lexeme ∈ (enter position c).1, dialect.Meant lexeme.token) ∧
    (enter position c).2.IsPlain := enter_isPlain position c
  cases state with
  | between => simpa [step] using entered
  | inWord start seen =>
    obtain ⟨some_char, plain⟩ := plain
    simp only [step]
    split
    · refine ⟨fun lexeme member => ?_, entered.2⟩
      rcases List.mem_cons.mp member with rfl | own
      · exact Dialect.classify_meant (by simpa using some_char) (by simpa using plain)
      · exact entered.1 lexeme (Option.mem_toList.mp own)
    · next other =>
      refine ⟨fun lexeme member => absurd member List.not_mem_nil, List.cons_ne_nil _ _, ?_⟩
      rw [List.any_cons, plain, Bool.or_false]
      exact Bool.eq_false_iff.mpr other
  | inQuotes start seen =>
    simp only [step]
    repeat' split
    all_goals simp [Dialect.Meant, IsPlain]
  | escaping start seen => simp [step, IsPlain]

/-- Where some text means every item, a word does. -/
theorem exists_keyword_of_parse {text : Text} {tree : Query}
    (read : parse dialect text = .ok tree) (everywhere : tree.hasAll = true) :
    ∃ word, isOperand word = true ∧ dialect.isKeyword word = true := by
  obtain ⟨lexemes, scanned, derived, -⟩ := parse_eq_ok_iff.mp read
  have meant : ∀ token ∈ lexemes.map Lexeme.token, dialect.Meant token := by
    intro token member
    obtain ⟨lexeme, among, rfl⟩ := List.mem_map.mp member
    have starts : ScanState.between.IsPlain := trivial
    have finish (start : Nat) (seen : Text) (plain : (ScanState.inWord start seen).IsPlain) :
        dialect.Meant (dialect.classify seen.reverse) :=
      Dialect.classify_meant (by simpa using plain.1) (by simpa using plain.2)
    exact scan_invariant ScanState.step_isPlain finish starts scanned lexeme among
  exact meant .all (derived.all_mem everywhere) rfl

theorem allBlank_of_isOperand {word : Text} (operand : isOperand word = true) :
    word.allBlank = false := by
  cases word with
  | nil => cases operand
  | cons c rest =>
    simp only [isOperand, List.any_cons, isDelimiter, Bool.and_eq_true, Bool.not_eq_true',
      Bool.or_eq_false_iff] at operand
    simp [Text.allBlank, operand]

/-- A word that means every item says so by itself. -/
theorem parse_eq_all_of_isKeyword {word : Text} (operand : isOperand word = true)
    (keyword : dialect.isKeyword word = true) : parse dialect word = .ok .all := by
  have spelled : Says dialect .term word (dialect.leaf word) := says_leaf operand
  rw [Dialect.leaf_eq_all_iff.mpr keyword] at spelled
  exact spelled.parse_eq_ok_iff.mpr ⟨rfl, by decide⟩

/-- Every word that means every item is one of the usual ones, and `ALL` is among the words if there is
any. -/
def Dialect.OnlyUsual (dialect : Dialect) : Prop :=
  ∀ keyword ∈ dialect.allKeywords, isOperand keyword = true →
    (keyword = "*".toList ∨ keyword.sameWord "all".toList = true) ∧
      dialect.isKeyword "ALL".toList = true

/-- What is read is read again from its canonical text, except for the leaves that the dialect reads
otherwise. -/
theorem parse_render_of_parse {text : Text} {tree : Query}
    (read : parse dialect text = .ok tree) :
    parse dialect tree.render = .ok (dialect.reread tree) := by
  obtain ⟨_, _, derived, fits⟩ := parse_eq_ok_iff.mp read
  have spelled : Says dialect tree.level tree.render (dialect.reread tree.bracketed) :=
    says_render (visible_of_parse read)
  rw [derived.bracketed_eq.1] at spelled
  exact spelled.parse_eq_ok_iff.mpr ⟨rfl, by rwa [Dialect.height_reread]⟩

theorem parse_render_eq_self_iff {text : Text} {tree : Query}
    (read : parse dialect text = .ok tree) :
    parse dialect tree.render = .ok tree ↔
      (tree.hasAll = true → dialect.isKeyword "ALL".toList = true) ∧
      ∀ name ∈ tree.names, needsQuotes name = false → dialect.isKeyword name = false := by
  rw [parse_render_of_parse read, Except.ok.injEq, Dialect.reread_eq_self_iff]

/-- A word that differs from a keyword in the case of letters only is an operand with it. -/
theorem Dialect.OnlyUsual.of_isKeyword (usual : dialect.OnlyUsual) {word : Text}
    (operand : isOperand word = true) (keyword : dialect.isKeyword word = true) :
    needsQuotes word = true ∧ dialect.isKeyword "ALL".toList = true := by
  obtain ⟨listed, among, same⟩ := List.any_eq_true.mp keyword
  rw [isOperand_congr same] at operand
  obtain ⟨rfl | spellsAll, named⟩ := usual listed among operand
  · exact ⟨by rw [sameWord_star.mp same]; decide, named⟩
  · refine ⟨Bool.of_not_eq_false fun bare => ?_, named⟩
    have notAll := (needsQuotes_eq_false_iff.mp bare).2.2
    simp only [Text.sameWord, beq_iff_eq, beq_eq_false_iff_ne] at same spellsAll notAll
    exact notAll (same.trans spellsAll)

theorem Dialect.OnlyUsual.keeps (usual : dialect.OnlyUsual) {text : Text} {tree : Query}
    (read : parse dialect text = .ok tree) : parse dialect tree.render = .ok tree := by
  refine (parse_render_eq_self_iff read).mpr ⟨fun everywhere => ?_, fun name _ bare => ?_⟩
  · obtain ⟨word, operand, keyword⟩ := exists_keyword_of_parse read everywhere
    exact (usual.of_isKeyword operand keyword).2
  · refine Bool.eq_false_iff.mpr fun keyword => ?_
    have operand := (needsQuotes_eq_false_iff.mp bare).1
    have quoted := (usual.of_isKeyword operand keyword).1
    rw [bare] at quoted
    cases quoted

/-- Another word that means every item, or the lack of `ALL`, changes the meaning of some text. -/
theorem Dialect.OnlyUsual.of_keeps
    (keeps : ∀ text tree, parse dialect text = .ok tree → parse dialect tree.render = .ok tree) :
    dialect.OnlyUsual := by
  intro keyword among operand
  have means : dialect.isKeyword keyword = true :=
    List.any_eq_true.mpr ⟨keyword, among, beq_self_eq_true _⟩
  constructor
  · refine Decidable.byContradiction fun other => ?_
    obtain ⟨noStar, notAll⟩ := not_or.mp other
    have bare : needsQuotes keyword = false :=
      needsQuotes_eq_false_iff.mpr ⟨operand, noStar, Bool.eq_false_iff.mpr notAll⟩
    have visible : keyword.allBlank = false := allBlank_of_isOperand operand
    have low : (tag keyword).height ≤ maxHeight := (by decide : 0 < maxHeight)
    have read : parse dialect _ = .ok (.tag keyword) :=
      (says_quoted visible).parse_eq_ok_iff.mpr ⟨rfl, low⟩
    have named := ((parse_render_eq_self_iff read).mp (keeps _ _ read)).2 keyword
      List.mem_cons_self bare
    rw [means] at named
    cases named
  · have read := parse_eq_all_of_isKeyword operand means
    exact ((parse_render_eq_self_iff read).mp (keeps _ _ read)).1 rfl

/-- Under any settings, the canonical text of a query that was read is read again, as the same query
with the leaves that the keywords make of its words: so it is the same query if `ALL` is a keyword
where the query has it and no bare name of the query is a keyword. This is so for every query exactly
if every keyword that can be read is one of the usual ones and `ALL` is among them. -/
theorem canonical_text_faithful_iff (settings : Settings) :
    (∀ text tree, parse settings.dialect text = .ok tree →
      parse settings.dialect tree.render = .ok (settings.dialect.reread tree) ∧
      (parse settings.dialect tree.render = .ok tree ↔
        (tree.hasAll = true → settings.dialect.isKeyword "ALL".toList = true) ∧
        ∀ name ∈ tree.names, needsQuotes name = false →
          settings.dialect.isKeyword name = false)) ∧
    ((∀ text tree, parse settings.dialect text = .ok tree →
      parse settings.dialect tree.render = .ok tree) ↔ settings.dialect.OnlyUsual) :=
  ⟨fun _ _ read => ⟨parse_render_of_parse read, parse_render_eq_self_iff read⟩,
    Dialect.OnlyUsual.of_keeps, fun usual _ _ read => usual.keeps read⟩

/-- With another keyword and no `ALL`, every item becomes a tag; and with another keyword, a tag becomes
every item. -/
theorem canonical_text_unfaithful_of_everything :
    let sole : Settings := { dialect := { allKeywords := ["everything".toList] } }
    let both : Settings := { dialect := { allKeywords := ["all".toList, "everything".toList] } }
    sole.fault? = none ∧ parse sole.dialect "everything".toList = .ok .all ∧
      parse sole.dialect (render .all) = .ok (.tag "ALL".toList) ∧
    both.fault? = none ∧
      parse both.dialect "\"everything\"".toList = .ok (.tag "everything".toList) ∧
      parse both.dialect (render (.tag "everything".toList)) = .ok .all := by
  intro sole both
  have anything : Derives true .disjunction [.all] .all := Derives.toDisjunction .all
  have name : Derives true .disjunction [.word "ALL".toList] (.tag "ALL".toList) :=
    Derives.toDisjunction (.word _)
  have quoted : Derives true .disjunction [.quoted "everything".toList]
      (.tag "everything".toList) := Derives.toDisjunction (.quoted _ rfl)
  refine ⟨rfl, ?_, ?_, rfl, ?_, ?_⟩
  · exact parse_eq_ok_iff.mpr ⟨_, rfl, anything, by decide⟩
  · exact parse_eq_ok_iff.mpr ⟨_, rfl, name, by decide⟩
  · exact parse_eq_ok_iff.mpr ⟨_, rfl, quoted, by decide⟩
  · exact parse_eq_ok_iff.mpr ⟨_, rfl, anything, by decide⟩

end TagQuery.Query
