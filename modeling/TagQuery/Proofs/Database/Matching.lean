import TagQuery.Proofs.Store.Ranking

/-! What the pattern tests of the database decide, for texts without null characters. The matcher finds out
whether a text matches a pattern, the pattern of a stem matches exactly the texts that begin with the stem,
and no statement tests anything else. Main statement: within the limits of the engine each lookup is
answered, and whatever is answered has been selected by beginnings. -/
namespace TagQuery.Database

/-- A text matches a pattern: `%` stands for any run of characters, `_` for any one character, and a
character behind a backslash, or any other character, for itself. -/
inductive Matches : Text → Text → Prop
  | nil : Matches [] []
  | anyRun (run : Text) {pattern t : Text} (rest : Matches pattern t) :
      Matches ('%' :: pattern) (run ++ t)
  | anyChar (c : Char) {pattern t : Text} (rest : Matches pattern t) :
      Matches ('_' :: pattern) (c :: t)
  | escaped (c : Char) {pattern t : Text} (rest : Matches pattern t) :
      Matches ('\\' :: c :: pattern) (c :: t)
  | plain {c : Char} {pattern t : Text} (literal : c ≠ '%' ∧ c ≠ '_' ∧ c ≠ '\\')
      (rest : Matches pattern t) : Matches (c :: pattern) (c :: t)

theorem someSuffix_iff {test : Text → Bool} {t : Text} :
    someSuffix test t = true ↔ ∃ run rest, run ++ rest = t ∧ test rest = true := by
  induction t with
  | nil => simp [someSuffix]
  | cons c t ih =>
    rw [someSuffix, Bool.or_eq_true, ih]
    constructor
    · rintro (whole | ⟨run, rest, rfl, passes⟩)
      · exact ⟨[], _, rfl, whole⟩
      · exact ⟨c :: run, rest, rfl, passes⟩
    · rintro ⟨run, rest, split, passes⟩
      cases run with
      | nil => exact .inl (split ▸ passes)
      | cons d run =>
        obtain ⟨rfl, rfl⟩ := List.cons.inj split
        exact .inr ⟨run, rest, rfl, passes⟩

/-- Any other character stands for itself. -/
theorem fits_plain {c : Char} (literal : c ≠ '%' ∧ c ≠ '_' ∧ c ≠ '\\') (pattern : Text) (d : Char)
    (t : Text) : fits (c :: pattern) (d :: t) = (d == c && fits pattern t) := by
  obtain ⟨noPercent, noUnderscore, noBackslash⟩ := literal
  simp [fits, noBackslash]

theorem Matches.fits {pattern t : Text} (h : Matches pattern t) : fits pattern t = true := by
  induction h with
  | nil => rfl
  | anyRun run rest ih => exact someSuffix_iff.mpr ⟨run, _, rfl, ih⟩
  | anyChar c rest ih => exact ih
  | escaped c rest ih => rw [Database.fits, ih, beq_self_eq_true, Bool.and_self]
  | plain literal rest ih => rw [fits_plain literal, ih, beq_self_eq_true, Bool.and_self]

theorem matches_of_fits {pattern t : Text} (h : fits pattern t = true) : Matches pattern t := by
  -- What stands behind `%` is tried on several texts, so the induction is on the length of the pattern.
  induction size : pattern.length using Nat.strongRecOn generalizing pattern t with
  | _ n ih =>
    subst size
    fun_cases fits pattern t with
    | case1 =>
      obtain rfl := List.isEmpty_iff.mp h
      exact .nil
    | case2 p =>
      obtain ⟨run, rest, rfl, passes⟩ := someSuffix_iff.mp h
      exact .anyRun run (ih _ (Nat.lt_succ_self _) passes rfl)
    | case3 | case5 | case6 => cases h
    | case4 p c rest => exact .anyChar c (ih _ (Nat.lt_succ_self _) h rfl)
    | case7 e p c rest =>
      rw [fits, Bool.and_eq_true, beq_iff_eq] at h
      obtain ⟨rfl, later⟩ := h
      exact .escaped c (ih _ (Nat.lt_succ_of_lt (Nat.lt_succ_self _)) later rfl)
    | case8 => simp [fits, *] at h
    | case9 e p noPercent noUnderscore lone more c rest =>
      have noBackslash : e ≠ '\\' := by
        rintro rfl
        cases p with
        | nil => exact lone rfl rfl
        | cons d p => exact more d p rfl rfl
      have literal : e ≠ '%' ∧ e ≠ '_' ∧ e ≠ '\\' := ⟨noPercent, noUnderscore, noBackslash⟩
      rw [fits_plain literal, Bool.and_eq_true, beq_iff_eq] at h
      obtain ⟨rfl, later⟩ := h
      exact .plain literal (ih _ (Nat.lt_succ_self _) later rfl)

theorem fits_iff_matches {pattern t : Text} : fits pattern t = true ↔ Matches pattern t :=
  ⟨matches_of_fits, Matches.fits⟩

/-- The matcher finds out whether what is read of a text matches what is read of a pattern. -/
theorem like_iff_matches {pattern t : Text} :
    like pattern t = true ↔ Matches (upToNull pattern) (upToNull t) := fits_iff_matches

/-- The pattern of a stem is matched by what begins with the stem. -/
theorem matches_stemPattern_iff {stem t : Text} : Matches (stemPattern stem) t ↔ stem <+: t := by
  rw [← fits_iff_matches, fits_stemPattern, List.isPrefixOf_iff_prefix]

/-- A text is compared with a stem unless the pattern of the stem is too long. -/
theorem beginsWith_eq {stem : Text} (whole : '\x00' ∉ stem) (t : Text) : beginsWith t stem =
    if maxPatternBytes < (stemPattern stem).byteLength then .error patternTooLong
    else .ok (stem.isPrefixOf t) := by
  rw [beginsWith, like_stemPattern whole]

variable {db : Database} {scope : Scope} {id name t stem start : Text} {stems : List Text}

def IsShort (stem : Text) : Prop := (stemPattern stem).byteLength ≤ maxPatternBytes

instance (stem : Text) : Decidable (IsShort stem) :=
  inferInstanceAs (Decidable ((stemPattern stem).byteLength ≤ maxPatternBytes))

theorem beginsWith_of_isShort (short : IsShort stem) (t : Text) :
    beginsWith t stem = .ok (like (stemPattern stem) t) := if_neg (Nat.not_lt.mpr short)

theorem beginsWithAny_of_isShort (short : ∀ stem ∈ stems, IsShort stem) (t : Text) :
    ∃ found, beginsWithAny t stems = .ok found := by
  induction stems with
  | nil => exact ⟨false, rfl⟩
  | cons stem rest ih =>
    obtain ⟨shortFirst, shortRest⟩ := List.forall_mem_cons.mp short
    rw [beginsWithAny, beginsWith_of_isShort shortFirst]
    cases like (stemPattern stem) t with
    | true => exact ⟨true, rfl⟩
    | false => exact ih shortRest

theorem within_of_le {α : Type} {levels : Nat} (shallow : stems.length + levels ≤ maxDepth)
    (answer : Except Fault α) : within levels stems answer = answer :=
  if_neg (Nat.not_lt.mpr shallow)

/-- Rows are selected when every test is answered. -/
theorem exists_select {α : Type} {test : α → Except Fault Bool}
    (answered : ∀ a, ∃ b, test a = .ok b) (rows : List α) : ∃ kept, select test rows = .ok kept := by
  induction rows with
  | nil => exact ⟨[], rfl⟩
  | cons a rest ih =>
    obtain ⟨kept, later⟩ := ih
    obtain ⟨b, first⟩ := answered a
    rw [select, first, later]
    cases b with
    | true => exact ⟨a :: kept, rfl⟩
    | false => exact ⟨kept, rfl⟩

theorem exists_itemPasses (short : ∀ stem ∈ stems, IsShort stem) (id : Text) :
    ∃ b, db.itemPasses (beginsWithAny · stems) id = .ok b := by
  unfold itemPasses
  split
  · exact ⟨false, rfl⟩
  · exact beginsWithAny_of_isShort short _

/-- Whichever way a statement goes through the tables to count, it comes to its rows. -/
theorem exists_countedRows (short : ∀ stem ∈ stems, IsShort stem) (shortStart : IsShort start) :
    ∃ rows, db.countedRows stems start = .ok rows := by
  have byTag := exists_select (fun r : JoinedRow => ⟨_, beginsWith_of_isShort shortStart r.tag.folded⟩)
  have byLocation := exists_select fun r : JoinedRow => beginsWithAny_of_isShort short r.location
  have tested := exists_select fun p : Text × Text => beginsWithAny_of_isShort short p.2
  unfold countedRows
  simp only
  split
  · exact byTag _
  · obtain ⟨kept, found⟩ := tested (db.tables.items.toList.filter fun p => indexed stems p.2)
    rw [found]
    exact byTag _
  · obtain ⟨kept, found⟩ := byLocation (joined db.tables)
    rw [found]
    exact byTag kept
  · obtain ⟨kept, found⟩ := byTag (joined db.tables)
    rw [found]
    exact byLocation kept

def StoredUnder (db : Database) (scope : Scope) (id : Text) : Prop :=
  ∃ location, db.tables.items[id]? = some location ∧ ∃ stem ∈ db.stems scope, stem <+: location

theorem finds_iff_storedUnder (whole : ∀ stem ∈ db.stems scope, '\x00' ∉ stem) :
    db.finds scope id = true ↔ db.StoredUnder scope id := by
  simp only [finds, Option.any_eq_true, indexed_eq whole, List.any_eq_true,
    List.isPrefixOf_iff_prefix, StoredUnder]

/-- Each lookup that is answered has selected by beginnings: the stored locations are those that begin
with a stem of the scope, and the tags that are counted those whose folded name begins as asked. -/
structure SelectsByBeginning (db : Database) (scope : Scope) : Prop where
  withTag : ∀ {name ids}, db.withTag name scope = .ok ids → ∀ id, id ∈ ids ↔
    (∃ tag, db.tables.findTag? (Tag.fold name) = some tag ∧ ⟨id, tag.row⟩ ∈ db.tables.links) ∧
      db.StoredUnder scope id
  inScope : ∀ {ids}, db.inScope scope = .ok ids → ∀ id, id ∈ ids ↔ db.StoredUnder scope id
  restrict : ∀ {ids kept}, db.restrict ids scope = .ok kept → ∀ id,
    id ∈ kept ↔ id ∈ ids ∧ db.StoredUnder scope id
  tagCounts : ∀ {start limit counts}, '\x00' ∉ Tag.fold start →
    db.tagCounts scope start limit = .ok counts →
    counts = TagCount.rank (countRows db.tables ((joined db.tables).filter fun r =>
      (Tag.fold start).isPrefixOf r.tag.folded && (db.stems scope).any (·.isPrefixOf r.location))) limit

section Whole

variable (whole : ∀ stem ∈ db.stems scope, '\x00' ∉ stem)
include whole

theorem tagCounts_eq_rank (wholeStart : '\x00' ∉ Tag.fold start) {limit : Nat}
    {counts : List TagCount} (h : db.tagCounts scope start limit = .ok counts) :
    counts = TagCount.rank (countRows db.tables ((joined db.tables).filter fun r =>
      (Tag.fold start).isPrefixOf r.tag.folded && (db.stems scope).any (·.isPrefixOf r.location)))
      limit := by
  rw [tagCounts_eq_map] at h
  obtain ⟨rows, given, rfl⟩ := map_eq_ok h
  unfold counted at given
  split at given
  · next empty =>
    cases given
    simp [stems_of_isEmpty empty]
  · rw [countedRows_eq_ok (within_eq_ok given), rowsInScope]
    simp only [like_stemPattern wholeStart, indexed_eq whole]

theorem selectsByBeginning : db.SelectsByBeginning scope where
  withTag h id := by rw [mem_withTag_iff h, finds_iff_storedUnder whole]
  inScope h id := by rw [mem_inScope_iff h, finds_iff_storedUnder whole]
  restrict h id := by rw [mem_restrict_iff h, finds_iff_storedUnder whole]
  tagCounts wholeStart h := tagCounts_eq_rank whole wholeStart h

end Whole

structure Answers (db : Database) (scope : Scope) : Prop where
  withTag : ∀ name, ∃ ids, db.withTag name scope = .ok ids
  inScope : ∃ ids, db.inScope scope = .ok ids
  restrict : ∀ ids, ∃ kept, db.restrict ids scope = .ok kept
  tagCounts : ∀ start limit, IsShort (Tag.fold start) →
    ∃ counts, db.tagCounts scope start limit = .ok counts

/-- The longest condition that a lookup makes of the scope may have five levels more than stems. -/
theorem answers_of_isShort (shallow : (db.stems scope).length + 5 ≤ maxDepth)
    (short : ∀ stem ∈ db.stems scope, IsShort stem) : db.Answers scope where
  withTag name := by
    unfold withTag
    split
    · exact ⟨∅, rfl⟩
    · simp only [within_of_le shallow]
      split
      · exact ⟨∅, rfl⟩
      · next tag _ =>
        obtain ⟨kept, selected⟩ := exists_select (db.exists_itemPasses short)
          ((db.tables.links.filter (·.row == tag.row)).map Link.item)
        rw [selected]
        exact ⟨_, rfl⟩
  inScope := by
    unfold inScope
    split
    · exact ⟨∅, rfl⟩
    · have shallower : (db.stems scope).length + 2 ≤ maxDepth := by omega
      simp only [within_of_le shallower]
      exact ⟨_, rfl⟩
  restrict ids := by
    unfold restrict
    split
    · exact ⟨∅, rfl⟩
    · have shallower : (db.stems scope).length + 3 ≤ maxDepth := by omega
      simp only [within_of_le shallower]
      obtain ⟨kept, selected⟩ := exists_select (db.exists_itemPasses short) ids.toList
      rw [selected]
      exact ⟨_, rfl⟩
  tagCounts start limit shortStart := by
    rw [tagCounts_eq_map]
    unfold counted
    split
    · exact ⟨_, rfl⟩
    · obtain ⟨rows, counted⟩ := db.exists_countedRows short shortStart
      rw [within_of_le shallow, counted]
      exact ⟨_, rfl⟩

/-- Patterns of stems are exact where no null character is. An escaped text and `%` match what begins with
the text, and nothing else, by what patterns mean; a row is compared so with any stem whose pattern is not
too long. Every lookup of any database is made of such comparisons, and within the limits of the engine it
is answered. -/
theorem stem_patterns_exact :
    (∀ stem t, '\x00' ∉ stem → (like (escapeLike stem ++ ['%']) t = true ↔ stem <+: t)) ∧
    (∀ pattern t, '\x00' ∉ pattern → '\x00' ∉ t → (like pattern t = true ↔ Matches pattern t)) ∧
    (∀ stem t, '\x00' ∉ stem → beginsWith t stem =
      if maxPatternBytes < (stemPattern stem).byteLength then .error patternTooLong
      else .ok (stem.isPrefixOf t)) ∧
    ∀ (db : Database) (scope : Scope),
      ((∀ stem ∈ db.stems scope, '\x00' ∉ stem) → db.SelectsByBeginning scope) ∧
      ((db.stems scope).length + 5 ≤ maxDepth → (∀ stem ∈ db.stems scope, IsShort stem) →
        db.Answers scope) := by
  refine ⟨fun stem t whole => ?_, fun pattern t whole whole' => ?_,
    fun stem t whole => beginsWith_eq whole t,
    fun db scope => ⟨selectsByBeginning, answers_of_isShort⟩⟩
  · rw [← matches_stemPattern_iff, ← fits_iff_matches, fits_stemPattern]
    exact iff_of_eq (congrArg (· = true) (like_stemPattern whole t))
  · rw [like_iff_matches, upToNull_of_whole whole, upToNull_of_whole whole']

/-- In names of directories and tags `_` and `%` are characters like any others. -/
theorem stem_patterns_exact_of_odd_names :
    let db : Database := Database.after ⟨true, {}⟩ (.insertAll [
      ⟨"8".toList, "/odd_dir/8".toList, ["100%".toList, "100".toList]⟩,
      ⟨"9".toList, "/oddxdir/9".toList, ["100%".toList]⟩])
    let scope := Scope.ofDirectories true ["/odd_dir".toList]
    (∃ ids, db.inScope scope = .ok ids ∧ "8".toList ∈ ids ∧ "9".toList ∉ ids) ∧
      ∃ counts, db.tagCounts scope "100%".toList 0 = .ok counts ∧
        counts = TagCount.rank [⟨"100%".toList, 1⟩] 0 := by
  intro db scope
  obtain ⟨-, -, -, lookups⟩ := stem_patterns_exact
  obtain ⟨exact, answers⟩ := lookups db scope
  have selects := exact (by decide +kernel)
  have answered := answers (by decide +kernel) (by decide +kernel)
  have place : db.tables.items["8".toList]? = some "/odd_dir/8".toList := by decide +kernel
  have other : db.tables.items["9".toList]? = some "/oddxdir/9".toList := by decide +kernel
  have stems : db.stems scope = ["/odd_dir/".toList] := by decide +kernel
  constructor
  · obtain ⟨ids, found⟩ := answered.inScope
    refine ⟨ids, found, (selects.inScope found _).mpr ⟨_, place, ?_⟩, fun member => ?_⟩
    · rw [stems]
      decide
    · obtain ⟨location, stored, begins⟩ := (selects.inScope found _).mp member
      rw [other] at stored
      cases stored
      rw [stems] at begins
      revert begins
      decide
  · obtain ⟨counts, found⟩ := answered.tagCounts "100%".toList 0 (by decide +kernel)
    have ranked := selects.tagCounts (by decide +kernel) found
    refine ⟨counts, found, ranked.trans (congrArg (TagCount.rank · 0) ?_)⟩
    decide +kernel

end TagQuery.Database
