import TagQuery.Database

/-! The tests that the database makes. The pattern of a text matches what begins with the text, and nothing
else unless the text has a null character in it; and a statement that is answered has kept the rows that
pass its tests. -/
namespace TagQuery.Database

variable {stem start t : Text} {stems : List Text}

theorem someSuffix_anything (t : Text) : someSuffix (fits []) t = true := by
  induction t with
  | nil => rfl
  | cons c rest ih => rw [someSuffix, ih, Bool.or_true]

theorem fits_percent (t : Text) : fits ['%'] t = true := by
  rw [fits]
  exact someSuffix_anything t

theorem escapeLike_cons (c : Char) (t : Text) : escapeLike (c :: t) =
    (if c = '\\' ∨ c = '%' ∨ c = '_' then ['\\', c] else [c]) ++ escapeLike t :=
  List.flatMap_cons

/-- An escaped character matches itself only. -/
theorem fits_escaped (c : Char) (pattern t : Text) :
    fits ((if c = '\\' ∨ c = '%' ∨ c = '_' then ['\\', c] else [c]) ++ pattern) t =
      match t with
      | [] => false
      | d :: rest => d == c && fits pattern rest := by
  split
  · rfl
  · next plain =>
    obtain ⟨noBackslash, noPercent, noUnderscore⟩ : c ≠ '\\' ∧ c ≠ '%' ∧ c ≠ '_' := by
      simpa only [not_or] using plain
    rw [List.singleton_append]
    cases t <;> simp [fits, noBackslash]

theorem fits_stemPattern (stem t : Text) : fits (stemPattern stem) t = stem.isPrefixOf t := by
  induction stem generalizing t with
  | nil => exact fits_percent t
  | cons c stem ih =>
    unfold stemPattern at ih ⊢
    rw [escapeLike_cons, List.append_assoc, fits_escaped]
    cases t with
    | nil => rfl
    | cons d rest => simp only [ih, List.isPrefixOf, Bool.beq_comm]

theorem fits_escapeLike (t : Text) : fits (escapeLike t) t = true := by
  induction t with
  | nil => rfl
  | cons c t ih =>
    rw [escapeLike_cons, fits_escaped]
    simp only [beq_self_eq_true, Bool.true_and, ih]

theorem null_not_mem_escapeLike (whole : '\x00' ∉ t) : '\x00' ∉ escapeLike t := by
  intro bad
  obtain ⟨c, among, own⟩ := List.mem_flatMap.mp bad
  have null : '\x00' = c := by split at own <;> simpa using own
  exact whole (null ▸ among)

theorem upToNull_append (whole : '\x00' ∉ t) (rest : Text) :
    upToNull (t ++ rest) = t ++ upToNull rest :=
  List.takeWhile_append_of_pos fun _ among => decide_eq_true fun null => whole (null ▸ among)

theorem upToNull_of_whole (whole : '\x00' ∉ t) : upToNull t = t := by
  have none := upToNull_append whole []
  rwa [List.append_nil, upToNull.eq_1 [], List.takeWhile_nil, List.append_nil] at none

theorem isPrefixOf_upToNull (whole : '\x00' ∉ stem) (t : Text) :
    stem.isPrefixOf (upToNull t) = stem.isPrefixOf t := by
  rw [Bool.eq_iff_iff, List.isPrefixOf_iff_prefix, List.isPrefixOf_iff_prefix]
  constructor
  · exact fun begins => begins.trans (List.takeWhile_prefix _)
  · rintro ⟨rest, rfl⟩
    rw [upToNull_append whole]
    exact List.prefix_append _ _

theorem upToNull_stemPattern (whole : '\x00' ∉ stem) : upToNull (stemPattern stem) = stemPattern stem := by
  rw [stemPattern, upToNull_append (null_not_mem_escapeLike whole)]
  rfl

/-- The pattern of a stem matches the texts that begin with it, if the engine reads all of it. -/
theorem like_stemPattern (whole : '\x00' ∉ stem) (t : Text) :
    like (stemPattern stem) t = stem.isPrefixOf t := by
  rw [like, upToNull_stemPattern whole, fits_stemPattern, isPrefixOf_upToNull whole]

/-- What begins with a stem matches its pattern, even if the engine does not read all of them. -/
theorem like_of_prefix (begins : stem <+: t) : like (stemPattern stem) t = true := by
  by_cases whole : '\x00' ∈ stem
  · obtain ⟨first, rest, rfl, own⟩ := List.eq_append_cons_of_mem whole
    obtain ⟨others, rfl⟩ := begins
    have pattern : stemPattern (first ++ '\x00' :: rest) =
        escapeLike first ++ '\x00' :: (escapeLike rest ++ ['%']) := by
      simp [stemPattern, escapeLike]
    rw [like, pattern, upToNull_append (null_not_mem_escapeLike own), List.append_assoc,
      upToNull_append own]
    simpa [upToNull] using fits_escapeLike first
  · rw [like_stemPattern whole, List.isPrefixOf_iff_prefix]
    exact begins

/-- A text that the engine reads to its end and as it is: no null character is in it, nor any that is or may
be taken for U+FFFD. -/
def isPlain (t : Text) : Bool := t.all fun c => c ≠ '\x00' && (c.toNat < 0xFFFD || 0xFFFF < c.toNat)

theorem null_not_mem_of_isPlain (plain : isPlain t = true) : '\x00' ∉ t := fun bad =>
  absurd (List.all_eq_true.mp plain _ bad) (by decide)

theorem beginsWith_eq_ok {answer : Bool} (h : beginsWith t stem = .ok answer) :
    answer = like (stemPattern stem) t := by
  unfold beginsWith at h
  split at h <;> cases h
  rfl

theorem beginsWithAny_eq_ok {answer : Bool} (h : beginsWithAny t stems = .ok answer) :
    answer = indexed stems t := by
  induction stems with
  | nil => cases h; rfl
  | cons stem rest ih =>
    rw [beginsWithAny] at h
    rw [indexed, List.any_cons]
    cases first : beginsWith t stem with
    | error fault => rw [first] at h; cases h
    | ok found =>
      rw [first] at h
      have same := beginsWith_eq_ok first
      cases found with
      | true => cases h; rw [← same, Bool.true_or]
      | false => rw [← same, Bool.false_or]; exact ih h

theorem indexed_eq (whole : ∀ stem ∈ stems, '\x00' ∉ stem) (location : Text) :
    indexed stems location = stems.any (·.isPrefixOf location) := by
  rw [indexed, Bool.eq_iff_iff, List.any_eq_true, List.any_eq_true]
  exact exists_congr fun stem => and_congr_right fun among => by
    rw [like_stemPattern (whole stem among)]

/-- A statement that is answered keeps the rows that pass, when the test answers with a property of the
row wherever it answers. -/
theorem select_eq_ok {α : Type} {test : α → Except Fault Bool} {passes : α → Bool}
    (sound : ∀ a answer, test a = .ok answer → answer = passes a) {rows kept : List α}
    (h : select test rows = .ok kept) : kept = rows.filter passes := by
  induction rows generalizing kept with
  | nil => cases h; rfl
  | cons a rest ih =>
    rw [select] at h
    cases first : test a with
    | error fault => rw [first] at h; cases h
    | ok answer =>
      have same := sound a answer first
      cases later : select test rest with
      | error fault => rw [first, later] at h; cases h
      | ok others =>
        rw [first, later] at h
        rw [List.filter_cons, ← same, ← ih later]
        cases answer <;> cases h <;> rfl

end TagQuery.Database
