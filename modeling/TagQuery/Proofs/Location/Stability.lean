import TagQuery.Proofs.Location.Path

/-! What becomes of a location that is normalized again. A normal form with nothing to trim stays as
it is; any other one gets shorter, for blanks that were inside the location stand at its ends now.
Main steps: no location is longer than the text it is read from, and the stem of a directory loses
nothing but blanks, a dot and separators, all at the front. -/
namespace TagQuery.Location.Path

variable {foldsCase : Bool} {p : Path} {raw t u : Text} {rest : List Text} {c : Char}

def rootLength (absolute : Bool) : Nat := if absolute then 1 else 0

theorem length_stem (p : Path) :
    p.stem.length = rootLength p.absolute + (closed p.segments).length := by
  rw [stem, List.length_append, rootLength]
  cases p.absolute <;> rfl

/-- Where a text begins with a root, the root is not in its segments. -/
theorem rootLength_add_le (t : Text) : rootLength (isAbsolute t) +
    (closed (resolve (isAbsolute t) (Location.segments t))).length ≤ t.length + 1 := by
  by_cases root : isAbsolute t = true
  · obtain ⟨rest, rfl⟩ : ∃ rest, t = '/' :: rest := List.head?_eq_some_iff.mp (beq_iff_eq.mp root)
    have bound := length_closed_resolve_segments_le true rest
    rw [root, segments_slash, rootLength, if_pos rfl, List.length_cons]
    omega
  · have bound := length_closed_resolve_segments_le (isAbsolute t) t
    rw [rootLength, if_neg root]
    omega

/-- No path is longer than the text that names it. -/
theorem length_text_ofText_le (raw : Text) : (ofText raw).text.length ≤ raw.trim.length := by
  have same : (unify raw.trim).length = raw.trim.length := List.length_map _
  have room : (ofText raw).stem.length ≤ (unify raw.trim).length + 1 :=
    length_stem (ofText raw) ▸ rootLength_add_le (unify raw.trim)
  by_cases no_segs : (ofText raw).segments = []
  · by_cases some_stem : (ofText raw).stem = []
    · rw [stem_eq_nil_iff.mp some_stem]
      exact Nat.zero_le _
    · rw [text_eq_root no_segs some_stem, ← same]
      have root : isAbsolute (unify raw.trim) = true := absolute_eq_true no_segs some_stem
      cases unified : unify raw.trim with
      | nil =>
        rw [unified] at root
        cases root
      | cons c rest => exact Nat.succ_le_succ (Nat.zero_le _)
  · rw [stem_eq_concat no_segs, List.length_append, List.length_singleton] at room
    omega

theorem mem_ofText {s : Text} (member : s ∈ (ofText raw).segments) (own : c ∈ s) : c ∈ raw := by
  obtain ⟨-, whole, among⟩ := mem_segments (mem_resolve member)
  rcases (mem_unify (among c own)).2 with rfl | trimmed
  · exact absurd own whole
  · exact Text.mem_of_mem_trim trimmed

/-- A text in lower case names a path in lower case. -/
theorem lower_ofText (lowered : ∀ c ∈ raw, Text.Lowered c) : (ofText raw).lower = ofText raw := by
  refine Path.ext rfl ((List.map_congr_left fun s member => ?_).trans (List.map_id _))
  exact Text.lower_eq_self fun c own => lowered c (mem_ofText member own)

theorem ofLocation_normalize (foldsCase : Bool) (raw : Text) :
    ofLocation foldsCase (normalize foldsCase raw) = ofText (normalize foldsCase raw) := by
  cases foldsCase with
  | true => exact lower_ofText fun c => lowered_of_mem_normalize
  | false => rfl

/-- Normalizing again leaves a location as it is exactly if there is nothing to trim. -/
theorem normalize_normalize_iff (foldsCase : Bool) (raw : Text) :
    normalize foldsCase (normalize foldsCase raw) = normalize foldsCase raw ↔
      (normalize foldsCase raw).trim = normalize foldsCase raw := by
  rw [← text_ofLocation foldsCase (normalize foldsCase raw), ofLocation_normalize]
  constructor
  · intro stable
    have bound := length_text_ofText_le (normalize foldsCase raw)
    rw [stable] at bound
    exact (Text.trim_sublist _).eq_of_length_le bound
  · intro trimmed
    rw [← text_ofLocation foldsCase raw] at trimmed ⊢
    rw [ofText_text trimmed]

/-- Every relative path that does not end with a blank is the normal form of a location. -/
theorem ofText_here (relative : p.absolute = false)
    (last : ∀ c, p.text.getLast? = some c → Text.isBlank c = false) :
    ofText (here ++ '/' :: p.text) = p := by
  have plain : '\\' ∉ here ++ '/' :: p.text := by
    rw [List.mem_append, List.mem_cons, not_or, not_or]
    exact ⟨by decide, by decide, fun bad => p.backslash_not_mem_stem (p.text_prefix_stem.subset bad)⟩
  have trimmed : Text.trim (here ++ '/' :: p.text) = here ++ '/' :: p.text := by
    refine Text.trim_eq_self (fun c first => ?_) fun c ends => ?_
    · cases first
      decide
    · rw [List.getLast?_append_of_ne_nil _ (List.cons_ne_nil _ _)] at ends
      cases written : p.text with
      | nil =>
        rw [written] at ends
        cases ends
        decide
      | cons d rest =>
        rw [written, List.getLast?_cons_cons, ← written] at ends
        exact last c ends
  have unified : unify (Text.trim (here ++ '/' :: p.text)) = here ++ '/' :: p.text := by
    rw [trimmed, unify_eq_self plain]
  ext1
  · exact (congrArg isAbsolute unified).trans relative.symm
  · change resolve (isAbsolute (unify _)) (Location.segments (unify _)) = _
    rw [unified, segments_append_slash, segments_text]
    have done : resolve false p.segments = p.segments := resolve_eq_self (relative ▸ p.resolved)
    exact (resolve_here false p.segments).trans done

/-- A text whose first segment may be anything, and whose others are names, names a path that has
all of them but a dot. An empty first segment is the root. -/
theorem stem_ofText_eq {s : Text} (unified : unify t.trim = s ++ '/' :: closed rest)
    (whole : '/' ∉ s) (named : ∀ s ∈ rest, isName s = true ∧ '/' ∉ s) :
    (ofText t).stem = if s = here then closed rest else s ++ '/' :: closed rest := by
  have names : ∀ s ∈ rest, isName s = true := fun s member => (named s member).1
  have written : ∀ s ∈ rest, s ≠ [] ∧ '/' ∉ s := fun s member =>
    ⟨(isName_iff.mp (names s member)).1.1, (named s member).2⟩
  change (if isAbsolute (unify t.trim) then ['/'] else []) ++
    closed (resolve (isAbsolute (unify t.trim)) (Location.segments (unify t.trim))) = _
  rw [unified, segments_append_slash, segments_closed written]
  by_cases empty : s = []
  · subst empty
    have root : isAbsolute ([] ++ '/' :: closed rest) = true := rfl
    rw [root, if_neg (by decide : ([] : Text) ≠ here)]
    exact congrArg (fun segs => '/' :: closed segs) (resolve_eq_self (isResolved_names true names))
  · rw [isAbsolute_append empty, isAbsolute_of_whole whole, segments_of_whole whole empty,
      if_neg Bool.false_ne_true, List.nil_append, List.singleton_append]
    split
    · next dot =>
      rw [dot, resolve_here, resolve_eq_self (isResolved_names false names)]
    · next other =>
      rw [resolve_eq_self (isResolved_cons ⟨empty, other⟩ names), closed_cons]

theorem getLast?_stem (some_stem : p.stem ≠ []) : p.stem.getLast? = some '/' := by
  by_cases no_segs : p.segments = []
  · rw [stem_eq_text no_segs, text_eq_root no_segs some_stem]
    rfl
  · rw [stem_eq_concat no_segs, List.getLast?_concat]

/-- What follows the stem of a path is lowercased apart from it. -/
theorem lower_stem_append (p : Path) (t : Text) : (p.stem ++ t).lower = p.stem.lower ++ t.lower := by
  by_cases some_stem : p.stem = []
  · rw [some_stem]
    rfl
  · obtain ⟨front, written⟩ := List.getLast?_eq_some_iff.mp (getLast?_stem some_stem)
    rw [written, List.append_assoc, List.singleton_append, Text.lower_append_slash,
      Text.lower_append_slash, Text.lower_nil, List.append_assoc]
    rfl

theorem trim_stem (p : Path) : p.stem.trim = p.stem.dropWhile Text.isBlank := by
  refine Text.trim_eq_dropWhile fun c last => ?_
  by_cases some_stem : p.stem = []
  · rw [some_stem] at last
    cases last
  · rw [getLast?_stem some_stem] at last
    cases last
    decide

/-- There is something to trim in a stem if it begins with a blank. -/
theorem trim_stem_ne_iff : p.stem.trim ≠ p.stem ↔ ∃ c, Text.isBlank c = true ∧ [c] <+: p.stem := by
  rw [trim_stem]
  cases p.stem with
  | nil => simp
  | cons c rest =>
    cases blank : Text.isBlank c with
    | true =>
      rw [List.dropWhile_cons_of_pos blank]
      refine iff_of_true (fun same => ?_) ⟨c, blank, rest, rfl⟩
      have shorter := (List.dropWhile_sublist Text.isBlank (l := rest)).length_le
      rw [same] at shorter
      exact absurd shorter (by simp)
    | false =>
      rw [List.dropWhile_cons_of_neg (by simp [blank])]
      refine iff_of_false (fun no => no rfl) ?_
      rintro ⟨d, blank', begins⟩
      rw [List.cons_prefix_cons] at begins
      exact absurd blank' (by simp [begins.1, blank])

theorem relative_of_blank (blank : Text.isBlank c = true) (begins : [c] <+: p.stem) :
    p.absolute = false := by
  by_contra root
  rw [stem, if_pos (Bool.of_not_eq_false root), List.singleton_append,
    List.cons_prefix_cons] at begins
  exact absurd blank (by rw [begins.1]; decide)

/-- A stem that begins with a blank is that of names. -/
theorem exists_stem_of_blank (blank : Text.isBlank c = true) (begins : [c] <+: p.stem) :
    ∃ s rest, p.stem = s ++ '/' :: closed rest ∧ '/' ∉ s ∧ ∀ s ∈ rest, isName s = true ∧ '/' ∉ s := by
  have written : p.stem = closed p.segments := by
    rw [stem, relative_of_blank blank begins, if_neg Bool.false_ne_true, List.nil_append]
  rw [written] at begins ⊢
  obtain ⟨climbs, names, form, named, -⟩ := isResolved_iff.mp p.resolved
  cases climbs with
  | zero =>
    obtain rfl : p.segments = names := form
    cases segs : p.segments with
    | nil =>
      rw [segs] at begins
      exact absurd begins.length_le (by simp)
    | cons s rest =>
      have whole : ∀ name ∈ s :: rest, '/' ∉ name := fun name member =>
        (p.whole name (segs ▸ member)).1
      refine ⟨s, rest, closed_cons s rest, whole s List.mem_cons_self, fun name member => ?_⟩
      have among := List.mem_cons_of_mem s member
      exact ⟨named name (segs ▸ among), whole name among⟩
  | succ climbs =>
    rw [form, List.replicate_succ, List.cons_append, closed_cons, up, List.cons_append,
      List.cons_prefix_cons] at begins
    exact absurd blank (by rw [begins.1]; decide)

/-- The stem of a directory, read again, loses marks at its front, and none if there is nothing to
trim. -/
theorem exists_stem_eq (p : Path) : ∃ front, p.stem = front ++ (ofText p.stem).stem ∧
    (∀ c ∈ front, Text.isMark c = true) ∧ (p.stem.trim = p.stem ↔ front = []) := by
  by_cases trimmed : p.stem.trim = p.stem
  · refine ⟨[], ?_, List.forall_mem_nil _, iff_of_true trimmed rfl⟩
    rw [ofText_stem trimmed, List.nil_append]
  · obtain ⟨c, blank, begins⟩ := trim_stem_ne_iff.mp trimmed
    obtain ⟨s, rest, written, whole, named⟩ := exists_stem_of_blank blank begins
    have parts : s.takeWhile Text.isBlank ++ s.dropWhile Text.isBlank = s :=
      List.takeWhile_append_dropWhile
    have marks : ∀ c ∈ s.takeWhile Text.isBlank, Text.isMark c = true := fun c member =>
      Text.isMark_of_isBlank (List.mem_takeWhile_imp member)
    generalize s.takeWhile Text.isBlank = front at parts marks
    have left : p.stem.trim = s.dropWhile Text.isBlank ++ '/' :: closed rest := by
      rw [trim_stem, written, Text.dropWhile_append_slash]
    generalize s.dropWhile Text.isBlank = s' at parts left
    subst parts
    have unified : unify p.stem.trim = s' ++ '/' :: closed rest := by
      rw [unify_eq_self fun bad => p.backslash_not_mem_stem (Text.mem_of_mem_trim bad), left]
    have again := stem_ofText_eq unified (fun bad => whole (List.mem_append_right front bad)) named
    -- A dot that was hidden by blanks is dropped with the separator behind it.
    by_cases dot : s' = here
    · rw [if_pos dot] at again
      have lost : ∀ c ∈ front ++ (s' ++ ['/']), Text.isMark c = true := by
        rw [dot]
        refine List.forall_mem_append.mpr ⟨marks, List.forall_mem_append.mpr ⟨isMark_of_mem_here, ?_⟩⟩
        exact List.forall_mem_singleton.mpr (by decide)
      refine ⟨front ++ (s' ++ ['/']), ?_, lost, iff_of_false trimmed (by simp)⟩
      rw [again, written]
      simp
    · rw [if_neg dot] at again
      refine ⟨front, by rw [again, written, List.append_assoc], marks, iff_of_false trimmed ?_⟩
      rintro rfl
      exact trimmed (by rw [left, written, List.nil_append])

end TagQuery.Location.Path
