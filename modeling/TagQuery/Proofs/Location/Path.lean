import TagQuery.Proofs.Location.Segments
import TagQuery.Proofs.Text.Marks
import TagQuery.Proofs.Text.Trim

/-! Locations as paths. The normal form of a location is the text of a path, and so is its lowercase
form. Main steps: the text of a path with nothing to trim names the path again, and one directory
lies inside another as their segments do. -/
namespace TagQuery.Location

theorem isMark_of_mem_here : ∀ c ∈ here, Text.isMark c = true := List.all_eq_true.mp (by decide)

theorem isMark_of_mem_up : ∀ c ∈ up, Text.isMark c = true := List.all_eq_true.mp (by decide)

theorem isName_lower (s : Text) : isName s.lower = isName s := by
  simp only [isName, ne_eq, Text.lower_eq_nil_iff, Text.lower_eq_iff isMark_of_mem_here,
    Text.lower_eq_iff isMark_of_mem_up]

theorem lower_up : up.lower = up := (Text.lower_eq_iff isMark_of_mem_up).mpr rfl

theorem isResolved_lower {absolute : Bool} {segs : List Text}
    (done : isResolved absolute segs = true) : isResolved absolute (segs.map Text.lower) = true := by
  obtain ⟨climbs, names, rfl, named, rooted⟩ := isResolved_iff.mp done
  refine isResolved_iff.mpr ⟨climbs, names.map Text.lower, ?_, ?_, rooted⟩
  · rw [List.map_append, List.map_replicate, lower_up]
  · intro s member
    obtain ⟨name, among, rfl⟩ := List.mem_map.mp member
    rw [isName_lower, named name among]

theorem lower_closed (segs : List Text) : (closed segs).lower = closed (segs.map Text.lower) := by
  induction segs with
  | nil => rfl
  | cons s segs ih => rw [closed_cons, Text.lower_append_slash, ih, List.map_cons, closed_cons]

theorem lower_joinWith (segs : List Text) :
    (Text.joinWith ['/'] segs).lower = Text.joinWith ['/'] (segs.map Text.lower) := by
  cases segs with
  | nil => rfl
  | cons s rest =>
    have some_segs : s :: rest ≠ [] := List.cons_ne_nil s rest
    have whole := lower_closed (s :: rest)
    rw [← joinWith_concat some_segs, Text.lower_append_slash, Text.lower_nil,
      ← joinWith_concat (by simp)] at whole
    exact List.append_cancel_right whole

theorem mem_unify {c : Char} {t : Text} (h : c ∈ unify t) : c ≠ '\\' ∧ (c = '/' ∨ c ∈ t) := by
  obtain ⟨d, member, rfl⟩ := List.mem_map.mp h
  split
  · exact ⟨by decide, .inl rfl⟩
  · next other => exact ⟨other, .inr member⟩

theorem unify_eq_self {t : Text} (plain : '\\' ∉ t) : unify t = t := by
  refine (List.map_congr_left fun c member => ?_).trans (List.map_id t)
  refine if_neg ?_
  rintro rfl
  exact plain member

theorem isAbsolute_append {t : Text} (written : t ≠ []) (u : Text) :
    isAbsolute (t ++ u) = isAbsolute t := by
  obtain ⟨c, t, rfl⟩ := List.exists_cons_of_ne_nil written
  rfl

theorem isAbsolute_of_whole {t : Text} (whole : '/' ∉ t) : isAbsolute t = false := by
  cases t with
  | nil => rfl
  | cons c t =>
    have other : c ≠ '/' := fun same => whole (same ▸ List.mem_cons_self)
    exact beq_eq_false_iff_ne.mpr fun same => other (Option.some.inj same)

theorem lowered_of_mem_normalize {raw : Text} {c : Char} (h : c ∈ normalize true raw) :
    Text.Lowered c :=
  Text.lowered_of_mem_lower h

/-- A root or none, and resolved segments that hold no separator. -/
@[ext] structure Path where
  absolute : Bool
  segments : List Text
  resolved : isResolved absolute segments = true
  whole : ∀ s ∈ segments, '/' ∉ s ∧ '\\' ∉ s

namespace Path

variable {p q : Path} {raw t : Text} {c : Char}

def text (p : Path) : Text := assemble p.absolute p.segments

/-- The text with which every location inside the path begins. -/
def stem (p : Path) : Text := (if p.absolute then ['/'] else []) ++ closed p.segments

def ofText (raw : Text) : Path where
  absolute := isAbsolute (unify raw.trim)
  segments := resolve (isAbsolute (unify raw.trim)) (Location.segments (unify raw.trim))
  resolved := isResolved_resolve _ _
  whole := by
    intro s member
    obtain ⟨-, whole, among⟩ := mem_segments (mem_resolve member)
    exact ⟨whole, fun bad => (mem_unify (among _ bad)).1 rfl⟩

def lower (p : Path) : Path where
  absolute := p.absolute
  segments := p.segments.map Text.lower
  resolved := isResolved_lower p.resolved
  whole := by
    intro s member
    obtain ⟨name, among, rfl⟩ := List.mem_map.mp member
    rw [Text.mem_lower_iff (by decide), Text.mem_lower_iff (by decide)]
    exact p.whole name among

/-- The path that a location names, as it is compared. -/
def ofLocation (foldsCase : Bool) (raw : Text) : Path :=
  if foldsCase then (ofText raw).lower else ofText raw

@[simp] theorem absolute_lower (p : Path) : p.lower.absolute = p.absolute := rfl

@[simp] theorem segments_lower (p : Path) : p.lower.segments = p.segments.map Text.lower := rfl

theorem lower_lower (p : Path) : p.lower.lower = p.lower := by
  ext1
  · rfl
  · simp

theorem text_lower (p : Path) : p.lower.text = p.text.lower := by
  unfold text assemble
  rw [absolute_lower, segments_lower, ← lower_joinWith]
  cases p.absolute with
  | true => exact (Text.lower_slash _).symm
  | false => rfl

theorem stem_lower (p : Path) : p.lower.stem = p.stem.lower := by
  unfold stem
  rw [absolute_lower, segments_lower, ← lower_closed]
  cases p.absolute with
  | true => exact (Text.lower_slash _).symm
  | false => rfl

/-- The normal form of a location is the text of the path it names. -/
theorem text_ofLocation (foldsCase : Bool) (raw : Text) :
    (ofLocation foldsCase raw).text = normalize foldsCase raw := by
  have same : (ofText raw).text = assemble (isAbsolute (unify raw.trim))
      (resolve (isAbsolute (unify raw.trim)) (Text.splitOn '/' (unify raw.trim))) := by
    rw [resolve_splitOn]
    rfl
  cases foldsCase with
  | true => exact (text_lower _).trans (congrArg Text.lower same)
  | false => exact same

/-- No segment is empty. -/
theorem named (p : Path) : ∀ s ∈ p.segments, s ≠ [] ∧ '/' ∉ s := by
  intro s member
  refine ⟨?_, (p.whole s member).1⟩
  rintro rfl
  obtain ⟨climbs, names, form, named, -⟩ := isResolved_iff.mp p.resolved
  rw [form, List.mem_append, List.mem_replicate] at member
  rcases member with ⟨-, bad⟩ | among
  · exact absurd bad (by decide)
  · exact absurd (named [] among) (by decide)

theorem stem_eq_concat (some_segs : p.segments ≠ []) : p.stem = p.text ++ ['/'] := by
  rw [stem, text, assemble, List.append_assoc, joinWith_concat some_segs]

theorem stem_eq_text (no_segs : p.segments = []) : p.stem = p.text := by
  rw [stem, text, assemble, no_segs]
  rfl

/-- A path with segments is written with its last segment at the end. -/
theorem exists_text_eq (some_segs : p.segments ≠ []) :
    ∃ front, ∃ last ∈ p.segments, p.text = front ++ last := by
  obtain ⟨first, last, segs⟩ := (p.segments.eq_nil_or_concat).resolve_left some_segs
  rw [List.concat_eq_append] at segs
  refine ⟨(if p.absolute then ['/'] else []) ++ closed first, last, by simp [segs], ?_⟩
  have closing := stem_eq_concat some_segs
  rw [stem, segs, closed_append, closed_cons, closed_nil, ← List.append_assoc,
    List.append_cons, List.append_nil, ← List.append_assoc] at closing
  exact (List.append_cancel_right closing).symm

theorem getLast?_text (some_segs : p.segments ≠ []) : p.text.getLast? ≠ some '/' := by
  obtain ⟨front, last, member, written⟩ := exists_text_eq some_segs
  obtain ⟨some_last, whole⟩ := p.named last member
  rw [written, List.getLast?_append_of_ne_nil _ some_last]
  exact fun bad => whole (List.mem_of_getLast? bad)

theorem text_ne_nil (some_segs : p.segments ≠ []) : p.text ≠ [] := by
  obtain ⟨front, last, member, written⟩ := exists_text_eq some_segs
  rw [written]
  exact List.append_ne_nil_of_right_ne_nil front (p.named last member).1

theorem stem_eq_nil_iff : p.stem = [] ↔ p.text = [] := by
  by_cases no_segs : p.segments = []
  · rw [stem_eq_text no_segs]
  · rw [stem_eq_concat no_segs]
    exact iff_of_false (by simp) (text_ne_nil no_segs)

/-- The locations inside a directory begin with its stem; that of no directory is empty. -/
theorem directory?_eq_some_iff {foldsCase : Bool} :
    directory? foldsCase raw = some t ↔ t ≠ [] ∧ (ofLocation foldsCase raw).stem = t := by
  have written := text_ofLocation foldsCase raw
  generalize ofLocation foldsCase raw = p at written ⊢
  unfold directory?
  rw [← written]
  by_cases no_segs : p.segments = []
  · rw [stem_eq_text no_segs, text, assemble, no_segs]
    cases p.absolute with
    | true =>
      constructor
      · rintro ⟨⟩
        exact ⟨by decide, rfl⟩
      · rintro ⟨-, rfl⟩
        rfl
    | false =>
      constructor
      · rintro ⟨⟩
      · rintro ⟨some_text, rfl⟩
        exact absurd rfl some_text
  · rw [stem_eq_concat no_segs]
    have last := getLast?_text no_segs
    obtain ⟨c, rest, form⟩ := List.exists_cons_of_ne_nil (text_ne_nil no_segs)
    rw [form] at last ⊢
    simp only [if_neg last, Option.some.injEq]
    exact ⟨fun same => ⟨same ▸ by simp, same⟩, And.right⟩

theorem isAbsolute_stem (p : Path) : isAbsolute p.stem = p.absolute := by
  unfold stem
  cases p.absolute with
  | true => rfl
  | false =>
    cases segs : p.segments with
    | nil => rfl
    | cons s rest =>
      obtain ⟨written, whole⟩ := p.named s (segs ▸ List.mem_cons_self)
      rw [closed_cons]
      exact (isAbsolute_append written _).trans (isAbsolute_of_whole whole)

theorem isAbsolute_text (p : Path) : isAbsolute p.text = p.absolute := by
  by_cases no_segs : p.segments = []
  · rw [← stem_eq_text no_segs, isAbsolute_stem]
  · rw [← isAbsolute_append (text_ne_nil no_segs), ← stem_eq_concat no_segs, isAbsolute_stem]

theorem segments_stem (p : Path) : Location.segments p.stem = p.segments := by
  unfold stem
  cases p.absolute with
  | true => exact (segments_slash _).trans (segments_closed p.named)
  | false => exact segments_closed p.named

theorem segments_text (p : Path) : Location.segments p.text = p.segments :=
  segments_assemble p.absolute p.named

theorem isAbsolute_normalize (foldsCase : Bool) (raw : Text) :
    isAbsolute (normalize foldsCase raw) = (ofLocation foldsCase raw).absolute := by
  rw [← text_ofLocation, isAbsolute_text]

theorem segments_normalize (foldsCase : Bool) (raw : Text) :
    Location.segments (normalize foldsCase raw) = (ofLocation foldsCase raw).segments := by
  rw [← text_ofLocation, segments_text]

theorem mem_stem (h : c ∈ p.stem) : c = '/' ∨ ∃ s ∈ p.segments, c ∈ s := by
  rcases List.mem_append.mp h with root | inside
  · cases rooted : p.absolute with
    | true =>
      rw [rooted] at root
      exact .inl (List.mem_singleton.mp root)
    | false =>
      rw [rooted] at root
      cases root
  · obtain ⟨s, member, piece⟩ := List.mem_flatMap.mp inside
    rcases List.mem_append.mp piece with own | last
    · exact .inr ⟨s, member, own⟩
    · exact .inl (List.mem_singleton.mp last)

theorem null_not_mem_stem_ofText (whole : '\x00' ∉ raw) : '\x00' ∉ (ofText raw).stem := by
  intro bad
  rcases mem_stem bad with same | ⟨s, member, own⟩
  · exact absurd same (by decide)
  · obtain ⟨-, -, among⟩ := mem_segments (mem_resolve member)
    rcases (mem_unify (among _ own)).2 with same | inside
    · exact absurd same (by decide)
    · exact whole (Text.mem_of_mem_trim inside)

theorem null_not_mem_directory? {foldsCase : Bool} (whole : '\x00' ∉ raw)
    (given : directory? foldsCase raw = some t) : '\x00' ∉ t := by
  obtain ⟨-, rfl⟩ := directory?_eq_some_iff.mp given
  unfold ofLocation
  split
  · rw [stem_lower]
    exact Text.null_not_mem_lower (null_not_mem_stem_ofText whole)
  · exact null_not_mem_stem_ofText whole

theorem text_prefix_stem (p : Path) : p.text <+: p.stem := by
  by_cases no_segs : p.segments = []
  · exact stem_eq_text no_segs ▸ List.prefix_rfl
  · exact stem_eq_concat no_segs ▸ List.prefix_append _ _

theorem backslash_not_mem_stem (p : Path) : '\\' ∉ p.stem := by
  intro bad
  rcases mem_stem bad with same | ⟨s, member, own⟩
  · exact absurd same (by decide)
  · exact (p.whole s member).2 own

/-- A text with nothing to trim, and with the root and the segments of a path, names the path. -/
theorem ofText_eq (trimmed : t.trim = t) (plain : '\\' ∉ t) (root : isAbsolute t = p.absolute)
    (segs : Location.segments t = p.segments) : ofText t = p := by
  have unified : unify t.trim = t := by rw [trimmed, unify_eq_self plain]
  ext1
  · exact (congrArg isAbsolute unified).trans root
  · change resolve _ _ = _
    rw [unified, root, segs, resolve_eq_self p.resolved]

theorem ofText_text (trimmed : p.text.trim = p.text) : ofText p.text = p :=
  ofText_eq trimmed (fun bad => p.backslash_not_mem_stem (p.text_prefix_stem.subset bad))
    p.isAbsolute_text p.segments_text

theorem ofText_stem (trimmed : p.stem.trim = p.stem) : ofText p.stem = p :=
  ofText_eq trimmed p.backslash_not_mem_stem p.isAbsolute_stem p.segments_stem

/-- What begins with the stem of a path begins with its segments. -/
theorem exists_segments_eq (begins : p.stem <+: t) :
    ∃ further, Location.segments t = p.segments ++ further := by
  by_cases no_segs : p.segments = []
  · exact ⟨_, by rw [no_segs, List.nil_append]⟩
  · obtain ⟨rest, rfl⟩ := begins
    refine ⟨Location.segments rest, ?_⟩
    rw [stem_eq_concat no_segs, List.append_assoc, List.singleton_append, segments_append_slash,
      segments_text]

theorem isAbsolute_eq_of_prefix (some_stem : p.stem ≠ []) (begins : p.stem <+: t) :
    isAbsolute t = p.absolute := by
  obtain ⟨rest, rfl⟩ := begins
  rw [isAbsolute_append some_stem, isAbsolute_stem]

theorem stem_prefix_stem (same : p.absolute = q.absolute) (inside : p.segments <+: q.segments) :
    p.stem <+: q.stem := by
  obtain ⟨further, segs⟩ := inside
  rw [stem, stem, same, ← segs, closed_append, ← List.append_assoc]
  exact List.prefix_append _ _

theorem not_stem_prefix_text (some_segs : q.segments ≠ []) : ¬ q.stem <+: q.text := by
  intro begins
  have shorter := begins.length_le
  rw [stem_eq_concat some_segs, List.length_append] at shorter
  exact absurd shorter (by simp)

theorem absolute_eq_true (no_segs : p.segments = []) (some_stem : p.stem ≠ []) :
    p.absolute = true := by
  by_contra relative
  rw [stem, no_segs, if_neg relative] at some_stem
  exact some_stem rfl

theorem text_eq_root (no_segs : p.segments = []) (some_stem : p.stem ≠ []) : p.text = ['/'] := by
  rw [text, assemble, no_segs, absolute_eq_true no_segs some_stem]
  rfl

theorem segments_eq_nil_of_root (root : p.text = ['/']) : p.segments = [] := by
  rw [← segments_text p, root]
  rfl

/-- A path lies inside a directory exactly if it has the root of the directory and its segments and
then more, or both are the root. -/
theorem stem_prefix_text_iff (some_stem : p.stem ≠ []) : p.stem <+: q.text ↔
    p.absolute = q.absolute ∧ (p.segments <+: q.segments ∧ p.segments ≠ q.segments ∨
      p.text = ['/'] ∧ q.text = ['/']) := by
  constructor
  · intro begins
    have same : p.absolute = q.absolute := by
      rw [← isAbsolute_eq_of_prefix some_stem begins, isAbsolute_text]
    obtain ⟨further, segs⟩ := exists_segments_eq begins
    rw [segments_text] at segs
    refine ⟨same, ?_⟩
    by_cases proper : p.segments = q.segments
    · obtain rfl := Path.ext same proper
      have no_segs : p.segments = [] := by
        by_contra some_segs
        exact not_stem_prefix_text some_segs begins
      exact .inr ⟨text_eq_root no_segs some_stem, text_eq_root no_segs some_stem⟩
    · exact .inl ⟨⟨further, segs.symm⟩, proper⟩
  · rintro ⟨same, ⟨inside, proper⟩ | ⟨root, root'⟩⟩
    · have some_segs : q.segments ≠ [] := by
        intro none
        rw [none, List.prefix_nil] at inside
        exact proper (inside.trans none.symm)
      have begins := stem_prefix_stem same inside
      rw [stem_eq_concat some_segs, List.prefix_concat_iff, ← stem_eq_concat some_segs] at begins
      refine begins.resolve_left fun whole => proper ?_
      rw [← segments_stem p, whole, segments_stem]
    · rw [stem_eq_text (segments_eq_nil_of_root root)]
      exact root.trans root'.symm ▸ List.prefix_rfl

/-- What a name is in a directory. -/
def child (p : Path) (name : Text) (named : isName name = true) (whole : '/' ∉ name ∧ '\\' ∉ name) :
    Path where
  absolute := p.absolute
  segments := p.segments ++ [name]
  resolved := by
    have latest : isResolved p.absolute p.segments.reverse.reverse = true := by
      rw [List.reverse_reverse, p.resolved]
    have done := isResolved_push latest name
    rwa [push_name named, List.reverse_cons, List.reverse_reverse] at done
  whole := List.forall_mem_append.mpr ⟨p.whole, List.forall_mem_singleton.mpr whole⟩

theorem text_child (p : Path) {name : Text} (named : isName name = true)
    (whole : '/' ∉ name ∧ '\\' ∉ name) : (p.child name named whole).text = p.stem ++ name := by
  have some_segs : (p.child name named whole).segments ≠ [] := by simp [child]
  have stem : (p.child name named whole).stem = p.stem ++ name ++ ['/'] := by
    rw [Path.stem, Path.stem, child, closed_append, closed_cons, closed_nil]
    simp
  rw [stem_eq_concat some_segs] at stem
  exact List.append_cancel_right stem

end Path
end TagQuery.Location
