import TagQuery.Proofs.Location.Path
import TagQuery.Scope

/-! A scope is compared as text, and contains what lies inside its directories. Main steps: a
directory inside another one is dropped without loss, and a location begins with the stem of a
directory exactly if it has the segments of the directory and then more. What is more may climb only
where the directory itself is nothing but climbs. -/
namespace TagQuery

open Location

variable {foldsCase : Bool} {raw stem t : Text} {stems directories : List Text}

theorem Scope.mem_outermost : stem ∈ outermost stems ↔
    stem ∈ stems ∧ ∀ other ∈ stems, other <+: stem → other = stem := by
  simp only [outermost, List.mem_filter, Bool.not_eq_true', List.any_eq_false, Bool.and_eq_true,
    bne_iff_ne, ne_eq, List.isPrefixOf_iff_prefix, not_and', not_not]

/-- Every stem of a scope is that of a directory. -/
theorem Scope.exists_directory (among : stem ∈ (ofDirectories foldsCase directories).stems) :
    ∃ d ∈ directories, directory? foldsCase d = some stem := by
  obtain ⟨listed, -⟩ := mem_outermost.mp among
  rwa [mem_sortedDistinct, List.mem_filterMap] at listed

/-- Some stem that is kept covers each of them. -/
theorem Scope.exists_outermost (among : stem ∈ stems) :
    ∃ other ∈ outermost stems, other <+: stem := by
  induction size : stem.length using Nat.strong_induction_on generalizing stem with
  | _ n ih =>
    by_cases kept : stem ∈ outermost stems
    · exact ⟨stem, kept, List.prefix_rfl⟩
    · rw [mem_outermost, not_and] at kept
      obtain ⟨other, found⟩ := not_forall.mp (kept among)
      rw [Classical.not_imp, Classical.not_imp] at found
      obtain ⟨member, shorter, different⟩ := found
      have less : other.length < stem.length :=
        Nat.lt_of_le_of_ne shorter.length_le fun same => different (shorter.eq_of_length same)
      obtain ⟨least, keeps, covers⟩ := ih _ (size ▸ less) member rfl
      exact ⟨least, keeps, covers.trans shorter⟩

/-- A scope contains what begins with the stem of a directory, be it kept or not. -/
theorem Scope.contains_ofDirectories_iff : (ofDirectories foldsCase directories).contains t = true ↔
    ∃ d ∈ directories, ∃ stem, directory? foldsCase d = some stem ∧ stem <+: t := by
  simp only [contains, List.any_eq_true, List.isPrefixOf_iff_prefix]
  constructor
  · rintro ⟨stem, kept, begins⟩
    obtain ⟨d, among, given⟩ := exists_directory kept
    exact ⟨d, among, stem, given, begins⟩
  · rintro ⟨d, among, stem, given, begins⟩
    have listed : stem ∈ sortedDistinct (directories.filterMap (directory? foldsCase)) := by
      rw [mem_sortedDistinct, List.mem_filterMap]
      exact ⟨d, among, given⟩
    obtain ⟨other, kept, covers⟩ := exists_outermost listed
    exact ⟨other, kept, covers.trans begins⟩

theorem Scope.contains_singleton_iff : (ofDirectories foldsCase [raw]).contains t = true ↔
    ∃ stem, directory? foldsCase raw = some stem ∧ stem <+: t := by
  rw [contains_ofDirectories_iff]
  simp only [List.mem_singleton, exists_eq_left]

namespace Location

/-- The location lies inside the directory: it has the root of the directory, and its segments and
then more. The root lies inside itself. -/
def Encloses (directory location : Text) : Prop :=
  isAbsolute directory = isAbsolute location ∧
    (segments directory <+: segments location ∧ segments directory ≠ segments location ∨
      directory = ['/'] ∧ location = ['/'])

def OnlyClimbs (t : Text) : Prop := segments t ≠ [] ∧ ∀ s ∈ segments t, s = up

/-- A location begins with the stem of a directory exactly if it lies inside the directory. -/
theorem exists_stem_prefix_iff {directory location : Text} :
    (∃ stem, directory? foldsCase directory = some stem ∧ stem <+: normalize foldsCase location) ↔
      normalize foldsCase directory ≠ [] ∧
        Encloses (normalize foldsCase directory) (normalize foldsCase location) := by
  simp only [Path.directory?_eq_some_iff, ← Path.text_ofLocation]
  generalize Path.ofLocation foldsCase directory = p
  generalize Path.ofLocation foldsCase location = q
  rw [Encloses, Path.isAbsolute_text, Path.isAbsolute_text, Path.segments_text, Path.segments_text,
    ne_eq p.text, ← Path.stem_eq_nil_iff]
  constructor
  · rintro ⟨_, ⟨some_stem, rfl⟩, begins⟩
    exact ⟨some_stem, (Path.stem_prefix_text_iff some_stem).mp begins⟩
  · rintro ⟨some_stem, inside⟩
    exact ⟨p.stem, ⟨some_stem, rfl⟩, (Path.stem_prefix_text_iff some_stem).mpr inside⟩

/-- What follows the segments of a directory goes on with the climbs of the location, if the
directory has no other segments, and with names else. -/
theorem Path.up_mem_further_iff {p q : Path} {further : List Text} (some_stem : p.stem ≠ [])
    (same : p.absolute = q.absolute) (segs : q.segments = p.segments ++ further) :
    up ∈ further ↔ (p.segments ≠ [] ∧ ∀ s ∈ p.segments, s = up) ∧ further.head? = some up := by
  constructor
  · intro climbs
    obtain ⟨k, names, form, named, rooted⟩ := isResolved_iff.mp q.resolved
    rw [segs, List.append_eq_append_iff] at form
    rcases form with ⟨later, levels, rfl⟩ | ⟨early, -, rfl⟩
    · have every := (List.eq_replicate_iff.mp levels.symm).2
      cases later with
      | nil => exact absurd (named up climbs) (by decide)
      | cons s later =>
        refine ⟨⟨fun none => ?_, fun s member => every s (List.mem_append_left _ member)⟩, ?_⟩
        · rw [none, rooted (same ▸ Path.absolute_eq_true none some_stem)] at levels
          cases levels
        · rw [every s (by simp)]
          rfl
    · exact absurd (named up (List.mem_append_right _ climbs)) (by decide)
  · rintro ⟨-, next⟩
    exact List.mem_of_head? next

def Path.climbs (n : Nat) : Path where
  absolute := false
  segments := List.replicate n up
  resolved := isResolved_iff.mpr ⟨n, [], (List.append_nil _).symm, List.forall_mem_nil _,
    fun no => absurd no Bool.false_ne_true⟩
  whole := by
    intro s member
    rw [List.eq_of_mem_replicate member]
    decide

theorem Path.eq_climbs {p : Path} (some_segs : p.segments ≠ []) (levels : ∀ s ∈ p.segments, s = up) :
    p = climbs p.segments.length := by
  obtain ⟨k, names, form, named, rooted⟩ := isResolved_iff.mp p.resolved
  have relative : p.absolute = false := by
    by_contra root
    rw [rooted (Bool.of_not_eq_false root)] at form
    obtain rfl : p.segments = names := form
    obtain ⟨s, member⟩ := List.exists_mem_of_ne_nil _ some_segs
    exact absurd (levels s member ▸ named s member) (by decide)
  exact Path.ext relative (List.eq_replicate_iff.mpr ⟨rfl, levels⟩)

theorem Path.lower_climbs (n : Nat) : (climbs n).lower = climbs n := by
  refine Path.ext rfl ?_
  rw [segments_lower, climbs, List.map_replicate, lower_up]

/-- Climbs have nothing to trim. -/
theorem Path.ofText_climbs (n : Nat) : ofText (climbs n).text = climbs n := by
  have level : ∀ c ∈ up, Text.isBlank c = false := by
    intro c member
    obtain rfl : c = '.' := List.eq_of_mem_replicate (n := 2) member
    decide
  have plain : ∀ c ∈ (climbs n).text, Text.isBlank c = false := by
    intro c member
    rcases mem_stem ((climbs n).text_prefix_stem.subset member) with rfl | ⟨s, among, own⟩
    · decide
    · exact level c (List.eq_of_mem_replicate among ▸ own)
  exact ofText_text <| Text.trim_eq_self (fun c first => plain c (List.mem_of_head? first))
    fun c last => plain c (List.mem_of_getLast? last)

theorem Path.normalize_climbs (foldsCase : Bool) (n : Nat) :
    normalize foldsCase (climbs n).text = (climbs n).text := by
  rw [← text_ofLocation, ofLocation, ofText_climbs, lower_climbs, ite_self]

/-- Climbs begin with the stem of fewer climbs. -/
theorem Path.climbs_prefix_climbs (n : Nat) : (climbs n).stem <+: (climbs (n + 1)).text := by
  have more : (climbs (n + 1)).segments ≠ [] := List.cons_ne_nil _ _
  have begins : (climbs n).stem <+: (climbs (n + 1)).stem :=
    stem_prefix_stem rfl ⟨[up], List.replicate_succ'.symm⟩
  rw [stem_eq_concat more, List.prefix_concat_iff, ← stem_eq_concat more] at begins
  refine begins.resolve_left fun whole => ?_
  have segs := congrArg Location.segments whole
  rw [segments_stem, segments_stem] at segs
  exact absurd (congrArg List.length segs) (by simp [climbs])

/-- From climbs one can climb on without leaving the directory, as it is compared. -/
theorem Path.exists_higher {p : Path} (some_segs : p.segments ≠ [])
    (levels : ∀ s ∈ p.segments, s = up) :
    ∃ q : Path, q.segments = p.segments ++ [up] ∧ p.stem <+: q.text ∧
      ∀ foldsCase, normalize foldsCase q.text = q.text := by
  rw [eq_climbs some_segs levels]
  exact ⟨climbs (p.segments.length + 1), List.replicate_succ', climbs_prefix_climbs _,
    fun foldsCase => normalize_climbs foldsCase _⟩

end Location

/-- A scope contains a location exactly if the location lies inside one of the directories. Nothing
is lost where directories lie inside one another, and no directory contains what is only spelled on
from it. -/
theorem scope_contains_iff_encloses (foldsCase : Bool) (directories : List Text) (location : Text) :
    let scope := Scope.ofDirectories foldsCase directories
    let n := normalize foldsCase location
    (scope.contains n = true ↔ ∃ d ∈ directories,
      normalize foldsCase d ≠ [] ∧ Encloses (normalize foldsCase d) n) ∧
    (∀ t, scope.contains t =
      directories.any fun d => (Scope.ofDirectories foldsCase [d]).contains t) ∧
    ∀ d s, normalize foldsCase d ≠ ['/'] → '/' ∉ s → n = normalize foldsCase d ++ s →
      (Scope.ofDirectories foldsCase [d]).contains n = false := by
  intro scope n
  refine ⟨?_, fun t => ?_, fun d s below whole spelled => ?_⟩
  · rw [Scope.contains_ofDirectories_iff]
    exact exists_congr fun d => and_congr_right fun _ => exists_stem_prefix_iff
  · rw [Bool.eq_iff_iff, Scope.contains_ofDirectories_iff, List.any_eq_true]
    simp only [Scope.contains_singleton_iff]
  · rw [← Bool.not_eq_true, Scope.contains_singleton_iff, spelled, ← Path.text_ofLocation]
    simp only [Path.directory?_eq_some_iff]
    rintro ⟨_, ⟨some_stem, rfl⟩, begins⟩
    have some_segs : (Path.ofLocation foldsCase d).segments ≠ [] := by
      intro none
      rw [← Path.text_ofLocation] at below
      exact below (Path.text_eq_root none some_stem)
    rw [Path.stem_eq_concat some_segs, List.prefix_append_right_inj] at begins
    exact whole (begins.subset List.mem_cons_self)

/-- What follows a directory in a location that its scope contains does not climb, unless the
directory is climbs alone and the location goes on climbing; and of such a directory some scope
contains a climb. -/
theorem scope_climbs_iff (foldsCase : Bool) (directory : Text) :
    let scope := Scope.ofDirectories foldsCase [directory]
    let m := normalize foldsCase directory
    (∀ location, let n := normalize foldsCase location
      scope.contains n = true → ∃ further, segments n = segments m ++ further ∧
        (up ∈ further ↔ OnlyClimbs m ∧ further.head? = some up)) ∧
    ((∃ location, let n := normalize foldsCase location
      scope.contains n = true ∧ ∃ further, segments n = segments m ++ further ∧ up ∈ further) ↔
        OnlyClimbs m) := by
  intro scope m
  have segs_m : segments m = (Path.ofLocation foldsCase directory).segments :=
    Path.segments_normalize foldsCase directory
  have inside (location : Text) (contained : scope.contains (normalize foldsCase location) = true) :
      ∃ further, segments (normalize foldsCase location) = segments m ++ further ∧
        (up ∈ further ↔ OnlyClimbs m ∧ further.head? = some up) := by
    rw [Scope.contains_singleton_iff] at contained
    obtain ⟨stem, given, begins⟩ := contained
    obtain ⟨some_stem, rfl⟩ := Path.directory?_eq_some_iff.mp given
    have same := Path.isAbsolute_eq_of_prefix some_stem begins
    obtain ⟨further, segs⟩ := Path.exists_segments_eq begins
    rw [Path.isAbsolute_normalize] at same
    refine ⟨further, by rw [segs, segs_m], ?_⟩
    rw [Path.segments_normalize] at segs
    rw [OnlyClimbs, segs_m]
    exact Path.up_mem_further_iff some_stem same.symm segs
  refine ⟨inside, ?_, ?_⟩
  · rintro ⟨location, contained, further, segs, climbs⟩
    obtain ⟨further', segs', iff⟩ := inside location contained
    rw [segs, List.append_cancel_left_eq] at segs'
    exact (iff.mp (segs' ▸ climbs)).1
  · rintro ⟨some_segs, levels⟩
    rw [segs_m] at some_segs levels
    obtain ⟨q, higher, begins, normal⟩ := Path.exists_higher some_segs levels
    have some_stem : (Path.ofLocation foldsCase directory).stem ≠ [] := by
      rw [Path.stem_eq_concat some_segs]
      simp
    refine ⟨q.text, ?_, [up], ?_, List.mem_singleton_self up⟩
    · rw [normal, Scope.contains_singleton_iff]
      exact ⟨_, Path.directory?_eq_some_iff.mpr ⟨some_stem, rfl⟩, begins⟩
    · rw [normal, Path.segments_text, higher, segs_m]

/-- Two levels up is not inside one level up, but is written as if it were. -/
theorem scope_climbs_of_parent :
    let scope := Scope.ofDirectories true ["..".toList]
    let n := normalize true "../../x".toList
    scope.contains n = true ∧
      segments n = segments (normalize true "..".toList) ++ ["..".toList, "x".toList] := by
  decide +kernel

end TagQuery
