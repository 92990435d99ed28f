import TagQuery.Index
import TagQuery.Proofs.Database.Pattern
import TagQuery.Proofs.Scope.Rebuilt

/-! How the two stores compare folded locations with a scope that does not fold case. The database
lowercases the stems, the index reads them again as directories of a scope that does. Main steps:
the two agree where no stem has anything to trim; and if they agreed on every location although some
stem has, there would be another one with more marks at its front, and so without end. -/
namespace TagQuery

open Location

variable {directories : List Text} {stem t u : Text}

/-- What is left of a stem when it is read again as a directory. -/
def Location.reread (stem : Text) : Text := (Path.ofText stem).stem

theorem directory?_true_eq_some_iff :
    directory? true stem = some t ↔ t ≠ [] ∧ (reread stem).lower = t := by
  rw [Path.directory?_eq_some_iff, Path.ofLocation, if_pos rfl, Path.stem_lower, reread]

/-- Inside the stem of a relative path there are locations. -/
theorem exists_location {p : Path} (relative : p.absolute = false) :
    ∃ location, normalize true location = p.stem.lower ++ ['x'] := by
  have named : isName ['x'] = true := by decide
  have whole : '/' ∉ ['x'] ∧ '\\' ∉ ['x'] := by decide
  have written := p.text_child named whole
  have read : Path.ofText (here ++ '/' :: (p.child ['x'] named whole).text) =
      p.child ['x'] named whole := by
    refine Path.ofText_here relative fun c last => ?_
    rw [written, List.getLast?_concat] at last
    cases last
    decide
  have own : Text.lower ['x'] = ['x'] := by decide +kernel
  refine ⟨here ++ '/' :: (p.child ['x'] named whole).text, ?_⟩
  rw [← Path.text_ofLocation, Path.ofLocation, if_pos rfl, read, Path.text_lower, written,
    Path.lower_stem_append, own]

/-- A stem does not end in the middle of a name, so it does not reach the character behind a text. -/
theorem stem_prefix_concat_iff {p : Path} : p.stem <+: t ++ ['x'] ↔ p.stem <+: t := by
  rw [List.prefix_concat_iff]
  refine or_iff_right fun same => ?_
  have some_stem : p.stem ≠ [] := by
    rw [same]
    simp
  have last := Path.getLast?_stem some_stem
  rw [same, List.getLast?_concat] at last
  cases last

namespace Scope

theorem contains_folded_iff :
    (ofDirectories true (ofDirectories false directories).stems).contains t = true ↔
      ∃ stem ∈ (ofDirectories false directories).stems,
        reread stem ≠ [] ∧ (reread stem).lower <+: t := by
  rw [contains_ofDirectories_iff]
  refine exists_congr fun stem => and_congr_right fun among => ?_
  simp only [directory?_true_eq_some_iff]
  constructor
  · rintro ⟨_, ⟨some_stem, rfl⟩, begins⟩
    exact ⟨mt Text.lower_eq_nil_iff.mpr some_stem, begins⟩
  · rintro ⟨some_stem, begins⟩
    exact ⟨_, ⟨mt Text.lower_eq_nil_iff.mp some_stem, rfl⟩, begins⟩

variable (alike : ∀ location, (ofDirectories true (ofDirectories false directories).stems).contains
    (Location.normalize true location) = true ↔
      ∃ stem ∈ (ofDirectories false directories).stems,
        stem.lower <+: Location.normalize true location)

include alike

/-- Where index and database agree, a stem with something to trim goes on from what is left of
another one. -/
theorem exists_reread_prefix (among : stem ∈ (ofDirectories false directories).stems)
    (untrimmed : stem.trim ≠ stem) : ∃ other ∈ (ofDirectories false directories).stems,
      other.trim ≠ other ∧ reread other ≠ [] ∧ (reread other).lower <+: stem.lower := by
  obtain ⟨p, rfl, -, -⟩ := exists_path among
  obtain ⟨c, blank, begins⟩ := Path.trim_stem_ne_iff.mp untrimmed
  obtain ⟨location, normal⟩ := exists_location (Path.relative_of_blank blank begins)
  have found := (alike location).mpr ⟨p.stem, among, normal ▸ List.prefix_append _ _⟩
  obtain ⟨other, among', some_left, covers⟩ := contains_folded_iff.mp found
  rw [normal, reread, ← Path.stem_lower, stem_prefix_concat_iff, Path.stem_lower] at covers
  refine ⟨other, among', fun trimmed => ?_, some_left, covers⟩
  obtain ⟨q, rfl, some_stem, -⟩ := exists_path among'
  have mark : ∀ d ∈ [c], Text.isMark d = true :=
    List.forall_mem_singleton.mpr (Text.isMark_of_isBlank blank)
  -- A stem with nothing to trim is left as it is, but then it begins with the blank.
  rw [Path.ofText_stem trimmed] at covers
  have first : [c] <+: q.stem.lower :=
    List.prefix_of_prefix_length_le ((Text.prefix_lower_iff mark).mpr begins) covers
      (List.length_pos_iff.mpr (mt Text.lower_eq_nil_iff.mp some_stem))
  exact Path.trim_stem_ne_iff.mpr ⟨c, blank, (Text.prefix_lower_iff mark).mp first⟩ trimmed

/-- There, if what is left of a stem is marks and begins a stem, it is all of it. -/
theorem reread_eq_of_prefix {other : Text} (among : stem ∈ (ofDirectories false directories).stems)
    (untrimmed : stem.trim ≠ stem) (among' : other ∈ (ofDirectories false directories).stems)
    (some_left : reread other ≠ []) (marks : ∀ c ∈ reread other, Text.isMark c = true)
    (begins : reread other <+: stem) : reread other = stem := by
  have relative : (Path.ofText other).absolute = false := by
    obtain ⟨p, rfl, -, -⟩ := exists_path among
    obtain ⟨c, blank, first⟩ := Path.trim_stem_ne_iff.mp untrimmed
    exact Path.relative_of_blank blank
      (List.prefix_of_prefix_length_le first begins (List.length_pos_iff.mpr some_left))
  obtain ⟨location, normal⟩ := exists_location relative
  change _ = (reread other).lower ++ _ at normal
  have found := (alike location).mp <| contains_folded_iff.mpr
    ⟨other, among', some_left, normal ▸ List.prefix_append _ _⟩
  obtain ⟨least, among'', covers⟩ := found
  obtain ⟨q, rfl, -, -⟩ := exists_path among''
  rw [normal, ← Path.stem_lower, stem_prefix_concat_iff, Path.stem_lower,
    (Text.lower_eq_iff marks).mpr rfl] at covers
  -- The stem that the database finds is marks itself, so it begins the other one as it is.
  have own : q.stem.lower = q.stem := by
    have all := Text.isMark_of_lower fun d member => marks d (covers.subset member)
    exact (Text.lower_eq_iff all).mpr rfl
  rw [own] at covers
  have same : q.stem = stem := eq_of_prefix among among'' (covers.trans begins)
  exact begins.eq_of_length_le (same ▸ covers.length_le)

/-- There a stem with something to trim leads to one with more marks at its front. -/
theorem exists_lead_lt (among : stem ∈ (ofDirectories false directories).stems)
    (untrimmed : stem.trim ≠ stem) : ∃ other ∈ (ofDirectories false directories).stems,
      other.trim ≠ other ∧ Text.lead stem < Text.lead other := by
  obtain ⟨other, among', untrimmed', some_left, covers⟩ := exists_reread_prefix alike among untrimmed
  refine ⟨other, among', untrimmed', ?_⟩
  by_contra notMore
  have fewer : Text.lead (reread other) < Text.lead stem := by
    obtain ⟨q, rfl, -, -⟩ := exists_path among'
    obtain ⟨front, written, marks, trimmed_iff⟩ := q.exists_stem_eq
    have some_front := List.length_pos_iff.mpr (mt trimmed_iff.mpr untrimmed')
    change _ = front ++ reread q.stem at written
    rw [written, Text.lead_append marks] at notMore
    omega
  have marks : ∀ c ∈ reread other, Text.isMark c = true := by
    refine Text.isMark_of_lower (Text.isMark_of_lead_lt covers ?_)
    rwa [Text.lead_lower, Text.lead_lower]
  rw [(Text.lower_eq_iff marks).mpr rfl, Text.prefix_lower_iff marks] at covers
  have whole := reread_eq_of_prefix alike among untrimmed among' some_left marks covers
  exact absurd fewer (whole ▸ Nat.lt_irrefl _)

end Scope

/-- The database compares a location with the lowercase stems, if no null character cuts one of them
short. The index compares it with what it reads the stems for as directories, and this comes to the same
for every location exactly if no stem has anything to trim. -/
theorem scope_folded_alike_iff (index : Index) (db : Database) (folds : index.foldsCase = true)
    (folds' : db.foldsCase = true) (directories : List Text) :
    let scope := Scope.ofDirectories false directories
    ((∀ stem ∈ scope.stems, '\x00' ∉ stem) →
      ∀ n, Database.indexed (db.stems scope) n = scope.stems.any (·.lower.isPrefixOf n)) ∧
    ((∀ location, let n := normalize true location
      (index.foldScope scope).contains n = scope.stems.any (·.lower.isPrefixOf n)) ↔
        ∀ stem ∈ scope.stems, stem.trim = stem) := by
  intro scope
  have folded : index.foldScope scope = .ofDirectories true scope.stems := by
    rw [Index.foldScope, folds]
    rfl
  have lowercase (n : Text) : scope.stems.any (·.lower.isPrefixOf n) = true ↔
      ∃ stem ∈ scope.stems, stem.lower <+: n := by
    simp only [List.any_eq_true, List.isPrefixOf_iff_prefix]
  refine ⟨fun whole n => ?_, fun same stem among => ?_, fun trimmed location => ?_⟩
  · have stems : db.stems scope = scope.stems.map Text.lower := if_pos folds'
    rw [stems, Database.indexed_eq, List.any_map]
    · rfl
    · exact List.forall_mem_map.mpr fun stem among => Text.null_not_mem_lower (whole stem among)
  · have alike (location : Text) :=
      (Bool.eq_iff_iff.mp (same location)).trans (lowercase (normalize true location))
    rw [folded] at alike
    exact not_not.mp (not_of_ascent Text.lead (fun _ => Scope.exists_lead_lt alike) stem among)
  · rw [Bool.eq_iff_iff, folded, lowercase, Scope.contains_folded_iff]
    refine exists_congr fun stem => and_congr_right fun among => ?_
    obtain ⟨p, rfl, some_stem, -⟩ := Scope.exists_path among
    rw [reread, Path.ofText_stem (trimmed p.stem among)]
    exact and_iff_right some_stem

/-- A name that ends in a capital sigma is in lower case the same as a directory and as a name
inside. -/
theorem scope_folded_alike_of_sigma :
    let scope := Scope.ofDirectories false ["/ΟΔΟΣ/".toList, "C:\\Pics".toList]
    let n := normalize true "/Οδος/x".toList
    (Index.empty true).foldsCase = true ∧ (Database.mk true {}).foldsCase = true ∧
      ((Index.empty true).foldScope scope).contains n = scope.stems.any (·.lower.isPrefixOf n) ∧
        ((Index.empty true).foldScope scope).contains n = true := by
  intro scope n
  have trimmed : ∀ stem ∈ scope.stems, stem.trim = stem := by decide +kernel
  obtain ⟨-, alike⟩ := scope_folded_alike_iff (Index.empty true) ⟨true, {}⟩ rfl rfl
    ["/ΟΔΟΣ/".toList, "C:\\Pics".toList]
  exact ⟨rfl, rfl, alike.mpr trimmed _, by decide +kernel⟩

/-- The index trims the blank that the name of the directory begins with, the database does not. -/
theorem scope_folded_otherwise_of_blank :
    let scope := Scope.ofDirectories false ["./ a".toList]
    let n := normalize true "./ a/x".toList
    ((Index.empty true).foldScope scope).contains n = false ∧
      scope.stems.any (·.lower.isPrefixOf n) = true := by
  decide +kernel

end TagQuery
