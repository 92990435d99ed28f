import TagQuery.Proofs.Scope.Rebuilt

/-! What a scope keeps of its directories. The stems are the shortest texts that the scope contains, so
they are told by what it contains, and that is told by the directories one by one. Main statement: no stem
is kept that another one covers, and nothing is lost by it, in whatever order and how often the directories
are given. -/
namespace TagQuery

open Location

namespace Scope

variable {foldsCase : Bool} {scope : Scope} {d stem t u : Text} {directories others : List Text}

theorem contains_iff : scope.contains t = true ↔ ∃ stem ∈ scope.stems, stem <+: t := by
  simp only [contains, List.any_eq_true, List.isPrefixOf_iff_prefix]

/-- What begins with a text that the scope contains is contained as well. -/
theorem contains_of_prefix (inside : scope.contains t = true) (begins : t <+: u) :
    scope.contains u = true := by
  obtain ⟨stem, among, covers⟩ := contains_iff.mp inside
  exact contains_iff.mpr ⟨stem, among, covers.trans begins⟩

theorem contains_of_mem_stems (among : stem ∈ scope.stems) : scope.contains stem = true :=
  contains_iff.mpr ⟨stem, among, List.prefix_rfl⟩

/-- The stems are the texts that the scope contains without containing a shorter beginning of them. -/
theorem mem_stems_iff : stem ∈ (ofDirectories foldsCase directories).stems ↔
    (ofDirectories foldsCase directories).contains stem = true ∧
      ∀ t, t <+: stem → (ofDirectories foldsCase directories).contains t = true → t = stem := by
  constructor
  · intro among
    refine ⟨contains_of_mem_stems among, fun t begins inside => ?_⟩
    obtain ⟨other, among', covers⟩ := contains_iff.mp inside
    obtain rfl := eq_of_prefix among among' (covers.trans begins)
    exact begins.eq_of_length_le covers.length_le
  · rintro ⟨inside, shortest⟩
    obtain ⟨other, among, covers⟩ := contains_iff.mp inside
    rwa [← shortest other covers (contains_of_mem_stems among)]

/-- Scopes that contain the same are the same. -/
theorem ofDirectories_eq_iff :
    ofDirectories foldsCase others = ofDirectories foldsCase directories ↔
      ∀ t, (ofDirectories foldsCase others).contains t =
        (ofDirectories foldsCase directories).contains t := by
  constructor
  · intro same t
    rw [same]
  · intro same
    have stems : (ofDirectories foldsCase others).stems =
        (ofDirectories foldsCase directories).stems := by
      refine Text.eq_of_ordered (pairwise_stems _ _) (pairwise_stems _ _) fun t => ?_
      simp only [mem_stems_iff, same]
    rw [ofDirectories, ofDirectories, mk.injEq]
    exact ⟨stems, rfl⟩

/-- Neither the order of the directories counts nor how often they are given. -/
theorem ofDirectories_congr (same : ∀ d, d ∈ others ↔ d ∈ directories) :
    ofDirectories foldsCase others = ofDirectories foldsCase directories := by
  refine ofDirectories_eq_iff.mpr fun t => ?_
  rw [Bool.eq_iff_iff, contains_ofDirectories_iff, contains_ofDirectories_iff]
  simp only [same]

/-- One directory more adds what begins with its stem. -/
theorem contains_cons_iff : (ofDirectories foldsCase (d :: directories)).contains t = true ↔
    (∃ stem, directory? foldsCase d = some stem ∧ stem <+: t) ∨
      (ofDirectories foldsCase directories).contains t = true := by
  simp only [contains_ofDirectories_iff, List.mem_cons, or_and_right, exists_or, exists_eq_left]

/-- One directory more changes nothing exactly if its stem is covered, or if it has none. -/
theorem ofDirectories_cons_eq_iff :
    ofDirectories foldsCase (d :: directories) = ofDirectories foldsCase directories ↔
      ∀ stem, directory? foldsCase d = some stem →
        (ofDirectories foldsCase directories).contains stem = true := by
  rw [ofDirectories_eq_iff]
  constructor
  · intro same stem given
    rw [← same, contains_cons_iff]
    exact .inl ⟨stem, given, List.prefix_rfl⟩
  · intro covered t
    rw [Bool.eq_iff_iff, contains_cons_iff, or_iff_right_iff_imp]
    rintro ⟨stem, given, begins⟩
    exact contains_of_prefix (covered stem given) begins

/-- No stem covers another one. -/
theorem pairwise_apart (foldsCase : Bool) (directories : List Text) :
    (ofDirectories foldsCase directories).stems.Pairwise fun t u => ¬ t <+: u ∧ ¬ u <+: t := by
  refine (pairwise_stems foldsCase directories).imp_of_mem fun {t u} among among' less => ?_
  have differ : t ≠ u := by
    rintro rfl
    simp at less
  refine ⟨fun begins => ?_, fun begins => ?_⟩
  · exact differ <| eq_of_prefix among' among begins
  · exact differ <| Eq.symm <| eq_of_prefix among among' begins

/-- A stem is written, and ends with a separator. -/
theorem closed_of_mem_stems (among : stem ∈ (ofDirectories foldsCase directories).stems) :
    stem ≠ [] ∧ stem.getLast? = some '/' := by
  obtain ⟨p, rfl, some_stem, -⟩ := exists_path among
  exact ⟨some_stem, Path.getLast?_stem some_stem⟩

/-- No other texts cover the same, unless the stems are among them. -/
theorem mem_stems_of_contains_eq (same : ∀ t, (ofDirectories foldsCase directories).contains t =
    scope.contains t) (among : stem ∈ (ofDirectories foldsCase directories).stems) :
    stem ∈ scope.stems := by
  obtain ⟨inside, shortest⟩ := mem_stems_iff.mp among
  rw [same] at inside
  obtain ⟨other, among', begins⟩ := contains_iff.mp inside
  rwa [← shortest other begins ((same other).trans (contains_of_mem_stems among'))]

end Scope

/-- A scope is minimal: its stems are written, end with a separator, do not begin with one another, and
are among the stems of whatever contains the same. It is lossless: it contains exactly what begins with
the stem of a directory. So it does not change with the order and the repetitions of the directories, nor
with one more whose stem is covered, and with one more it contains no less. -/
theorem scope_minimal_and_lossless (foldsCase : Bool) (directories : List Text) :
    let scope := Scope.ofDirectories foldsCase directories
    ((∀ stem ∈ scope.stems, stem ≠ [] ∧ stem.getLast? = some '/') ∧
      (scope.stems.Pairwise fun t u => ¬ t <+: u ∧ ¬ u <+: t) ∧
      ∀ other : Scope, (∀ t, scope.contains t = other.contains t) →
        ∀ stem ∈ scope.stems, stem ∈ other.stems) ∧
    (∀ t, scope.contains t = true ↔
      ∃ d ∈ directories, ∃ stem, directory? foldsCase d = some stem ∧ stem <+: t) ∧
    (∀ others, (∀ d, d ∈ others ↔ d ∈ directories) →
      Scope.ofDirectories foldsCase others = scope) ∧
    ∀ d, let more := Scope.ofDirectories foldsCase (d :: directories)
      (more = scope ↔ ∀ stem, directory? foldsCase d = some stem → scope.contains stem = true) ∧
        ∀ t, scope.contains t = true → more.contains t = true := by
  intro scope
  refine ⟨⟨fun stem among => Scope.closed_of_mem_stems among,
    Scope.pairwise_apart foldsCase directories,
    fun other same stem among => Scope.mem_stems_of_contains_eq same among⟩,
    fun t => Scope.contains_ofDirectories_iff, fun others same => Scope.ofDirectories_congr same,
    fun d => ⟨Scope.ofDirectories_cons_eq_iff, fun t inside => ?_⟩⟩
  exact Scope.contains_cons_iff.mpr (.inr inside)

/-- Of a chain of directories the outermost is kept, in whatever order they are given. -/
theorem scope_minimal_and_lossless_of_chain :
    let directories := ["/a/b/c".toList, "/A".toList, "/ab".toList, "\\a\\b".toList]
    let scope := Scope.ofDirectories true directories
    let unreduced : Scope := ⟨["/ab/".toList, "/a/b/".toList, "/a/".toList], true⟩
    scope.stems = ["/a/".toList, "/ab/".toList] ∧ (∀ stem ∈ scope.stems, stem ∈ unreduced.stems) ∧
      Scope.ofDirectories true (directories.reverse ++ directories) = scope ∧
      Scope.ofDirectories true ("/a/./d".toList :: directories) = scope ∧
      (Scope.ofDirectories true ("/".toList :: directories)).contains "/a/b/c/x".toList = true := by
  intro directories scope unreduced
  have stems : scope.stems = ["/a/".toList, "/ab/".toList] := by decide +kernel
  obtain ⟨⟨-, -, least⟩, -, same, more⟩ := scope_minimal_and_lossless true directories
  refine ⟨stems, least unreduced fun t => ?_, same _ fun d => ?_, (more _).1.mpr ?_,
    (more _).2 _ (by decide +kernel)⟩
  · have nested : "/a/".toList <+: "/a/b/".toList := by decide
    rw [Bool.eq_iff_iff, Scope.contains_iff, Scope.contains_iff, stems]
    simp only [unreduced, List.mem_cons, List.not_mem_nil, or_false, exists_eq_or_imp,
      exists_eq_left]
    exact ⟨fun h => h.symm.imp_right .inr, fun h => h.symm.imp_left (·.elim nested.trans id)⟩
  · simp
  · intro stem given
    have own : directory? true "/a/./d".toList = some "/a/d/".toList := by decide +kernel
    obtain rfl := Option.some.inj (own.symm.trans given)
    decide +kernel

end TagQuery
