import TagQuery.Proofs.Location.Stability
import TagQuery.Proofs.Scope.Containment
import TagQuery.Proofs.Text.ByteOrder
import Mathlib.Data.Finset.Max

/-! Scopes made from the stems of scopes. The stems are read as directories again, so blanks at
their front are trimmed that were kept before. Main steps: a stem with nothing to trim names the
path it came from, any other one gets shorter, and then the scope is not the same, for the longest
stem that gets shorter is lost. -/
namespace TagQuery

open Location

variable {foldsCase : Bool} {stem t : Text} {stems directories : List Text}

/-- In a list, no property goes from each member that has it to a greater one. -/
theorem not_of_ascent {α : Type} {P : α → Prop} {l : List α} (size : α → Nat)
    (ascent : ∀ a ∈ l, P a → ∃ b ∈ l, P b ∧ size a < size b) : ∀ a ∈ l, ¬ P a := by
  classical
  intro a among holds
  obtain ⟨b, member, greatest⟩ :=
    (l.toFinset.filter P).exists_max_image size ⟨a, by simp [among, holds]⟩
  rw [Finset.mem_filter, List.mem_toFinset] at member
  obtain ⟨c, among', holds', greater⟩ := ascent b member.1 member.2
  exact absurd (greatest c (by simp [among', holds'])) (Nat.not_le_of_lt greater)

namespace Scope

theorem sortedDistinct_eq_self (ordered : stems.Pairwise fun t u => compare t u = .lt) :
    sortedDistinct stems = stems :=
  Text.eq_of_ordered Std.ExtTreeSet.ordered_toList ordered fun _ => mem_sortedDistinct

theorem pairwise_stems (foldsCase : Bool) (directories : List Text) :
    (ofDirectories foldsCase directories).stems.Pairwise fun t u => compare t u = .lt :=
  Std.ExtTreeSet.ordered_toList.filter _

theorem outermost_eq_self (apart : ∀ t ∈ stems, ∀ u ∈ stems, u <+: t → u = t) :
    outermost stems = stems :=
  List.filter_eq_self.mpr fun t among =>
    (List.mem_filter.mp (mem_outermost.mpr ⟨among, apart t among⟩)).2

theorem eq_of_prefix {t u : Text} (among : t ∈ (ofDirectories foldsCase directories).stems)
    (among' : u ∈ (ofDirectories foldsCase directories).stems) (begins : u <+: t) : u = t :=
  (mem_outermost.mp among).2 u (mem_outermost.mp among').1 begins

/-- A stem of a scope is the stem of a path, in lower case if the scope folds case. -/
theorem exists_path (among : stem ∈ (ofDirectories foldsCase directories).stems) :
    ∃ p : Path, p.stem = stem ∧ stem ≠ [] ∧ (foldsCase = true → p.lower = p) := by
  obtain ⟨d, -, given⟩ := exists_directory among
  obtain ⟨some_stem, rfl⟩ := Path.directory?_eq_some_iff.mp given
  refine ⟨Path.ofLocation foldsCase d, rfl, some_stem, ?_⟩
  rintro rfl
  exact Path.lower_lower (Path.ofText d)

/-- A stem with nothing to trim is the stem of itself. -/
theorem directory?_stem (among : stem ∈ (ofDirectories foldsCase directories).stems)
    (trimmed : stem.trim = stem) : directory? foldsCase stem = some stem := by
  obtain ⟨p, rfl, some_stem, folded⟩ := exists_path among
  refine Path.directory?_eq_some_iff.mpr ⟨some_stem, ?_⟩
  rw [Path.ofLocation, Path.ofText_stem trimmed]
  split
  · next folds => rw [folded folds]
  · rfl

/-- A stem that is read from another one stands at its end. -/
theorem exists_front (among : stem ∈ (ofDirectories foldsCase directories).stems)
    (given : directory? foldsCase stem = some t) :
    ∃ front, stem = front ++ t ∧ (stem.trim = stem ↔ front = []) := by
  obtain ⟨p, rfl, some_stem, folded⟩ := exists_path among
  obtain ⟨-, rfl⟩ := Path.directory?_eq_some_iff.mp given
  obtain ⟨front, written, -, trimmed_iff⟩ := p.exists_stem_eq
  refine ⟨front, ?_, trimmed_iff⟩
  cases foldsCase with
  | true =>
    have lowered : ∀ c ∈ p.stem, Text.Lowered c := by
      rw [← folded rfl, Path.stem_lower]
      exact fun c => Text.lowered_of_mem_lower
    rw [Path.ofLocation, if_pos rfl, Path.lower_ofText lowered]
    exact written
  | false => exact written

theorem ofDirectories_stems_iff (foldsCase : Bool) (directories : List Text) :
    ofDirectories foldsCase (ofDirectories foldsCase directories).stems =
        ofDirectories foldsCase directories ↔
      ∀ stem ∈ (ofDirectories foldsCase directories).stems, stem.trim = stem := by
  constructor
  · intro same
    have stays : ∀ stem ∈ (ofDirectories foldsCase directories).stems, ¬ stem.trim ≠ stem := by
      refine not_of_ascent List.length fun stem among untrimmed => ?_
      rw [← same] at among
      obtain ⟨longer, among', given⟩ := exists_directory among
      obtain ⟨front, rfl, trimmed_iff⟩ := exists_front among' given
      have some_front : front ≠ [] := by
        rintro rfl
        exact untrimmed (trimmed_iff.mpr rfl)
      refine ⟨_, among', mt trimmed_iff.mp some_front, ?_⟩
      rw [List.length_append]
      exact Nat.lt_add_of_pos_left (List.length_pos_iff.mpr some_front)
    exact fun stem among => not_not.mp (stays stem among)
  · intro trimmed
    have again : (ofDirectories foldsCase directories).stems.filterMap (directory? foldsCase) =
        (ofDirectories foldsCase directories).stems := by
      refine (List.filterMap_congr fun stem among => ?_).trans List.filterMap_some
      exact directory?_stem among (trimmed stem among)
    conv_lhs => rw [ofDirectories, again,
      sortedDistinct_eq_self (pairwise_stems foldsCase directories),
      outermost_eq_self fun t among u among' => eq_of_prefix among among']
    rfl

end Scope

/-- What is normalized stays as it is when it is normalized again, and so does a scope that is made
anew from its stems, exactly if there is nothing to trim. -/
theorem normalization_stable_iff (foldsCase : Bool) :
    (∀ raw, normalize foldsCase (normalize foldsCase raw) = normalize foldsCase raw ↔
      (normalize foldsCase raw).trim = normalize foldsCase raw) ∧
    ∀ directories, let scope := Scope.ofDirectories foldsCase directories
      Scope.ofDirectories foldsCase scope.stems = scope ↔ ∀ stem ∈ scope.stems, stem.trim = stem :=
  ⟨Path.normalize_normalize_iff foldsCase, Scope.ofDirectories_stems_iff foldsCase⟩

/-- A name that begins with a blank keeps it behind a dot and a separator, but not when they are
gone. -/
theorem normalization_unstable_of_blank :
    let raw := "./ a".toList
    let scope := Scope.ofDirectories true [raw]
    (normalize true raw = " a".toList ∧ normalize true (normalize true raw) ≠ normalize true raw) ∧
      scope.stems = [" a/".toList] ∧ Scope.ofDirectories true scope.stems ≠ scope := by
  decide +kernel

end TagQuery
