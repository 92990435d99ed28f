import TagQuery.Proofs.Database.Answers
import TagQuery.Proofs.Index.Answers
import TagQuery.Proofs.Scope.Containment

/-! A store compares a scope of its own setting as it is: the stems of a scope that folds case are in
lower case already. -/
namespace TagQuery

variable {raw stem : Text} {directories : List Text} {c : Char}

theorem Location.lowered_of_mem_directory? (given : Location.directory? true raw = some stem)
    (h : c ∈ stem) : Text.Lowered c := by
  obtain ⟨-, rfl⟩ := Path.directory?_eq_some_iff.mp given
  rw [Path.ofLocation, if_pos rfl, Path.stem_lower] at h
  exact Text.lowered_of_mem_lower h

/-- The stems of directories have a null character only if a directory has. -/
theorem Scope.null_not_mem_stems {foldsCase : Bool} (whole : ∀ d ∈ directories, '\x00' ∉ d) :
    ∀ stem ∈ (Scope.ofDirectories foldsCase directories).stems, '\x00' ∉ stem := by
  intro stem among
  obtain ⟨directory, named, given⟩ := exists_directory among
  exact Location.Path.null_not_mem_directory? (whole directory named) given

theorem Scope.lowered_of_mem_stems (among : stem ∈ (Scope.ofDirectories true directories).stems)
    (h : c ∈ stem) : Text.Lowered c := by
  obtain ⟨directory, -, given⟩ := exists_directory among
  exact Location.lowered_of_mem_directory? given h

/-- Lowercasing such stems once more changes none of them. -/
theorem Scope.map_lower_stems (directories : List Text) :
    (Scope.ofDirectories true directories).stems.map Text.lower =
      (Scope.ofDirectories true directories).stems := by
  have fixed : ∀ stem ∈ (Scope.ofDirectories true directories).stems, stem.lower = id stem :=
    fun stem among => Text.lower_eq_self fun c => Scope.lowered_of_mem_stems among
  exact (List.map_congr_left fixed).trans (List.map_id _)

theorem Database.foldScope_ofDirectories (db : Database) (directories : List Text) :
    db.foldScope (.ofDirectories db.foldsCase directories) =
      .ofDirectories db.foldsCase directories := by
  have same : db.stems (.ofDirectories db.foldsCase directories) =
      (Scope.ofDirectories db.foldsCase directories).stems := by
    unfold Database.stems
    split
    · next folds =>
      rw [folds]
      exact Scope.map_lower_stems directories
    · rfl
  rw [Database.foldScope, same]

theorem Index.foldScope_ofDirectories (index : Index) (directories : List Text) :
    index.foldScope (.ofDirectories index.foldsCase directories) =
      .ofDirectories index.foldsCase directories :=
  foldScope_of_foldsCase rfl

end TagQuery
