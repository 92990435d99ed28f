import TagQuery.Proofs.Location.Stability
import TagQuery.Proofs.Scope.Containment

/-! What a scope covers at the least. A file of a directory is written behind the stem of the
directory, so it lies in the scope of the directory wherever there is a stem; and what lies in a scope
lies in it still when case is folded, for a stem ends with a separator, and what follows a separator is
lowercased apart. -/
namespace TagQuery

open Location

namespace Location

variable {foldsCase : Bool} {directory name raw : Text}

/-- The name of a file in a directory: no dot or climb, without separators, and without blanks at its
ends. -/
structure IsFileName (name : Text) : Prop where
  named : isName name = true
  whole : '/' ∉ name ∧ '\\' ∉ name
  trimmed : name.trim = name

/-- The text is a relative path that leads back to where it begins. -/
def StaysHere (raw : Text) : Prop :=
  isAbsolute (unify raw.trim) = false ∧ resolve false ((unify raw.trim).splitOn '/') = []

theorem resolve_concat (absolute : Bool) (segs : List Text) (named : isName name = true) :
    resolve absolute (segs ++ [name]) = resolve absolute segs ++ [name] := by
  rw [resolve, List.foldl_append, List.foldl_cons, List.foldl_nil, push_name named,
    List.reverse_cons, resolve]

/-- A directory and a file in it have nothing to trim together. -/
theorem unify_trim_file (written : directory ≠ []) (trimmed : directory.trim = directory)
    (file : IsFileName name) :
    unify (Text.trim (directory ++ '/' :: name)) = unify directory.trim ++ '/' :: name := by
  have first := (Text.not_blank_of_trim_eq_self trimmed).1
  have last := (Text.not_blank_of_trim_eq_self file.trimmed).2
  have some_char : name ≠ [] := (isName_iff.mp file.named).1.1
  have whole : Text.trim (directory ++ '/' :: name) = directory ++ '/' :: name := by
    refine Text.trim_eq_self (fun c begins => first c ?_) fun c ends => last c ?_
    · rwa [List.head?_append_of_ne_nil _ written] at begins
    · rwa [List.append_cons, List.getLast?_append_of_ne_nil _ some_char] at ends
  have slash : unify ('/' :: name) = '/' :: name := unify_eq_self (by simp [file.whole.2])
  rw [whole, trimmed, unify, List.map_append]
  exact congrArg (unify directory ++ ·) slash

namespace Path

/-- A file of a directory is named by the path of the directory and its name. -/
theorem ofText_file (written : directory ≠ []) (trimmed : directory.trim = directory)
    (file : IsFileName name) : ofText (directory ++ '/' :: name) =
      (ofText directory).child name file.named file.whole := by
  have unified := unify_trim_file written trimmed file
  have root : isAbsolute (unify directory.trim ++ '/' :: name) =
      isAbsolute (unify directory.trim) := by
    refine isAbsolute_append ?_ _
    rwa [trimmed, unify, ne_eq, List.map_eq_nil_iff]
  have segs : Location.segments (unify directory.trim ++ '/' :: name) =
      Location.segments (unify directory.trim) ++ [name] := by
    rw [segments_append_slash, segments_of_whole file.whole.1 (isName_iff.mp file.named).1.1]
  ext1
  · change isAbsolute (unify _) = isAbsolute (unify _)
    rw [unified, root]
  · change resolve (isAbsolute (unify _)) (Location.segments (unify _)) = resolve _ _ ++ [name]
    rw [unified, root, segs, resolve_concat _ _ file.named]

theorem stem_eq_nil_iff_stays {p : Path} : p.stem = [] ↔ p.absolute = false ∧ p.segments = [] := by
  constructor
  · intro no_stem
    have relative : p.absolute = false := by
      rw [← isAbsolute_stem, no_stem]
      rfl
    refine ⟨relative, ?_⟩
    rw [← segments_stem, no_stem]
    rfl
  · rintro ⟨relative, none⟩
    rw [stem, relative, none]
    rfl

theorem stem_ofLocation_eq_nil_iff : (ofLocation foldsCase raw).stem = [] ↔ StaysHere raw := by
  have plain : (ofText raw).stem = [] ↔ StaysHere raw := by
    rw [stem_eq_nil_iff_stays, StaysHere, resolve_splitOn]
    refine and_congr_right fun relative => ?_
    change resolve (isAbsolute (unify raw.trim)) _ = [] ↔ _
    rw [show isAbsolute (unify raw.trim) = false from relative]
  cases foldsCase with
  | true =>
    rw [ofLocation, if_pos rfl, stem_lower, Text.lower_eq_nil_iff, plain]
  | false => exact plain

end Path

/-- Without a stem nothing is written in front. -/
theorem getD_directory? (foldsCase : Bool) (raw : Text) :
    (directory? foldsCase raw).getD [] = (Path.ofLocation foldsCase raw).stem := by
  cases given : directory? foldsCase raw with
  | none =>
    by_contra some_stem
    rw [Path.directory?_eq_some_iff.mpr ⟨Ne.symm some_stem, rfl⟩] at given
    cases given
  | some stem => exact (Path.directory?_eq_some_iff.mp given).2.symm

/-- A directory has a stem unless it stays where it begins. -/
theorem directory?_eq_none_iff : directory? foldsCase raw = none ↔ StaysHere raw := by
  have stays : (Path.ofLocation foldsCase raw).stem = [] ↔ StaysHere raw :=
    Path.stem_ofLocation_eq_nil_iff
  rw [← stays, ← getD_directory?]
  cases given : directory? foldsCase raw with
  | none => simp
  | some stem => simpa using (Path.directory?_eq_some_iff.mp given).1

/-- The name of a file has nothing to resolve. -/
theorem normalize_file (file : IsFileName name) :
    normalize foldsCase name = if foldsCase then name.lower else name := by
  have unified : unify name.trim = name := by rw [file.trimmed, unify_eq_self file.whole.2]
  have relative : isAbsolute name = false := isAbsolute_of_whole file.whole.1
  have single : resolve false [name] = [name] := resolve_concat false [] file.named
  simp only [normalize, unified, relative, resolve_splitOn,
    segments_of_whole file.whole.1 (isName_iff.mp file.named).1.1, single]
  simp [assemble, Text.joinWith]

/-- A file of a directory is written behind the stem of the directory. -/
theorem normalize_append_file (written : directory ≠ []) (trimmed : directory.trim = directory)
    (file : IsFileName name) : normalize foldsCase (directory ++ '/' :: name) =
      (Path.ofLocation foldsCase directory).stem ++ normalize foldsCase name := by
  rw [← Path.text_ofLocation, normalize_file file]
  cases foldsCase with
  | true =>
    rw [Path.ofLocation, Path.ofLocation, if_pos rfl, if_pos rfl, if_pos rfl, Path.text_lower,
      Path.ofText_file written trimmed file, Path.text_child, Path.lower_stem_append,
      Path.stem_lower]
  | false =>
    have same : Path.ofText (directory ++ '/' :: name) = _ := Path.ofText_file written trimmed file
    rw [Path.ofLocation, Path.ofLocation, if_neg Bool.false_ne_true, if_neg Bool.false_ne_true,
      if_neg Bool.false_ne_true, same, Path.text_child]

end Location

/-- Nothing is selected by directories without stems alone. -/
theorem Scope.isEmpty_ofDirectories_iff {foldsCase : Bool} {directories : List Text} :
    (ofDirectories foldsCase directories).isEmpty = true ↔
      ∀ d ∈ directories, directory? foldsCase d = none := by
  constructor
  · intro empty d among
    refine Option.eq_none_iff_forall_ne_some.mpr fun stem given => ?_
    have inside : (ofDirectories foldsCase directories).contains stem = true :=
      contains_ofDirectories_iff.mpr ⟨d, among, stem, given, List.prefix_rfl⟩
    rw [contains, List.isEmpty_iff.mp empty] at inside
    cases inside
  · intro none_given
    refine List.isEmpty_iff.mpr (List.eq_nil_iff_forall_not_mem.mpr fun stem kept => ?_)
    obtain ⟨d, among, given⟩ := exists_directory kept
    rw [none_given d among] at given
    cases given

/-- A file of a directory is written behind the stem of the directory, so the scope of the directory
contains it; unless the directory is a relative path that leads back to where it begins, for that has
no stem, and its scope is empty. -/
theorem scope_contains_own_file_iff (foldsCase : Bool) {directory name : Text}
    (written : directory ≠ []) (trimmed : directory.trim = directory) (file : IsFileName name) :
    let scope := Scope.ofDirectories foldsCase [directory]
    let location := normalize foldsCase (directory ++ '/' :: name)
    location = (directory? foldsCase directory).getD [] ++ normalize foldsCase name ∧
      (scope.contains location = true ↔ ¬ StaysHere directory) ∧
      (scope.isEmpty = true ↔ StaysHere directory) := by
  intro scope location
  have behind : location = (directory? foldsCase directory).getD [] ++ normalize foldsCase name := by
    rw [getD_directory?]
    exact normalize_append_file written trimmed file
  refine ⟨behind, ?_, ?_⟩
  · rw [Scope.contains_singleton_iff, ← directory?_eq_none_iff, ← ne_eq, Option.ne_none_iff_exists']
    refine exists_congr fun stem => and_iff_left_of_imp fun given => ?_
    rw [behind, given]
    exact List.prefix_append _ _
  · rw [Scope.isEmpty_ofDirectories_iff, List.forall_mem_singleton, directory?_eq_none_iff]

/-- A directory that climbs, is written with backslashes, and ends in a capital sigma. -/
theorem scope_contains_own_file_of_sigma :
    let directory : Text := "..\\Pics\\..\\ΟΔΟΣ".toList
    let name : Text := "Σ x.png".toList
    let scope := Scope.ofDirectories true [directory]
    let location := normalize true (directory ++ '/' :: name)
    directory ≠ [] ∧ directory.trim = directory ∧ IsFileName name ∧ ¬ StaysHere directory ∧
      location = "../οδος/σ x.png".toList ∧ scope.contains location = true := by
  intro directory name scope location
  have written : directory ≠ [] := by decide
  have trimmed : directory.trim = directory := by decide +kernel
  have file : IsFileName name := ⟨by decide, by decide, by decide +kernel⟩
  have leaves : ¬ StaysHere directory := by
    unfold StaysHere
    decide +kernel
  obtain ⟨-, contained, -⟩ := scope_contains_own_file_iff true written trimmed file
  exact ⟨written, trimmed, file, leaves, by decide +kernel, contained.mpr leaves⟩

/-- The directory in which one stands has no file of its own in its scope. -/
theorem scope_misses_own_file_of_here :
    let directory : Text := ".".toList
    let name : Text := "f".toList
    directory ≠ [] ∧ directory.trim = directory ∧ IsFileName name ∧
      (Scope.ofDirectories true [directory]).contains
        (normalize true (directory ++ '/' :: name)) = false := by
  intro directory name
  exact ⟨by decide, by decide, ⟨by decide, by decide, by decide⟩, by decide +kernel⟩

/-- What lies in a scope lies in it still when case is folded: a separator ends the stem of each
directory, and what stands before one and what follows it are lowercased apart. -/
theorem folding_keeps_scope (directories : List Text) (location : Text) :
    ((Scope.ofDirectories false directories).contains (normalize false location) = true →
      (Scope.ofDirectories true directories).contains (normalize true location) = true) ∧
    ∀ t u : Text, Text.lower (t ++ '/' :: u) = t.lower ++ '/' :: u.lower := by
  refine ⟨fun contained => ?_, Text.lower_append_slash⟩
  rw [Scope.contains_ofDirectories_iff] at contained ⊢
  obtain ⟨d, among, stem, given, (rest : Text), begins⟩ := contained
  obtain ⟨some_stem, rfl⟩ := Path.directory?_eq_some_iff.mp given
  have own : (Path.ofLocation false d).stem.lower = (Path.ofLocation true d).stem :=
    (Path.stem_lower _).symm
  refine ⟨d, among, _, Path.directory?_eq_some_iff.mpr ⟨?_, own.symm⟩, rest.lower, ?_⟩
  · exact mt Text.lower_eq_nil_iff.mp some_stem
  · calc (Path.ofLocation false d).stem.lower ++ rest.lower
      _ = Text.lower ((Path.ofLocation false d).stem ++ rest) := (Path.lower_stem_append _ _).symm
      _ = (normalize false location).lower := by rw [begins]
      _ = normalize true location := rfl

/-- The sigma at the end of the directory ends a word in the directory and in the location. -/
theorem folding_keeps_scope_of_sigma :
    let location : Text := "/ΟΔΟΣ/Σ/x".toList
    (Scope.ofDirectories false ["/ΟΔΟΣ".toList]).contains (normalize false location) = true ∧
      (Scope.ofDirectories true ["/ΟΔΟΣ".toList]).contains (normalize true location) = true ∧
      normalize true location = "/οδος/σ/x".toList := by
  intro location
  have contained : (Scope.ofDirectories false ["/ΟΔΟΣ".toList]).contains
      (normalize false location) = true := by decide +kernel
  exact ⟨contained, (folding_keeps_scope ["/ΟΔΟΣ".toList] location).1 contained, by decide +kernel⟩

end TagQuery
