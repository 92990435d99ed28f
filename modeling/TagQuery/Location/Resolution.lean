import TagQuery.Location

/-! The rules by which the segments of a path are resolved, one at a time and in any order. They
come to an end, and no rule applies to names after the climbs that a relative path may begin
with. -/
namespace TagQuery.Location

/-- A segment that names something. -/
def isName (segment : Text) : Bool := segment ≠ [] && segment ≠ here && segment ≠ up

/-- One rule applied at one place. -/
inductive Resolves (absolute : Bool) : List Text → List Text → Prop
  | empty (before after : List Text) : Resolves absolute (before ++ [] :: after) (before ++ after)
  | here (before after : List Text) : Resolves absolute (before ++ here :: after) (before ++ after)
  | climb (before : List Text) (name : Text) (after : List Text) (named : isName name = true) :
      Resolves absolute (before ++ name :: up :: after) (before ++ after)
  | root (after : List Text) (rooted : absolute = true) : Resolves absolute (up :: after) after

/-- Whether some segments are resolved: names, after any climbs of a relative path. -/
def isResolved (absolute : Bool) : List Text → Bool
  | [] => true
  | segment :: rest =>
    if segment = up then !absolute && isResolved false rest else (segment :: rest).all isName

namespace Resolves

/-- Every rule leaves fewer segments. -/
theorem length_lt {absolute : Bool} {segments left : List Text}
    (h : Resolves absolute segments left) : left.length < segments.length := by
  cases h <;> simp only [List.length_append, List.length_cons] <;> omega

/-- What a rule does to the first segment, or else it applies below it. -/
theorem cons_cases {absolute : Bool} {segment : Text} {rest left : List Text}
    (h : Resolves absolute (segment :: rest) left) :
    segment = [] ∨ segment = Location.here ∨ (absolute = true ∧ segment = up) ∨
      (isName segment = true ∧ rest.head? = some up) ∨ ∃ below, Resolves false rest below := by
  generalize hs : segment :: rest = segments at h
  cases h with
  | empty before after =>
    cases before with
    | nil => exact .inl (List.cons.inj hs).1
    | cons _ before =>
      obtain ⟨rfl, rfl⟩ := List.cons.inj hs
      exact .inr (.inr (.inr (.inr ⟨_, .empty before after⟩)))
  | here before after =>
    cases before with
    | nil => exact .inr (.inl (List.cons.inj hs).1)
    | cons _ before =>
      obtain ⟨rfl, rfl⟩ := List.cons.inj hs
      exact .inr (.inr (.inr (.inr ⟨_, .here before after⟩)))
  | climb before name after named =>
    cases before with
    | nil =>
      obtain ⟨rfl, rfl⟩ := List.cons.inj hs
      exact .inr (.inr (.inr (.inl ⟨named, rfl⟩)))
    | cons _ before =>
      obtain ⟨rfl, rfl⟩ := List.cons.inj hs
      exact .inr (.inr (.inr (.inr ⟨_, .climb before name after named⟩)))
  | root after rooted => exact .inr (.inr (.inl ⟨rooted, (List.cons.inj hs).1⟩))

end Resolves

/-- Among names no rule applies. -/
theorem not_resolves_of_all_isName {absolute : Bool} {segments left : List Text}
    (h : segments.all isName = true) : ¬ Resolves absolute segments left := by
  induction segments generalizing absolute left with
  | nil => exact fun r => nomatch r.length_lt
  | cons segment rest ih =>
    rw [List.all_cons, Bool.and_eq_true] at h
    intro r
    rcases r.cons_cases with rfl | rfl | ⟨_, rfl⟩ | ⟨_, hup⟩ | ⟨_, r⟩
    · exact absurd h.1 (by decide)
    · exact absurd h.1 (by decide)
    · exact absurd h.1 (by decide)
    · cases rest with
      | nil => cases hup
      | cons second rest =>
        cases hup
        exact absurd h.2 (by simp [show isName up = false from rfl])
    · exact ih h.2 r

/-- To resolved segments no rule applies. -/
theorem not_resolves_of_isResolved {absolute : Bool} {segments left : List Text}
    (h : isResolved absolute segments = true) : ¬ Resolves absolute segments left := by
  induction segments generalizing absolute left with
  | nil => exact fun r => nomatch r.length_lt
  | cons segment rest ih =>
    by_cases hup : segment = up
    · subst hup
      simp only [isResolved, ↓reduceIte, Bool.and_eq_true, Bool.not_eq_true'] at h
      intro r
      rcases r.cons_cases with e | e | ⟨rooted, _⟩ | ⟨named, _⟩ | ⟨_, r⟩
      · exact absurd e (by decide)
      · exact absurd e (by decide)
      · exact absurd rooted (by simp [h.1])
      · exact absurd named (by decide)
      · exact ih h.2 r
    · rw [isResolved, if_neg hup] at h
      exact not_resolves_of_all_isName h

example : Resolves true ["a".toList, up, "b".toList] ["b".toList] := .climb [] _ _ (by decide)
example : isResolved false [up, "a".toList] = true ∧ isResolved true [up, "a".toList] = false := by
  decide

end TagQuery.Location
