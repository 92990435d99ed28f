import TagQuery.Text.Blank
import Mathlib.Data.List.DropRight

/-! Trimming takes blanks away at the ends of a text, and nothing else. -/
namespace TagQuery.Text

variable {c : Char} {t : Text}

theorem trim_eq (t : Text) : trim t = (t.dropWhile isBlank).rdropWhile isBlank := rfl

theorem trim_sublist (t : Text) : List.Sublist (trim t) t :=
  (List.rdropWhile_prefix isBlank _).sublist.trans (List.dropWhile_sublist isBlank)

theorem mem_of_mem_trim (h : c ∈ trim t) : c ∈ t := (trim_sublist t).subset h

/-- Nothing is left of blanks alone. -/
theorem trim_eq_nil_iff : trim t = [] ↔ ∀ c ∈ t, isBlank c = true := by
  rw [trim_eq, List.rdropWhile_eq_nil_iff]
  refine ⟨fun rest => ?_, fun all c member => all c ((List.dropWhile_sublist _).subset member)⟩
  rw [← List.dropWhile_eq_nil_iff]
  by_contra some_left
  have first := List.head_dropWhile_not isBlank some_left
  rw [rest _ (List.head_mem some_left)] at first
  cases first

/-- Behind a last character that is no blank nothing is trimmed. -/
theorem trim_eq_dropWhile (last : ∀ c, t.getLast? = some c → isBlank c = false) :
    trim t = t.dropWhile isBlank := by
  rw [trim_eq, List.rdropWhile_eq_self_iff]
  intro left
  have same := (List.dropWhile_suffix isBlank).getLast left
  rw [same, last _ (List.getLast?_eq_some_getLast _)]
  exact Bool.false_ne_true

/-- A text that begins and ends with characters that are no blanks has nothing to trim. -/
theorem trim_eq_self (first : ∀ c, t.head? = some c → isBlank c = false)
    (last : ∀ c, t.getLast? = some c → isBlank c = false) : trim t = t := by
  rw [trim_eq_dropWhile last]
  cases t with
  | nil => rfl
  | cons c t => exact List.dropWhile_cons_of_neg (by simp [first c rfl])

/-- Where there is nothing to trim, neither end is a blank. -/
theorem not_blank_of_trim_eq_self (trimmed : trim t = t) :
    (∀ c, t.head? = some c → isBlank c = false) ∧ ∀ c, t.getLast? = some c → isBlank c = false := by
  have kept : t.length ≤ (t.dropWhile isBlank).length := by
    conv_lhs => rw [← trimmed, trim_eq]
    exact (List.rdropWhile_prefix isBlank _).length_le
  have front : t.dropWhile isBlank = t := (List.dropWhile_sublist isBlank).eq_of_length_le kept
  have back : t.rdropWhile isBlank = t := by rwa [trim_eq, front] at trimmed
  refine ⟨fun c first => ?_, fun c last => ?_⟩
  · obtain ⟨rest, rfl⟩ := List.head?_eq_some_iff.mp first
    refine Bool.eq_false_iff.mpr fun blank => ?_
    rw [List.dropWhile_cons_of_pos blank] at kept
    exact absurd (kept.trans (List.dropWhile_sublist isBlank).length_le) (by simp)
  · have some_char : t ≠ [] := by
      rintro rfl
      cases last
    rw [List.getLast?_eq_some_getLast some_char, Option.some.injEq] at last
    exact last ▸ Bool.eq_false_iff.mpr (List.rdropWhile_eq_self_iff.mp back some_char)

/-- Trimming twice is trimming once. -/
@[simp] theorem trim_trim (t : Text) : trim (trim t) = trim t := by
  apply trim_eq_self
  · intro c first
    obtain ⟨rest, form⟩ := List.head?_eq_some_iff.mp first
    have begins : trim t <+: t.dropWhile isBlank := List.rdropWhile_prefix isBlank _
    have some_left : t.dropWhile isBlank ≠ [] := by
      intro none
      rw [none, List.prefix_nil, form] at begins
      cases begins
    have same : (t.dropWhile isBlank).head some_left = c := by
      obtain ⟨more, whole⟩ := begins
      simp only [← whole, form, List.cons_append, List.head_cons]
    exact same ▸ List.head_dropWhile_not isBlank some_left
  · intro c last
    have some_left : trim t ≠ [] := by
      intro none
      rw [none] at last
      cases last
    rw [List.getLast?_eq_some_getLast some_left, Option.some.injEq] at last
    exact last ▸ Bool.eq_false_iff.mpr (List.rdropWhile_last_not isBlank _ some_left)

/-- Blanks are taken away up to a separator. -/
theorem dropWhile_append_slash (t u : Text) :
    (t ++ '/' :: u).dropWhile isBlank = t.dropWhile isBlank ++ '/' :: u := by
  rw [List.dropWhile_append]
  split
  · next none =>
    rw [List.isEmpty_iff.mp none, List.dropWhile_cons_of_neg (by decide), List.nil_append]
  · rfl

end TagQuery.Text
