import TagQuery.Proofs.Text.Marks
import TagQuery.Proofs.Text.Trim
import TagQuery.Tag

/-! Folding a name twice is folding it once. Lowercase text has no lowercase form of its own, so what is
left to show is that lowercasing brings no blank to an end: a blank is the form of itself alone, and a
text and its lowercase form begin, and end, with the same one. -/
namespace TagQuery

namespace Text

variable {before : Bool} {c : Char} {t : Text}

theorem lowerFrom_ne_nil (some_char : t ≠ []) : lowerFrom before t ≠ [] := by
  obtain ⟨c, rest, rfl⟩ := List.exists_cons_of_ne_nil some_char
  cases own : isMark c with
  | true =>
    rw [lowerFrom_mark own]
    exact List.cons_ne_nil _ _
  | false =>
    obtain ⟨d, more, form, -⟩ := exists_lowerFrom_eq own before rest
    rw [form]
    exact List.cons_ne_nil _ _

/-- A blank at the beginning of the lowercase form is there in the text. -/
theorem head?_of_head?_lowerFrom (blank : isBlank c = true)
    (first : (lowerFrom before t).head? = some c) : t.head? = some c := by
  have mark := isMark_of_isBlank blank
  have leads : (lowerFrom before t).takeWhile isMark = t.takeWhile isMark :=
    takeWhile_lowerFrom before t
  obtain ⟨rest, form⟩ := List.head?_eq_some_iff.mp first
  rw [form, List.takeWhile_cons_of_pos mark] at leads
  rw [← List.takeWhile_append_dropWhile (p := isMark) (l := t), ← leads]
  rfl

/-- A blank at the end of the lowercase form is there in the text. -/
theorem getLast?_of_getLast?_lowerFrom (blank : isBlank c = true)
    (last : (lowerFrom before t).getLast? = some c) : t.getLast? = some c := by
  induction t generalizing before with
  | nil => cases last
  | cons d rest ih =>
    by_cases alone : rest = []
    · subst alone
      cases own : isMark d with
      | true =>
        rw [lowerFrom_mark own] at last
        exact last
      | false =>
        -- No form of such a character is a blank.
        obtain ⟨e, more, form, first, later⟩ := exists_lowerFrom_eq own before []
        have among := List.mem_of_getLast? last
        rw [form, lowerFrom, List.append_nil] at among
        have mark := isMark_of_isBlank blank
        rcases List.mem_cons.mp among with rfl | among
        · rw [first] at mark
          cases mark
        · rw [later c among] at mark
          cases mark
    · have some_left : lowerFrom (casedAfter before d) rest ≠ [] := lowerFrom_ne_nil alone
      rw [lowerFrom, List.getLast?_append_of_ne_nil _ some_left] at last
      rw [List.getLast?_cons_of_ne_nil alone]
      exact ih last

/-- Lowercasing leaves trimmed text trimmed. -/
theorem trim_lower (trimmed : trim t = t) : trim t.lower = t.lower := by
  obtain ⟨front, back⟩ := not_blank_of_trim_eq_self trimmed
  apply trim_eq_self
  · intro c first
    refine Bool.eq_false_iff.mpr fun blank => ?_
    rw [front c (head?_of_head?_lowerFrom blank first)] at blank
    cases blank
  · intro c last
    refine Bool.eq_false_iff.mpr fun blank => ?_
    rw [back c (getLast?_of_getLast?_lowerFrom blank last)] at blank
    cases blank

end Text

theorem Tag.null_not_mem_fold {name : Text} (whole : '\x00' ∉ name) : '\x00' ∉ fold name :=
  Text.null_not_mem_lower fun bad => whole (Text.mem_of_mem_trim bad)

/-- Folding twice is folding once. -/
@[simp] theorem Tag.fold_fold (name : Text) : fold (fold name) = fold name := by
  have trimmed : name.trim.lower.trim = name.trim.lower := Text.trim_lower name.trim_trim
  rw [fold, fold, trimmed, Text.lower_lower]

end TagQuery
