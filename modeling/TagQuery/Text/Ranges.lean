/-! Sets of code points as increasing lists of inclusive ranges. -/
namespace TagQuery.Text

/-- Membership in an increasing list of ranges: the search stops at the first range that begins
after the number. -/
def inRanges : List (Nat × Nat) → Nat → Bool
  | [], _ => false
  | (first, last) :: rest, n =>
    if n < first then false else if n ≤ last then true else inRanges rest n

@[simp] theorem inRanges_nil (n : Nat) : inRanges [] n = false := rfl

example : inRanges [(3, 5), (9, 9)] 9 = true ∧ inRanges [(3, 5), (9, 9)] 6 = false := by decide

end TagQuery.Text
