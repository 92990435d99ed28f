import TagQuery.Query

/-! What a query says of one thing, by the tags that the thing carries. Groups say nothing of their
own, and only the names in the query matter. -/
namespace TagQuery.Query

/-- Whether the query is true of a thing that carries the tags that pass a test. -/
def holds (carries : Text → Bool) : Query → Bool
  | tag name => carries name
  | all => true
  | and left right => left.holds carries && right.holds carries
  | or left right => left.holds carries || right.holds carries
  | not inner => !inner.holds carries
  | group inner => inner.holds carries

def ungrouped : Query → Query
  | tag name => tag name
  | all => all
  | and left right => and left.ungrouped right.ungrouped
  | or left right => or left.ungrouped right.ungrouped
  | not inner => not inner.ungrouped
  | group inner => inner.ungrouped

@[simp] theorem ungrouped_ungrouped (q : Query) : q.ungrouped.ungrouped = q.ungrouped := by
  induction q with
  | tag _ => rfl
  | all => rfl
  | and _ _ ihl ihr => simp only [ungrouped, ihl, ihr]
  | or _ _ ihl ihr => simp only [ungrouped, ihl, ihr]
  | not _ ih => simp only [ungrouped, ih]
  | group _ ih => simpa only [ungrouped] using ih

@[simp] theorem holds_ungrouped (carries : Text → Bool) (q : Query) :
    q.ungrouped.holds carries = q.holds carries := by
  induction q with
  | tag _ => rfl
  | all => rfl
  | and _ _ ihl ihr => simp only [ungrouped, holds, ihl, ihr]
  | or _ _ ihl ihr => simp only [ungrouped, holds, ihl, ihr]
  | not _ ih => simp only [ungrouped, holds, ih]
  | group _ ih => simpa only [ungrouped, holds] using ih

@[simp] theorem names_ungrouped (q : Query) : q.ungrouped.names = q.names := by
  induction q with
  | tag _ => rfl
  | all => rfl
  | and _ _ ihl ihr => simp only [ungrouped, names, ihl, ihr]
  | or _ _ ihl ihr => simp only [ungrouped, names, ihl, ihr]
  | not _ ih => simpa only [ungrouped, names] using ih
  | group _ ih => simpa only [ungrouped, names] using ih

/-- Two tests that agree on the names of a query cannot be told apart by it. -/
theorem holds_congr {p r : Text → Bool} {q : Query} (h : ∀ name ∈ q.names, p name = r name) :
    q.holds p = q.holds r := by
  induction q with
  | tag name => exact h name (List.mem_singleton.mpr rfl)
  | all => rfl
  | and left right ihl ihr =>
    simp only [holds]
    rw [ihl fun n hn => h n (List.mem_append_left _ hn),
      ihr fun n hn => h n (List.mem_append_right _ hn)]
  | or left right ihl ihr =>
    simp only [holds]
    rw [ihl fun n hn => h n (List.mem_append_left _ hn),
      ihr fun n hn => h n (List.mem_append_right _ hn)]
  | not inner ih => simpa only [holds] using congrArg Bool.not (ih h)
  | group inner ih => simpa only [holds] using ih h

example : holds (· == ['a']) (and (tag ['a']) (not (group (tag ['b'])))) = true := by decide

end TagQuery.Query
