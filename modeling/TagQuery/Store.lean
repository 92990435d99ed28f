import TagQuery.Evaluation

/-! What a tag store answers. Every question names its scope; a store remembers none. -/
namespace TagQuery

/-- The totals of a store, and whether it has been written to. -/
structure StoreTotals where
  items : Nat
  tags : Nat
  associations : Nat
  written : Bool
  deriving DecidableEq, Repr

namespace TagCount

/-- More items first, and among equals the smaller name. -/
def ranksBefore (a b : TagCount) : Bool :=
  b.count < a.count || (a.count == b.count && (compare a.name b.name).isLE)

/-- Counts in rank order, cut off after `limit` of them; a limit of zero is no limit. -/
def rank (counts : List TagCount) (limit : Nat) : List TagCount :=
  let ranked := counts.mergeSort ranksBefore
  if limit = 0 then ranked else ranked.take limit

/-- Nothing is ranked that was not counted. -/
theorem mem_of_mem_rank {counts : List TagCount} {limit : Nat} {count : TagCount}
    (member : count ∈ rank counts limit) : count ∈ counts := by
  rw [rank] at member
  split at member
  · exact List.mem_mergeSort.mp member
  · exact List.mem_mergeSort.mp (List.mem_of_mem_take member)

end TagCount

class TagStore (σ : Type) where
  /-- the items in scope that carry a tag -/
  withTag (store : σ) (name : Text) (scope : Scope) : Except Fault ItemSet
  /-- the items in scope -/
  inScope (store : σ) (scope : Scope) : Except Fault ItemSet
  /-- those of the given items that are in scope -/
  restrict (store : σ) (ids : ItemSet) (scope : Scope) : Except Fault ItemSet
  /-- the tags of the items in scope whose folded name begins with the folded `start`, ranked -/
  tagCounts (store : σ) (scope : Scope) (start : Text) (limit : Nat) :
    Except Fault (List TagCount)
  totals (store : σ) : StoreTotals

/-- The answers of a store that does not change during the evaluation. -/
def TagStore.source {σ : Type} [TagStore σ] (store : σ) (scope : Scope) : Source := fun _ lookup =>
  match lookup with
  | .tag name => withTag store name scope
  | .all => inScope store scope

example : TagCount.rank [⟨"dog".toList, 2⟩, ⟨"cat".toList, 2⟩, ⟨"bird".toList, 5⟩] 2 =
    [⟨"bird".toList, 5⟩, ⟨"cat".toList, 2⟩] := by cbv

end TagQuery
