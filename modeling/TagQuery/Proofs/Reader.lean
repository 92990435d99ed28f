import TagQuery.Reader

/-! What readers take off the front of a text. -/
namespace TagQuery.Reader

variable {α β : Type} {p : Reader α} {t rest : Text} {a : α} {c : Char}

/-- A character that passes a test is none that does not. -/
theorem ne_of_test {test : Char → Bool} {d : Char} (passes : test c = true) (fails : test d = false) :
    c ≠ d := by
  rintro rfl
  rw [passes] at fails
  cases fails

@[simp] theorem read_map (f : α → β) (p : Reader α) (t : Text) :
    (f <$> p).read t = (p.read t).map fun r => (f r.1, r.2) := by
  change (p >>= fun a => pure (f a)).read t = _
  rw [read_bind]
  cases p.read t <;> rfl

/-- One reader after another fails where the second fails wherever the first succeeds. -/
theorem read_bind_none {p : Reader α} {f : α → Reader β}
    (fails : ∀ a rest, p.read t = some (a, rest) → (f a).read rest = none) :
    (p >>= f).read t = none := by
  rw [read_bind]
  cases h : p.read t with
  | none => rfl
  | some r => exact fails r.1 r.2 h

theorem read_optional_some (h : p.read t = some (a, rest)) :
    (optional p).read t = some (some a, rest) := by
  simp [optional, h]

theorem read_optional_none (h : p.read t = none) : (optional p).read t = some (none, t) := by
  simp [optional, h]

/-- A given character does not come next. -/
theorem read_char_none (other : ∀ d ∈ t.head?, d ≠ c) : (char c).read t = none := by
  cases t with
  | nil => rfl
  | cons d t =>
    rw [read_char_cons, if_neg (other d rfl)]

/-- A given text does not come next. -/
theorem read_exactly_none {u : Text} (other : ¬ u <+: t) : (exactly u).read t = none := by
  induction u generalizing t with
  | nil => exact absurd (List.nil_prefix) other
  | cons c u ih =>
    cases t with
    | nil => rfl
    | cons d t =>
      by_cases same : d = c
      · subst same
        have further : ¬ u <+: t := fun h => other (List.cons_prefix_cons.mpr ⟨rfl, h⟩)
        simp [exactly, ih further]
      · simp [exactly, same]

/-- A run goes on up to a character that ends it. -/
theorem read_run_append {test : Char → Bool} (all : ∀ c ∈ t, test c = true)
    (ends : ∀ c ∈ rest.head?, test c = false) : (run test).read (t ++ rest) = some (t, rest) := by
  have stops : rest.takeWhile test = [] ∧ rest.dropWhile test = rest := by
    cases rest with
    | nil => exact ⟨rfl, rfl⟩
    | cons c rest => simp [ends c rfl]
  rw [read_run, List.takeWhile_append_of_pos all, List.dropWhile_append_of_pos all, stops.1, stops.2,
    List.append_nil]

theorem read_run1_append {test : Char → Bool} (some_char : t ≠ []) (all : ∀ c ∈ t, test c = true)
    (ends : ∀ c ∈ rest.head?, test c = false) : (run1 test).read (t ++ rest) = some (t, rest) := by
  obtain ⟨c, t, rfl⟩ := List.exists_cons_of_ne_nil some_char
  obtain ⟨first, others⟩ := List.forall_mem_cons.mp all
  have more := read_run_append others ends
  simp only [read_run, Option.some.injEq, Prod.mk.injEq] at more
  simp [run1, first, more]

variable {stop : Reader Text} {piece : Char → Reader Text} {found last part : Text}

theorem untilFrom_stop (ends : stop.read t = some (last, rest)) :
    untilFrom stop piece found t = some (found.reverse ++ last, rest) := by
  rw [untilFrom.eq_def]
  simp only [ends]

theorem untilFrom_piece (goesOn : stop.read (c :: t) = none)
    (reads : (piece c).read t = some (part, rest)) :
    untilFrom stop piece found (c :: t) = untilFrom stop piece (part.reverseAux found) rest := by
  rw [untilFrom.eq_def]
  simp only [goesOn]
  split
  · next h =>
    rw [reads] at h
    cases h
  · next h =>
    rw [reads] at h
    cases h
    rfl

variable {item : Reader α} {items : List α}

theorem afterEachFrom_stop (ends : ∀ d ∈ t.head?, d ≠ c) :
    afterEachFrom c item items t = some (items.reverse, t) := by
  cases t with
  | nil => rw [afterEachFrom]
  | cons d t => rw [afterEachFrom, if_neg (ends d rfl)]

theorem afterEachFrom_item (reads : item.read t = some (a, rest)) :
    afterEachFrom c item items (c :: t) = afterEachFrom c item (a :: items) rest := by
  rw [afterEachFrom, if_pos rfl]
  split
  · next h =>
    rw [reads] at h
    cases h
  · next h =>
    rw [reads] at h
    cases h
    rfl

end TagQuery.Reader
