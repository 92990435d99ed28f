import TagQuery.Proofs.Query.Spelling

/-! Where tokens start: each behind the one before it, and all of them inside the text. -/
namespace TagQuery.Query

variable {dialect : Dialect} {text : Text} {lexemes : List Lexeme}

namespace ScanState

/-- No token that the reader has still to give starts earlier. -/
def since (position : Nat) : ScanState → Nat
  | between => position
  | inWord start _ => start
  | inQuotes start _ => start
  | escaping start _ => start

/-- A token that the reader is in the middle of has begun. -/
def Began (position : Nat) : ScanState → Prop
  | between => True
  | inWord start _ => start < position
  | inQuotes start _ => start < position
  | escaping start _ => start < position

theorem Began.since_le {state : ScanState} {position : Nat} (h : state.Began position) :
    state.since position ≤ position := by
  cases state with
  | between => exact Nat.le_refl _
  | _ => exact Nat.le_of_lt h

/-- Some tokens given at one position, and where the reader stands at the next one. -/
structure Ordered (first : Nat) (given : List Lexeme) (next : ScanState) (position : Nat) : Prop where
  began : next.Began position
  increasing : given.Pairwise (·.start < ·.start)
  since_le : ∀ lexeme ∈ given, first ≤ lexeme.start
  lt_since : ∀ lexeme ∈ given, lexeme.start < next.since position
  le_since : first ≤ next.since position

variable {state next : ScanState} {first position start : Nat} {c : Char}

theorem Ordered.none (began : next.Began position) (later : first ≤ next.since position) :
    Ordered first [] next position :=
  ⟨began, .nil, fun _ => nofun, fun _ => nofun, later⟩

theorem Ordered.cons {token : Token} {given : List Lexeme}
    (h : Ordered first given next position) (before : start < first) :
    Ordered start (⟨token, start⟩ :: given) next position where
  began := h.began
  increasing := .cons (fun lexeme member => Nat.lt_of_lt_of_le before (h.since_le lexeme member))
    h.increasing
  since_le := List.forall_mem_cons.mpr
    ⟨Nat.le_refl _, fun lexeme member => Nat.le_trans (Nat.le_of_lt before) (h.since_le lexeme member)⟩
  lt_since := List.forall_mem_cons.mpr ⟨Nat.lt_of_lt_of_le before h.le_since, h.lt_since⟩
  le_since := Nat.le_trans (Nat.le_of_lt before) h.le_since

theorem enter_ordered (position : Nat) (c : Char) :
    Ordered position (enter position c).1.toList (enter position c).2 (position + c.utf8Size) := by
  have advances : position < position + c.utf8Size := Nat.lt_add_of_pos_right c.utf8Size_pos
  have nothing : Ordered (position + c.utf8Size) [] between (position + c.utf8Size) :=
    .none trivial (Nat.le_refl _)
  have blank : Ordered position [] between (position + c.utf8Size) :=
    .none trivial (Nat.le_of_lt advances)
  unfold enter
  repeat' split
  all_goals first
    | exact blank
    | exact nothing.cons advances
    | exact .none advances (Nat.le_refl _)

theorem Began.step (began : state.Began position) (dialect : Dialect) (c : Char) :
    Ordered (state.since position) (state.step dialect position c).1
      (state.step dialect position c).2 (position + c.utf8Size) := by
  have advances : position < position + c.utf8Size := Nat.lt_add_of_pos_right c.utf8Size_pos
  have nothing : Ordered position [] between (position + c.utf8Size) :=
    .none trivial (Nat.le_of_lt advances)
  cases state with
  | between => exact enter_ordered position c
  | inWord start seen =>
    simp only [ScanState.step]
    split
    · exact (enter_ordered position c).cons began
    · exact .none (Nat.lt_trans began advances) (Nat.le_refl _)
  | inQuotes start seen =>
    simp only [ScanState.step]
    split
    · exact nothing.cons began
    · split
      all_goals exact .none (Nat.lt_trans began advances) (Nat.le_refl _)
  | escaping start seen => exact .none (Nat.lt_trans began advances) (Nat.le_refl _)

end ScanState

/-- The tokens that are still to come start in order, and before the end. -/
theorem scan_starts {state : ScanState} {position : Nat} (began : state.Began position)
    (read : scan dialect state position [] text = .ok lexemes) :
    lexemes.Pairwise (·.start < ·.start) ∧ ∀ lexeme ∈ lexemes,
      state.since position ≤ lexeme.start ∧ lexeme.start < position + text.byteLength := by
  induction text generalizing state position lexemes with
  | nil =>
    cases state with
    | between =>
      cases read
      exact ⟨.nil, fun _ => nofun⟩
    | inWord start seen =>
      cases read
      exact ⟨List.pairwise_singleton _ _,
        List.forall_mem_singleton.mpr ⟨Nat.le_refl _, began⟩⟩
    | inQuotes start seen | escaping start seen => cases read
  | cons c rest ih =>
    have here := began.step dialect c
    obtain ⟨later, readLater, rfl⟩ := scan_cons_eq_ok read
    obtain ⟨increasing, bounds⟩ := ih here.began readLater
    have reached := here.began.since_le
    refine ⟨List.pairwise_append.mpr ⟨here.increasing, increasing, ?_⟩, ?_⟩
    · intro lexeme member other otherMember
      exact Nat.lt_of_lt_of_le (here.lt_since lexeme member) (bounds other otherMember).1
    · rw [Text.byteLength_cons, ← Nat.add_assoc]
      intro lexeme member
      rcases List.mem_append.mp member with now | behind
      · have inside := here.lt_since lexeme now
        exact ⟨here.since_le lexeme now, by omega⟩
      · exact ⟨Nat.le_trans here.le_since (bounds lexeme behind).1, (bounds lexeme behind).2⟩

/-- The tokens of a text start in order, and inside the text. -/
theorem tokenize_starts (read : tokenize dialect text = .ok lexemes) :
    lexemes.Pairwise (·.start < ·.start) ∧ ∀ lexeme ∈ lexemes, lexeme.start < text.byteLength := by
  have began : ScanState.between.Began 0 := trivial
  obtain ⟨increasing, bounds⟩ := scan_starts began read
  exact ⟨increasing, fun lexeme member => by simpa using (bounds lexeme member).2⟩

end TagQuery.Query
