import TagQuery.Proofs.Text.Lowercase
import TagQuery.Text.Blank
import Mathlib.Data.List.TakeWhile

/-! Lowercasing leaves the shape of a location alone. Blanks, dots and separators are their own
lowercase forms and the forms of nothing else, so a text and its lowercase form have them in the
same places; and no word goes on over a separator, so what stands before one and what follows it are
lowercased apart. -/
namespace TagQuery.Text

variable {before : Bool} {c d : Char} {t u : Text}

def markRanges : List (Nat × Nat) :=
  [(9, 13), (0x20, 0x20), (0x2E, 0x2F), (0x5C, 0x5C), (0x85, 0x85), (0xA0, 0xA0), (0x1680, 0x1680),
    (0x2000, 0x200A), (0x2028, 0x2029), (0x202F, 0x202F), (0x205F, 0x205F), (0x3000, 0x3000)]

/-- A blank, a dot or a separator: what gives a location its shape. -/
def isMark (c : Char) : Bool := markRanges.any fun r => r.1 ≤ c.toNat && c.toNat ≤ r.2

theorem isMark_of_isBlank (blank : isBlank c = true) : isMark c = true := by
  simp only [isBlank, Bool.or_eq_true, Bool.and_eq_true, decide_eq_true_eq] at blank
  simp only [isMark, markRanges, List.any_cons, List.any_nil, Bool.or_eq_true, Bool.and_eq_true,
    decide_eq_true_eq, Bool.false_eq_true, or_false]
  omega

/-- Neither the characters of a run nor their forms are marks. -/
theorem caseRuns_unmarked :
    (caseRuns.all fun r => markRanges.all fun m => (Nat.blt r.last m.1 || Nat.blt m.2 r.first) &&
      (Nat.blt (r.lower + (r.last - r.first)) m.1 || Nat.blt m.2 r.lower)) = true := by
  decide +kernel

theorem tableForm?_unmarked {n form : Nat} (given : tableForm? n = some form) {m : Nat × Nat}
    (among : m ∈ markRanges) : ¬ (m.1 ≤ n ∧ n ≤ m.2) ∧ ¬ (m.1 ≤ form ∧ form ≤ m.2) := by
  obtain ⟨r, found, gives⟩ := Option.bind_eq_some_iff.mp given
  have apart := List.all_eq_true.mp caseRuns_unmarked r (List.mem_of_find?_eq_some found)
  replace apart := List.all_eq_true.mp apart m among
  simp only [Bool.and_eq_true, Bool.or_eq_true, Nat.blt_eq] at apart
  unfold CaseRun.lower? at gives
  split at gives
  · next inside =>
    cases gives
    omega
  · cases gives

theorem isMark_eq_false_iff :
    isMark c = false ↔ ∀ m ∈ markRanges, ¬ (m.1 ≤ c.toNat ∧ c.toNat ≤ m.2) := by
  simp [isMark]

/-- A mark is its own lowercase form. -/
theorem lowered_of_isMark (mark : isMark c = true) : Lowered c := by
  apply lowered_of_tableForm?
  · rintro rfl
    exact absurd mark (by decide +kernel)
  · cases given : tableForm? c.toNat with
    | none => rfl
    | some form =>
      have plain := isMark_eq_false_iff.mpr fun m among => (tableForm?_unmarked given among).1
      exact absurd mark (by simp [plain])

/-- No other character has a mark in its form. -/
theorem isMark_of_mem_lowerChar (plain : isMark c = false) (h : d ∈ lowerChar c) :
    isMark d = false := by
  rw [lowerChar_eq] at h
  split at h
  · revert h
    simp only [List.mem_cons, List.not_mem_nil, or_false]
    rintro (rfl | rfl) <;> decide +kernel
  · split at h
    · next form given =>
      obtain rfl := List.mem_singleton.mp h
      rw [isMark_eq_false_iff, toNat_tableForm given]
      exact fun m among => (tableForm?_unmarked given among).2
    · exact (List.mem_singleton.mp h) ▸ plain

theorem lowerChar_ne_nil (c : Char) : lowerChar c ≠ [] := by
  rw [lowerChar_eq]
  repeat' split
  all_goals exact List.cons_ne_nil _ _

theorem lowerFrom_mark (mark : isMark c = true) (t : Text) :
    lowerFrom before (c :: t) = c :: lowerFrom (casedAfter before c) t := by
  have own := lowered_of_isMark mark
  rw [lowerFrom, if_neg own.ne_sigma, own]
  rfl

/-- Any other character is lowercased to one or more characters that are no marks. -/
theorem exists_lowerFrom_eq (plain : isMark c = false) (before : Bool) (t : Text) :
    ∃ d more, lowerFrom before (c :: t) = d :: (more ++ lowerFrom (casedAfter before c) t) ∧
      isMark d = false ∧ ∀ e ∈ more, isMark e = false := by
  rw [lowerFrom]
  split
  · refine ⟨_, [], rfl, ?_, List.forall_mem_nil _⟩
    split <;> decide +kernel
  · obtain ⟨d, more, form⟩ := List.exists_cons_of_ne_nil (lowerChar_ne_nil c)
    have unmarked : ∀ e ∈ d :: more, isMark e = false := fun e member =>
      isMark_of_mem_lowerChar plain (form ▸ member)
    rw [form]
    exact ⟨d, more, rfl, unmarked d List.mem_cons_self, fun e member =>
      unmarked e (List.mem_cons_of_mem d member)⟩

/-- The marks of a text and of its lowercase form are the same. -/
theorem mem_lowerFrom_iff (mark : isMark d = true) : d ∈ lowerFrom before t ↔ d ∈ t := by
  induction t generalizing before with
  | nil => rfl
  | cons c t ih =>
    cases own : isMark c with
    | true => rw [lowerFrom_mark own, List.mem_cons, List.mem_cons, ih]
    | false =>
      have other : d ≠ c := by
        rintro rfl
        exact absurd mark (by simp [own])
      obtain ⟨e, more, form, first, later⟩ := exists_lowerFrom_eq own before t
      rw [form, List.mem_cons, List.mem_append, ih, List.mem_cons]
      constructor
      · rintro (rfl | among | among)
        · exact absurd mark (by simp [first])
        · exact absurd mark (by simp [later d among])
        · exact .inr among
      · rintro (rfl | among)
        · exact absurd rfl other
        · exact .inr (.inr among)

@[simp] theorem mem_lower_iff (mark : isMark d = true) : d ∈ lower t ↔ d ∈ t :=
  mem_lowerFrom_iff mark

/-- A text begins with as many marks as its lowercase form. -/
theorem takeWhile_lowerFrom (before : Bool) (t : Text) :
    (lowerFrom before t).takeWhile isMark = t.takeWhile isMark := by
  induction t generalizing before with
  | nil => rfl
  | cons c t ih =>
    cases own : isMark c with
    | true =>
      rw [lowerFrom_mark own, List.takeWhile_cons_of_pos own, ih, List.takeWhile_cons_of_pos own]
    | false =>
      obtain ⟨e, more, form, first, -⟩ := exists_lowerFrom_eq own before t
      rw [form, List.takeWhile_cons_of_neg (by simp [first]),
        List.takeWhile_cons_of_neg (by simp [own])]

theorem takeWhile_lower (t : Text) : (lower t).takeWhile isMark = t.takeWhile isMark :=
  takeWhile_lowerFrom false t

/-- Marks at the beginning of the lowercase form are marks at the beginning of the text. -/
theorem prefix_lower_iff (marks : ∀ c ∈ u, isMark c = true) : u <+: lower t ↔ u <+: t := by
  have cut (v : Text) : u <+: v ↔ u <+: v.takeWhile isMark := by
    constructor
    · rintro ⟨rest, rfl⟩
      rw [List.takeWhile_append_of_pos marks]
      exact List.prefix_append u _
    · exact fun begins => begins.trans (List.takeWhile_prefix isMark)
  rw [cut, takeWhile_lower, ← cut]

def lead (t : Text) : Nat := (t.takeWhile isMark).length

@[simp] theorem lead_lower (t : Text) : lead t.lower = lead t := by
  rw [lead, takeWhile_lower, lead]

theorem lead_append (marks : ∀ c ∈ u, isMark c = true) (t : Text) :
    lead (u ++ t) = u.length + lead t := by
  rw [lead, List.takeWhile_append_of_pos marks, List.length_append, lead]

/-- A text is marks alone if it goes on with marks. -/
theorem isMark_of_lead_lt (begins : u <+: t) (less : lead u < lead t) : ∀ c ∈ u, isMark c = true := by
  obtain ⟨rest, rfl⟩ := begins
  rw [lead, lead, List.takeWhile_append] at less
  split at less
  · next whole =>
    exact List.takeWhile_eq_self_iff.mp ((List.takeWhile_prefix isMark).eq_of_length whole)
  · exact absurd less (Nat.lt_irrefl _)

theorem isMark_of_lowerFrom (marks : ∀ d ∈ lowerFrom before t, isMark d = true) :
    ∀ c ∈ t, isMark c = true := by
  induction t generalizing before with
  | nil => exact List.forall_mem_nil _
  | cons c t ih =>
    cases own : isMark c with
    | true =>
      rw [lowerFrom_mark own, List.forall_mem_cons] at marks
      exact List.forall_mem_cons.mpr ⟨own, ih marks.2⟩
    | false =>
      obtain ⟨e, more, form, first, -⟩ := exists_lowerFrom_eq own before t
      rw [form, List.forall_mem_cons] at marks
      exact absurd marks.1 (by simp [first])

theorem isMark_of_lower (marks : ∀ d ∈ lower t, isMark d = true) : ∀ c ∈ t, isMark c = true :=
  isMark_of_lowerFrom marks

/-- Marks alone are the lowercase form of themselves alone. -/
theorem lower_eq_iff (marks : ∀ c ∈ u, isMark c = true) : lower t = u ↔ t = u := by
  have own {v : Text} (all : ∀ c ∈ v, isMark c = true) : lower v = v :=
    lower_eq_self fun c member => lowered_of_isMark (all c member)
  constructor
  · rintro rfl
    exact (own (isMark_of_lower marks)).symm
  · rintro rfl
    exact own marks

theorem lower_eq_nil_iff : lower t = [] ↔ t = [] :=
  lower_eq_iff (List.forall_mem_nil _)

theorem slash_ends_word : isCaseIgnorable '/' = false ∧ isCased '/' = false := by decide +kernel

/-- Whether a cased character comes next does not depend on what follows a separator. -/
theorem startsCased_append_slash (t u : Text) : startsCased (t ++ '/' :: u) = startsCased t := by
  obtain ⟨plain, uncased⟩ := slash_ends_word
  induction t with
  | nil =>
    rw [List.nil_append, startsCased, List.dropWhile_cons_of_neg (by simp [plain])]
    simp [uncased, startsCased]
  | cons c t ih =>
    unfold startsCased at ih ⊢
    cases own : isCaseIgnorable c with
    | true =>
      rw [List.cons_append, List.dropWhile_cons_of_pos own, List.dropWhile_cons_of_pos own, ih]
    | false =>
      rw [List.cons_append, List.dropWhile_cons_of_neg (by simp [own]),
        List.dropWhile_cons_of_neg (by simp [own])]
      rfl

theorem lowerFrom_append_slash (before : Bool) (t u : Text) :
    lowerFrom before (t ++ '/' :: u) = lowerFrom before t ++ '/' :: lower u := by
  induction t generalizing before with
  | nil =>
    have ends : casedAfter before '/' = false := by
      rw [casedAfter, slash_ends_word.1, if_neg Bool.false_ne_true, slash_ends_word.2]
    rw [List.nil_append, lowerFrom_mark (by decide), ends]
    rfl
  | cons c t ih =>
    rw [List.cons_append, lowerFrom, lowerFrom, startsCased_append_slash, ih, List.append_assoc]

/-- What stands before a separator and what follows it are lowercased apart. -/
theorem lower_append_slash (t u : Text) : lower (t ++ '/' :: u) = lower t ++ '/' :: lower u :=
  lowerFrom_append_slash false t u

theorem lower_slash (u : Text) : lower ('/' :: u) = '/' :: lower u := lower_append_slash [] u

end TagQuery.Text
