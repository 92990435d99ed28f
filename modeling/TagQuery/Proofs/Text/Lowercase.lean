import TagQuery.Text.Lowercase

/-! Lowercase text stays as it is. Main steps: the forms that the table gives have no forms of their
own, so neither has any character of a lowercased text, and a text of such characters is not changed,
wherever its words end. -/
namespace TagQuery.Text

def Lowered (c : Char) : Prop := lowerChar c = [c]

instance (c : Char) : Decidable (Lowered c) := inferInstanceAs (Decidable (lowerChar c = [c]))

theorem Lowered.ne_sigma {c : Char} (h : Lowered c) : c ≠ 'Σ' := by
  rintro rfl
  exact absurd h (by decide +kernel)

/-- No form of a run is a character of the other: the one ends before the other begins, or both go in
steps of two and never meet. -/
def CaseRun.apart (r s : CaseRun) : Bool :=
  Nat.blt (r.lower + (r.last - r.first)) s.first || Nat.blt s.last r.lower ||
    ((r.step == 2 || r.last == r.first) && s.step == 2 && (r.lower + s.first) % 2 == 1)

theorem CaseRun.lower?_eq_none {r s : CaseRun} (apart : r.apart s = true) {n form : Nat}
    (given : r.lower? n = some form) : s.lower? form = none := by
  unfold lower? at given ⊢
  split at given
  · next among =>
    obtain ⟨least, most, even⟩ := among
    cases given
    rw [if_neg]
    rintro ⟨least', most', even'⟩
    simp only [CaseRun.apart, Bool.or_eq_true, Bool.and_eq_true, Nat.blt_eq, beq_iff_eq] at apart
    rcases apart with (before | after) | ⟨⟨steady, two⟩, odd⟩
    · omega
    · omega
    · rw [two] at even'
      rcases steady with two' | single
      · rw [two'] at even
        omega
      · omega
  · cases given

/-- The run of the capital that becomes two characters. -/
def dottedRun : CaseRun := ⟨0x0130, 0x0130, 2, 0x0069⟩

theorem caseRuns_apart : (caseRuns.all fun r => (dottedRun :: caseRuns).all r.apart) = true := by
  decide +kernel

def tableForm? (n : Nat) : Option Nat :=
  (caseRuns.find? (n ≤ ·.last)).bind (CaseRun.lower? · n)

theorem tableForm?_form {n form : Nat} (given : tableForm? n = some form) :
    form ≠ 0x0130 ∧ tableForm? form = none := by
  obtain ⟨r, found, gives⟩ := Option.bind_eq_some_iff.mp given
  have apart := List.all_eq_true.mp caseRuns_apart r (List.mem_of_find?_eq_some found)
  rw [List.all_eq_true] at apart
  constructor
  · rintro rfl
    have none := CaseRun.lower?_eq_none (apart dottedRun List.mem_cons_self) gives
    exact absurd none (by decide)
  · rw [tableForm?, Option.bind_eq_none_iff]
    -- Whichever run the search stops at, the form is none of its characters.
    intro s found'
    have among := List.mem_cons_of_mem dottedRun (List.mem_of_find?_eq_some found')
    exact CaseRun.lower?_eq_none (apart s among) gives

/-- The forms of a run are numbers of characters, and none is the null character. -/
def CaseRun.isNamed (r : CaseRun) : Bool :=
  Nat.blt 0 r.lower && (Nat.blt (r.lower + (r.last - r.first)) 0xD800 ||
    (Nat.blt 0xDFFF r.lower && Nat.blt (r.lower + (r.last - r.first)) 0x110000))

theorem caseRuns_named : (caseRuns.all CaseRun.isNamed) = true := by decide +kernel

theorem tableForm?_valid {n form : Nat} (given : tableForm? n = some form) :
    0 < form ∧ form.isValidChar := by
  obtain ⟨r, found, gives⟩ := Option.bind_eq_some_iff.mp given
  have named := List.all_eq_true.mp caseRuns_named r (List.mem_of_find?_eq_some found)
  simp only [CaseRun.isNamed, Bool.and_eq_true, Bool.or_eq_true, Nat.blt_eq] at named
  unfold CaseRun.lower? at gives
  split at gives
  · next inside =>
    cases gives
    unfold Nat.isValidChar
    omega
  · cases gives

theorem toNat_tableForm {n form : Nat} (given : tableForm? n = some form) :
    (Char.ofNat form).toNat = form :=
  congrArg Char.toNat (dif_pos (tableForm?_valid given).2)

theorem lowerChar_eq (c : Char) :
    lowerChar c = if c = 'İ' then ['i', '\u0307']
      else match tableForm? c.toNat with
        | some form => [Char.ofNat form]
        | none => [c] := rfl

theorem lowered_of_tableForm? {c : Char} (plain : c ≠ 'İ') (none : tableForm? c.toNat = none) :
    Lowered c := by
  rw [Lowered, lowerChar_eq, if_neg plain, none]

theorem lowered_of_mem_lowerChar {c d : Char} (h : d ∈ lowerChar c) : Lowered d := by
  rw [lowerChar_eq] at h
  split at h
  · revert h
    simp only [List.mem_cons, List.not_mem_nil, or_false]
    rintro (rfl | rfl) <;> decide +kernel
  · next plain =>
    split at h
    · next form given =>
      obtain rfl := List.mem_singleton.mp h
      obtain ⟨notDotted, none⟩ := tableForm?_form given
      have number := toNat_tableForm given
      apply lowered_of_tableForm?
      · intro dotted
        rw [dotted] at number
        exact notDotted number.symm
      · rw [number, none]
    · next none =>
      obtain rfl := List.mem_singleton.mp h
      exact lowered_of_tableForm? plain none

theorem null_of_mem_lowerChar {c : Char} (h : '\x00' ∈ lowerChar c) : c = '\x00' := by
  rw [lowerChar_eq] at h
  split at h
  · exact absurd h (by decide)
  · split at h
    · next form given =>
      have number := toNat_tableForm given
      rw [← List.mem_singleton.mp h] at number
      exact absurd number (Nat.ne_of_lt (tableForm?_valid given).1)
    · exact (List.mem_singleton.mp h).symm

/-- Each character of a lowercased text is a small sigma, or in the form of a character of the text. -/
theorem of_mem_lowerFrom {before : Bool} {t : Text} {d : Char} (h : d ∈ lowerFrom before t) :
    d ∈ ['σ', 'ς'] ∨ ∃ c ∈ t, d ∈ lowerChar c := by
  induction t generalizing before with
  | nil => cases h
  | cons c rest ih =>
    rw [lowerFrom, List.mem_append] at h
    rcases h with own | later
    · split at own
      · rw [List.mem_singleton.mp own]
        split <;> simp
      · exact .inr ⟨c, List.mem_cons_self, own⟩
    · refine (ih later).imp_right ?_
      rintro ⟨e, among, form⟩
      exact ⟨e, List.mem_cons_of_mem c among, form⟩

/-- Every character of a lowercased text is its own lowercase form. -/
theorem lowered_of_mem_lower {t : Text} {d : Char} (h : d ∈ lower t) : Lowered d := by
  rcases of_mem_lowerFrom h with sigma | ⟨c, -, form⟩
  · have sigmas : (['σ', 'ς'].all fun d => decide (Lowered d)) = true := by decide +kernel
    exact of_decide_eq_true (List.all_eq_true.mp sigmas d sigma)
  · exact lowered_of_mem_lowerChar form

/-- Lowercasing makes no null characters. -/
theorem null_not_mem_lower {t : Text} (whole : '\x00' ∉ t) : '\x00' ∉ lower t := by
  intro bad
  rcases of_mem_lowerFrom bad with sigma | ⟨c, among, form⟩
  · exact absurd sigma (by decide)
  · exact whole (null_of_mem_lowerChar form ▸ among)

theorem lowerFrom_eq_self {before : Bool} {t : Text} (h : ∀ c ∈ t, Lowered c) :
    lowerFrom before t = t := by
  induction t generalizing before with
  | nil => rfl
  | cons c rest ih =>
    have own := h c List.mem_cons_self
    rw [lowerFrom, if_neg own.ne_sigma, own, ih fun d member => h d (List.mem_cons_of_mem c member)]
    rfl

/-- A text of such characters is not changed, not even where a word of it ends. -/
theorem lower_eq_self {t : Text} (h : ∀ c ∈ t, Lowered c) : lower t = t := lowerFrom_eq_self h

/-- Lowercasing twice is lowercasing once. -/
@[simp] theorem lower_lower (t : Text) : t.lower.lower = t.lower :=
  lower_eq_self fun _ => lowered_of_mem_lower

end TagQuery.Text
