import TagQuery.Proofs.Text.Trim
import TagQuery.Tag

/-! When the beginning of a name begins the folded name too. Every character is lowercased by itself but
the capital sigma, which is lowercased otherwise at the end of a word: so the beginning of a text begins
its lowercase form unless a word is cut behind a sigma. Main steps: what follows a text matters only to
a sigma at its end, and trimming cuts no word. -/
namespace TagQuery

namespace Text

variable {before : Bool} {c : Char} {t u : Text}

/-- Signs that are passed over apart, the text ends in a capital sigma behind a cased character, and the
other text begins with a cased character: the sigma ends a word of the text, but not where the other
text follows. `before` says whether what stands before the text ends in a cased character. -/
def CutsSigmaAfter (before : Bool) (t u : Text) : Prop :=
  ∃ word signs, t = word ++ 'Σ' :: signs ∧ word.foldl casedAfter before = true ∧
    signs.all isCaseIgnorable = true ∧ startsCased u = true

/-- A word is cut behind a capital sigma. -/
def CutsSigma (t u : Text) : Prop := CutsSigmaAfter false t u

theorem not_cutsSigmaAfter_nil : ¬ CutsSigmaAfter before [] u := by
  rintro ⟨word, signs, split, -⟩
  exact absurd split (by simp)

theorem cutsSigmaAfter_cons : CutsSigmaAfter before (c :: t) u ↔
    (c = 'Σ' ∧ before = true ∧ t.all isCaseIgnorable = true ∧ startsCased u = true) ∨
      CutsSigmaAfter (casedAfter before c) t u := by
  constructor
  · rintro ⟨word, signs, split, cased, signs_all, next⟩
    cases word with
    | nil =>
      obtain ⟨rfl, rfl⟩ := List.cons.inj split
      exact .inl ⟨rfl, cased, signs_all, next⟩
    | cons d word =>
      obtain ⟨rfl, rfl⟩ := List.cons.inj split
      exact .inr ⟨word, signs, rfl, cased, signs_all, next⟩
  · rintro (⟨rfl, cased, signs_all, next⟩ | ⟨word, signs, rfl, cased, signs_all, next⟩)
    · exact ⟨[], t, rfl, cased, signs_all, next⟩
    · exact ⟨c :: word, signs, rfl, cased, signs_all, next⟩

instance decidableCutsSigmaAfter : (before : Bool) → (t u : Text) →
    Decidable (CutsSigmaAfter before t u)
  | _, [], _ => isFalse not_cutsSigmaAfter_nil
  | before, c :: t, u =>
    have := decidableCutsSigmaAfter (casedAfter before c) t u
    decidable_of_iff _ cutsSigmaAfter_cons.symm

instance (t u : Text) : Decidable (CutsSigma t u) := decidableCutsSigmaAfter false t u

theorem startsCased_of_all (signs : t.all isCaseIgnorable = true) (u : Text) :
    startsCased (t ++ u) = startsCased u := by
  rw [startsCased, List.dropWhile_append_of_pos (List.all_eq_true.mp signs), startsCased]

/-- Behind a sign that is not passed over nothing matters. -/
theorem startsCased_append_of_not_all (others : t.all isCaseIgnorable = false) (u : Text) :
    startsCased (t ++ u) = startsCased t := by
  have left : (t.dropWhile isCaseIgnorable).isEmpty = false := by
    rw [List.isEmpty_eq_false_iff, ne_eq, List.dropWhile_eq_nil_iff]
    intro all
    rw [List.all_eq_true.mpr all] at others
    cases others
  obtain ⟨d, rest, form⟩ := List.exists_cons_of_ne_nil (List.isEmpty_eq_false_iff.mp left)
  rw [startsCased, startsCased, List.dropWhile_append, left, form]
  rfl

/-- The beginning of a text begins its lowercase form unless it cuts a word behind a sigma. -/
theorem lowerFrom_prefix_iff (before : Bool) (t u : Text) :
    lowerFrom before t <+: lowerFrom before (t ++ u) ↔ ¬ CutsSigmaAfter before t u := by
  induction t generalizing before with
  | nil => exact iff_of_true List.nil_prefix not_cutsSigmaAfter_nil
  | cons c t ih =>
    rw [List.cons_append, lowerFrom, lowerFrom, cutsSigmaAfter_cons, not_or, ← ih]
    by_cases sigma : c = 'Σ'
    · rw [if_pos sigma, if_pos sigma]
      cases signs : t.all isCaseIgnorable with
      | true =>
        -- The sigma ends a word as far as the beginning goes: what follows decides.
        have alone := startsCased_of_all signs []
        rw [List.append_nil] at alone
        rw [alone, startsCased_of_all signs]
        cases before <;> cases startsCased u <;> simp [sigma, startsCased]
      | false =>
        rw [startsCased_append_of_not_all signs, List.prefix_append_right_inj]
        simp
    · rw [if_neg sigma, if_neg sigma, List.prefix_append_right_inj]
      simp [sigma]

theorem lower_prefix_iff (t u : Text) : lower t <+: lower (t ++ u) ↔ ¬ CutsSigma t u :=
  lowerFrom_prefix_iff false t u

/-- A blank ends a word. -/
theorem blank_ends_word (blank : isBlank c = true) :
    isCaseIgnorable c = false ∧ isCased c = false := by
  have listed : c.toNat ∈ List.range' 9 5 ++ [0x20, 0x85, 0xA0, 0x1680] ++ List.range' 0x2000 11 ++
      [0x2028, 0x2029, 0x202F, 0x205F, 0x3000] := by
    simp only [isBlank, Bool.or_eq_true, Bool.and_eq_true, decide_eq_true_eq] at blank
    simp only [List.mem_append, List.mem_range'_1, List.mem_cons, List.not_mem_nil, or_false]
    omega
  have apart : ∀ n ∈ List.range' 9 5 ++ [0x20, 0x85, 0xA0, 0x1680] ++ List.range' 0x2000 11 ++
      [0x2028, 0x2029, 0x202F, 0x205F, 0x3000],
      inRanges caseIgnorableRanges n = false ∧ inRanges casedRanges n = false := by
    decide +kernel
  exact apart c.toNat listed

theorem ne_sigma_of_isBlank (blank : isBlank c = true) : c ≠ 'Σ' := by
  rintro rfl
  exact absurd blank (by decide)

theorem startsCased_blank (blank : isBlank c = true) (t : Text) : startsCased (c :: t) = false := by
  obtain ⟨plain, uncased⟩ := blank_ends_word blank
  rw [startsCased, List.dropWhile_cons_of_neg (by simp [plain])]
  exact uncased

/-- Blanks at the end do not begin a word. -/
theorem startsCased_rdropWhile (t : Text) : startsCased (t.rdropWhile isBlank) = startsCased t := by
  induction t using List.reverseRecOn with
  | nil => rfl
  | append_singleton t c ih =>
    by_cases blank : isBlank c = true
    · rw [List.rdropWhile_concat_pos _ _ _ blank, ih]
      cases signs : t.all isCaseIgnorable with
      | true =>
        have alone := startsCased_of_all signs []
        rw [List.append_nil] at alone
        rw [alone, startsCased_of_all signs, startsCased_blank blank]
        rfl
      | false => rw [startsCased_append_of_not_all signs]
    · rw [List.rdropWhile_concat_neg _ _ _ blank]

/-- Blanks in front of a text are no part of a word. -/
theorem cutsSigma_blanks_append {blanks : Text} (blank : ∀ c ∈ blanks, isBlank c = true) :
    CutsSigma (blanks ++ t) u ↔ CutsSigma t u := by
  induction blanks with
  | nil => rfl
  | cons c blanks ih =>
    obtain ⟨own, later⟩ := List.forall_mem_cons.mp blank
    obtain ⟨plain, uncased⟩ := blank_ends_word own
    have outside : casedAfter false c = false := by rw [casedAfter, plain]; exact uncased
    rw [List.cons_append, CutsSigma, cutsSigmaAfter_cons, outside,
      or_iff_right fun cut => ne_sigma_of_isBlank own cut.1]
    exact ih later

/-- No word is cut between blanks, on whichever side they stand. -/
theorem cutsSigma_append_blanks {blanks : Text} (blank : ∀ c ∈ blanks, isBlank c = true) :
    CutsSigma (t ++ blanks) u ↔ CutsSigma t (blanks ++ u) := by
  rcases blanks.eq_nil_or_concat' with rfl | ⟨others, last, rfl⟩
  · rw [List.append_nil, List.nil_append]
  · have own : isBlank last = true := blank last (by simp)
    refine iff_of_false ?_ ?_
    · rintro ⟨word, signs, split, -, signs_all, -⟩
      rw [← List.append_assoc] at split
      rcases signs.eq_nil_or_concat' with rfl | ⟨signs, sign, rfl⟩
      · obtain rfl := List.head_eq_of_cons_eq (List.append_inj_right' split rfl)
        exact ne_sigma_of_isBlank own rfl
      · rw [← List.cons_append, ← List.append_assoc] at split
        obtain rfl := List.head_eq_of_cons_eq (List.append_inj_right' split rfl)
        have ignorable := List.all_eq_true.mp signs_all last (by simp)
        rw [(blank_ends_word own).1] at ignorable
        cases ignorable
    · rintro ⟨-, -, -, -, -, next⟩
      obtain ⟨c, rest, form⟩ := List.exists_cons_of_ne_nil (l := others ++ [last]) (by simp)
      rw [form] at blank next
      rw [List.cons_append, startsCased_blank (blank c List.mem_cons_self)] at next
      cases next

theorem rdropWhile_append {p : Char → Bool} (some_char : t ≠ []) (last : ¬ p (t.getLast some_char))
    (u : Text) : (t ++ u).rdropWhile p = t ++ u.rdropWhile p := by
  induction u using List.reverseRecOn with
  | nil => rw [List.append_nil, List.rdropWhile_nil, List.append_nil,
      List.rdropWhile_eq_self_iff.mpr fun _ => last]
  | append_singleton u c ih =>
    rw [← List.append_assoc, List.rdropWhile_concat, List.rdropWhile_concat]
    split
    · exact ih
    · rw [List.append_assoc]

/-- A text is what is left of it between blanks, and what follows it is trimmed at its end alone. -/
theorem exists_trim_eq (some_left : trim t ≠ []) : ∃ front back : Text,
    t = front ++ (trim t ++ back) ∧ (∀ c ∈ front, isBlank c = true) ∧
      (∀ c ∈ back, isBlank c = true) ∧
      ∀ u, trim (t ++ u) = trim t ++ (back ++ u).rdropWhile isBlank := by
  have whole : trim t ++ (t.dropWhile isBlank).rtakeWhile isBlank = t.dropWhile isBlank :=
    List.rdropWhile_append_rtakeWhile
  refine ⟨t.takeWhile isBlank, (t.dropWhile isBlank).rtakeWhile isBlank, ?_,
    fun c => List.mem_takeWhile_imp, fun c => List.mem_rtakeWhile_imp, fun u => ?_⟩
  · rw [whole, List.takeWhile_append_dropWhile]
  · have some_rest : (t.dropWhile isBlank).isEmpty = false := by
      rw [← whole]
      simp [some_left]
    have last : ¬ isBlank ((trim t).getLast some_left) = true :=
      List.rdropWhile_last_not isBlank _ some_left
    rw [trim_eq (t ++ u), List.dropWhile_append, some_rest, if_neg Bool.false_ne_true]
    conv_lhs => rw [← whole, List.append_assoc, rdropWhile_append some_left last]

end Text

/-- The beginning of a name, folded, begins the folded name unless it cuts a word behind a sigma. -/
theorem Tag.fold_prefix_iff (t u : Text) : fold t <+: fold (t ++ u) ↔ ¬ Text.CutsSigma t u := by
  unfold fold
  by_cases none_left : t.trim = []
  · rw [none_left]
    refine iff_of_true List.nil_prefix ?_
    rintro ⟨word, signs, rfl, -⟩
    exact Text.ne_sigma_of_isBlank (Text.trim_eq_nil_iff.mp none_left 'Σ' (by simp)) rfl
  · obtain ⟨front, back, split, blank, blank', trimmed⟩ := Text.exists_trim_eq none_left
    rw [trimmed, Text.lower_prefix_iff]
    conv_rhs => rw [split, Text.cutsSigma_blanks_append blank, Text.cutsSigma_append_blanks blank']
    simp only [Text.CutsSigma, Text.CutsSigmaAfter, Text.startsCased_rdropWhile]

example : Text.CutsSigma "ΟΔΟΣ".toList "Η".toList := by decide +kernel
example : ¬ Text.CutsSigma "ΟΔΟΣ".toList " ΗΣ".toList := by decide +kernel

end TagQuery
