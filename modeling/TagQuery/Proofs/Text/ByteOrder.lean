import Mathlib.Algebra.Group.Nat.Defs
import TagQuery.Tag

/-! The order of texts is the order of their bytes in UTF-8. The bytes of the smaller of two characters
are smaller where they first differ, and they differ before either ends: a first byte tells how many
bytes follow, and those are digits to the base 64. A list in this order is told by its members. -/
namespace TagQuery.Text

def utf8 (t : Text) : List UInt8 := t.flatMap String.utf8EncodeChar

theorem ofNat_lt_ofNat {m n : Nat} (less : m < n) (byte : n < 256) :
    UInt8.ofNat m < UInt8.ofNat n := by
  rw [UInt8.lt_iff_toNat_lt, UInt8.toNat_ofNat', UInt8.toNat_ofNat']
  omega

/-- The last digits of a number to the base 64, each as a byte that follows another one. -/
def digitBytes : Nat → Nat → List UInt8
  | 0, _ => []
  | k + 1, n => .ofNat (n / 64 ^ k % 64 + 128) :: digitBytes k n

/-- Bytes that begin alike are told apart by those that follow; else the first ones do. -/
theorem cons_append_lt {m n : Nat} {s s' t u : List UInt8} (byte : n < 256)
    (order : m < n ∨ m = n ∧ s ++ t < s' ++ u) :
    UInt8.ofNat m :: s ++ t < UInt8.ofNat n :: s' ++ u := by
  refine List.cons_lt_cons_iff.mpr ?_
  rcases order with less | ⟨rfl, later⟩
  · exact .inl (ofNat_lt_ofNat less byte)
  · exact .inr ⟨rfl, later⟩

theorem digitBytes_append_lt {k m n : Nat} (less : m % 64 ^ k < n % 64 ^ k) (t u : List UInt8) :
    digitBytes k m ++ t < digitBytes k n ++ u := by
  induction k with
  | zero => omega
  | succ k ih =>
    rw [Nat.mod_pow_succ, Nat.mod_pow_succ] at less
    refine cons_append_lt (by omega) ?_
    rcases Nat.lt_trichotomy (m / 64 ^ k % 64) (n / 64 ^ k % 64) with first | same | last
    · exact .inl (by omega)
    · rw [same] at less
      exact .inr ⟨by rw [same], ih (by omega)⟩
    · have room : m % 64 ^ k < 64 ^ k := Nat.mod_lt _ (Nat.pow_pos (by decide))
      have room' : n % 64 ^ k < 64 ^ k := Nat.mod_lt _ (Nat.pow_pos (by decide))
      have step := Nat.mul_le_mul_left (64 ^ k) last
      rw [Nat.mul_succ] at step
      omega

/-- A first byte, and the digits that follow it. -/
def leadBytes (k head n : Nat) : List UInt8 := .ofNat (n / 64 ^ k + head) :: digitBytes k n

/-- Numbers that are written with as many bytes. -/
theorem leadBytes_append_lt {k m n head : Nat} (less : m < n) (room : n / 64 ^ k + head < 256)
    (t u : List UInt8) : leadBytes k head m ++ t < leadBytes k head n ++ u := by
  refine cons_append_lt room ?_
  rcases Nat.lt_or_eq_of_le (Nat.div_le_div_right (c := 64 ^ k) (Nat.le_of_lt less)) with first | same
  · exact .inl (by omega)
  · refine .inr ⟨by rw [same], digitBytes_append_lt ?_ t u⟩
    have whole := Nat.div_add_mod m (64 ^ k)
    have whole' := Nat.div_add_mod n (64 ^ k)
    rw [same] at whole
    omega

theorem val_toNat_lt (c : Char) : c.val.toNat < 1114112 := by
  have valid := c.valid
  simp only [UInt32.isValidChar, Nat.isValidChar] at valid
  omega

theorem utf8EncodeChar_eq (c : Char) :
    String.utf8EncodeChar c =
      if c.val.toNat ≤ 127 then leadBytes 0 0 c.val.toNat
      else if c.val.toNat ≤ 2047 then leadBytes 1 192 c.val.toNat
      else if c.val.toNat ≤ 65535 then leadBytes 2 224 c.val.toNat
      else leadBytes 3 240 c.val.toNat := by
  have limit := val_toNat_lt c
  unfold String.utf8EncodeChar
  generalize c.val.toNat = n at *
  simp only [leadBytes, digitBytes, Nat.reducePow, Nat.div_one, Nat.add_zero]
  repeat' split
  · rfl
  · rw [Nat.mod_eq_of_lt (by omega : n / 64 < 32)]
  · rw [Nat.mod_eq_of_lt (by omega : n / 4096 < 16)]
  · rw [Nat.mod_eq_of_lt (by omega : n / 262144 < 8)]

/-- Whatever follows them, the bytes of a smaller character come first. -/
theorem utf8EncodeChar_append_lt {c d : Char} (h : c < d) (t u : List UInt8) :
    String.utf8EncodeChar c ++ t < String.utf8EncodeChar d ++ u := by
  have less : c.val.toNat < d.val.toNat := UInt32.lt_iff_toNat_lt.mp h
  have limit := val_toNat_lt d
  rw [utf8EncodeChar_eq, utf8EncodeChar_eq]
  generalize c.val.toNat = m at *
  generalize d.val.toNat = n at *
  -- With more bytes the first one is greater, and the smaller number has no more of them.
  repeat' split
  all_goals first
    | exact leadBytes_append_lt less (by omega) t u
    | exact cons_append_lt (by omega) (.inl (by omega))

/-- Texts are in the order of their bytes. -/
theorem utf8_lt_of_compare {t u : Text} (less : compare t u = .lt) : utf8 t < utf8 u := by
  induction t generalizing u with
  | nil =>
    cases u with
    | nil => cases less
    | cons d u =>
      obtain ⟨byte, more, bytes⟩ :=
        List.exists_cons_of_ne_nil (String.utf8EncodeChar_ne_nil (c := d))
      simp only [utf8, List.flatMap_cons, List.flatMap_nil, bytes]
      exact List.nil_lt_cons _ _
  | cons c t ih =>
    cases u with
    | nil => cases less
    | cons d u =>
      rw [List.compare_eq_compareLex, List.compareLex_cons_cons, Ordering.then_eq_lt] at less
      simp only [utf8, List.flatMap_cons]
      rcases less with first | ⟨same, rest⟩
      · exact utf8EncodeChar_append_lt (compareOfLessAndEq_eq_lt.mp first) _ _
      · obtain rfl := Std.LawfulEqCmp.eq_of_compare same
        exact List.append_left_lt (ih (by rwa [List.compare_eq_compareLex]))

/-- Texts in increasing order are told by which they are. -/
theorem eq_of_ordered {l l' : List Text} (ordered : l.Pairwise fun t u => compare t u = .lt)
    (ordered' : l'.Pairwise fun t u => compare t u = .lt) (same : ∀ t, t ∈ l ↔ t ∈ l') : l = l' := by
  have once {l : List Text} (ordered : l.Pairwise fun t u => compare t u = .lt) : l.Nodup :=
    ordered.imp fun less same => by simp [same] at less
  have perm := (List.perm_ext_iff_of_nodup (once ordered) (once ordered')).mpr same
  refine perm.eq_of_pairwise (fun t u _ _ less more => ?_) ordered ordered'
  exact absurd more (Std.OrientedCmp.not_lt_of_lt less)

end TagQuery.Text
