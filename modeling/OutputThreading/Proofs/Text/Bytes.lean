import Mathlib.Tactic.SplitIfs
import OutputThreading.Text.Basic

/-!
# The order of bytes

Texts are ordered alike by the code points of their characters and by their bytes in UTF-8
(`Text.compareNumbers_bytes`): the bytes of a character with a smaller code point come first, whatever
follows them.
-/

namespace OutputThreading

/-- The numbers are compared in turn. -/
abbrev compareNumbers : List Nat → List Nat → Ordering :=
  List.compareLex compare

theorem compareNumbers_cons_eq_lt_iff {first second : Nat} {left right : List Nat} :
    compareNumbers (first :: left) (second :: right) = .lt ↔
      first < second ∨ first = second ∧ compareNumbers left right = .lt := by
  rw [compareNumbers, List.compareLex_cons_cons, Ordering.then_eq_lt, Nat.compare_eq_lt,
    Nat.compare_eq_eq]

theorem compareNumbers_append_append (front left right : List Nat) :
    compareNumbers (front ++ left) (front ++ right) = compareNumbers left right := by
  induction front with
  | nil => rfl
  | cons number front inductionHypothesis =>
      rw [List.cons_append, List.cons_append, compareNumbers, List.compareLex_cons_cons,
        Nat.compare_eq_eq.mpr rfl]
      exact inductionHypothesis

theorem compareNumbers_eq_swap (left right : List Nat) :
    compareNumbers left right = (compareNumbers right left).swap :=
  Std.OrientedCmp.eq_swap

namespace Character

/-- The bytes of a character in UTF-8, as numbers. -/
def bytes (c : Char) : List Nat :=
  (String.utf8EncodeChar c).map UInt8.toNat

/-- The bytes of a code point: its digits to the base 64, where the first byte also tells how many
there are. -/
def encode (number : Nat) : List Nat :=
  if number < 128 then [number]
  else if number < 2048 then [192 + number / 64, 128 + number % 64]
  else if number < 65536 then
    [224 + number / 4096, 128 + number / 64 % 64, 128 + number % 64]
  else
    [240 + number / 262144, 128 + number / 4096 % 64, 128 + number / 64 % 64, 128 + number % 64]

theorem toNat_lt (c : Char) : c.toNat < 1114112 := by
  have valid := c.valid
  unfold UInt32.isValidChar Nat.isValidChar at valid
  rw [Char.toNat]
  omega

theorem bytes_eq_encode (c : Char) : bytes c = encode c.toNat := by
  have range := toNat_lt c
  rw [bytes, String.utf8EncodeChar, encode]
  rw [Char.toNat] at range ⊢
  generalize c.val.toNat = number at range
  split_ifs <;> simp <;> omega

/-- The bytes of a smaller code point come first. -/
theorem compareNumbers_encode_append
    {first second : Nat}
    (smaller : first < second)
    (range : second < 1114112)
    (left right : List Nat) :
    compareNumbers (encode first ++ left) (encode second ++ right) = .lt := by
  unfold encode
  -- of as many bytes the first one that differs is smaller, and of fewer bytes the first one
  split_ifs <;>
    simp only [List.cons_append, List.nil_append, compareNumbers_cons_eq_lt_iff] <;>
    omega

/-- The bytes of a character with a smaller code point come first. -/
theorem compareNumbers_bytes_append
    {c d : Char}
    (smaller : c.toNat < d.toNat)
    (left right : List Nat) :
    compareNumbers (bytes c ++ left) (bytes d ++ right) = .lt := by
  rw [bytes_eq_encode, bytes_eq_encode]
  exact compareNumbers_encode_append smaller (toNat_lt d) left right

theorem bytes_ne_nil (c : Char) : bytes c ≠ [] := by
  rw [bytes, ne_eq, List.map_eq_nil_iff, ← List.length_eq_zero_iff, String.length_utf8EncodeChar]
  exact Nat.ne_of_gt c.utf8Size_pos

end Character

namespace Text

/-- The bytes of a text in UTF-8, as numbers. -/
def bytes (text : Text) : List Nat :=
  text.flatMap Character.bytes

/-- Texts compare alike by their bytes and by the code points of their characters. -/
theorem compareNumbers_bytes (left right : Text) :
    compareNumbers left.bytes right.bytes =
      compareNumbers (left.map Char.toNat) (right.map Char.toNat) := by
  induction left generalizing right with
  | nil =>
      cases right with
      | nil => rfl
      | cons d right =>
          obtain ⟨first, others, bytes_eq⟩ := List.exists_cons_of_ne_nil (Character.bytes_ne_nil d)
          rw [bytes, bytes, List.flatMap_cons, bytes_eq]
          rfl
  | cons c left inductionHypothesis =>
      cases right with
      | nil =>
          obtain ⟨first, others, bytes_eq⟩ := List.exists_cons_of_ne_nil (Character.bytes_ne_nil c)
          rw [bytes, bytes, List.flatMap_cons, bytes_eq]
          rfl
      | cons d right =>
          rw [bytes, bytes, List.flatMap_cons, List.flatMap_cons, List.map_cons, List.map_cons]
          rcases Nat.lt_trichotomy c.toNat d.toNat with smaller | same | larger
          · rw [Character.compareNumbers_bytes_append smaller,
              compareNumbers_cons_eq_lt_iff.mpr (.inl smaller)]
          · obtain rfl := Char.toNat_inj.mp same
            rw [compareNumbers_append_append]
            exact (inductionHypothesis right).trans
              (compareNumbers_append_append [c.toNat] _ _).symm
          · rw [compareNumbers_eq_swap, Character.compareNumbers_bytes_append larger,
              compareNumbers_eq_swap, compareNumbers_cons_eq_lt_iff.mpr (.inl larger)]

end Text
end OutputThreading
