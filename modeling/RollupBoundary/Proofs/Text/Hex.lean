import Mathlib
import RollupBoundary.Hex

/-!
# Reading back hexadecimal digits

A digit is read as the number it was written for, in either case (`value?_digit`,
`value?_toUpper_digit`), and nothing but a digit below sixteen is read at all.  The digits of a byte
string are those of its halves of octets, so together they spell the number that the octets spell
(`ofDigits_nibbles`).
-/

namespace RollupBoundary.Hex

/-! ## One digit -/

lemma value?_digit {n : Nat} (h : n < 16) : value? (digit n) = some n := by
  interval_cases n <;> decide

lemma value?_toUpper_digit {n : Nat} (h : n < 16) : value? (digit n).toUpper = some n := by
  interval_cases n <;> decide

/-- A digit is below sixteen, and its character is one octet. -/
lemma value?_lt {c : Char} {n : Nat} (h : value? c = some n) : n < 16 ∧ c.toNat < 128 := by
  have hval : c.val.toNat = c.toNat := rfl
  simp only [value?, Char.le_def, UInt32.le_iff_toNat_le, Char.reduceVal, UInt32.reduceToNat,
    hval] at h
  split_ifs at h
  all_goals
    rw [Option.some.injEq] at h
    omega

/-! ## The digits of octets -/

/-- The halves of the octets of a byte string, upper half first. -/
def nibbles (bs : Bytes) : List Nat :=
  bs.flatMap fun b => [b.toNat / 16, b.toNat % 16]

lemma digits_eq (bs : Bytes) : digits bs = (nibbles bs).map digit := by
  rw [nibbles, List.map_flatMap]
  rfl

lemma lt_of_mem_nibbles {bs : Bytes} {n : Nat} (h : n ∈ nibbles bs) : n < 16 := by
  obtain ⟨b, -, hn⟩ := List.mem_flatMap.1 h
  have hb : b.toNat < 256 := b.toNat_lt
  simp only [List.mem_cons, List.not_mem_nil, or_false] at hn
  omega

lemma length_nibbles (bs : Bytes) : (nibbles bs).length = 2 * bs.length := by
  induction bs with
  | nil => rfl
  | cons b bs ih =>
    rw [nibbles, List.flatMap_cons, List.length_append, ← nibbles, ih, List.length_cons]
    simp only [List.length_cons, List.length_nil]
    omega

/-- The digits of a byte string spell the same number as its octets. -/
lemma ofDigits_nibbles (bs : Bytes) :
    Nat.ofDigits 16 (nibbles bs).reverse = Bytes.toNat bs := by
  induction bs using Bytes.snocRec with
  | nil => rfl
  | snoc bs b ih =>
    have hnibbles : nibbles (bs ++ [b]) = nibbles bs ++ [b.toNat / 16] ++ [b.toNat % 16] := by
      simp [nibbles]
    rw [hnibbles, List.reverse_concat, List.reverse_concat, Nat.ofDigits_cons, Nat.ofDigits_cons,
      ih, Bytes.toNat_concat]
    omega

end RollupBoundary.Hex
