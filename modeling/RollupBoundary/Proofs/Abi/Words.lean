import Mathlib
import RollupBoundary.Proofs.Abi.Cursor

/-!
# A payload as a list of words

A payload of values of one word each is read word by word, so what it is worth to the decoder is its
list of whole words (`Bytes.words`); octets behind the last whole word do not count.
-/

namespace RollupBoundary

namespace Bytes

/-- The whole words of a byte string. -/
def words (bs : Bytes) : List Word :=
  (List.range (bs.length / 32)).map fun i => Word.ofBytes ((bs.drop (32 * i)).take 32)

variable {bs : Bytes}

lemma length_words (bs : Bytes) : (words bs).length = bs.length / 32 := by
  rw [words, List.length_map, List.length_range]

lemma length_word {i : Nat} (h : i < bs.length / 32) :
    ((bs.drop (32 * i)).take 32).length = 32 := by
  rw [List.length_take, List.length_drop]
  omega

lemma getElem?_words {i : Nat} (h : i < bs.length / 32) :
    (words bs)[i]? = some (Word.ofBytes ((bs.drop (32 * i)).take 32)) := by
  rw [words, List.getElem?_map, List.getElem?_range h, Option.map_some]

lemma getElem?_words_eq_some_iff {i : Nat} {w : Word} :
    (words bs)[i]? = some w ↔ w.toBytes = (bs.drop (32 * i)).take 32 := by
  by_cases hi : i < bs.length / 32
  · rw [getElem?_words hi, Option.some_inj]
    constructor
    · rintro rfl
      exact Word.toBytes_ofBytes (length_word hi)
    · intro h
      rw [← h, Word.ofBytes_toBytes]
  · rw [List.getElem?_eq_none (by rw [length_words]; omega)]
    refine iff_of_false nofun fun h => ?_
    have hlength := congrArg List.length h
    rw [Word.length_toBytes, List.length_take, List.length_drop] at hlength
    omega

/-- Words written one behind the other are the octets they were read from. -/
lemma flatMap_take_words {n : Nat} (h : n ≤ (words bs).length) :
    ((words bs).take n).flatMap Word.toBytes = bs.take (32 * n) := by
  induction n with
  | zero => rfl
  | succ n ih =>
    have hn : n < bs.length / 32 := by
      rw [length_words] at h
      omega
    rw [List.take_add_one, List.flatMap_append, ih (by omega), getElem?_words hn, Nat.mul_succ,
      List.take_add]
    simp [Word.toBytes_ofBytes (length_word hn)]

end Bytes

namespace Abi

/-- Where a cursor stands at a whole number of words, the next word is one of the payload. -/
lemma Cursor.word_eq_ok_iff {data : Bytes} {k depth : Nat} {w : Word} {c : Cursor} :
    Cursor.word ⟨data, 32 * k, depth⟩ = .ok (w, c) ↔
      (Bytes.words data)[k]? = some w ∧ c = ⟨data, 32 * (k + 1), depth⟩ := by
  rw [Cursor.word_eq]
  by_cases hk : k < data.length / 32
  · rw [if_pos (by simp only; omega), Bytes.getElem?_words hk, Except.ok.injEq, Prod.mk.injEq,
      Option.some_inj, Cursor.advance, Nat.mul_succ]
    exact and_congr_right' eq_comm
  · rw [if_neg (by simp only; omega), List.getElem?_eq_none (by rw [Bytes.length_words]; omega)]
    refine iff_of_false (fun h => ?_) (fun h => ?_)
    · cases h
    · cases h.1

end Abi
end RollupBoundary
