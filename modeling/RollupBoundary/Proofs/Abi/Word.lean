import Mathlib
import RollupBoundary.Abi.Word

/-!
# Canonical words are the words that values are written as

`WordType.decode` answers for every word, so most words of a narrow type are read as a value that
is written differently.  The words that come back are exactly the canonical ones: `encode_decode`
and `decode_encode` make the canonical words of a type and its values the two ends of a bijection,
and `isCanonical_iff` says the same without naming the reader.

Numbers are special in one way.  What is read keeps the whole word as a number, so that the range
check on a value decides whether its word was canonical (`inRange_decode_iff`); of a truth value,
an address, a function or fixed octets the value alone does not tell.
-/

namespace RollupBoundary.Abi

instance (v : WordValue) (t : WordType) : Decidable (v.HasType t) :=
  inferInstanceAs (Decidable (v.type = t ∧ v.inRange = true ∧ v.isPadded = true))

/-! ## Widths -/

lemma ByteWidth.bits_le (k : ByteWidth) : k.bits ≤ 256 := by
  have hle := k.le
  rw [bits]
  omega

lemma ByteWidth.two_pow_le (k : ByteWidth) : (2 : Int) ^ (k.bits - 1) ≤ 2 ^ 255 := by
  have hbits := k.bits_le
  have hle : k.bits - 1 ≤ 255 := by omega
  exact_mod_cast Nat.pow_le_pow_right (by decide : 0 < 2) hle

namespace WordType

/-- Types whose values are numbers. -/
def isNumber : WordType → Bool
  | .uint _ => true
  | .int _ => true
  | _ => false

/-! ## From a word to a value and back -/

@[simp] theorem type_decode (t : WordType) (w : Word) : (t.decode w).type = t := by
  cases t <;> rfl

/-- The range check on what was read looks at numbers only, and there it decides. -/
theorem inRange_decode_iff (t : WordType) (w : Word) :
    (t.decode w).inRange = true ↔ (t.isNumber = true → t.isCanonical w = true) := by
  cases t <;> simp [decode, WordValue.inRange, isNumber, isCanonical]

theorem hasType_decode {t : WordType} {w : Word} (h : t.isCanonical w = true) :
    (t.decode w).HasType t := by
  refine ⟨type_decode t w, (inRange_decode_iff t w).2 fun _ => h, ?_⟩
  cases t with
  | fixedBytes k => exact h
  | _ => rfl

theorem encode_decode {t : WordType} {w : Word} (h : t.isCanonical w = true) :
    (t.decode w).encode = w := by
  apply BitVec.eq_of_toNat_eq
  have hlt := w.isLt
  cases t with
  | bool =>
    have h01 : w.toNat = 0 ∨ w.toNat = 1 := by
      have hle : w.toNat ≤ 1 := by simpa [isCanonical] using h
      omega
    rcases h01 with h0 | h1
    · have hw : w = 0 := BitVec.eq_of_toNat_eq h0
      subst hw
      rfl
    · have hw : w = 1 := BitVec.eq_of_toNat_eq h1
      subst hw
      rfl
  | address =>
    have hw : w.toNat < 2 ^ 160 := by simpa [isCanonical] using h
    rw [decode, WordValue.encode, Address.toWord, Word.address, BitVec.toNat_setWidth,
      BitVec.toNat_setWidth]
    omega
  | function =>
    have hw : w.toNat % 2 ^ 64 = 0 := by simpa [isCanonical] using h
    rw [decode, WordValue.encode, BitVec.toNat_shiftLeft, BitVec.toNat_setWidth,
      BitVec.toNat_setWidth, BitVec.toNat_ushiftRight, Nat.shiftLeft_eq, Nat.shiftRight_eq_div_pow]
    omega
  | uint k =>
    rw [decode, WordValue.encode, BitVec.toNat_ofNat, Nat.mod_eq_of_lt hlt]
  | int k => rw [decode, WordValue.encode, BitVec.ofInt_toInt]
  | fixedBytes k => rfl

/-! ## From a value to a word and back -/

/-- A value is written as a canonical word of its type. -/
theorem isCanonical_encode {v : WordValue} {t : WordType} (h : v.HasType t) :
    t.isCanonical v.encode = true := by
  obtain ⟨rfl, hrange, hpadded⟩ := h
  cases v with
  | bool b => cases b <;> rfl
  | address a =>
    have hlt := a.isLt
    simp only [WordValue.type, isCanonical, WordValue.encode, Address.toWord, decide_eq_true_eq,
      BitVec.toNat_setWidth]
    omega
  | function f =>
    have hlt := f.isLt
    simp only [WordValue.type, isCanonical, WordValue.encode, decide_eq_true_eq,
      BitVec.toNat_shiftLeft, BitVec.toNat_setWidth, Nat.shiftLeft_eq]
    omega
  | uint k n =>
    have hn : n < 2 ^ k.bits := by simpa [WordValue.inRange] using hrange
    simp only [WordValue.type, isCanonical, WordValue.encode, decide_eq_true_eq,
      BitVec.toNat_ofNat]
    exact Nat.lt_of_le_of_lt (Nat.mod_le _ _) hn
  | int k n =>
    have hn : -(2 ^ (k.bits - 1) : Int) ≤ n ∧ n < (2 ^ (k.bits - 1) : Int) := by
      simpa [WordValue.inRange] using hrange
    have hk := k.two_pow_le
    have hself : (BitVec.ofInt 256 n).toInt = n :=
      BitVec.toInt_ofInt_eq_self (by decide) (by omega) (by omega)
    simpa [WordValue.type, isCanonical, WordValue.encode, hself] using hn
  | fixedBytes k w => exact hpadded

theorem decode_encode {v : WordValue} {t : WordType} (h : v.HasType t) :
    t.decode v.encode = v := by
  obtain ⟨rfl, hrange, -⟩ := h
  cases v with
  | bool b => cases b <;> rfl
  | address a => rw [WordValue.type, WordValue.encode, decode, Word.address_toWord]
  | function f =>
    have hlt := f.isLt
    have hf : ((f.setWidth 256 <<< 64) >>> 64).setWidth 192 = f := by
      apply BitVec.eq_of_toNat_eq
      rw [BitVec.toNat_setWidth, BitVec.toNat_ushiftRight, BitVec.toNat_shiftLeft,
        BitVec.toNat_setWidth, Nat.shiftLeft_eq, Nat.shiftRight_eq_div_pow]
      omega
    rw [WordValue.type, WordValue.encode, decode, hf]
  | uint k n =>
    have hn : n < 2 ^ k.bits := by simpa [WordValue.inRange] using hrange
    have hk : 2 ^ k.bits ≤ 2 ^ 256 := Nat.pow_le_pow_right (by decide) k.bits_le
    have hlt : n < 2 ^ 256 := Nat.lt_of_lt_of_le hn hk
    rw [WordValue.type, WordValue.encode, decode, BitVec.toNat_ofNat, Nat.mod_eq_of_lt hlt]
  | int k n =>
    have hn : -(2 ^ (k.bits - 1) : Int) ≤ n ∧ n < (2 ^ (k.bits - 1) : Int) := by
      simpa [WordValue.inRange] using hrange
    have hk := k.two_pow_le
    have hself : (BitVec.ofInt 256 n).toInt = n :=
      BitVec.toInt_ofInt_eq_self (by decide) (by omega) (by omega)
    rw [WordValue.type, WordValue.encode, decode, hself]
  | fixedBytes k w => rfl

/-- The canonical words of a type are the words its values are written as. -/
theorem isCanonical_iff (t : WordType) (w : Word) :
    t.isCanonical w = true ↔ ∃ v : WordValue, v.HasType t ∧ v.encode = w := by
  constructor
  · intro h
    exact ⟨t.decode w, hasType_decode h, encode_decode h⟩
  · rintro ⟨v, hv, rfl⟩
    exact isCanonical_encode hv

end WordType
end RollupBoundary.Abi
