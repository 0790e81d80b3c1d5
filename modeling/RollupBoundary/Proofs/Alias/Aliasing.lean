import Mathlib
import RollupBoundary.Alias.Aliasing

/-!
# Aliasing turns the circle of addresses

The addresses are the numbers modulo `2 ^ 160`, and an alias offset moves each of them by the same
amount: `Aliasing.Rotates` says so in numbers and in octets.  Two facts carry it.

* Neither sum nor difference that is taken in a word wraps.  An address and an offset are below
  `2 ^ 160`, so the inverse offset is `2 ^ 160` less the offset and nothing else, also where that is
  `2 ^ 160` itself (`toNat_inverse_add`), and a moved address is below `2 ^ 161` before its upper
  octets go (`toNat_toWord_add`).
* To drop the twelve upper octets is to reduce modulo `2 ^ 160` (`Word.toNat_address`,
  `Word.toBytes_address`).

The way there and the way back are therefore inverse to each other, for every offset.
-/

namespace RollupBoundary

/-! ## Words and addresses -/

lemma Address.toNat_toWord (a : Address) : a.toWord.toNat = a.toNat := by
  have := a.isLt
  rw [toWord, BitVec.toNat_setWidth]
  exact Nat.mod_eq_of_lt (by omega)

lemma Word.toNat_address (w : Word) : (Word.address w).toNat = w.toNat % 2 ^ 160 := by
  rw [Word.address, BitVec.toNat_setWidth]

/-- The address in a word is written as the last twenty octets of the word. -/
lemma Word.toBytes_address (w : Word) :
    (Word.address w).toBytes = (Word.toBytes w).drop 12 := by
  have hsplit := List.take_append_drop 12 (Word.toBytes w)
  have hlength : ((Word.toBytes w).drop 12).length = 20 := by
    rw [List.length_drop, Word.length_toBytes]
  have hnumber : w.toNat =
      Bytes.toNat ((Word.toBytes w).take 12) * 2 ^ 160 + Bytes.toNat ((Word.toBytes w).drop 12) := by
    have happend := Bytes.toNat_append ((Word.toBytes w).take 12) ((Word.toBytes w).drop 12)
    rw [hsplit, hlength, Word.toBytes, Bytes.toNat_ofNat_of_lt w.isLt] at happend
    exact happend
  have hlt := Bytes.toNat_lt ((Word.toBytes w).drop 12)
  rw [hlength] at hlt
  apply Bytes.eq_of_toNat_eq
  · rw [hlength, Address.length_toBytes]
  · rw [Address.toBytes, Bytes.toNat_ofNat_of_lt (Word.address w).isLt, Word.toNat_address]
    omega

namespace Aliasing

/-! ## Nothing wraps -/

variable (o : Aliasing) (a : Address)

lemma toNat_forward : o.forward.toNat = o.offset.toNat :=
  Address.toNat_toWord o.offset

/-- The inverse offset and the offset make up the whole circle. -/
lemma toNat_inverse_add : o.inverse.toNat + o.offset.toNat = 2 ^ 160 := by
  have hlt := o.offset.isLt
  have hcircle : (1#256 <<< 160).toNat = 2 ^ 160 := by decide
  have hle : o.forward ≤ 1#256 <<< 160 := by
    rw [BitVec.le_def, hcircle, toNat_forward]
    omega
  rw [inverse, BitVec.toNat_sub_of_le hle, hcircle, toNat_forward]
  omega

/-- A sum with a step of at most the whole circle is the sum of the numbers. -/
lemma toNat_toWord_add {step : Word} (h : step.toNat ≤ 2 ^ 160) :
    (a.toWord + step).toNat = a.toNat + step.toNat := by
  have hlt := a.isLt
  rw [BitVec.toNat_add, Address.toNat_toWord]
  exact Nat.mod_eq_of_lt (by omega)

lemma toNat_shift {step : Word} (h : step.toNat ≤ 2 ^ 160) :
    (shift a step).toNat = (a.toNat + step.toNat) % 2 ^ 160 := by
  rw [shift, Word.toNat_address, toNat_toWord_add a h]

/-! ## There and back -/

lemma toNat_aliased : (o.aliased a).toNat = (a.toNat + o.offset.toNat) % 2 ^ 160 := by
  have hlt := o.offset.isLt
  rw [aliased, toNat_shift a (by rw [toNat_forward]; omega), toNat_forward]

lemma toNat_unaliased : (o.unaliased a).toNat = (a.toNat + o.inverse.toNat) % 2 ^ 160 := by
  have hcircle := o.toNat_inverse_add
  rw [unaliased, toNat_shift a (by omega)]

lemma unaliased_aliased : o.unaliased (o.aliased a) = a := by
  apply BitVec.eq_of_toNat_eq
  have hlt := a.isLt
  have hcircle := o.toNat_inverse_add
  rw [toNat_unaliased, toNat_aliased]
  omega

lemma aliased_unaliased : o.aliased (o.unaliased a) = a := by
  apply BitVec.eq_of_toNat_eq
  have hlt := a.isLt
  have hcircle := o.toNat_inverse_add
  rw [toNat_aliased, toNat_unaliased]
  omega

/-! ## Rotations -/

/-- That an aliasing moves every address by `n` around the circle of `2 ^ 160` addresses and back
again, and that nothing is lost in the words in which it does so. -/
structure Rotates (n : Nat) : Prop where
  offset_eq : o.forward.address = o.offset ∧ o.offset.toNat = n
  /-- The inverse offset is `2 ^ 160` less the offset, as a difference of numbers. -/
  inverse_eq : o.inverse.toNat = 2 ^ 160 - n ∧ n ≤ 2 ^ 160
  /-- The sums in a word are sums of numbers. -/
  sums_eq : ∀ a : Address, (a.toWord + o.forward).toNat = a.toNat + n ∧
    (a.toWord + o.inverse).toNat = a.toNat + (2 ^ 160 - n)
  octets_eq : ∀ a : Address,
    (o.aliased a).toBytes = (Word.toBytes (a.toWord + o.forward)).drop 12 ∧
      (o.unaliased a).toBytes = (Word.toBytes (a.toWord + o.inverse)).drop 12
  aliased_eq : ∀ a, (o.aliased a).toNat = (a.toNat + n) % 2 ^ 160
  unaliased_eq : ∀ a, ((o.unaliased a).toNat : Int) = ((a.toNat : Int) - n) % 2 ^ 160
  inverse_maps : ∀ a, o.unaliased (o.aliased a) = a ∧ o.aliased (o.unaliased a) = a
  bijective : Function.Injective o.aliased ∧ Function.Surjective o.aliased

lemma toNat_unaliased_eq_emod :
    ((o.unaliased a).toNat : Int) = ((a.toNat : Int) - o.offset.toNat) % 2 ^ 160 := by
  have hlt := o.offset.isLt
  have hcircle := o.toNat_inverse_add
  -- One turn more makes a number of the difference.
  have hturn : ((a.toNat : Int) - o.offset.toNat) % 2 ^ 160 =
      ((a.toNat + o.inverse.toNat : Nat) : Int) % 2 ^ 160 := by
    omega
  rw [hturn, toNat_unaliased]
  omega

/-- Every aliasing is the rotation by its offset, whether the offset is the standard one, is read
from a text or is given as it stands, for an aliasing is nothing but its offset. -/
theorem rotates_offset :
    (∀ o : Aliasing, o.Rotates o.offset.toNat) ∧
      standard.Rotates 0x1111000000000000000000000000000000001111 := by
  have hall : ∀ o : Aliasing, o.Rotates o.offset.toNat := by
    intro o
    have hlt := o.offset.isLt
    have hcircle := o.toNat_inverse_add
    have hforward := o.toNat_forward
    exact {
      offset_eq := ⟨Word.address_toWord o.offset, rfl⟩
      inverse_eq := ⟨by omega, by omega⟩
      sums_eq := fun a => by
        rw [toNat_toWord_add a (by omega), toNat_toWord_add a (by omega)]
        omega
      octets_eq := fun a => ⟨Word.toBytes_address _, Word.toBytes_address _⟩
      aliased_eq := o.toNat_aliased
      unaliased_eq := o.toNat_unaliased_eq_emod
      inverse_maps := fun a => ⟨o.unaliased_aliased a, o.aliased_unaliased a⟩
      bijective := ⟨Function.LeftInverse.injective o.unaliased_aliased,
        Function.RightInverse.surjective o.aliased_unaliased⟩ }
  exact ⟨hall, hall standard⟩

end Aliasing
end RollupBoundary
