import RollupBoundary.Hex
import RollupBoundary.Word
import RollupBoundary.Text.Utf8

/-!
# Sender aliasing

A contract that sends from the base chain acts on the rollup under another address: its own plus a
fixed offset, modulo `2^160`.  The sum is taken in a word, which is wide enough for an address and
an offset of up to `2^160`, and the low 160 bits are kept.  Going back adds the inverse offset
`2^160 - offset`, which for the offset zero is `2^160` itself and therefore kept as a word.

An offset may be configured as hexadecimal text.  The digits are read from the last one to the
first, each with the weight of its place, so of two faults the one nearer the end is reported.
-/

namespace RollupBoundary

/-- An alias offset, with the two maps it gives. -/
structure Aliasing where
  offset : Address
deriving DecidableEq

namespace Aliasing

/-- The offset that holds unless another one is configured. -/
def standard : Aliasing :=
  ⟨0x1111000000000000000000000000000000001111#160⟩

/-- What is added to go from the base chain to the rollup. -/
def forward (o : Aliasing) : Word :=
  o.offset.toWord

/-- What is added to go back: `2^160` less the offset. -/
def inverse (o : Aliasing) : Word :=
  (1#256 <<< 160) - o.forward

/-- An address moved by a word, modulo `2^160`. -/
def shift (a : Address) (step : Word) : Address :=
  (a.toWord + step).address

/-- The address that a sender on the base chain acts as on the rollup. -/
def aliased (o : Aliasing) (a : Address) : Address :=
  shift a o.forward

/-- The sender on the base chain behind an address on the rollup. -/
def unaliased (o : Aliasing) (a : Address) : Address :=
  shift a o.inverse

/-! ## Offsets as text -/

/-- What is wrong with the text of an offset. -/
inductive Fault where
  /-- Nothing is left behind the optional `0x`. -/
  | empty
  /-- An octet that is neither a digit nor an underscore. -/
  | invalidDigit (octet : UInt8)
  /-- A digit other than zero with 160 bits to its right. -/
  | tooLarge
deriving DecidableEq

/-- The text a fault is reported with; an octet is shown as the character of that number. -/
def Fault.message : Fault → String
  | .empty => "empty hex string"
  | .invalidDigit octet => "invalid digit: " ++ String.singleton (Char.ofNat octet.toNat)
  | .tooLarge => "the value is too large to fit the target type"

/-- The value of a digit, by its octet. -/
def digitValue? (octet : UInt8) : Option Nat :=
  if octet < 128 then Hex.value? (Char.ofNat octet.toNat) else none

/-- The number that digits spell, given last digit first: `place` digits with the value `sum` have
been read already.  Underscores are skipped, and so are zeros beyond the fortieth place. -/
def readDigits : Bytes → Nat → Nat → Except Fault Nat
  | [], _, sum => .ok sum
  | octet :: rest, place, sum =>
    if octet = 0x5F then readDigits rest place sum
    else
      match digitValue? octet with
      | none => .error (.invalidDigit octet)
      | some d =>
        if 40 ≤ place then
          if d = 0 then readDigits rest place sum else .error .tooLarge
        else readDigits rest (place + 1) (sum + d * 16 ^ place)

/-- The text behind one optional `0x` or `0X`. -/
def significant (text : String) : List Char :=
  match text.toList with
  | '0' :: 'x' :: rest => rest
  | '0' :: 'X' :: rest => rest
  | all => all

/-- Reads an offset. -/
def ofText (text : String) : Except Fault Aliasing :=
  match significant text with
  | [] => .error .empty
  | digits => do
    let value ← readDigits (digits.flatMap String.utf8EncodeChar).reverse 0 0
    return ⟨BitVec.ofNat 160 value⟩

end Aliasing
end RollupBoundary
