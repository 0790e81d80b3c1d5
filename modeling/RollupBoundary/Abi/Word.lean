import RollupBoundary.Abi.Type

/-!
# Values of one word

`WordType.decode` reads a word as a value of a type and never fails: it keeps the octets that the
type has a use for.  `WordValue.encode` writes a value.  A word is canonical for a type if nothing
stands in the octets that the type has no use for, apart from the sign of a negative number; these
are the words that values of the type are written as.
-/

namespace RollupBoundary.Abi

/-- The value of a word, whatever stands in the octets that the type has no use for. -/
def WordType.decode : WordType → Word → WordValue
  | .bool, w => .bool (w ≠ 0)
  | .address, w => .address w.address
  | .function, w => .function ((w >>> 64).setWidth 192)
  | .uint k, w => .uint k w.toNat
  | .int k, w => .int k w.toInt
  | .fixedBytes k, w => .fixedBytes k w

/-- Whether a word has nothing in the octets that the type has no use for. -/
def WordType.isCanonical : WordType → Word → Bool
  | .bool, w => w.toNat ≤ 1
  | .address, w => w.toNat < 2 ^ (160 : Nat)
  | .function, w => w.toNat % 2 ^ (64 : Nat) = 0
  | .uint k, w => w.toNat < 2 ^ k.bits
  | .int k, w => -(2 ^ (k.bits - 1) : Int) ≤ w.toInt && w.toInt < (2 ^ (k.bits - 1) : Int)
  | .fixedBytes k, w => w.toNat % 2 ^ (256 - k.bits) = 0

/-- The word that a value is written as. -/
def WordValue.encode : WordValue → Word
  | .bool b => if b then 1 else 0
  | .address a => a.toWord
  | .function f => f.setWidth 256 <<< 64
  | .uint _ n => BitVec.ofNat 256 n
  | .int _ n => BitVec.ofInt 256 n
  | .fixedBytes _ w => w

end RollupBoundary.Abi
