import RollupBoundary.Abi.Word
import RollupBoundary.Text.Utf8

/-!
# Encoding a sequence of values

The encoding of a sequence is the heads of its values and then the tails of the dynamic ones.  The
head of a dynamic value is the place of its tail, counted from the start of the sequence.  Tuples
and arrays are sequences themselves; an array of any length and a byte string have their length
before them, and octets are filled up with zeros to whole words.
-/

namespace RollupBoundary.Abi

mutual

/-- Whether a value stands in the tail. -/
def AbiValue.isDynamic : AbiValue → Bool
  | .word _ => false
  | .bytes _ => true
  | .string _ => true
  | .array _ => true
  | .fixedArray vs => AbiValue.anyDynamic vs
  | .tuple vs => AbiValue.anyDynamic vs

/-- Whether one of the values stands in the tail. -/
def AbiValue.anyDynamic : List AbiValue → Bool
  | [] => false
  | v :: vs => v.isDynamic || AbiValue.anyDynamic vs

end

/-- The octets of a number that is an offset, a count or a length. -/
def sizeWord (n : Nat) : Bytes :=
  Word.toBytes (BitVec.ofNat 256 n)

/-- Octets filled up with zeros to whole words. -/
def fillUp (bs : Bytes) : Bytes :=
  bs ++ Bytes.zeros ((32 - bs.length % 32) % 32)

/-- The octets of a value, and whether they stand in the tail. -/
structure Block where
  dynamic : Bool
  octets : Bytes

/-- Octets that a block takes in the head. -/
def Block.headLength (b : Block) : Nat :=
  if b.dynamic then 32 else b.octets.length

/-- The heads of blocks, where `place` is where the next tail goes. -/
def headsFrom (place : Nat) : List Block → Bytes
  | [] => []
  | b :: bs =>
    if b.dynamic then sizeWord place ++ headsFrom (place + b.octets.length) bs
    else b.octets ++ headsFrom place bs

/-- The heads and then the tails of blocks. -/
def assemble (bs : List Block) : Bytes :=
  headsFrom ((bs.map Block.headLength).foldr (· + ·) 0) bs ++
    (bs.filter Block.dynamic).flatMap Block.octets

mutual

/-- The octets of a value where it stands, in the head or in the tail. -/
def AbiValue.encode : AbiValue → Bytes
  | .word v => v.encode.toBytes
  | .bytes bs => sizeWord bs.length ++ fillUp bs
  | .string s => sizeWord (Utf8.encode s).length ++ fillUp (Utf8.encode s)
  | .array vs => sizeWord vs.length ++ assemble (AbiValue.blocks vs)
  | .fixedArray vs => assemble (AbiValue.blocks vs)
  | .tuple vs => assemble (AbiValue.blocks vs)

/-- The blocks of values. -/
def AbiValue.blocks : List AbiValue → List Block
  | [] => []
  | v :: vs => ⟨v.isDynamic, v.encode⟩ :: AbiValue.blocks vs

end

/-- The encoding of a sequence of values. -/
def encodeSequence (vs : List AbiValue) : Bytes :=
  assemble (AbiValue.blocks vs)

end RollupBoundary.Abi
