import RollupBoundary.Abi.Type

/-!
# How types are laid out

The encoding of a sequence of values is a head and a tail.  A value of a static type stands in the
head itself; a value of a dynamic type stands in the tail, and the head holds one word that says
where.  `isDynamic` tells the two apart and `headWords` counts the words in the head, from which
follows where each head begins (`headOffsets`).

The words are counted in a number of 64 bits, as sizes in memory are, and the count wraps.  A fixed
array may be so long that a field behind it gets the offset of a field before it; no data in memory
reaches so far.

`minWords` counts the words that a value needs at least, wherever they stand: it is what a payload
is checked against before any of it is read.  A type is zero-sized if its values need no word at
all, as the empty tuple and everything built from it alone.
-/

namespace RollupBoundary.Abi.AbiType

mutual

/-- Whether values of this type stand in the tail. -/
def isDynamic : AbiType → Bool
  | .word _ => false
  | .bytes => true
  | .string => true
  | .array _ => true
  | .fixedArray t _ => t.isDynamic
  | .tuple ts => anyDynamic ts

/-- Whether one of the types is dynamic. -/
def anyDynamic : List AbiType → Bool
  | [] => false
  | t :: ts => t.isDynamic || anyDynamic ts

end

mutual

/-- Words that a value takes in the head of a sequence. -/
def headWords : AbiType → UInt64
  | .word _ => 1
  | .bytes => 1
  | .string => 1
  | .array _ => 1
  | .fixedArray t n => if t.isDynamic then 1 else .ofNat n * t.headWords
  | .tuple ts => if anyDynamic ts then 1 else headWordsOfAll ts

/-- Words in the head of a sequence of values. -/
def headWordsOfAll : List AbiType → UInt64
  | [] => 0
  | t :: ts => t.headWords + headWordsOfAll ts

end

/-- Where the head of each of a sequence of values begins, in octets. -/
def headOffsets (start : UInt64) : List AbiType → List Nat
  | [] => []
  | t :: ts => start.toNat :: headOffsets (start + 32 * t.headWords) ts

mutual

/-- Words that a value needs at least. -/
def minWords : AbiType → Nat
  | .word _ => 1
  | .bytes => 1
  | .string => 1
  | .array _ => 1
  | .fixedArray t n => n * t.minWords
  | .tuple ts => sumMinWords ts

/-- Words that a sequence of values needs at least. -/
def sumMinWords : List AbiType → Nat
  | [] => 0
  | t :: ts => t.minWords + sumMinWords ts

end

mutual

/-- Whether values of this type are built from nothing. -/
def isZeroSized : AbiType → Bool
  | .word _ => false
  | .bytes => false
  | .string => false
  | .array t => t.isZeroSized
  | .fixedArray t _ => t.isZeroSized
  | .tuple ts => allZeroSized ts

/-- Whether all the types are zero-sized. -/
def allZeroSized : List AbiType → Bool
  | [] => true
  | t :: ts => t.isZeroSized && allZeroSized ts

end

end RollupBoundary.Abi.AbiType
