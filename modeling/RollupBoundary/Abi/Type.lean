import RollupBoundary.Word

/-!
# Types and values of the contract ABI

A `WordType` has values that take one word each: truth values, addresses, function references, and
numbers and octets of some width.  An `AbiType` is one of these, a byte string, a text, or is built
from other types as an array of any length, an array of one length, or a tuple.

Values have the same two layers.  Numbers are mathematical ones, so a `WordValue` can hold a number
that its width does not admit, and octets of a fixed number keep the whole word they came in.
`WordValue.inRange` and `WordValue.isPadded` say when they are as they should be, and
`AbiValue.HasType` is the full statement that a value belongs to a type.
-/

namespace RollupBoundary.Abi

/-! ## Types -/

/-- The width of a number or of fixed octets: 1 to 32 octets. -/
structure ByteWidth where
  octets : Nat
  pos : 0 < octets
  le : octets ≤ 32
deriving DecidableEq

namespace ByteWidth

/-- The width of that many octets, if there is one. -/
def ofOctets? (n : Nat) : Option ByteWidth :=
  if h : 0 < n ∧ n ≤ 32 then some ⟨n, h.1, h.2⟩ else none

/-- The width of that many bits, if there is one. -/
def ofBits? (n : Nat) : Option ByteWidth :=
  if n % 8 = 0 then ofOctets? (n / 8) else none

/-- Bits of the width. -/
def bits (k : ByteWidth) : Nat :=
  8 * k.octets

/-- A whole word. -/
def word : ByteWidth :=
  ⟨32, by decide, by decide⟩

def bits16 : ByteWidth :=
  ⟨2, by decide, by decide⟩

def bits24 : ByteWidth :=
  ⟨3, by decide, by decide⟩

def bits48 : ByteWidth :=
  ⟨6, by decide, by decide⟩

def bits64 : ByteWidth :=
  ⟨8, by decide, by decide⟩

end ByteWidth

/-- Types whose values take one word. -/
inductive WordType where
  | bool
  | address
  | function
  | uint (width : ByteWidth)
  | int (width : ByteWidth)
  | fixedBytes (width : ByteWidth)
deriving DecidableEq

/-- Types of the contract ABI. -/
inductive AbiType where
  | word (t : WordType)
  | bytes
  | string
  | array (t : AbiType)
  | fixedArray (t : AbiType) (n : Nat)
  | tuple (ts : List AbiType)

/-! ## Names -/

/-- The canonical name of a type. -/
def WordType.name : WordType → String
  | .bool => "bool"
  | .address => "address"
  | .function => "function"
  | .uint k => "uint" ++ toString k.bits
  | .int k => "int" ++ toString k.bits
  | .fixedBytes k => "bytes" ++ toString k.octets

mutual

/-- The canonical name of a type.  A tuple of one type keeps a comma. -/
def AbiType.name : AbiType → String
  | .word t => t.name
  | .bytes => "bytes"
  | .string => "string"
  | .array t => t.name ++ "[]"
  | .fixedArray t n => t.name ++ "[" ++ toString n ++ "]"
  | .tuple [t] => "(" ++ t.name ++ ",)"
  | .tuple ts => "(" ++ String.intercalate "," (AbiType.names ts) ++ ")"

/-- The canonical names of types. -/
def AbiType.names : List AbiType → List String
  | [] => []
  | t :: ts => t.name :: AbiType.names ts

end

/-! ## Values -/

/-- A reference to a function: an address and a selector of four octets. -/
abbrev FunctionReference := BitVec 192

/-- Values of one word. -/
inductive WordValue where
  | bool (b : Bool)
  | address (a : Address)
  | function (f : FunctionReference)
  | uint (width : ByteWidth) (n : Nat)
  | int (width : ByteWidth) (n : Int)
  | fixedBytes (width : ByteWidth) (w : Word)
deriving DecidableEq

/-- Values of the contract ABI. -/
inductive AbiValue where
  | word (v : WordValue)
  | bytes (bs : Bytes)
  | string (s : String)
  | array (vs : List AbiValue)
  | fixedArray (vs : List AbiValue)
  | tuple (vs : List AbiValue)

/-- Whether a number fits its width; other values always do. -/
def WordValue.inRange : WordValue → Bool
  | .uint k n => n < 2 ^ k.bits
  | .int k n => -(2 ^ (k.bits - 1) : Int) ≤ n && n < (2 ^ (k.bits - 1) : Int)
  | _ => true

mutual

/-- Whether every number inside a value fits its width. -/
def AbiValue.inRange : AbiValue → Bool
  | .word v => v.inRange
  | .bytes _ => true
  | .string _ => true
  | .array vs => AbiValue.allInRange vs
  | .fixedArray vs => AbiValue.allInRange vs
  | .tuple vs => AbiValue.allInRange vs

/-- Whether every number inside some values fits its width. -/
def AbiValue.allInRange : List AbiValue → Bool
  | [] => true
  | v :: vs => v.inRange && AbiValue.allInRange vs

end

/-! ## Values of a type -/

/-- The type that a value of one word has the shape and the width of. -/
def WordValue.type : WordValue → WordType
  | .bool _ => .bool
  | .address _ => .address
  | .function _ => .function
  | .uint k _ => .uint k
  | .int k _ => .int k
  | .fixedBytes k _ => .fixedBytes k

/-- Whether nothing but zeros stands behind fixed octets; other values always pass. -/
def WordValue.isPadded : WordValue → Bool
  | .fixedBytes k w => w.toNat % 2 ^ (256 - k.bits) = 0
  | _ => true

/-- That a value of one word is one of a type. -/
def WordValue.HasType (v : WordValue) (t : WordType) : Prop :=
  v.type = t ∧ v.inRange = true ∧ v.isPadded = true

/-- That a value is built as its type is, where `rel` says which values of one word are admitted at
which types of one word. -/
inductive AbiValue.Fits (rel : WordValue → WordType → Prop) : AbiValue → AbiType → Prop where
  | word {v : WordValue} {t : WordType} : rel v t → Fits rel (.word v) (.word t)
  | bytes (bs : Bytes) : Fits rel (.bytes bs) .bytes
  | string (s : String) : Fits rel (.string s) .string
  | array {vs : List AbiValue} {t : AbiType} :
    (∀ v ∈ vs, Fits rel v t) → Fits rel (.array vs) (.array t)
  | fixedArray {vs : List AbiValue} {t : AbiType} :
    (∀ v ∈ vs, Fits rel v t) → Fits rel (.fixedArray vs) (.fixedArray t vs.length)
  | emptyTuple : Fits rel (.tuple []) (.tuple [])
  | tuple {v : AbiValue} {vs : List AbiValue} {t : AbiType} {ts : List AbiType} :
    Fits rel v t → Fits rel (.tuple vs) (.tuple ts) → Fits rel (.tuple (v :: vs)) (.tuple (t :: ts))

/-- That a value is one of a type: the same shape and widths throughout, numbers within their
widths, and zeros behind fixed octets. -/
def AbiValue.HasType : AbiValue → AbiType → Prop :=
  Fits WordValue.HasType

/-- That a value has the shape and the widths of a type throughout. -/
def AbiValue.HasShape : AbiValue → AbiType → Prop :=
  Fits fun v t => v.type = t

end RollupBoundary.Abi
