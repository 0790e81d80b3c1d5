import RollupBoundary.Wire.Field

/-!
# Records of fields

A record is a list of `WireValue`s of any kinds.  `WireValue.parts` gives the parts a value is
written in, in order, and `WireValue.encode` the octets they make up, whatever the stream is.
`WireValue.put` and `FieldKind.take` choose the writer and the reader of a kind at run time, so
that a record can be written and read back field by field.
-/

namespace RollupBoundary.Wire

/-- A value of any kind of field. -/
inductive WireValue where
  | hash (w : Word)
  | address (a : Address)
  | paddedAddress (a : Address)
  | uint64 (n : UInt64)
  | byteString (bs : Bytes)
deriving DecidableEq

/-- A kind of field to be read; for a byte string, with the greatest length admitted. -/
inductive FieldKind where
  | hash
  | address
  | paddedAddress
  | uint64
  | byteString (max : UInt64)
deriving DecidableEq

namespace WireValue

/-- The parts of a value in the order in which they are written. -/
def parts : WireValue → List (Part × Bytes)
  | .hash w => [(.hash, w.toBytes)]
  | .address a => [(.address, a.toBytes)]
  | .paddedAddress a => [(.paddedAddress, Bytes.zeros padding), (.address, a.toBytes)]
  | .uint64 n => [(.uint64, Bytes.ofNat uint64Width n.toNat)]
  | .byteString bs =>
    [(.uint64, Bytes.ofNat uint64Width (UInt64.ofNat bs.length).toNat), (.byteString, bs)]

/-- The octets of a value. -/
def encode (v : WireValue) : Bytes :=
  v.parts.flatMap Prod.snd

/-- Whether `kind` reads what this value is written as.  A byte string is no longer than the reader
admits, and can be held in memory. -/
def fits : WireValue → FieldKind → Prop
  | .hash _, .hash => True
  | .address _, .address => True
  | .paddedAddress _, .paddedAddress => True
  | .uint64 _, .uint64 => True
  | .byteString bs, .byteString max => bs.length ≤ max.toNat ∧ bs.length < memoryBound
  | _, _ => False

/-- Writes a value with the writer of its kind. -/
def put {κ : Type} [ByteSink κ] : WireValue → κ → Except StreamError Unit × κ
  | .hash w, k => putHash w k
  | .address a, k => putAddress a k
  | .paddedAddress a, k => putPaddedAddress a k
  | .uint64 n, k => putUInt64 n k
  | .byteString bs, k => putByteString bs k

end WireValue

/-- The octets of a record. -/
def encodeAll (vs : List WireValue) : Bytes :=
  vs.flatMap WireValue.encode

namespace FieldKind

/-- Reads a value of this kind. -/
def take {σ : Type} [ByteSource σ] : FieldKind → σ → Except StreamError WireValue × σ
  | .hash, s => let (r, s') := takeHash s; (r.map .hash, s')
  | .address, s => let (r, s') := takeAddress s; (r.map .address, s')
  | .paddedAddress, s => let (r, s') := takePaddedAddress s; (r.map .paddedAddress, s')
  | .uint64, s => let (r, s') := takeUInt64 s; (r.map .uint64, s')
  | .byteString max, s => let (r, s') := takeByteString max s; (r.map .byteString, s')

/-- Reads one value after another, each attempted whatever the ones before came to, as long as they
come back. -/
def takeAll {σ : Type} [ByteSource σ] :
    List FieldKind → σ → List (Except StreamError WireValue) × σ
  | [], s => ([], s)
  | kind :: kinds, s =>
    let (result, s') := kind.take s
    let (results, s'') := if comesBack result then takeAll kinds s' else ([], s')
    (result :: results, s'')

end FieldKind

/-- Writes one value after another, each attempted whatever the ones before came to. -/
def WireValue.putAll {κ : Type} [ByteSink κ] :
    List WireValue → κ → List (Except StreamError Unit) × κ
  | [], k => ([], k)
  | v :: vs, k =>
    let (result, k') := v.put k
    let (results, k'') := putAll vs k'
    (result :: results, k'')

end RollupBoundary.Wire
