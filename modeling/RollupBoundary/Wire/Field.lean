import RollupBoundary.Wire.Basic

/-!
# Reading and writing fields

Each kind of field has a reader and a writer, for every source and sink.  A reader gives the
stream back as it stands afterwards, also after an error.

One reader is lenient and one is guarded.  The twelve octets before a padded address are skipped
whatever they are, though a writer always puts zeros there.  The length before a byte string is
compared with the reader's maximum before the payload is touched, so an oversized length leaves
the payload unread.  Room for the payload is made before any octet of it is read.  A length that is
admitted although there can be no such room is therefore the end of the program, whether or not the
octets are there.
-/

namespace RollupBoundary.Wire

/-- The next `width` octets of a source, as the part they make up. -/
def takePart {σ : Type} [ByteSource σ] (part : Part) (width : Nat) (s : σ) :
    Except StreamError Bytes × σ :=
  match ByteSource.take s width with
  | (.ok bs, s') => (.ok bs, s')
  | (.error e, s') => (.error (.ofReadFailure part width e), s')

/-- The octets of one part to a sink. -/
def putPart {κ : Type} [ByteSink κ] (part : Part) (bs : Bytes) (k : κ) :
    Except StreamError Unit × κ :=
  match ByteSink.put k bs with
  | (.ok (), k') => (.ok (), k')
  | (.error e, k') => (.error (.sinkFailed part e), k')

/-! ## Readers -/

section Readers

variable {σ : Type} [ByteSource σ]

/-- A hash of 32 octets. -/
def takeHash (s : σ) : Except StreamError Word × σ :=
  let (result, s') := takePart .hash hashWidth s
  (result.map Word.ofBytes, s')

/-- A bare address of 20 octets. -/
def takeAddress (s : σ) : Except StreamError Address × σ :=
  let (result, s') := takePart .address addressWidth s
  (result.map Address.ofBytes, s')

/-- An address at the right end of a word; the octets before it are skipped. -/
def takePaddedAddress (s : σ) : Except StreamError Address × σ :=
  let (result, s') := takePart .paddedAddress paddedWidth s
  (result.map fun bs => Address.ofBytes (bs.drop padding), s')

/-- A number of 64 bits, most significant octet first. -/
def takeUInt64 (s : σ) : Except StreamError UInt64 × σ :=
  let (result, s') := takePart .uint64 uint64Width s
  (result.map fun bs => UInt64.ofNat (Bytes.toNat bs), s')

/-- A byte string of at most `max` octets behind its length.  Every length is a size, which has 64
bits as well, but only one below `memoryBound` is the size of something. -/
def takeByteString (max : UInt64) (s : σ) : Except StreamError Bytes × σ :=
  match takeUInt64 s with
  | (.error e, s') => (.error e, s')
  | (.ok declared, s') =>
    if max < declared then (.error (.tooLong declared max), s')
    else if memoryBound ≤ declared.toNat then (.error (.outOfRoom declared), s')
    else takePart .byteString declared.toNat s'

end Readers

/-! ## Writers -/

section Writers

variable {κ : Type} [ByteSink κ]

/-- A hash. -/
def putHash (w : Word) (k : κ) : Except StreamError Unit × κ :=
  putPart .hash w.toBytes k

/-- A bare address. -/
def putAddress (a : Address) (k : κ) : Except StreamError Unit × κ :=
  putPart .address a.toBytes k

/-- Twelve zero octets, then the address. -/
def putPaddedAddress (a : Address) (k : κ) : Except StreamError Unit × κ :=
  match putPart .paddedAddress (Bytes.zeros padding) k with
  | (.ok (), k') => putAddress a k'
  | failed => failed

/-- A number, most significant octet first. -/
def putUInt64 (n : UInt64) (k : κ) : Except StreamError Unit × κ :=
  putPart .uint64 (Bytes.ofNat uint64Width n.toNat) k

/-- The length, then the octets. -/
def putByteString (bs : Bytes) (k : κ) : Except StreamError Unit × κ :=
  match putUInt64 (UInt64.ofNat bs.length) k with
  | (.ok (), k') => putPart .byteString bs k'
  | failed => failed

end Writers

/-! ## Values of fixed width

A type whose values all have one width can be put on a stream by its type alone. -/

/-- An address that is written padded to a word. -/
structure PaddedAddress where
  address : Address
deriving DecidableEq

/-- A type whose values are fields of one width. -/
class FixedWidth (α : Type) where
  /-- Octets a value takes. -/
  width : Nat
  takeFrom {σ : Type} [ByteSource σ] : σ → Except StreamError α × σ
  putTo {κ : Type} [ByteSink κ] : α → κ → Except StreamError Unit × κ

instance : FixedWidth Word where
  width := hashWidth
  takeFrom := takeHash
  putTo := putHash

instance : FixedWidth Address where
  width := addressWidth
  takeFrom := takeAddress
  putTo := putAddress

instance : FixedWidth UInt64 where
  width := uint64Width
  takeFrom := takeUInt64
  putTo := putUInt64

instance : FixedWidth PaddedAddress where
  width := paddedWidth
  takeFrom s :=
    let (result, s') := takePaddedAddress s
    (result.map PaddedAddress.mk, s')
  putTo a := putPaddedAddress a.address

end RollupBoundary.Wire
