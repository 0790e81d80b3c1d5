import RollupBoundary.Word

/-!
# Streams of fixed-layout fields

A stream is a sequence of parts, each of a known width: a hash, an address bare or padded to a
word, a 64-bit number, and the payload of a byte string, whose width stands before it as a number.
This module names the parts, says what can go wrong with one, and fixes what a stream is: a
`ByteSource` hands out an exact number of octets or fails, and a `ByteSink` takes all the octets it
is given or fails.

A plain byte string is both.  As a source it gives octets from its front, and when too few are
left it gives up all of them with the failure.  As a sink it grows at its end and never fails.

Two things can come of a read that are no result at all.  A source may be interrupted for ever, and
is then asked for ever; and a byte string may declare more octets than any program can hold, at
which the program stops.  Both stand among the errors, and `comesBack` tells them from the errors
that are returned to the caller, who then goes on.
-/

namespace RollupBoundary.Wire

/-! ## Parts -/

/-- The parts that fields are made of. -/
inductive Part where
  | hash
  | address
  | paddedAddress
  | uint64
  | byteString
deriving DecidableEq

/-- How a part is called in messages. -/
def Part.label : Part → String
  | .hash => "hash"
  | .address => "address"
  | .paddedAddress => "padded address"
  | .uint64 => "u64"
  | .byteString => "byte string"

/-- Octets of a hash. -/
def hashWidth : Nat := 32

/-- Octets of a bare address. -/
def addressWidth : Nat := 20

/-- Octets of an address padded to a word. -/
def paddedWidth : Nat := 32

/-- Zero octets before a padded address. -/
def padding : Nat := 12

/-- Octets of a number. -/
def uint64Width : Nat := 8

/-- Octets of the length before a byte string: it is written as a number. -/
def lengthWidth : Nat := uint64Width

/-- No byte string in memory has so many octets: a size in memory is a signed number of 64 bits. -/
def memoryBound : Nat := 2 ^ (63 : Nat)

/-! ## Failures -/

/-- Why a transport stops handing out octets. -/
inductive Fault where
  | reset
  | wouldBlock
  | timedOut
  | closed
  /-- The call is interrupted.  Whoever reads makes it again, so that this fault is never reported. -/
  | interrupted
  /-- Any other fault, with its text. -/
  | other (text : String)
deriving DecidableEq

/-- The text a fault is reported with. -/
def Fault.message : Fault → String
  | .reset => "peer reset"
  | .wouldBlock => "not ready"
  | .timedOut => "deadline passed"
  | .closed => "gone"
  | .interrupted => "operation interrupted"
  | .other text => text

/-- Why a source cannot hand out the octets asked for. -/
inductive ReadFailure where
  /-- There are no more octets. -/
  | endOfData
  | fault (f : Fault)
  /-- Calls are interrupted without end, and made again without end. -/
  | unending
deriving DecidableEq

/-- Why a sink cannot take the octets given. -/
inductive WriteFailure where
  /-- The sink takes no octet of what is left. -/
  | noRoom
  /-- The other end is gone. -/
  | closed
deriving DecidableEq

/-- The text a failed write is reported with. -/
def WriteFailure.message : WriteFailure → String
  | .noRoom => "failed to write whole buffer"
  | .closed => "pipe closed"

/-- What can come of a field in place of its value. -/
inductive StreamError where
  /-- The data ended before the part was complete. -/
  | dataEnded (part : Part) (expected : Nat)
  | sourceFailed (part : Part) (fault : Fault)
  | sinkFailed (part : Part) (failure : WriteFailure)
  /-- A byte string declares more octets than the reader admits. -/
  | tooLong (declared max : UInt64)
  /-- A byte string declares more octets than there can be room for: the program stops. -/
  | outOfRoom (declared : UInt64)
  /-- The source is asked for the octets of the part for ever. -/
  | neverEnds (part : Part)
deriving DecidableEq

namespace StreamError

/-- Whether the caller gets the error, and goes on. -/
def isReturned : StreamError → Bool
  | .outOfRoom _ => false
  | .neverEnds _ => false
  | _ => true

/-- The text an error is reported with, if it is returned. -/
def message? : StreamError → Option String
  | .dataEnded part expected =>
    some ("short read decoding " ++ part.label ++ ": needed " ++ toString expected ++ " bytes")
  | .sourceFailed part fault =>
    some ("read failed decoding " ++ part.label ++ ": " ++ fault.message)
  | .sinkFailed part failure =>
    some ("write failed encoding " ++ part.label ++ ": " ++ failure.message)
  | .tooLong declared max =>
    some ("byte string length " ++ toString declared.toNat ++ " exceeds maximum " ++
      toString max.toNat)
  | .outOfRoom _ => none
  | .neverEnds _ => none

/-- Whether the data ended too early, and nothing else is wrong. -/
def isDataEnd : StreamError → Bool
  | .dataEnded .. => true
  | _ => false

/-- The error for a part of `expected` octets that a source did not hand out. -/
def ofReadFailure (part : Part) (expected : Nat) : ReadFailure → StreamError
  | .endOfData => .dataEnded part expected
  | .fault f => .sourceFailed part f
  | .unending => .neverEnds part

end StreamError

/-- Whether a read or a write comes back, with a value or with an error. -/
def comesBack {α : Type} : Except StreamError α → Bool
  | .ok _ => true
  | .error e => e.isReturned

/-! ## Streams -/

/-- Something octets are read from. -/
class ByteSource (σ : Type) where
  /-- Hands out exactly the number of octets asked for, or fails.  Octets handed out before a
  failure stay consumed.  If it asks for ever, the source that is given has no meaning. -/
  take : σ → Nat → Except ReadFailure Bytes × σ

/-- Something octets are written to. -/
class ByteSink (κ : Type) where
  /-- Takes all the octets, or fails.  Octets taken before a failure stay written. -/
  put : κ → Bytes → Except WriteFailure Unit × κ

/-- A byte string is read from its front; a failure consumes it. -/
instance : ByteSource Bytes where
  take s n := if n ≤ s.length then (.ok (s.take n), s.drop n) else (.error .endOfData, [])

/-- A byte string is written at its end. -/
instance : ByteSink Bytes where
  put s bs := (.ok (), s ++ bs)

end RollupBoundary.Wire
