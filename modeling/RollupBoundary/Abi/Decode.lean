import RollupBoundary.Abi.Layout
import RollupBoundary.Abi.Word
import RollupBoundary.Text.Utf8

/-!
# Decoding a sequence of values

A `Cursor` stands at an offset in a buffer.  A static value is read where the cursor stands.  A
dynamic value is reached through a word that says where it is, counted from the start of the
buffer; it is read by a cursor of its own, a child, whose buffer begins there.  Children are nested
at most `maxDepth` deep, which keeps a payload from leading the decoder in circles for ever.

The decoder is as lenient as the format allows.  Of a word that is an offset, a count or a length
only the low 64 bits are looked at.  Offsets may point anywhere, also to what was read before.  The
padding of byte strings need not be there, and nothing is said about octets that are never read.
Before the elements of an array are read, though, enough words for all of them have to be left, so
that a large count is refused at once.
-/

namespace RollupBoundary.Abi

/-- Why a payload cannot be decoded. -/
inductive DecodeFault where
  /-- A read goes beyond the end of the buffer. -/
  | overrun
  /-- Values are nested too deep. -/
  | tooDeep
deriving DecidableEq

/-- Children of cursors are nested at most this deep. -/
def maxDepth : Nat := 16

/-- The text a fault is reported with. -/
def DecodeFault.message : DecodeFault → String
  | .overrun => "ABI decoding failed: buffer overrun while deserializing"
  | .tooDeep =>
    "ABI decoding failed: recursion limit of " ++ toString maxDepth ++
      " exceeded during decoding"

/-! ## Cursors -/

/-- A place in a buffer. -/
structure Cursor where
  buffer : Bytes
  offset : Nat
  /-- How many cursors this one is a descendant of. -/
  depth : Nat

namespace Cursor

/-- A cursor at the start of a payload. -/
def start (data : Bytes) : Cursor :=
  ⟨data, 0, 0⟩

/-- The next `n` octets. -/
def octets (c : Cursor) (n : Nat) : Except DecodeFault (Bytes × Cursor) :=
  if c.offset + n ≤ c.buffer.length then
    .ok ((c.buffer.drop c.offset).take n, { c with offset := c.offset + n })
  else .error .overrun

/-- The next word. -/
def word (c : Cursor) : Except DecodeFault (Word × Cursor) :=
  match c.octets 32 with
  | .ok (bs, c') => .ok (Word.ofBytes bs, c')
  | .error e => .error e

/-- The next word as an offset, a count or a length: its low 64 bits. -/
def size (c : Cursor) : Except DecodeFault (Nat × Cursor) :=
  match c.word with
  | .ok (w, c') => .ok (w.toNat % 2 ^ (64 : Nat), c')
  | .error e => .error e

/-- A cursor on what follows `place` in the buffer; `place` may be the very end. -/
def child (c : Cursor) (place : Nat) : Except DecodeFault Cursor :=
  if maxDepth ≤ c.depth then .error .tooDeep
  else if place ≤ c.buffer.length then .ok ⟨c.buffer.drop place, 0, c.depth + 1⟩
  else .error .overrun

/-- A child at the place that the next word says. -/
def follow (c : Cursor) : Except DecodeFault (Cursor × Cursor) :=
  match c.size with
  | .error e => .error e
  | .ok (place, c') =>
    match c'.child place with
    | .ok inner => .ok (inner, c')
    | .error e => .error e

/-- A child at the place where the cursor stands. -/
def here (c : Cursor) : Except DecodeFault Cursor :=
  c.child c.offset

/-- The cursor moved behind what a child from `here` has read. -/
def skip (c inner : Cursor) : Cursor :=
  { c with offset := c.offset + inner.offset }

/-- Whole words from the offset to the end of the buffer. -/
def wordsLeft (c : Cursor) : Nat :=
  (c.buffer.length - c.offset) / 32

/-- The octets at the place that the next word says, behind their number. -/
def string (c : Cursor) : Except DecodeFault (Bytes × Cursor) :=
  match c.follow with
  | .error e => .error e
  | .ok (inner, c') =>
    match inner.size with
    | .error e => .error e
    | .ok (n, inner) =>
      match inner.octets n with
      | .ok (bs, _) => .ok (bs, c')
      | .error e => .error e

/-- `n` values, one behind the other. -/
def times {α : Type} (read : Cursor → Except DecodeFault (α × Cursor)) :
    Nat → Cursor → Except DecodeFault (List α × Cursor)
  | 0, c => .ok ([], c)
  | n + 1, c =>
    match read c with
    | .error e => .error e
    | .ok (x, c) =>
      match times read n c with
      | .ok (xs, c) => .ok (x :: xs, c)
      | .error e => .error e

/-- The values that `read` gives from the place of a tuple or an array of one length: in a child at
the place the next word says if the type is dynamic, and else where the cursor stands. -/
def enclosed {α : Type} (dynamic : Bool) (read : Cursor → Except DecodeFault (α × Cursor))
    (c : Cursor) : Except DecodeFault (α × Cursor) :=
  if dynamic then
    match c.follow with
    | .error e => .error e
    | .ok (inner, c') =>
      match read inner with
      | .ok (x, _) => .ok (x, c')
      | .error e => .error e
  else
    match c.here with
    | .error e => .error e
    | .ok inner =>
      match read inner with
      | .ok (x, inner) => .ok (x, c.skip inner)
      | .error e => .error e

/-- The values of an array of any length: in a child at the place the next word says, behind their
number.  `minWords` is what each of them needs at least. -/
def counted {α : Type} (minWords : Nat) (read : Cursor → Except DecodeFault (α × Cursor))
    (c : Cursor) : Except DecodeFault (List α × Cursor) :=
  match c.follow with
  | .error e => .error e
  | .ok (inner, c') =>
    match inner.size with
    | .error e => .error e
    | .ok (n, inner) =>
      if n = 0 then .ok ([], c')
      else
        match inner.here with
        | .error e => .error e
        | .ok body =>
          if body.wordsLeft < n * minWords then .error .overrun
          else
            match times read n body with
            | .ok (xs, _) => .ok (xs, c')
            | .error e => .error e

end Cursor

/-! ## Values -/

/-- Applies a function to what was read. -/
def readMap {α β : Type} (f : α → β) :
    Except DecodeFault (α × Cursor) → Except DecodeFault (β × Cursor)
  | .ok (x, c) => .ok (f x, c)
  | .error e => .error e

mutual

/-- Reads a value of a type where the cursor stands. -/
def AbiType.read : AbiType → Cursor → Except DecodeFault (AbiValue × Cursor)
  | .word t, c => readMap (fun w => .word (t.decode w)) c.word
  | .bytes, c => readMap .bytes c.string
  | .string, c => readMap (fun bs => .string (Utf8.decodeLossy bs)) c.string
  | .array t, c => readMap .array (c.counted t.minWords (AbiType.read t))
  | .fixedArray t n, c =>
    readMap .fixedArray (c.enclosed t.isDynamic (Cursor.times (AbiType.read t) n))
  | .tuple ts, c =>
    readMap .tuple (c.enclosed (AbiType.anyDynamic ts) (AbiType.readAll ts))

/-- Reads values of the types, one behind the other. -/
def AbiType.readAll : List AbiType → Cursor → Except DecodeFault (List AbiValue × Cursor)
  | [], c => .ok ([], c)
  | t :: ts, c =>
    match AbiType.read t c with
    | .error e => .error e
    | .ok (v, c) =>
      match AbiType.readAll ts c with
      | .ok (vs, c) => .ok (v :: vs, c)
      | .error e => .error e

end

/-- The values of the types in a payload.

If all the types are zero-sized there is nothing to decode and no value comes out.  Else the
payload has to have the words that the values need at least, before any of them is read. -/
def decodeSequence (ts : List AbiType) (data : Bytes) : Except DecodeFault (List AbiValue) :=
  if AbiType.allZeroSized ts then .ok []
  else if data.length / 32 < AbiType.sumMinWords ts then .error .overrun
  else
    match AbiType.readAll ts (Cursor.start data) with
    | .ok (vs, _) => .ok vs
    | .error e => .error e

end RollupBoundary.Abi
