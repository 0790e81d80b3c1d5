import Mathlib
import RollupBoundary.Wire.Value

/-!
# A value is read back from its octets

On a plain byte string a writer puts the octets of its value at the end (`WireValue.put_eq`), and
the reader of its kind takes just these octets from the front and gives the value back, whatever
comes behind them (`FieldKind.take_encode`).  How many octets they are depends on the kind alone,
and for a byte string on its length (`WireValue.length_encode`), so the place where each value of a
record begins can be told from the values before it (`startOf`).
-/

namespace RollupBoundary.Wire

/-! ## Parts -/

lemma takePart_append (part : Part) (bs rest : Bytes) :
    takePart part bs.length (bs ++ rest) = (.ok bs, rest) := by
  have hle : bs.length ≤ (bs ++ rest).length := by
    rw [List.length_append]
    omega
  simp only [takePart, ByteSource.take, if_pos hle, List.take_left, List.drop_left]

/-- The octets of a part are all that is read of it. -/
lemma takePart_eq_ok_iff {part : Part} {width : Nat} {s bs rest : Bytes} :
    takePart part width s = (.ok bs, rest) ↔ bs.length = width ∧ s = bs ++ rest := by
  constructor
  · intro h
    by_cases hwidth : width ≤ s.length
    · simp only [takePart, ByteSource.take, if_pos hwidth] at h
      cases h
      exact ⟨List.length_take_of_le hwidth, (List.take_append_drop width s).symm⟩
    · simp only [takePart, ByteSource.take, if_neg hwidth] at h
      cases h
  · rintro ⟨rfl, rfl⟩
    exact takePart_append part bs rest

/-- A part of which octets are missing uses up those that are there. -/
lemma takePart_of_lt {part : Part} {width : Nat} {s : Bytes} (h : s.length < width) :
    takePart part width s = (.error (.dataEnded part width), []) := by
  simp only [takePart, ByteSource.take, if_neg (Nat.not_le_of_lt h)]
  rfl

lemma putPart_eq (part : Part) (bs buffer : Bytes) :
    putPart part bs buffer = (.ok (), buffer ++ bs) := rfl

/-! ## Fields -/

lemma takeHash_append (w : Word) (rest : Bytes) :
    takeHash (w.toBytes ++ rest) = (.ok w, rest) := by
  have htake := takePart_append .hash w.toBytes rest
  rw [Word.length_toBytes] at htake
  rw [takeHash, hashWidth, htake]
  simp only [Except.map, Word.ofBytes_toBytes]

lemma takeAddress_append (a : Address) (rest : Bytes) :
    takeAddress (a.toBytes ++ rest) = (.ok a, rest) := by
  have htake := takePart_append .address a.toBytes rest
  rw [Address.length_toBytes] at htake
  rw [takeAddress, addressWidth, htake]
  simp only [Except.map, Address.ofBytes_toBytes]

/-- An address is read back from a word, with zeros before it or with anything else. -/
lemma takePaddedAddress_append {before : Bytes} (hbefore : before.length = padding) (a : Address)
    (rest : Bytes) : takePaddedAddress (before ++ a.toBytes ++ rest) = (.ok a, rest) := by
  have htake := takePart_append .paddedAddress (before ++ a.toBytes) rest
  rw [List.length_append, hbefore, Address.length_toBytes, padding] at htake
  rw [takePaddedAddress, paddedWidth, htake]
  simp only [Except.map, ← hbefore, List.drop_left, Address.ofBytes_toBytes]

lemma takeUInt64_append (n : UInt64) (rest : Bytes) :
    takeUInt64 (Bytes.ofNat uint64Width n.toNat ++ rest) = (.ok n, rest) := by
  have htake := takePart_append .uint64 (Bytes.ofNat uint64Width n.toNat) rest
  have hlt : n.toNat < 256 ^ uint64Width := n.toNat_lt
  rw [Bytes.length_ofNat] at htake
  rw [takeUInt64, htake]
  simp only [Except.map, Bytes.toNat_ofNat_of_lt hlt, UInt64.ofNat_toNat]

/-- The length of a byte string that can be held fits the number it is written as. -/
lemma lt_two_pow_of_lt {n : Nat} (h : n < memoryBound) : n < 2 ^ 64 :=
  h.trans (by decide)

/-- The length of a byte string that a reader admits fits the number it is written as. -/
lemma toNat_ofNat_length {bs : Bytes} {max : UInt64} (h : bs.length ≤ max.toNat) :
    (UInt64.ofNat bs.length).toNat = bs.length := by
  have hmax := max.toNat_lt
  rw [UInt64.toNat_ofNat', Nat.mod_eq_of_lt (by omega)]

/-- What a reader does once it has a length that it admits and that there can be room for. -/
lemma takeByteString_of_length {bs : Bytes} {max : UInt64} (h : bs.length ≤ max.toNat)
    (hroom : bs.length < memoryBound) (rest : Bytes) :
    takeByteString max (Bytes.ofNat uint64Width (UInt64.ofNat bs.length).toNat ++ rest) =
      takePart .byteString bs.length rest := by
  have hlength := toNat_ofNat_length h
  have hadmitted : ¬ max < UInt64.ofNat bs.length := by
    rw [UInt64.lt_iff_toNat_lt, hlength]
    omega
  rw [takeByteString, takeUInt64_append]
  simp only [if_neg hadmitted, hlength, if_neg (Nat.not_le_of_lt hroom)]

lemma takeByteString_append {bs : Bytes} {max : UInt64} (h : bs.length ≤ max.toNat)
    (hroom : bs.length < memoryBound) (rest : Bytes) :
    takeByteString max
      (Bytes.ofNat uint64Width (UInt64.ofNat bs.length).toNat ++ (bs ++ rest)) =
        (.ok bs, rest) := by
  rw [takeByteString_of_length h hroom, takePart_append]

/-- A byte string that is longer than the reader admits is left where it stands, behind its length. -/
lemma takeByteString_of_lt {bs : Bytes} {max : UInt64} (hbs : bs.length < 2 ^ 64)
    (h : max.toNat < bs.length) (rest : Bytes) :
    takeByteString max
      (Bytes.ofNat uint64Width (UInt64.ofNat bs.length).toNat ++ rest) =
        (.error (.tooLong (UInt64.ofNat bs.length) max), rest) := by
  have hexceeds : max < UInt64.ofNat bs.length := by
    rw [UInt64.lt_iff_toNat_lt, UInt64.toNat_ofNat', Nat.mod_eq_of_lt hbs]
    exact h
  rw [takeByteString, takeUInt64_append]
  simp only [if_pos hexceeds]

/-! ## Values -/

namespace WireValue

/-- Octets that a value takes on a stream. -/
def width : WireValue → Nat
  | .hash _ => 32
  | .address _ => 20
  | .paddedAddress _ => 32
  | .uint64 _ => 8
  | .byteString bs => 8 + bs.length

theorem length_encode (v : WireValue) : v.encode.length = v.width := by
  cases v <;> simp [encode, parts, width, padding, uint64Width]

theorem put_eq (v : WireValue) (buffer : Bytes) : v.put buffer = (.ok (), buffer ++ v.encode) := by
  cases v with
  | hash w => simp [put, putHash, putPart_eq, encode, parts]
  | address a => simp [put, putAddress, putPart_eq, encode, parts]
  | paddedAddress a => simp [put, putPaddedAddress, putAddress, putPart_eq, encode, parts]
  | uint64 n => simp [put, putUInt64, putPart_eq, encode, parts]
  | byteString bs => simp [put, putByteString, putUInt64, putPart_eq, encode, parts]

end WireValue

/-- The reader of its kind gives a value back from its octets, and leaves what comes behind. -/
theorem FieldKind.take_encode {v : WireValue} {kind : FieldKind} (h : v.fits kind)
    (rest : Bytes) : kind.take (v.encode ++ rest) = (.ok v, rest) := by
  cases v with
  | hash w =>
    cases kind with
    | hash => simp [take, WireValue.encode, WireValue.parts, takeHash_append, Except.map]
    | _ => exact absurd h id
  | address a =>
    cases kind with
    | address => simp [take, WireValue.encode, WireValue.parts, takeAddress_append, Except.map]
    | _ => exact absurd h id
  | paddedAddress a =>
    cases kind with
    | paddedAddress =>
      have hread := takePaddedAddress_append (Bytes.length_zeros padding) a rest
      rw [List.append_assoc] at hread
      simp [take, WireValue.encode, WireValue.parts, hread, Except.map]
    | _ => exact absurd h id
  | uint64 n =>
    cases kind with
    | uint64 => simp [take, WireValue.encode, WireValue.parts, takeUInt64_append, Except.map]
    | _ => exact absurd h id
  | byteString bs =>
    cases kind with
    | byteString max =>
      have hread : takeByteString max _ = (.ok bs, rest) := takeByteString_append h.1 h.2 rest
      simp only [take, WireValue.encode, WireValue.parts, List.flatMap_cons, List.flatMap_nil,
        List.append_nil, List.append_assoc, hread, Except.map]
    | _ => exact absurd h id

/-! ## Records -/

lemma FieldKind.takeAll_cons {σ : Type} [ByteSource σ] {kind : FieldKind}
    {s s' : σ} {result : Except StreamError WireValue} (hread : kind.take s = (result, s'))
    (hback : comesBack result = true) (kinds : List FieldKind) :
    takeAll (kind :: kinds) s = (result :: (takeAll kinds s').1, (takeAll kinds s').2) := by
  rw [takeAll, hread]
  simp only [hback, if_true]

/-- Nothing is read behind a read that does not come back. -/
lemma FieldKind.takeAll_cons_of_not_comesBack {σ : Type} [ByteSource σ] {kind : FieldKind}
    {s s' : σ} {result : Except StreamError WireValue} (hread : kind.take s = (result, s'))
    (hback : comesBack result = false) (kinds : List FieldKind) :
    takeAll (kind :: kinds) s = ([result], s') := by
  rw [takeAll, hread]
  simp only [hback, Bool.false_eq_true, if_false]

/-- Where the octets of the `k`-th value of a record begin. -/
def startOf (vs : List WireValue) (k : Nat) : Nat :=
  (encodeAll (vs.take k)).length

@[simp] lemma startOf_zero (vs : List WireValue) : startOf vs 0 = 0 := rfl

lemma encodeAll_cons (v : WireValue) (vs : List WireValue) :
    encodeAll (v :: vs) = v.encode ++ encodeAll vs :=
  List.flatMap_cons

lemma startOf_cons_succ (v : WireValue) (vs : List WireValue) (k : Nat) :
    startOf (v :: vs) (k + 1) = v.encode.length + startOf vs k := by
  rw [startOf, List.take_succ_cons, encodeAll_cons, List.length_append, startOf]

end RollupBoundary.Wire
