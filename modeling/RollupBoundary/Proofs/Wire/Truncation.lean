import Mathlib
import RollupBoundary.Proofs.Wire.Value

/-!
# A record that is cut short

A stream may end in the middle of a record.  Wherever it ends, the values that are wholly there are
read as they were written, and the first one that is not gives a short read that names the part in
which the data ended and the octets asked for (`takeAll_of_isPrefix`).  For a byte string this is its
length or its payload, depending on which of the two is cut (`WireValue.cutPart`).

One step says it all (`FieldKind.take_of_isPrefix`): on octets that are cut out of a value and what
comes behind it, the reader gives the value or the short read, and leaves what is behind the value.
Nothing is behind a value that is cut, so all later reads end in their first part.
-/

namespace RollupBoundary.Wire

/-! ## A value that is cut -/

/-- The part in which the data ends if only the first `n` octets of a value are there, and the
octets that make up this part. -/
def WireValue.cutPart : WireValue → Nat → Part × Nat
  | .hash _, _ => (.hash, 32)
  | .address _, _ => (.address, 20)
  | .paddedAddress _, _ => (.paddedAddress, 32)
  | .uint64 _, _ => (.uint64, 8)
  | .byteString bs, n => if n < 8 then (.uint64, 8) else (.byteString, bs.length)

/-- The short read of a value of which only the first `n` octets are there. -/
def WireValue.cutError (v : WireValue) (n : Nat) : StreamError :=
  .dataEnded (v.cutPart n).1 (v.cutPart n).2

lemma takeUInt64_of_lt {s : Bytes} (h : s.length < 8) :
    takeUInt64 s = (.error (.dataEnded .uint64 8), []) := by
  rw [takeUInt64, takePart_of_lt (show s.length < uint64Width from h)]
  rfl

/-- The length of a byte string may be cut, or else its payload. -/
lemma takeByteString_of_isPrefix {bs p : Bytes} {max : UInt64} (hadmitted : bs.length ≤ max.toNat)
    (hroom : bs.length < memoryBound) (hstarts : p <+: (WireValue.byteString bs).encode)
    (hlt : p.length < (WireValue.byteString bs).encode.length) :
    takeByteString max p = (.error ((WireValue.byteString bs).cutError p.length), []) := by
  rw [WireValue.cutError, WireValue.cutPart]
  by_cases hlength : p.length < 8
  · rw [takeByteString, takeUInt64_of_lt hlength, if_pos hlength]
  · have hencode : (WireValue.byteString bs).encode =
        Bytes.ofNat uint64Width (UInt64.ofNat bs.length).toNat ++ bs := by
      simp [WireValue.encode, WireValue.parts]
    have hwidth : (Bytes.ofNat uint64Width (UInt64.ofNat bs.length).toNat).length ≤ p.length := by
      rw [Bytes.length_ofNat, uint64Width]
      omega
    -- The length is all there, and what follows it is the front of the payload.
    obtain ⟨payload, rfl⟩ := List.prefix_of_prefix_length_le
      (hencode ▸ List.prefix_append _ bs) hstarts hwidth
    have hcut : payload.length < bs.length := by
      rw [hencode, List.length_append, List.length_append] at hlt
      omega
    rw [takeByteString_of_length hadmitted hroom, takePart_of_lt hcut, if_neg hlength]

/-- A value that is not wholly there is a short read, which uses up what is there of it. -/
lemma FieldKind.take_of_lt {v : WireValue} {kind : FieldKind} (hfits : v.fits kind) {p : Bytes}
    (hstarts : p <+: v.encode) (hlt : p.length < v.encode.length) :
    kind.take p = (.error (v.cutError p.length), []) := by
  have hwidth := hlt
  rw [WireValue.length_encode] at hwidth
  cases v with
  | hash w =>
    cases kind with
    | hash =>
      rw [take, takeHash, takePart_of_lt (show p.length < hashWidth from hwidth)]
      rfl
    | _ => exact absurd hfits id
  | address a =>
    cases kind with
    | address =>
      rw [take, takeAddress, takePart_of_lt (show p.length < addressWidth from hwidth)]
      rfl
    | _ => exact absurd hfits id
  | paddedAddress a =>
    cases kind with
    | paddedAddress =>
      rw [take, takePaddedAddress, takePart_of_lt (show p.length < paddedWidth from hwidth)]
      rfl
    | _ => exact absurd hfits id
  | uint64 n =>
    cases kind with
    | uint64 =>
      rw [take, takeUInt64_of_lt hwidth]
      rfl
    | _ => exact absurd hfits id
  | byteString bs =>
    cases kind with
    | byteString max =>
      rw [take, takeByteString_of_isPrefix hfits.1 hfits.2 hstarts hlt]
      rfl
    | _ => exact absurd hfits id

/-- What a read from the front of some octets comes to that begin with a value. -/
theorem FieldKind.take_of_isPrefix {v : WireValue} {kind : FieldKind} (hfits : v.fits kind)
    {p others : Bytes} (hstarts : p <+: v.encode ++ others) :
    kind.take p =
      (if v.encode.length ≤ p.length then .ok v else .error (v.cutError p.length),
        p.drop v.encode.length) := by
  split
  · next hwhole =>
    obtain ⟨behind, rfl⟩ :=
      List.prefix_of_prefix_length_le (List.prefix_append v.encode others) hstarts hwhole
    rw [take_encode hfits, List.drop_left]
  · next hcut =>
    have hfront : p <+: v.encode :=
      List.prefix_of_prefix_length_le hstarts (List.prefix_append v.encode others) (by omega)
    rw [take_of_lt hfits hfront (by omega), List.drop_of_length_le (by omega)]

/-! ## A record that is cut -/

variable {vs : List WireValue} {kinds : List FieldKind} {p : Bytes}

lemma isPrefix_drop {v : WireValue} (hstarts : p <+: encodeAll (v :: vs)) :
    p.drop v.encode.length <+: encodeAll vs := by
  have hdrop := hstarts.drop v.encode.length
  rwa [encodeAll_cons, List.drop_left] at hdrop

lemma startOf_succ {k : Nat} {v : WireValue} (hv : vs[k]? = some v) :
    startOf vs (k + 1) = startOf vs k + v.encode.length := by
  rw [startOf, List.take_add_one, hv, Option.toList_some, encodeAll, List.flatMap_append,
    List.flatMap_singleton, List.length_append, startOf, encodeAll]

lemma WireValue.length_encode_pos (v : WireValue) : 0 < v.encode.length := by
  rw [length_encode]
  cases v <;> simp only [width] <;> omega

/-- The first read from the front of a record comes back, and the others go on behind its value. -/
lemma takeAll_cons_of_isPrefix {v : WireValue} {kind : FieldKind} (hfits : v.fits kind)
    (kinds : List FieldKind) (hstarts : p <+: encodeAll (v :: vs)) :
    let others := FieldKind.takeAll kinds (p.drop v.encode.length)
    FieldKind.takeAll (kind :: kinds) p =
      ((if v.encode.length ≤ p.length then .ok v else .error (v.cutError p.length)) :: others.1,
        others.2) := by
  have htake := FieldKind.take_of_isPrefix hfits (encodeAll_cons v vs ▸ hstarts)
  refine FieldKind.takeAll_cons htake ?_ kinds
  split <;> rfl

/-- What each read from the front of a record comes to. -/
lemma getElem?_takeAll_of_isPrefix (hfits : List.Forall₂ WireValue.fits vs kinds)
    (hstarts : p <+: encodeAll vs) {i : Nat} {v : WireValue} (hv : vs[i]? = some v) :
    (FieldKind.takeAll kinds p).1[i]? = some (if startOf vs (i + 1) ≤ p.length then .ok v
      else .error (v.cutError (p.length - startOf vs i))) := by
  induction hfits generalizing p i with
  | nil => cases hv
  | @cons u kind vs kinds hfits _ ih =>
    have hothers := isPrefix_drop hstarts
    rw [takeAll_cons_of_isPrefix hfits kinds hstarts]
    cases i with
    | zero =>
      obtain rfl : u = v := Option.some.inj hv
      simp only [List.getElem?_cons_zero, startOf_cons_succ, startOf_zero, Nat.add_zero,
        Nat.sub_zero]
    | succ i =>
      have hv : vs[i]? = some v := hv
      have hread := ih hothers hv
      have hpos : 0 < startOf vs (i + 1) := by
        rw [startOf_succ hv]
        exact Nat.add_pos_right _ v.length_encode_pos
      simp only [List.getElem?_cons_succ, hread, List.length_drop, startOf_cons_succ u]
      congr 2
      · rw [eq_iff_iff]
        omega
      · congr 2
        omega

/-- What is unread behind some reads from the front of a record. -/
lemma takeAll_take_of_isPrefix (hfits : List.Forall₂ WireValue.fits vs kinds)
    (hstarts : p <+: encodeAll vs) (j : Nat) :
    (FieldKind.takeAll (kinds.take j) p).2 = p.drop (startOf vs j) := by
  induction hfits generalizing p j with
  | nil => simp [FieldKind.takeAll, startOf, encodeAll]
  | @cons u kind vs kinds hfits _ ih =>
    cases j with
    | zero => rfl
    | succ j =>
      have hothers := isPrefix_drop hstarts
      rw [List.take_succ_cons, takeAll_cons_of_isPrefix hfits _ hstarts, startOf_cons_succ,
        ← List.drop_drop, ← ih hothers]

lemma length_takeAll_of_isPrefix (hfits : List.Forall₂ WireValue.fits vs kinds)
    (hstarts : p <+: encodeAll vs) :
    (FieldKind.takeAll kinds p).1.length = vs.length := by
  induction hfits generalizing p with
  | nil => rfl
  | @cons u kind vs kinds hfits _ ih =>
    rw [takeAll_cons_of_isPrefix hfits kinds hstarts, List.length_cons, List.length_cons,
      ih (isPrefix_drop hstarts)]

/-- Of some value the octets are missing from a place on, and those of the values before it are
there. -/
lemma exists_cut (hlt : p.length < (encodeAll vs).length) :
    ∃ k v, vs[k]? = some v ∧ startOf vs k ≤ p.length ∧ p.length < startOf vs (k + 1) := by
  have hend : ∃ j, p.length < startOf vs j :=
    ⟨vs.length, by rwa [startOf, List.take_length]⟩
  obtain ⟨k, hk⟩ : ∃ k, Nat.find hend = k + 1 := by
    refine Nat.exists_eq_succ_of_ne_zero fun hzero => ?_
    have hfind := Nat.find_spec hend
    rw [hzero, startOf_zero] at hfind
    exact Nat.not_lt_zero _ hfind
  have hbefore : startOf vs k ≤ p.length :=
    Nat.le_of_not_lt (Nat.find_min hend (by omega))
  have hbehind : p.length < startOf vs (k + 1) := hk ▸ Nat.find_spec hend
  have hplace : k < vs.length := by
    by_contra hbeyond
    rw [startOf, List.take_of_length_le (by omega)] at hbefore
    omega
  exact ⟨k, vs[k], List.getElem?_eq_getElem hplace, hbefore, hbehind⟩

/-- A record that is cut short is read up to the value that is cut.

Let the octets be the front of those of a record, but not all of them.  Read field by field, each
value that is wholly there comes back as it was written.  One value is the first that is not, and it
gives a short read of the part in which the data ended, as does any later one of its first part.  No
octets are unread then. -/
theorem takeAll_of_isPrefix (hfits : List.Forall₂ WireValue.fits vs kinds)
    (hstarts : p <+: encodeAll vs) (hcut : p ≠ encodeAll vs) :
    let results := (FieldKind.takeAll kinds p).1
    (results.length = vs.length ∧
      ∀ i v, vs[i]? = some v → startOf vs (i + 1) ≤ p.length → results[i]? = some (.ok v)) ∧
    (∃ k v, vs[k]? = some v ∧ startOf vs k ≤ p.length ∧ p.length < startOf vs (k + 1) ∧
      results[k]? = some (.error (v.cutError (p.length - startOf vs k)))) ∧
    ∀ i v, vs[i]? = some v → p.length < startOf vs (i + 1) →
      results[i]? = some (.error (v.cutError (p.length - startOf vs i))) ∧
        (FieldKind.takeAll (kinds.take (i + 1)) p).2 = [] := by
  intro results
  have hlt : p.length < (encodeAll vs).length :=
    lt_of_le_of_ne hstarts.length_le fun hlength => hcut (hstarts.eq_of_length hlength)
  have hmissing : ∀ i v, vs[i]? = some v → p.length < startOf vs (i + 1) →
      results[i]? = some (.error (v.cutError (p.length - startOf vs i))) := by
    intro i v hv hlt
    exact (getElem?_takeAll_of_isPrefix hfits hstarts hv).trans (by rw [if_neg (by omega)])
  refine ⟨⟨length_takeAll_of_isPrefix hfits hstarts, fun i v hv hwhole => ?_⟩, ?_,
    fun i v hv hlt => ⟨hmissing i v hv hlt, ?_⟩⟩
  · exact (getElem?_takeAll_of_isPrefix hfits hstarts hv).trans (by rw [if_pos hwhole])
  · obtain ⟨k, v, hv, hbefore, hbehind⟩ := exists_cut hlt
    exact ⟨k, v, hv, hbefore, hbehind, hmissing k v hv hbehind⟩
  · rw [takeAll_take_of_isPrefix hfits hstarts, List.drop_of_length_le (by omega)]

/-- A byte string without a payload, a hash, and a byte string of three octets. -/
def shortRecord : List WireValue :=
  [.byteString [], .hash 1, .byteString [1, 2, 3]]

/-- The record without its last octet ends in the payload of the second byte string. -/
theorem shortRecord_takeAll :
    let p := (encodeAll shortRecord).take 50
    let kinds : List FieldKind := [.byteString 0, .hash, .byteString 9]
    List.Forall₂ WireValue.fits shortRecord kinds ∧ p <+: encodeAll shortRecord ∧
      p ≠ encodeAll shortRecord ∧
      (FieldKind.takeAll kinds p).1[1]? = some (.ok (.hash 1)) ∧
      (FieldKind.takeAll kinds p).1[2]? = some (.error (.dataEnded .byteString 3)) := by
  intro p kinds
  have hfits : List.Forall₂ WireValue.fits shortRecord kinds := by
    simp [shortRecord, kinds, WireValue.fits, memoryBound]
  have hstarts : p <+: encodeAll shortRecord := List.take_prefix 50 _
  have hcut : p ≠ encodeAll shortRecord := by
    decide
  obtain ⟨⟨-, hwhole⟩, -, hmissing⟩ := takeAll_of_isPrefix hfits hstarts hcut
  exact ⟨hfits, hstarts, hcut, hwhole 1 _ rfl (by decide), (hmissing 2 _ rfl (by decide)).1⟩

end RollupBoundary.Wire
