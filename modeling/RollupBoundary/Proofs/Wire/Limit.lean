import Mathlib
import RollupBoundary.Proofs.Wire.Reencoding

/-!
# The limit of a byte string only gates

A reader of byte strings is told the greatest length that it admits.  The limit decides whether a
byte string is read, and nothing about how: what a lower limit lets through, be it a byte string or
a failure, comes out the same under a higher one, from any source (`takeByteString_eq_of_le`).

A refusal says which length stands in front and which limit refused it
(`takeByteString_eq_tooLong_iff`), and it is the only answer in which the limit occurs.  On a plain
byte string the length is the number of the first eight octets (`takeUInt64_eq_ok_iff_take`), so the
answers can be told from the octets (`takeByteString_limit`).

One length gets no answer.  The limit may admit a length that no byte string can have, and then the
program stops with the length read and nothing else (`takeByteString_eq_outOfRoom_iff`), under this
limit as under any higher one.
-/

namespace RollupBoundary.Wire

/-! ## Any source -/

section Sources

variable {σ : Type} [ByteSource σ] {s rest : σ} {declared low high max limit : UInt64}

/-- A part that is not read has failed as its source did: it has a width of its own, and no length
that could be refused or be too much to hold. -/
lemma exists_readFailure {part : Part} {width : Nat} {e : StreamError}
    (h : (takePart part width s).1 = .error e) : ∃ failure, e = .ofReadFailure part width failure := by
  rw [takePart] at h
  split at h
  · cases h
  · next failure _ _ =>
    cases h
    exact ⟨failure, rfl⟩

lemma takePart_ne_tooLong (part : Part) (width : Nat) (s : σ) :
    (takePart part width s).1 ≠ .error (.tooLong declared max) := by
  intro h
  obtain ⟨failure, hfailure⟩ := exists_readFailure h
  cases failure <;> cases hfailure

lemma takePart_ne_outOfRoom (part : Part) (width : Nat) (s : σ) :
    (takePart part width s).1 ≠ .error (.outOfRoom declared) := by
  intro h
  obtain ⟨failure, hfailure⟩ := exists_readFailure h
  cases failure <;> cases hfailure

/-- A number that is not read fails as its part does. -/
lemma takePart_of_takeUInt64_error {e : StreamError} (h : takeUInt64 s = (.error e, rest)) :
    (takePart .uint64 uint64Width s).1 = .error e := by
  rw [takeUInt64] at h
  rcases hpart : takePart .uint64 uint64Width s with ⟨failure | bs, s'⟩
  · rw [hpart] at h
    cases h
    rfl
  · rw [hpart] at h
    cases h

/-- What a reader does once it has the length. -/
lemma takeByteString_of_takeUInt64 (h : takeUInt64 s = (.ok declared, rest)) :
    takeByteString limit s = if limit < declared then (.error (.tooLong declared limit), rest)
      else if memoryBound ≤ declared.toNat then (.error (.outOfRoom declared), rest)
      else takePart .byteString declared.toNat rest := by
  rw [takeByteString, h]

/-- Without a length nothing is asked of the limit. -/
lemma takeByteString_of_takeUInt64_error {e : StreamError}
    (h : takeUInt64 s = (.error e, rest)) : takeByteString limit s = (.error e, rest) := by
  rw [takeByteString, h]

/-- A length is refused by the limit that it exceeds, before anything behind it is read. -/
theorem takeByteString_eq_tooLong_iff :
    takeByteString limit s = (.error (.tooLong declared max), rest) ↔
      max = limit ∧ limit < declared ∧ takeUInt64 s = (.ok declared, rest) := by
  constructor
  · intro h
    rcases hlength : takeUInt64 s with ⟨e | length, s'⟩
    · rw [takeByteString_of_takeUInt64_error hlength] at h
      cases h
      exact absurd (takePart_of_takeUInt64_error hlength) (takePart_ne_tooLong .uint64 _ s)
    · rw [takeByteString_of_takeUInt64 hlength] at h
      split at h
      · next hlt =>
        cases h
        exact ⟨rfl, hlt, rfl⟩
      · split at h
        · cases h
        · exact absurd (congrArg Prod.fst h) (takePart_ne_tooLong .byteString _ s')
  · rintro ⟨rfl, hlt, hlength⟩
    rw [takeByteString_of_takeUInt64 hlength, if_pos hlt]

/-- A length for which there can be no room stops the program if the limit admits it, before
anything behind it is read. -/
theorem takeByteString_eq_outOfRoom_iff :
    takeByteString limit s = (.error (.outOfRoom declared), rest) ↔
      declared ≤ limit ∧ memoryBound ≤ declared.toNat ∧ takeUInt64 s = (.ok declared, rest) := by
  constructor
  · intro h
    rcases hlength : takeUInt64 s with ⟨e | length, s'⟩
    · rw [takeByteString_of_takeUInt64_error hlength] at h
      cases h
      exact absurd (takePart_of_takeUInt64_error hlength) (takePart_ne_outOfRoom .uint64 _ s)
    · rw [takeByteString_of_takeUInt64 hlength] at h
      split at h
      · cases h
      · next hadmitted =>
        split at h
        · next hroom =>
          cases h
          exact ⟨UInt64.not_lt.1 hadmitted, hroom, rfl⟩
        · exact absurd (congrArg Prod.fst h) (takePart_ne_outOfRoom .byteString _ s')
  · rintro ⟨hadmitted, hroom, hlength⟩
    rw [takeByteString_of_takeUInt64 hlength, if_neg (UInt64.not_lt.2 hadmitted), if_pos hroom]

/-- That a read from a source refuses the length of a byte string. -/
def Refuses (limit : UInt64) (s : σ) : Prop :=
  ∃ declared max, (takeByteString limit s).1 = .error (.tooLong declared max)

lemma refuses_iff : Refuses limit s ↔ ∃ declared rest, limit < declared ∧
    takeUInt64 s = (.ok declared, rest) := by
  constructor
  · rintro ⟨declared, max, h⟩
    obtain ⟨-, hlt, hlength⟩ := takeByteString_eq_tooLong_iff.1 (Prod.ext h rfl)
    exact ⟨declared, _, hlt, hlength⟩
  · rintro ⟨declared, rest, hlt, hlength⟩
    exact ⟨declared, limit,
      congrArg Prod.fst (takeByteString_eq_tooLong_iff.2 ⟨rfl, hlt, hlength⟩)⟩

/-- What a limit does not refuse is read alike under any higher one. -/
theorem takeByteString_eq_of_le (hle : low ≤ high) (h : ¬ Refuses low s) :
    takeByteString high s = takeByteString low s := by
  rcases hlength : takeUInt64 s with ⟨e | declared, rest⟩
  · rw [takeByteString_of_takeUInt64_error hlength, takeByteString_of_takeUInt64_error hlength]
  · have hlow : ¬ low < declared := fun hlt => h (refuses_iff.2 ⟨declared, rest, hlt, hlength⟩)
    have hhigh : ¬ high < declared := fun hlt => hlow (UInt64.lt_of_le_of_lt hle hlt)
    rw [takeByteString_of_takeUInt64 hlength, takeByteString_of_takeUInt64 hlength, if_neg hlow,
      if_neg hhigh]

end Sources

/-! ## Octets -/

/-- The length at the front of some octets is the number of the first eight. -/
lemma takeUInt64_eq_ok_iff_take {s rest : Bytes} {n : UInt64} :
    takeUInt64 s = (.ok n, rest) ↔
      8 ≤ s.length ∧ Bytes.toNat (s.take 8) = n.toNat ∧ rest = s.drop 8 := by
  have hwidth : (Bytes.ofNat uint64Width n.toNat).length = 8 := Bytes.length_ofNat 8 _
  rw [takeUInt64_eq_ok_iff]
  constructor
  · rintro rfl
    have hlt : n.toNat < 256 ^ uint64Width := n.toNat_lt
    rw [List.take_left' hwidth, List.drop_left' hwidth, Bytes.toNat_ofNat_of_lt hlt]
    refine ⟨?_, rfl, rfl⟩
    rw [List.length_append, hwidth]
    exact Nat.le_add_right 8 _
  · rintro ⟨hlength, hnumber, rfl⟩
    have hfront := Bytes.ofNat_toNat (s.take 8)
    rw [List.length_take_of_le hlength, hnumber] at hfront
    rw [uint64Width, hfront, List.take_append_drop]

/-- A byte string is read if it is wholly there behind its length and the limit admits it. -/
lemma takeByteString_eq_ok_iff_drop {s bs rest : Bytes} {limit : UInt64} :
    takeByteString limit s = (.ok bs, rest) ↔ 8 ≤ s.length ∧
      Bytes.toNat (s.take 8) = bs.length ∧ bs.length ≤ limit.toNat ∧ bs.length < memoryBound ∧
        s.drop 8 = bs ++ rest := by
  rw [takeByteString_eq_ok_iff]
  constructor
  · rintro ⟨hle, hroom, hs⟩
    obtain ⟨hlength, hfront, hbehind⟩ :=
      takeUInt64_eq_ok_iff_take.1 (takeUInt64_eq_ok_iff.2 hs)
    exact ⟨hlength, hfront.trans (toNat_ofNat_length hle), hle, hroom, hbehind.symm⟩
  · rintro ⟨hlength, hfront, hle, hroom, hbehind⟩
    refine ⟨hle, hroom, takeUInt64_eq_ok_iff.1 (takeUInt64_eq_ok_iff_take.2 ?_)⟩
    exact ⟨hlength, hfront.trans (toNat_ofNat_length hle).symm, hbehind.symm⟩

/-- Of two limits, the lower one refuses more and changes nothing else.

What the lower limit does not refuse comes out the same under the higher one, with the same left
unread, from octets as from any other source.  It refuses if eight octets are there whose number is
greater than the limit; then just these are used up, and the higher limit refuses too if the number
exceeds it as well.  A byte string is given if the octets behind its length begin with it, and its
length is the number in front, within the limit, and one that a byte string can have.  If the number
is within the limit and no byte string has such a length, the program stops. -/
theorem takeByteString_limit {low high : UInt64} (hle : low ≤ high) :
    (∀ {σ : Type} [ByteSource σ] (s : σ),
      ¬ Refuses low s → takeByteString high s = takeByteString low s) ∧
    ∀ s : Bytes,
      (∀ declared max rest,
        takeByteString low s = (.error (.tooLong declared max), rest) ↔
          max = low ∧ low < declared ∧ 8 ≤ s.length ∧
            Bytes.toNat (s.take 8) = declared.toNat ∧ rest = s.drop 8) ∧
      (∀ declared max, (takeByteString low s).1 = .error (.tooLong declared max) →
        (Refuses high s ↔ high < declared)) ∧
      (∀ limit bs rest,
        takeByteString limit s = (.ok bs, rest) ↔ 8 ≤ s.length ∧
          Bytes.toNat (s.take 8) = bs.length ∧ bs.length ≤ limit.toNat ∧
            bs.length < memoryBound ∧ s.drop 8 = bs ++ rest) ∧
      ∀ limit declared rest,
        takeByteString limit s = (.error (.outOfRoom declared), rest) ↔
          declared ≤ limit ∧ memoryBound ≤ declared.toNat ∧ 8 ≤ s.length ∧
            Bytes.toNat (s.take 8) = declared.toNat ∧ rest = s.drop 8 := by
  refine ⟨fun s => takeByteString_eq_of_le hle, fun s => ⟨fun declared max rest => ?_,
    fun declared max h => ?_, fun limit bs rest => takeByteString_eq_ok_iff_drop,
    fun limit declared rest => ?_⟩⟩
  · rw [takeByteString_eq_tooLong_iff, takeUInt64_eq_ok_iff_take]
  · obtain ⟨-, -, hlength⟩ := takeByteString_eq_tooLong_iff.1 (Prod.ext h rfl)
    rw [refuses_iff]
    constructor
    · rintro ⟨length, rest, hlt, hread⟩
      rw [hlength] at hread
      cases hread
      exact hlt
    · intro hlt
      exact ⟨declared, _, hlt, hlength⟩
  · rw [takeByteString_eq_outOfRoom_iff, takeUInt64_eq_ok_iff_take]

/-- The greatest length there is, with no octet of its payload behind it. -/
def longestLength : Bytes :=
  List.replicate 8 0xff

/-- The greatest length is refused by the least limit and by the last one below it, and stops the
program under the limit that admits it.  A byte string as long as the limit is read. -/
theorem longestLength_limit :
    (0 : UInt64) ≤ 18446744073709551614 ∧
      takeByteString 0 longestLength = (.error (.tooLong 18446744073709551615 0), []) ∧
      Refuses 18446744073709551614 longestLength ∧
      takeByteString 18446744073709551615 longestLength =
        (.error (.outOfRoom 18446744073709551615), []) ∧
      takeByteString 2 ([0, 0, 0, 0, 0, 0, 0, 2, 7, 8, 9] : Bytes) = (.ok [7, 8], [9]) := by
  have hle : (0 : UInt64) ≤ 18446744073709551614 := by decide
  obtain ⟨-, hoctets⟩ := takeByteString_limit hle
  obtain ⟨hrefused, hhigher, -, hstops⟩ := hoctets longestLength
  obtain ⟨-, -, hread, -⟩ := hoctets [0, 0, 0, 0, 0, 0, 0, 2, 7, 8, 9]
  have hzero : takeByteString 0 longestLength =
      (.error (.tooLong 18446744073709551615 0), []) :=
    (hrefused _ _ _).2 (by decide)
  exact ⟨hle, hzero, (hhigher _ _ (congrArg Prod.fst hzero)).2 (by decide),
    (hstops _ _ _).2 (by decide), (hread 2 [7, 8] [9]).2 (by decide)⟩

end RollupBoundary.Wire
