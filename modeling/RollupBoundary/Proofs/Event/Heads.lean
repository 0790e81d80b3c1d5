import Mathlib
import RollupBoundary.Proofs.Event.Fieldwise

/-!
# Where the head of a field is looked for

The check at the head of a field does not follow the decoder.  It counts the words in the heads of
the fields before it (`AbiType.headOffsets`), and takes the word that stands behind so many of them.
The decoder has no such count: it stands wherever the fields before it have left it.

The two agree for every type.  A value that is read moves the decoder on by just the words that its
type counts in the head, wherever the rest of the value is (`advance_of_read`), so the decoder comes
to each field at the offset of its head (`headOffset_of_readAll`).  A field of one word is therefore
checked on the word that its value is read from, and never goes unchecked (`headsAreRead`).

The count of words is one of 64 bits and wraps, so the offset of a field behind a very long array may
be that of another field.  This does no harm, since there is no data in which the decoder gets past
such an array: in all data that memory can hold it comes to each field at its offset, or not at all.
-/

namespace RollupBoundary

open Abi

/-! ## Reading up to a place -/

namespace Abi

variable {ts : List AbiType} {j : Nat} {t : AbiType}

/-- The head of each type begins behind the words in the heads of those before it, as far as they
can be counted. -/
lemma getElem?_headOffsets (start : UInt64) (ht : ts[j]? = some t) :
    (AbiType.headOffsets start ts)[j]? =
      some ((start.toNat + 32 * AbiType.wordsInHeads (ts.take j)) % 2 ^ 64) := by
  induction ts generalizing start j with
  | nil => cases ht
  | cons s ts ih =>
    cases j with
    | zero =>
      rw [List.take_zero, AbiType.wordsInHeads, Nat.mul_zero, Nat.add_zero,
        Nat.mod_eq_of_lt start.toNat_lt]
      rfl
    | succ j =>
      rw [AbiType.headOffsets, List.getElem?_cons_succ, ih _ ht, AbiType.toNat_add_headWords,
        List.take_succ_cons, AbiType.wordsInHeads, Nat.mod_add_mod, Nat.mul_add, Nat.add_assoc]

/-- Behind an array that is too long to be counted the next head gets the offset of the array. -/
example : AbiType.headOffsets 0 [.fixedArray (.word (.uint .word)) (2 ^ 59), .word .bool] = [0, 0] :=
  rfl

/-- Behind the values before a place the decoder stands at the head that belongs there. -/
lemma headOffset_of_readAll {us : List AbiValue} {start : UInt64} {c d : Cursor}
    (hstart : start.toNat = c.offset) (hsmall : c.buffer.length < 2 ^ 64) (ht : ts[j]? = some t)
    (h : AbiType.readAll (ts.take j) c = .ok (us, d)) :
    (AbiType.headOffsets start ts)[j]? = some d.offset ∧ d.buffer = c.buffer ∧
      d.depth = c.depth := by
  induction ts generalizing j us start c with
  | nil => cases ht
  | cons s ts ih =>
    cases j with
    | zero =>
      cases h
      exact ⟨congrArg some hstart, rfl, rfl⟩
    | succ j =>
      rw [List.take_succ_cons, Cursor.readAll_cons, Cursor.andThen_eq_ok_iff] at h
      obtain ⟨v, vs, c', hread, hothers, -⟩ := h
      obtain ⟨rfl, hreaches⟩ := advance_of_read hread
      have hnext := AbiType.toNat_add_headWords_of_le hstart hsmall hreaches
      exact @ih _ _ _ (c.advance (32 * s.wordsInHead)) hnext hsmall ht hothers

/-- In a buffer that memory can hold a value that is read moves the cursor on by the words that are
counted. -/
lemma advance_headWords_of_read {c c' : Cursor} {v : AbiValue} (hsmall : c.buffer.length < 2 ^ 64)
    (h : t.read c = .ok (v, c')) : c' = c.advance (32 * t.headWords.toNat) := by
  obtain ⟨rfl, hreaches⟩ := advance_of_read h
  rw [Cursor.Reaches] at hreaches
  rw [AbiType.toNat_headWords, Nat.mod_eq_of_lt (by omega)]

/-- Each of some values is read where the values before it have left the decoder. -/
lemma exists_read_of_readAll {vs : List AbiValue} {c c' : Cursor}
    (h : AbiType.readAll ts c = .ok (vs, c')) (ht : ts[j]? = some t) :
    ∃ us d v d', AbiType.readAll (ts.take j) c = .ok (us, d) ∧ t.read d = .ok (v, d') ∧
      vs[j]? = some v := by
  induction ts generalizing j vs c with
  | nil => cases ht
  | cons s ts ih =>
    rw [Cursor.readAll_cons, Cursor.andThen_eq_ok_iff] at h
    obtain ⟨v, vs, c'', hread, hothers, rfl⟩ := h
    cases j with
    | zero =>
      cases ht
      exact ⟨[], c, v, c'', rfl, hread, rfl⟩
    | succ j =>
      obtain ⟨us, d, u, d', hbefore, hu, hplace⟩ := ih hothers ht
      refine ⟨v :: us, d, u, d', ?_, hu, hplace⟩
      rw [List.take_succ_cons, Cursor.readAll_cons]
      exact Cursor.andThen_eq_ok_iff.2 ⟨v, us, c'', hread, hbefore, rfl⟩

lemma allZeroSized_eq_all (ts : List AbiType) :
    AbiType.allZeroSized ts = ts.all AbiType.isZeroSized := by
  induction ts with
  | nil => rfl
  | cons t ts ih => rw [AbiType.allZeroSized, ih, List.all_cons]

lemma allZeroSized_of_getElem? {w : WordType} (ht : ts[j]? = some (.word w)) :
    AbiType.allZeroSized ts = false := by
  rw [allZeroSized_eq_all, List.all_eq_false]
  exact ⟨.word w, List.mem_of_getElem? ht, Bool.false_ne_true⟩

/-- A payload that is not empty for want of anything to decode is read from its start. -/
lemma exists_readAll_of_decodeSequence {data : Bytes} {vs : List AbiValue}
    (hsized : AbiType.allZeroSized ts = false) (h : decodeSequence ts data = .ok vs) :
    ∃ c, AbiType.readAll ts (Cursor.start data) = .ok (vs, c) := by
  rw [decodeSequence, hsized, if_neg Bool.false_ne_true] at h
  split at h
  · cases h
  · split at h <;> cases h
    next c hread => exact ⟨c, hread⟩

end Abi

/-! ## Fields in the data -/

namespace EventSchema

/-- That the decoder comes to the `j`-th field in the data on a cursor, once it has read those before
it from the start of the data. -/
def ComesTo (s : EventSchema) (data : Bytes) (j : Nat) (c : Cursor) : Prop :=
  ∃ us, AbiType.readAll (s.dataTypes.take j) (Cursor.start data) = .ok (us, c)

/-- The word at an offset in the data. -/
def wordAt (data : Bytes) (offset : Nat) : Word :=
  Word.ofBytes ((data.drop offset).take 32)

/-- That the head of the `j`-th field in the data is at an offset: the decoder comes to the field
there, whatever the data is, and it does come to it if the data can be unpacked.  If the field is of
one word, its value is then that of the word there, within the data, and this word is checked. -/
structure HeadIsAt (s : EventSchema) (data : Bytes) (j : Nat) (f : EventField) (offset : Nat) :
    Prop where
  comesTo : ∀ c, s.ComesTo data j c → c = ⟨data, offset, 0⟩
  reached : ∀ vs, AbiType.allZeroSized s.dataTypes = false →
    decodeSequence s.dataTypes data = .ok vs → s.ComesTo data j ⟨data, offset, 0⟩
  reads : ∀ vs t, decodeSequence s.dataTypes data = .ok vs → f.type = .word t →
    s.ComesTo data j ⟨data, offset, 0⟩ ∧ offset + 32 ≤ data.length ∧
      vs[j]? = some (.word (t.decode (wordAt data offset)))
  checks : ∀ vs t, decodeSequence s.dataTypes data = .ok vs → f.type = .word t →
    headIsCanonical f.type offset data = t.isCanonical (wordAt data offset)
  refuses : ∀ vs t, decodeSequence s.dataTypes data = .ok vs → f.type = .word t →
    t.isCanonical (wordAt data offset) = false →
      ∀ topics, ∃ fault, s.decode ⟨topics, data⟩ = .error (.data fault)

section HeadIsAt

variable {s : EventSchema} {j : Nat} {f : EventField} {offset : Nat} {data : Bytes}

lemma getElem?_dataTypes (hf : s.dataFields[j]? = some f) : s.dataTypes[j]? = some f.type := by
  rw [dataTypes, List.getElem?_map, hf, Option.map_some]

variable (hsmall : data.length < 2 ^ 64) (hf : s.dataFields[j]? = some f)
  (hoffset : (AbiType.headOffsets 0 s.dataTypes)[j]? = some offset)
include hsmall hf hoffset

lemma eq_of_comesTo {c : Cursor} (h : s.ComesTo data j c) : c = ⟨data, offset, 0⟩ := by
  obtain ⟨us, hus⟩ := h
  have hstart : (0 : UInt64).toNat = (Cursor.start data).offset := rfl
  obtain ⟨hhead, hbuffer, hdepth⟩ :=
    headOffset_of_readAll hstart hsmall (getElem?_dataTypes hf) hus
  obtain rfl : offset = c.offset := Option.some.inj (hoffset.symm.trans hhead)
  cases c
  cases hbuffer
  cases hdepth
  rfl

/-- A field in data that can be unpacked is read at the offset of its head. -/
lemma read_of_decodeSequence (hsized : AbiType.allZeroSized s.dataTypes = false)
    {vs : List AbiValue} (h : decodeSequence s.dataTypes data = .ok vs) :
    s.ComesTo data j ⟨data, offset, 0⟩ ∧
      ∃ v c, f.type.read ⟨data, offset, 0⟩ = .ok (v, c) ∧ vs[j]? = some v := by
  obtain ⟨_, hall⟩ := exists_readAll_of_decodeSequence hsized h
  obtain ⟨us, c, v, c', hbefore, hread, hv⟩ := exists_read_of_readAll hall (getElem?_dataTypes hf)
  obtain rfl := eq_of_comesTo hsmall hf hoffset ⟨us, hbefore⟩
  exact ⟨⟨us, hbefore⟩, v, c', hread, hv⟩

/-- The value of a field of one word is that of the word at its head. -/
lemma reads_of_decodeSequence {vs : List AbiValue} {t : WordType}
    (h : decodeSequence s.dataTypes data = .ok vs) (ht : f.type = .word t) :
    s.ComesTo data j ⟨data, offset, 0⟩ ∧ offset + 32 ≤ data.length ∧
      vs[j]? = some (.word (t.decode (wordAt data offset))) := by
  have hsized : AbiType.allZeroSized s.dataTypes = false :=
    allZeroSized_of_getElem? ((getElem?_dataTypes hf).trans (congrArg some ht))
  obtain ⟨hcomes, v, c, hread, hv⟩ := read_of_decodeSequence hsmall hf hoffset hsized h
  rw [ht, AbiType.read, readMap_eq_ok_iff] at hread
  obtain ⟨w, hword, rfl⟩ := hread
  rw [Cursor.word_eq] at hword
  split at hword
  · next hle =>
    cases hword
    exact ⟨hcomes, hle, hv⟩
  · cases hword

lemma headIsCanonical_of_decodeSequence {vs : List AbiValue} {t : WordType}
    (h : decodeSequence s.dataTypes data = .ok vs) (ht : f.type = .word t) :
    headIsCanonical f.type offset data = t.isCanonical (wordAt data offset) := by
  obtain ⟨-, hle, -⟩ := reads_of_decodeSequence hsmall hf hoffset h ht
  rw [ht, headIsCanonical, if_pos hle, wordAt]

/-- A word that is not canonical at the head of a field of one word makes a log undecodable. -/
lemma decode_error_of_not_canonical {vs : List AbiValue} {t : WordType}
    (h : decodeSequence s.dataTypes data = .ok vs) (ht : f.type = .word t)
    (hcanonical : t.isCanonical (wordAt data offset) = false) (topics : List Word) :
    ∃ fault, s.decode ⟨topics, data⟩ = .error (.data fault) := by
  cases hvalues : s.valuesOfData data with
  | ok us =>
    -- Values that pass include the one that was taken from the word at this head.
    have hunpacks := unpacksTo_iff.2 hvalues
    obtain rfl : vs = us := Except.ok.inj (h.symm.trans hunpacks.1)
    obtain ⟨-, -, hv⟩ := reads_of_decodeSequence hsmall hf hoffset h ht
    have hpasses := (hunpacks.2 j f offset _ hf hoffset hv).1
    rw [headIsCanonical_of_decodeSequence hsmall hf hoffset h ht, hcanonical] at hpasses
    cases hpasses
  | error e =>
    obtain ⟨fault, rfl⟩ := valuesOfData_error hvalues
    exact ⟨fault, decode_of_valuesOfData_error hvalues⟩

lemma headIsAt : s.HeadIsAt data j f offset where
  comesTo _ h := eq_of_comesTo hsmall hf hoffset h
  reached _ hsized h := (read_of_decodeSequence hsmall hf hoffset hsized h).1
  reads _ _ h ht := reads_of_decodeSequence hsmall hf hoffset h ht
  checks _ _ h ht := headIsCanonical_of_decodeSequence hsmall hf hoffset h ht
  refuses _ _ h ht hcanonical topics :=
    decode_error_of_not_canonical hsmall hf hoffset h ht hcanonical topics

end HeadIsAt

/-- The check at the head of each field is on the word that the decoder reads.

A value of any type moves the decoder on by the words that the type counts in the head, so the
decoder comes to each field in the data at the offset of its head.  The offset is that of the words
in the heads before it, counted in 64 bits; data in memory is always shorter than `2 ^ 64` octets. -/
theorem headsAreRead (s : EventSchema) :
    (∀ t c v c', c.buffer.length < 2 ^ 64 → AbiType.read t c = .ok (v, c') →
      c' = c.advance (32 * t.headWords.toNat)) ∧
    ∀ j f, s.dataFields[j]? = some f →
      ∃ offset, (AbiType.headOffsets 0 s.dataTypes)[j]? = some offset ∧
        offset = 32 * AbiType.wordsInHeads (s.dataTypes.take j) % 2 ^ 64 ∧
        ∀ data, data.length < 2 ^ 64 → s.HeadIsAt data j f offset := by
  refine ⟨fun t c v c' => advance_headWords_of_read, fun j f hf => ?_⟩
  have hoffset := getElem?_headOffsets 0 (getElem?_dataTypes hf)
  rw [UInt64.toNat_zero, Nat.zero_add] at hoffset
  exact ⟨_, hoffset, rfl, fun data hsmall => headIsAt hsmall hf hoffset⟩

/-- An event in whose data a tuple, a text and an array stand before a truth value. -/
def listingSchema : EventSchema where
  name := "Listing"
  signature := "Listing((uint256,bool[2]),string,address,int256[][1],bool)"
  selector := Keccak.digest (Utf8.encode "Listing((uint256,bool[2]),string,address,int256[][1],bool)")
  anonymous := true
  fields := [
    ⟨"size", .tuple [.word (.uint .word), .fixedArray (.word .bool) 2], false⟩,
    ⟨"title", .string, false⟩,
    ⟨"owner", .word .address, true⟩,
    ⟨"bids", .fixedArray (.array (.word (.int .word))) 1, false⟩,
    ⟨"open", .word .bool, false⟩]

/-- Data of the event in which the last head holds neither of the two truth values. -/
def listingData : Bytes :=
  [5, 1, 0, 192, 224, 2, 0, 32, 1, 7].flatMap Word.toBytes

set_option maxRecDepth 10000 in
theorem listingData_headsAreRead :
    listingData.length < 2 ^ 64 ∧
      (∃ vs, decodeSequence listingSchema.dataTypes listingData = .ok vs ∧
        vs[3]? = some (.word (.bool true))) ∧
      listingSchema.ComesTo listingData 3 ⟨listingData, 160, 0⟩ ∧
      wordAt listingData 160 = 2 ∧
      ∃ fault, listingSchema.decode ⟨[7], listingData⟩ = .error (.data fault) := by
  have hsmall : listingData.length < 2 ^ 64 := by decide +kernel
  have hf : listingSchema.dataFields[3]? = some ⟨"open", .word .bool, false⟩ := rfl
  obtain ⟨vs, hvs, hvalue⟩ : ∃ vs, decodeSequence listingSchema.dataTypes listingData = .ok vs ∧
      vs[3]? = some (.word (.bool true)) := ⟨_, rfl, rfl⟩
  obtain ⟨offset, hoffset, -, hhead⟩ := (headsAreRead listingSchema).2 3 _ hf
  obtain rfl : 160 = offset := Option.some.inj hoffset
  have hhead := hhead listingData hsmall
  have hword : wordAt listingData 160 = 2 := rfl
  have hcanonical : WordType.bool.isCanonical (wordAt listingData 160) = false := by
    rw [hword]
    rfl
  exact ⟨hsmall, ⟨vs, hvs, hvalue⟩, (hhead.reads vs _ hvs rfl).1, hword,
    hhead.refuses vs _ hvs rfl hcanonical [7]⟩

end EventSchema
end RollupBoundary
