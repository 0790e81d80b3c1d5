import Mathlib
import RollupBoundary.Proofs.Alias.Aliasing
import RollupBoundary.Proofs.Event.Fieldwise
import RollupBoundary.Proofs.Event.ScheduledRedeem
import RollupBoundary.Proofs.Wire.Value

/-!
# One form of addresses and numbers in words

An address gets into a word in two ways.  As a word of the chain it stands at the right end of it
(`Address.toWord`); on a stream it is written behind twelve zero octets that are a part of their own.
It gets out of a word in two ways as well, by a reader of streams that looks at nothing but the last
twenty octets, and by the schema of an event that refuses a topic with anything before them.

All four mean the same word (`AddressForm`).  The reader is the lenient inverse of the writer, since
it takes an address from every word that ends in it, and the topic is the strict one.  Numbers of 64
bits have a form in words too (`Word.ofUInt64`), which is what a topic is read by at every width that
admits them, and at the width of 64 bits no other topic is read at all.
-/

namespace RollupBoundary

open Abi Wire EventSchema

/-! ## Addresses on a stream -/

lemma Address.toBytes_inj {a b : Address} : a.toBytes = b.toBytes ↔ a = b := by
  refine ⟨fun h => ?_, congrArg _⟩
  rw [← Address.ofBytes_toBytes a, h, Address.ofBytes_toBytes]

/-- A word has an address in it if the two end in the same octets. -/
lemma Word.address_eq_iff {w : Word} {a : Address} :
    w.address = a ↔ w.toBytes.drop padding = a.toWord.toBytes.drop padding := by
  rw [← Address.toBytes_inj, Word.toBytes_address, padding, ← Word.toBytes_address a.toWord,
    Word.address_toWord]

lemma putPaddedAddress_eq (a : Address) (buffer : Bytes) :
    putPaddedAddress a buffer = (.ok (), buffer ++ a.toWord.toBytes) := by
  have hput := WireValue.put_eq (.paddedAddress a) buffer
  rw [WireValue.encode, WireValue.parts, List.flatMap_cons, List.flatMap_singleton] at hput
  rw [Address.toBytes_toWord]
  exact hput

/-- The reader takes the address at the end of any word. -/
lemma takePaddedAddress_toBytes (w : Word) (rest : Bytes) :
    takePaddedAddress (w.toBytes ++ rest) = (.ok w.address, rest) := by
  have hbefore : (w.toBytes.take padding).length = padding := by
    rw [List.length_take, Word.length_toBytes]
    rfl
  have htake := takePaddedAddress_append hbefore w.address rest
  rwa [Word.toBytes_address, ← padding, List.take_append_drop] at htake

/-! ## Topics -/

variable {f : EventField} {w : Word}

lemma valueOfTopic_address_iff (hf : f.type = .word .address) {a : Address} :
    valueOfTopic f w = .ok (.word (.address a)) ↔ w = a.toWord := by
  rw [valueOfTopic_eq_ok_iff, EventField.wordType_of_word hf]
  constructor
  · rintro ⟨u, hu, -, rfl⟩
    cases hu
    rfl
  · rintro rfl
    exact ⟨.address a, rfl, ⟨rfl, rfl, rfl⟩, rfl⟩

lemma hasType_uint {k : ByteWidth} {n : Nat} (h : n < 2 ^ k.bits) :
    (WordValue.uint k n).HasType (.uint k) :=
  ⟨rfl, decide_eq_true h, rfl⟩

lemma valueOfTopic_ofUInt64 {k : ByteWidth} (hf : f.type = .word (.uint k)) (hk : 64 ≤ k.bits)
    (n : UInt64) : valueOfTopic f (Word.ofUInt64 n) = .ok (.word (.uint k n.toNat)) := by
  have hlt : n.toNat < 2 ^ k.bits :=
    Nat.lt_of_lt_of_le n.toNat_lt (Nat.pow_le_pow_right (by decide) hk)
  rw [valueOfTopic_eq_ok_iff, EventField.wordType_of_word hf]
  exact ⟨.uint k n.toNat, rfl, hasType_uint hlt, rfl⟩

lemma valueOfTopic_uint64_iff (hf : f.type = .word (.uint .bits64)) {v : AbiValue} :
    valueOfTopic f w = .ok v ↔
      ∃ n : UInt64, w = Word.ofUInt64 n ∧ v = .word (.uint .bits64 n.toNat) := by
  constructor
  · intro h
    obtain ⟨u, rfl, ⟨htype, hrange, -⟩, rfl⟩ := valueOfTopic_eq_ok_iff.1 h
    rw [EventField.wordType_of_word hf] at htype
    cases u <;> cases htype
    next n =>
      have hn : n < 2 ^ 64 := of_decide_eq_true hrange
      have hself : (UInt64.ofNat n).toNat = n := by
        rw [UInt64.toNat_ofNat', Nat.mod_eq_of_lt hn]
      exact ⟨UInt64.ofNat n, by rw [Word.ofUInt64, hself, WordValue.encode], by rw [hself]⟩
  · rintro ⟨n, rfl, rfl⟩
    exact valueOfTopic_ofUInt64 hf (Nat.le_refl 64) n

/-! ## The forms agree -/

/-- That an address has one form in words, whichever part of the boundary puts it there or takes it
from there. -/
structure AddressForm (a : Address) : Prop where
  /-- Both writers of padded addresses put the word form of the address at the end of a stream. -/
  written : ∀ buffer : Bytes,
    putPaddedAddress a buffer = (.ok (), buffer ++ a.toWord.toBytes) ∧
      FixedWidth.putTo (PaddedAddress.mk a) buffer = (.ok (), buffer ++ a.toWord.toBytes)
  read : ∀ rest : Bytes, takePaddedAddress (a.toWord.toBytes ++ rest) = (.ok a, rest)
  /-- The reader takes the address from those words that end as its word form does. -/
  read_iff : ∀ (w : Word) (rest : Bytes), takePaddedAddress (w.toBytes ++ rest) = (.ok a, rest) ↔
    w.toBytes.drop padding = a.toWord.toBytes.drop padding
  /-- A topic is read as the address only if it is the word form. -/
  topic_iff : ∀ (f : EventField) (w : Word), f.type = .word .address →
    (valueOfTopic f w = .ok (.word (.address a)) ↔ w = a.toWord)

lemma addressForm (a : Address) : AddressForm a where
  written buffer := ⟨putPaddedAddress_eq a buffer, putPaddedAddress_eq a buffer⟩
  read rest := by rw [takePaddedAddress_toBytes, Word.address_toWord]
  read_iff w rest := by
    rw [takePaddedAddress_toBytes, ← Word.address_eq_iff]
    simp
  topic_iff _ _ hf := valueOfTopic_address_iff hf

/-- Streams and events agree on how addresses and numbers stand in words.

Of an address there is one word form, and though the reader of streams takes some address from every
word, it is the one whose form ends in the same octets.  A number of 64 bits is read from its word
form at every width that admits it; at the width of 64 bits its form is the only topic that is read
as the number, and a topic that is not the form of a number is not read at all.

What is said of topics here is said of logs, since a decoded event has in an indexed field what the
topic of the field is read as. -/
theorem wordForms_agree :
    (∀ a, AddressForm a) ∧
    (∀ (w : Word) (rest : Bytes), ∃ a, takePaddedAddress (w.toBytes ++ rest) = (.ok a, rest)) ∧
    (∀ (f : EventField) (k : ByteWidth) (n : UInt64), f.type = .word (.uint k) → 64 ≤ k.bits →
      valueOfTopic f (Word.ofUInt64 n) = .ok (.word (.uint k n.toNat))) ∧
    (∀ (f : EventField) (w : Word) (v : AbiValue), f.type = .word (.uint .bits64) →
      (valueOfTopic f w = .ok v ↔
        ∃ n : UInt64, w = Word.ofUInt64 n ∧ v = .word (.uint .bits64 n.toNat))) ∧
    ∀ (s : EventSchema) (log : EventLog) (e : Event) (i : Nat) (f : EventField) (w : Word),
      s.decode log = .ok e → s.fields[i]? = some f → f.indexed = true →
        log.topics[s.topicPlace i]? = some w →
          ∃ v, e.fields[i]? = some ⟨f.name, v, true⟩ ∧ valueOfTopic f w = .ok v := by
  refine ⟨addressForm, fun w rest => ⟨w.address, takePaddedAddress_toBytes w rest⟩, ?_, ?_, ?_⟩
  · exact fun f k n hf hk => valueOfTopic_ofUInt64 hf hk n
  · exact fun f w v hf => valueOfTopic_uint64_iff hf
  · exact fun s log e i f w h hf hindexed htopic => valueOfTopic_of_decode h hf hindexed htopic

/-- A word that ends in an address with something else than zeros before it. -/
def dirtyWord : Word :=
  0x000000000000000000000001_0000000000000000000000000000000000000007#256

/-- The reader of streams takes the address from such a word, and no event does.  The greatest number
of 64 bits is read from its word form, and the word after that is no number of 64 bits. -/
theorem wordForms_agree_dirtyWord :
    takePaddedAddress (dirtyWord.toBytes ++ [1]) = (.ok 7, [1]) ∧
      valueOfTopic ⟨"owner", .word .address, true⟩ dirtyWord ≠ .ok (.word (.address 7)) ∧
      valueOfTopic ⟨"count", .word (.uint .bits64), true⟩ (Word.ofUInt64 0xFFFFFFFFFFFFFFFF) =
        .ok (.word (.uint .bits64 0xFFFFFFFFFFFFFFFF)) ∧
      ∀ v, valueOfTopic ⟨"count", .word (.uint .bits64), true⟩ 0x10000000000000000#256 ≠ .ok v := by
  obtain ⟨haddress, -, hnumber, hnumber_iff, -⟩ := wordForms_agree
  have hends : dirtyWord.toBytes.drop padding = (Address.toWord 7).toBytes.drop padding := by
    decide +kernel
  refine ⟨((haddress 7).read_iff _ _).2 hends, fun h => ?_, ?_, fun v h => ?_⟩
  · have hword := ((haddress 7).topic_iff _ _ rfl).1 h
    exact absurd hword (by decide)
  · exact hnumber _ .bits64 0xFFFFFFFFFFFFFFFF rfl (by decide)
  · obtain ⟨n, hword, -⟩ := (hnumber_iff _ _ v rfl).1 h
    have hlt := n.toNat_lt
    have hnumber := congrArg BitVec.toNat hword
    rw [Word.ofUInt64, BitVec.toNat_ofNat, BitVec.toNat_ofNat] at hnumber
    omega

end RollupBoundary
