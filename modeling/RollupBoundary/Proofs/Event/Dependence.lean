import Mathlib
import RollupBoundary.Proofs.Abi.Trailing
import RollupBoundary.Proofs.Event.Fieldwise

/-!
# What a decoded log depends on

Not all of a log matters to its decoding.  Of the topics only those of the indexed fields are looked
at, so neither the selector nor topics behind the last field make a difference, and what is found in
the data does not come to the fields in topics, nor the other way round (`dependsOnFields`).

Of the data it is not known beforehand which octets are looked at, since a payload may lead the
decoder anywhere.  But octets behind it never matter to a log that is decoded
(`decode_append`).  The values are the same by `decodeSequence_append`; the check at the heads of
the fields needs an argument of its own, since it passes a word that reaches beyond the data, and
with more data it might not.  That does not happen: a field of one word that was read stands within
the data (`headIsCanonical_append`).
-/

namespace RollupBoundary.EventSchema

open Abi

variable {s : EventSchema} {log log' : EventLog} {data : Bytes}

/-! ## Octets behind the data -/

/-- The check at a head that a value was read from finds the same word with octets behind the
data. -/
lemma headIsCanonical_append {t : AbiType} {offset place : Nat} (hoffset : offset ≤ place)
    {v : AbiValue} {c : Cursor} (hread : t.read ⟨data, place, 0⟩ = .ok (v, c)) (tail : Bytes) :
    headIsCanonical t offset (data ++ tail) = headIsCanonical t offset data := by
  cases t with
  | word w =>
    obtain ⟨_, hword, -⟩ := readMap_eq_ok_iff.1 hread
    have hplace : place + 32 ≤ data.length := by
      by_contra hbeyond
      rw [Cursor.word_eq, if_neg hbeyond] at hword
      cases hword
    have hle : offset + 32 ≤ data.length := by omega
    have hle' : offset + 32 ≤ (data ++ tail).length := by
      rw [List.length_append]
      omega
    rw [headIsCanonical, headIsCanonical, if_pos hle, if_pos hle', Bytes.take_drop_append hle]
  | _ => rfl

/-- Octets behind the data are not looked at.  An offset that is counted in 64 bits is never beyond
the place where the decoder stands. -/
lemma checkValues_append {fs : List EventField} {start : UInt64} {place : Nat}
    (hstart : start.toNat ≤ place) {vs : List AbiValue} {c : Cursor}
    (hread : AbiType.readAll (fs.map EventField.type) ⟨data, place, 0⟩ = .ok (vs, c))
    (tail : Bytes) :
    checkValues (data ++ tail) fs (AbiType.headOffsets start (fs.map EventField.type)) vs =
      checkValues data fs (AbiType.headOffsets start (fs.map EventField.type)) vs := by
  induction fs generalizing start place vs with
  | nil => rfl
  | cons f fs ih =>
    rw [List.map_cons, Cursor.readAll_cons, Cursor.andThen_eq_ok_iff] at hread
    obtain ⟨v, vs, c', hfirst, hothers, rfl⟩ := hread
    obtain ⟨rfl, -⟩ := advance_of_read hfirst
    have hnext : (start + 32 * f.type.headWords).toNat ≤ place + 32 * f.type.wordsInHead := by
      rw [AbiType.toNat_add_headWords]
      exact (Nat.mod_le _ _).trans (by omega)
    rw [List.map_cons, AbiType.headOffsets, checkValues, checkValues,
      headIsCanonical_append hstart hfirst, ih hnext hothers]

theorem valuesOfData_append {vs : List AbiValue} (h : s.valuesOfData data = .ok vs)
    (tail : Bytes) : s.valuesOfData (data ++ tail) = .ok vs := by
  rw [valuesOfData_eq_ok_iff] at h ⊢
  obtain ⟨hdecode, hcheck⟩ := h
  refine ⟨decodeSequence_append hdecode tail, ?_⟩
  obtain ⟨hnone, -⟩ | ⟨e, herror, -⟩ | ⟨_, _, _, hread, -, hsome, -⟩ :=
    payload_cases s.dataTypes data
  · rw [hnone] at hdecode
    cases hdecode
    cases s.dataFields <;> cases AbiType.headOffsets 0 s.dataTypes <;> rfl
  · rw [herror] at hdecode
    cases hdecode
  · rw [hsome] at hdecode
    cases hdecode
    exact (checkValues_append (Nat.le_refl 0) hread tail).trans hcheck

/-- A log that is decoded is decoded to the same event with octets behind its data. -/
theorem decode_append {e : Event} (h : s.decode log = .ok e) (tail : Bytes) :
    s.decode { log with data := log.data ++ tail } = .ok e := by
  obtain ⟨hname, us, vs, hdata, htopics, hassign⟩ := decode_eq_ok_iff.1 h
  exact decode_eq_ok_iff.2 ⟨hname, us, vs, valuesOfData_append hdata tail, htopics, hassign⟩

/-- An event with an address in a topic, and with an array and a truth value in its data. -/
def payoutSchema : EventSchema where
  name := "Payout"
  signature := "Payout(address,uint256[],bool)"
  selector := Keccak.digest (Utf8.encode "Payout(address,uint256[],bool)")
  anonymous := false
  fields := [
    ⟨"owner", .word .address, true⟩,
    ⟨"amounts", .array (.word (.uint .word)), false⟩,
    ⟨"final", .word .bool, false⟩]

/-- Data of the event, with an array of two numbers. -/
def payoutData : Bytes :=
  [64, 1, 2, 5, 6].flatMap Word.toBytes

/-- A log of the event. -/
def payoutLog : EventLog where
  topics := [payoutSchema.selector, 7]
  data := payoutData

set_option maxRecDepth 10000 in
theorem payoutLog_decode_append :
    ∃ e, payoutSchema.decode payoutLog = .ok e ∧
      payoutSchema.decode { payoutLog with data := payoutData ++ [255, 0, 1] } = .ok e := by
  obtain ⟨e, he⟩ : ∃ e, payoutSchema.decode payoutLog = .ok e := ⟨_, rfl⟩
  exact ⟨e, he, decode_append he [255, 0, 1]⟩

/-! ## Topics of the fields -/

/-- That two lists of topics agree on those of the indexed fields. -/
def TopicsAgree (s : EventSchema) (topics topics' : List Word) : Prop :=
  ∀ j < s.indexedFields.length, topics[s.firstTopic + j]? = topics'[s.firstTopic + j]?

variable {topics topics' : List Word}

/-- Topics have the same outcome, values or fault, if none of those that are looked at is missing. -/
lemma valuesOfTopicsFrom_congr {index : Nat} {fs : List EventField}
    (henough : index + fs.length ≤ topics.length)
    (hagree : ∀ j < fs.length, topics[index + j]? = topics'[index + j]?) :
    valuesOfTopicsFrom topics index fs = valuesOfTopicsFrom topics' index fs := by
  induction fs generalizing index with
  | nil => rfl
  | cons f fs ih =>
    rw [List.length_cons] at henough hagree
    have hfirst := hagree 0 (Nat.succ_pos _)
    have hothers : valuesOfTopicsFrom topics (index + 1) fs =
        valuesOfTopicsFrom topics' (index + 1) fs := by
      refine ih (by omega) fun j hj => ?_
      rw [Nat.add_right_comm, Nat.add_assoc]
      exact hagree (j + 1) (by omega)
    rw [Nat.add_zero, List.getElem?_eq_getElem (by omega)] at hfirst
    rw [valuesOfTopicsFrom_cons, valuesOfTopicsFrom_cons, hothers, topicValue, topicValue,
      ← hfirst, List.getElem?_eq_getElem (by omega)]

lemma valuesOfTopics_congr (henough : s.firstTopic + s.indexedFields.length ≤ topics.length)
    (hagree : s.TopicsAgree topics topics') :
    s.valuesOfTopics topics = s.valuesOfTopics topics' :=
  valuesOfTopicsFrom_congr henough hagree

lemma TopicsAgree.topicPlace (h : s.TopicsAgree topics topics') {i : Nat} {f : EventField}
    (hf : s.fields[i]? = some f) (hindexed : f.indexed = true) :
    topics[s.topicPlace i]? = topics'[s.topicPlace i]? :=
  h _ (List.getElem?_eq_some_iff.1 (getElem?_indexedFields hf hindexed)).1

/-- Topics agree whatever stands before and behind those of the indexed fields. -/
lemma topicsAgree_append {before before' behind behind' : List Word}
    (hbefore : before.length = s.firstTopic) (hbefore' : before'.length = s.firstTopic)
    (htopics : topics.length = s.indexedFields.length) :
    s.TopicsAgree (before ++ topics ++ behind) (before' ++ topics ++ behind') := by
  intro j hj
  have hmiddle : ∀ {xs ys : List Word}, xs.length = s.firstTopic →
      (xs ++ topics ++ ys)[s.firstTopic + j]? = topics[j]? := by
    intro xs ys hxs
    rw [List.append_assoc, List.getElem?_append_right (by omega), hxs, Nat.add_sub_cancel_left,
      List.getElem?_append_left (by omega)]
  rw [hmiddle hbefore, hmiddle hbefore']

/-! ## Two logs -/

/-- That the decoding of a log depends on nothing but its data and the topics of the indexed fields,
and each field of the event on that of the two which it stands in. -/
structure DependsOnFields (s : EventSchema) : Prop where
  outcome : ∀ log log' : EventLog, s.firstTopic + s.indexedFields.length ≤ log.topics.length →
    log.data = log'.data → s.TopicsAgree log.topics log'.topics → s.decode log = s.decode log'
  surplus : ∀ before before' topics behind behind' : List Word, before.length = s.firstTopic →
    before'.length = s.firstTopic → topics.length = s.indexedFields.length →
      ∀ data, s.decode ⟨before ++ topics ++ behind, data⟩ =
        s.decode ⟨before' ++ topics ++ behind', data⟩
  ofData : ∀ log log' e e', s.decode log = .ok e → s.decode log' = .ok e' →
    log.data = log'.data → ∀ (i : Nat) (f : EventField), s.fields[i]? = some f →
      f.indexed = false → e.fields[i]? = e'.fields[i]?
  ofTopics : ∀ log log' e e', s.decode log = .ok e → s.decode log' = .ok e' →
    s.TopicsAgree log.topics log'.topics → ∀ (i : Nat) (f : EventField), s.fields[i]? = some f →
      f.indexed = true → e.fields[i]? = e'.fields[i]?

lemma decode_congr (henough : s.firstTopic + s.indexedFields.length ≤ log.topics.length)
    (hdata : log.data = log'.data) (hagree : s.TopicsAgree log.topics log'.topics) :
    s.decode log = s.decode log' := by
  rw [decode, decode, hdata, valuesOfTopics_congr henough hagree]

/-- The decoding of a log depends on its data and the topics of its indexed fields. -/
theorem dependsOnFields (s : EventSchema) : s.DependsOnFields where
  outcome _ _ henough hdata hagree := decode_congr henough hdata hagree
  surplus before before' topics behind behind' hbefore hbefore' htopics data := by
    refine decode_congr ?_ rfl (topicsAgree_append hbefore hbefore' htopics)
    simp only [List.length_append]
    omega
  ofData log log' e e' h h' hdata i f hf hindexed := by
    obtain ⟨vs, hunpacks, hvalues⟩ := exists_values_of_decode h
    obtain ⟨vs', hunpacks', hvalues'⟩ := exists_values_of_decode h'
    rw [← hdata] at hunpacks'
    obtain rfl : vs = vs' := Except.ok.inj (hunpacks.1.symm.trans hunpacks'.1)
    obtain ⟨v, hv, hvalue⟩ := hvalues i f hf
    obtain ⟨v', hv', hvalue'⟩ := hvalues' i f hf
    rw [HasValue, hindexed, if_neg Bool.false_ne_true] at hvalue hvalue'
    obtain rfl : v = v' := Option.some.inj (hvalue.symm.trans hvalue')
    rw [hv, hv']
  ofTopics log log' e e' h h' hagree i f hf hindexed := by
    obtain ⟨_, -, hvalues⟩ := exists_values_of_decode h
    obtain ⟨_, -, hvalues'⟩ := exists_values_of_decode h'
    obtain ⟨v, hv, hvalue⟩ := hvalues i f hf
    obtain ⟨v', hv', hvalue'⟩ := hvalues' i f hf
    rw [HasValue, if_pos hindexed, topicValue_eq_ok_iff] at hvalue hvalue'
    obtain ⟨topic, htopic, hvalue⟩ := hvalue
    obtain ⟨topic', htopic', hvalue'⟩ := hvalue'
    rw [← hagree.topicPlace hf hindexed, htopic] at htopic'
    cases htopic'
    obtain rfl : v = v' := Except.ok.inj (hvalue.symm.trans hvalue')
    rw [hv, hv']

set_option maxRecDepth 10000 in
theorem payoutLog_dependsOnFields :
    ∃ e e', payoutSchema.decode payoutLog = .ok e ∧
      payoutSchema.decode ⟨[0, 7, 9], payoutData⟩ = .ok e ∧
      payoutSchema.decode ⟨[0, 8], payoutData⟩ = .ok e' ∧ e.fields[1]? = e'.fields[1]? := by
  have hdepends := dependsOnFields payoutSchema
  obtain ⟨e, he⟩ : ∃ e, payoutSchema.decode payoutLog = .ok e := ⟨_, rfl⟩
  obtain ⟨e', he'⟩ : ∃ e', payoutSchema.decode ⟨[0, 8], payoutData⟩ = .ok e' := ⟨_, rfl⟩
  have hsurplus : payoutSchema.decode payoutLog = payoutSchema.decode ⟨[0, 7, 9], payoutData⟩ :=
    hdepends.surplus [payoutSchema.selector] [0] [7] [] [9] rfl rfl rfl payoutData
  exact ⟨e, e', he, hsurplus.symm.trans he, he', hdepends.ofData _ _ e e' he he' rfl 1 _ rfl rfl⟩

end RollupBoundary.EventSchema
