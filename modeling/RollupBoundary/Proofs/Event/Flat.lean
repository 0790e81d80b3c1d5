import Mathlib
import RollupBoundary.Proofs.Abi.Words
import RollupBoundary.Proofs.Event.RoundTrip

/-!
# Logs of flat events

A schema is flat if the fields in its data are of one word each.  Then the data is a list of words
as the topics are, and a log is decoded as an event exactly if the event is one of the schema and is
written as the first words of both (`decode_eq_ok_iff_of_isFlat`).  Which logs are decoded, and that
a decoded event gives back the octets it was decoded from, follow from this without another look at
the decoder.
-/

namespace RollupBoundary

open Abi FilledField

namespace EventSchema

/-- That the fields in the data are of one word each. -/
def IsFlat (s : EventSchema) : Prop :=
  ∀ f ∈ s.dataFields, ∃ t, f.type = .word t

/-! ## Data of flat events -/

variable {data : Bytes} {s : EventSchema}

/-- A word is read and passes exactly if it is what the value is written as. -/
lemma read_word_passes_iff {t : WordType} {k : Nat} {v : AbiValue} {c : Cursor} :
    AbiType.read (.word t) ⟨data, 32 * k, 0⟩ = .ok (v, c) ∧
        headIsCanonical (.word t) (32 * k) data = true ∧ v.inRange = true ↔
      ∃ u : WordValue, v = .word u ∧ u.HasType t ∧ (Bytes.words data)[k]? = some u.encode ∧
        c = ⟨data, 32 * (k + 1), 0⟩ := by
  rw [AbiType.read, readMap_eq_ok_iff]
  simp only [Cursor.word_eq_ok_iff]
  constructor
  · rintro ⟨⟨w, ⟨hw, hc⟩, rfl⟩, hhead, -⟩
    have hk : 32 * k + 32 ≤ data.length := by
      have := (List.getElem?_eq_some_iff.1 hw).1
      rw [Bytes.length_words] at this
      omega
    rw [headIsCanonical, if_pos hk, ← Bytes.getElem?_words_eq_some_iff.1 hw,
      Word.ofBytes_toBytes] at hhead
    refine ⟨t.decode w, rfl, WordType.hasType_decode hhead, ?_, hc⟩
    rw [WordType.encode_decode hhead, hw]
  · rintro ⟨u, rfl, hu, hw, hc⟩
    refine ⟨⟨u.encode, ⟨hw, hc⟩, by rw [WordType.decode_encode hu]⟩, ?_, hu.2.1⟩
    rw [headIsCanonical, ← Bytes.getElem?_words_eq_some_iff.1 hw, Word.ofBytes_toBytes,
      WordType.isCanonical_encode hu, ite_self]

lemma readAll_passes_iff (hsmall : data.length < 2 ^ 64) {fs : List EventField}
    (hflat : ∀ f ∈ fs, ∃ t, f.type = .word t) {start : UInt64} {k : Nat}
    (hstart : start.toNat = 32 * k) {vs : List AbiValue} :
    (∃ c, AbiType.readAll (fs.map EventField.type) ⟨data, 32 * k, 0⟩ = .ok (vs, c)) ∧
        checkValues data fs (AbiType.headOffsets start (fs.map EventField.type)) vs = .ok () ↔
      ∃ us : List WordValue, vs = us.map .word ∧
        List.Forall₂ (fun f u => u.HasType f.wordType) fs us ∧
        us.map WordValue.encode <+: (Bytes.words data).drop k := by
  induction fs generalizing start k vs with
  | nil =>
    constructor
    · rintro ⟨⟨c, h⟩, -⟩
      cases h
      exact ⟨[], rfl, .nil, List.nil_prefix⟩
    · rintro ⟨us, rfl, hus, -⟩
      cases hus
      exact ⟨⟨_, rfl⟩, rfl⟩
  | cons f fs ih =>
    rw [List.forall_mem_cons] at hflat
    obtain ⟨⟨t, ht⟩, hflat⟩ := hflat
    simp only [List.map_cons, ht, Cursor.readAll_cons, Cursor.andThen_eq_ok_iff,
      AbiType.headOffsets, hstart]
    -- The word that is read is within the data, so the next offset is counted right.
    have hnext : ∀ {w : Word}, (Bytes.words data)[k]? = some w →
        (start + 32 * (AbiType.word t).headWords).toNat = 32 * (k + 1) := by
      intro w hw
      have hk := (List.getElem?_eq_some_iff.1 hw).1
      rw [Bytes.length_words] at hk
      have hle : 32 * k + 32 * (AbiType.word t).wordsInHead ≤ data.length := by
        rw [AbiType.wordsInHead]
        omega
      exact AbiType.toNat_add_headWords_of_le hstart hsmall (le_max_of_le_right hle)
    constructor
    · rintro ⟨⟨c, v, vs, c', hfirst, hothers, rfl⟩, hpass⟩
      rw [checkValues_cons_eq_ok_iff, ht] at hpass
      obtain ⟨u, rfl, hu, hw, rfl⟩ := read_word_passes_iff.1 ⟨hfirst, hpass.1, hpass.2.1⟩
      obtain ⟨us, rfl, hus, hws⟩ := (ih hflat (hnext hw)).1 ⟨⟨c, hothers⟩, hpass.2.2⟩
      refine ⟨u :: us, rfl, .cons ?_ hus, cons_prefix_drop_iff.2 ⟨hw, hws⟩⟩
      rwa [EventField.wordType_of_word ht]
    · rintro ⟨_, rfl, hus, hws⟩
      cases hus with
      | @cons _ u _ us hu hus =>
        rw [EventField.wordType_of_word ht] at hu
        rw [List.map_cons, cons_prefix_drop_iff] at hws
        obtain ⟨hfirst, hpass⟩ := read_word_passes_iff.2 ⟨u, rfl, hu, hws.1, rfl⟩
        obtain ⟨⟨c, hothers⟩, hpasses⟩ := (ih hflat (hnext hws.1)).2 ⟨us, rfl, hus, hws.2⟩
        refine ⟨⟨c, _, _, _, hfirst, hothers, rfl⟩, ?_⟩
        rw [List.map_cons, checkValues_cons_eq_ok_iff, ht]
        exact ⟨hpass.1, hpass.2, hpasses⟩

lemma sumMinWords_of_words {fs : List EventField} (hflat : ∀ f ∈ fs, ∃ t, f.type = .word t) :
    AbiType.sumMinWords (fs.map EventField.type) = fs.length := by
  induction fs with
  | nil => rfl
  | cons f fs ih =>
    rw [List.forall_mem_cons] at hflat
    obtain ⟨⟨t, ht⟩, hflat⟩ := hflat
    rw [List.map_cons, AbiType.sumMinWords, ht, ih hflat, AbiType.minWords, List.length_cons,
      Nat.add_comm]

lemma allZeroSized_of_words {fs : List EventField} (hflat : ∀ f ∈ fs, ∃ t, f.type = .word t)
    (hne : fs ≠ []) : AbiType.allZeroSized (fs.map EventField.type) = false := by
  cases fs with
  | nil => exact absurd rfl hne
  | cons f fs =>
    obtain ⟨t, ht⟩ := hflat f List.mem_cons_self
    rw [List.map_cons, AbiType.allZeroSized, ht, AbiType.isZeroSized, Bool.false_and]

/-- The data of a flat event has the values that are written as its first words. -/
theorem valuesOfData_eq_ok_iff_of_isFlat (hflat : s.IsFlat) (hsmall : data.length < 2 ^ 64)
    {vs : List AbiValue} :
    s.valuesOfData data = .ok vs ↔
      ∃ us : List WordValue, vs = us.map .word ∧
        List.Forall₂ (fun f u => u.HasType f.wordType) s.dataFields us ∧
        us.map WordValue.encode <+: Bytes.words data := by
  have hstart : (0 : UInt64).toNat = 32 * 0 := rfl
  rw [← List.drop_zero (l := Bytes.words data), ← readAll_passes_iff hsmall hflat hstart,
    valuesOfData_eq_ok_iff, dataTypes, Nat.mul_zero]
  refine and_congr_left fun hpass => ?_
  by_cases hnil : s.dataFields = []
  · rw [hnil, List.map_nil, decodeSequence, AbiType.allZeroSized, if_pos rfl]
    constructor
    · intro h
      cases h
      exact ⟨_, rfl⟩
    · rintro ⟨c, h⟩
      cases h
      rfl
  · rw [decodeSequence, allZeroSized_of_words hflat hnil, if_neg Bool.false_ne_true,
      sumMinWords_of_words hflat]
    constructor
    · intro h
      split at h
      · cases h
      · cases hread : AbiType.readAll (s.dataFields.map EventField.type) (Cursor.start data) with
        | error e =>
          rw [hread] at h
          cases h
        | ok read =>
          rw [hread] at h
          cases h
          exact ⟨_, hread⟩
    · intro h
      have hlength : s.dataFields.length ≤ data.length / 32 := by
        obtain ⟨us, -, hus, hprefix⟩ := (readAll_passes_iff hsmall hflat hstart).1 ⟨h, hpass⟩
        have := hprefix.length_le
        rwa [List.length_map, ← hus.length_eq, List.drop_zero, Bytes.length_words] at this
      obtain ⟨c, hread⟩ := h
      have hstart : AbiType.readAll (s.dataFields.map EventField.type) (Cursor.start data) =
          .ok (vs, c) := hread
      rw [if_neg (by omega), hstart]

lemma hasType_words_iff {fs : List EventField} (hflat : ∀ f ∈ fs, ∃ t, f.type = .word t)
    {vs : List AbiValue} :
    List.Forall₂ AbiValue.HasType vs (fs.map EventField.type) ↔
      ∃ us : List WordValue, vs = us.map .word ∧
        List.Forall₂ (fun f u => u.HasType f.wordType) fs us := by
  induction fs generalizing vs with
  | nil =>
    constructor
    · intro h
      cases h
      exact ⟨[], rfl, .nil⟩
    · rintro ⟨us, rfl, hus⟩
      cases hus
      exact .nil
  | cons f fs ih =>
    rw [List.forall_mem_cons] at hflat
    obtain ⟨⟨t, ht⟩, hflat⟩ := hflat
    rw [List.map_cons, ht]
    constructor
    · intro h
      cases h with
      | cons hv hvs =>
        obtain ⟨us, rfl, hus⟩ := (ih hflat).1 hvs
        cases hv with
        | @word u _ hu =>
          rw [← EventField.wordType_of_word ht] at hu
          exact ⟨u :: us, rfl, .cons hu hus⟩
    · rintro ⟨_, rfl, hus⟩
      cases hus with
      | cons hu hus =>
        rw [EventField.wordType_of_word ht] at hu
        exact .cons (.word hu) ((ih hflat).2 ⟨_, rfl, hus⟩)

/-! ## Logs of flat events -/

variable {log : EventLog}

/-- A log of a flat event is decoded as the event of the schema that is written as the first words
of the data and the first topics. -/
theorem decode_eq_ok_iff_of_isFlat (hflat : s.IsFlat) (hsmall : log.data.length < 2 ^ 64)
    {e : Event} :
    s.decode log = .ok e ↔
      s.Describes e ∧ (dataValues e.fields).map AbiValue.toWord <+: Bytes.words log.data ∧
        (topicValues e.fields).map AbiValue.toWord <+: log.topics.drop s.firstTopic := by
  have htoWord : AbiValue.toWord ∘ AbiValue.word = WordValue.encode := rfl
  rw [decode_eq_ok_iff]
  constructor
  · rintro ⟨hname, _, _, hdata, htopics, hassign⟩
    obtain ⟨vs, rfl, hvs, hdatawords⟩ := (valuesOfData_eq_ok_iff_of_isFlat hflat hsmall).1 hdata
    obtain ⟨us, rfl, hus, htopicwords⟩ := valuesOfTopicsFrom_eq_ok_iff.1 htopics
    obtain ⟨hfills, hu, hv⟩ := assign_eq_ok_iff.1 hassign
    have hlengths := length_values_of_fills hfills
    have hu' : topicValues e.fields = us.map .word :=
      hu.eq_of_length (by rw [hlengths.1, List.length_map]; exact hus.length_eq)
    have hv' : dataValues e.fields = vs.map .word :=
      hv.eq_of_length (by rw [hlengths.2, List.length_map]; exact hvs.length_eq)
    rw [hu', hv', List.map_map, List.map_map, htoWord]
    have hadmits : List.Forall₂ Admits s.fields e.fields :=
      forall₂_of_values (fun _ _ hu => .word hu) hfills hu' hus
        ((hasType_words_iff hflat).2 ⟨vs, hv', hvs⟩)
    exact ⟨⟨hname, hadmits⟩, hdatawords, htopicwords⟩
  · rintro ⟨⟨hname, hadmits⟩, hdatawords, htopicwords⟩
    obtain ⟨us, hu, hus⟩ := exists_words_of_admits hadmits
    obtain ⟨vs, hv, hvs⟩ := (hasType_words_iff hflat).1 (hasType_dataValues_of_admits hadmits)
    rw [hv, List.map_map, htoWord] at hdatawords
    rw [hu, List.map_map, htoWord] at htopicwords
    refine ⟨hname, us.map .word, vs.map .word, ?_, ?_, ?_⟩
    · exact (valuesOfData_eq_ok_iff_of_isFlat hflat hsmall).2 ⟨vs, rfl, hvs, hdatawords⟩
    · exact valuesOfTopicsFrom_eq_ok_iff.2 ⟨us, rfl, hus, htopicwords⟩
    · rw [assign_eq_ok_iff, hu, hv]
      exact ⟨hadmits.imp fun _ _ hg => hg.1, List.prefix_rfl, List.prefix_rfl⟩

/-! ## Words one by one -/

/-- Fields are written as the words from a place on exactly if each of them has a value that is
written as the word at its place. -/
lemma exists_words_iff {fs : List EventField} {ws : List Word} {k : Nat} :
    (∃ us : List WordValue, List.Forall₂ (fun f u => u.HasType f.wordType) fs us ∧
        us.map WordValue.encode <+: ws.drop k) ↔
      ∀ i f, fs[i]? = some f →
        ∃ u : WordValue, u.HasType f.wordType ∧ ws[k + i]? = some u.encode := by
  induction fs generalizing k with
  | nil => exact iff_of_true ⟨[], .nil, List.nil_prefix⟩ (by simp)
  | cons f fs ih =>
    constructor
    · rintro ⟨_, hus, hws⟩ i g hg
      cases hus with
      | cons hu hus =>
        rw [List.map_cons, cons_prefix_drop_iff] at hws
        cases i with
        | zero =>
          cases hg
          exact ⟨_, hu, hws.1⟩
        | succ i =>
          have hother := ih.1 ⟨_, hus, hws.2⟩ i g hg
          rwa [Nat.add_right_comm, Nat.add_assoc] at hother
    · intro h
      obtain ⟨u, hu, hw⟩ := h 0 f rfl
      obtain ⟨us, hus, hws⟩ := ih.2 fun i g hg => by
        have hother := h (i + 1) g hg
        rwa [← Nat.add_assoc, Nat.add_right_comm] at hother
      exact ⟨u :: us, .cons hu hus, cons_prefix_drop_iff.2 ⟨hw, hws⟩⟩

lemma add_length_le {fs : List EventField} {ws : List Word} {k : Nat}
    (h : ∀ (i : Nat) (f : EventField), fs[i]? = some f →
      ∃ u : WordValue, u.HasType f.wordType ∧ ws[k + i]? = some u.encode) :
    fs.length = 0 ∨ k + fs.length ≤ ws.length := by
  by_cases hnil : fs.length = 0
  · exact .inl hnil
  · have hlast : fs.length - 1 < fs.length := by omega
    obtain ⟨u, -, hw⟩ := h _ _ (List.getElem?_eq_getElem hlast)
    have := (List.getElem?_eq_some_iff.1 hw).1
    exact .inr (by omega)

lemma encodeSequence_words (us : List WordValue) :
    encodeSequence (us.map .word) = (us.map WordValue.encode).flatMap Word.toBytes := by
  have htails : tails (AbiValue.blocks (us.map .word)) = [] := by
    induction us with
    | nil => rfl
    | cons u us ih => rw [List.map_cons, AbiValue.blocks, tails_cons, ih]; rfl
  have hheads : ∀ place, headsFrom place (AbiValue.blocks (us.map .word)) =
      (us.map WordValue.encode).flatMap Word.toBytes := by
    intro place
    clear htails
    induction us with
    | nil => rfl
    | cons u us ih =>
      rw [List.map_cons, AbiValue.blocks, headsFrom, ih, List.map_cons, List.flatMap_cons]
      rfl
  rw [encodeSequence, assemble_eq, hheads, htails, List.append_nil]

/-- A decoded flat event is written as the octets and the topics it was decoded from. -/
lemma encode_of_isFlat (hflat : s.IsFlat) (hsmall : log.data.length < 2 ^ 64) {e : Event}
    (h : s.decode log = .ok e) :
    encodeSequence (dataValues e.fields) = log.data.take (32 * s.dataFields.length) ∧
      (topicValues e.fields).map AbiValue.toWord =
        (log.topics.drop s.firstTopic).take s.indexedFields.length := by
  obtain ⟨⟨-, hadmits⟩, hdata, htopics⟩ := (decode_eq_ok_iff_of_isFlat hflat hsmall).1 h
  obtain ⟨hu, hv⟩ : (topicValues e.fields).length = s.indexedFields.length ∧
      (dataValues e.fields).length = s.dataFields.length :=
    length_values_of_fills (hadmits.imp fun _ _ hg => hg.1)
  obtain ⟨vs, hvs, -⟩ := (hasType_words_iff hflat).1 (hasType_dataValues_of_admits hadmits)
  rw [List.prefix_iff_eq_take, List.length_map, hu] at htopics
  refine ⟨?_, htopics⟩
  have hwords := hdata.length_le
  rw [List.prefix_iff_eq_take, List.length_map, hv] at hdata
  rw [List.length_map, hv] at hwords
  rw [hvs, List.map_map] at hdata
  rw [hvs, encodeSequence_words, ← Bytes.flatMap_take_words hwords]
  exact congrArg (List.flatMap Word.toBytes) hdata

lemma exists_decode_iff_of_isFlat (hflat : s.IsFlat) (hsmall : log.data.length < 2 ^ 64) :
    (∃ e, s.decode log = .ok e) ↔
      (∀ (i : Nat) (f : EventField), s.dataFields[i]? = some f →
        ∃ u : WordValue, u.HasType f.wordType ∧
          (Bytes.words log.data)[i]? = some u.encode) ∧
      ∀ (j : Nat) (f : EventField), s.indexedFields[j]? = some f →
        ∃ u : WordValue, u.HasType f.wordType ∧
          log.topics[s.firstTopic + j]? = some u.encode := by
  have hdata : (∃ us : List WordValue,
      List.Forall₂ (fun f u => u.HasType f.wordType) s.dataFields us ∧
        us.map WordValue.encode <+: (Bytes.words log.data).drop 0) ↔ _ := exists_words_iff
  simp only [Nat.zero_add] at hdata
  rw [← hdata, ← exists_words_iff, List.drop_zero]
  constructor
  · rintro ⟨e, he⟩
    obtain ⟨-, _, _, hvs, hus, -⟩ := decode_eq_ok_iff.1 he
    obtain ⟨vs, -, hvs, hdatawords⟩ := (valuesOfData_eq_ok_iff_of_isFlat hflat hsmall).1 hvs
    obtain ⟨us, -, hus, htopicwords⟩ := valuesOfTopicsFrom_eq_ok_iff.1 hus
    exact ⟨⟨vs, hvs, hdatawords⟩, us, hus, htopicwords⟩
  · rintro ⟨⟨vs, hvs, hdatawords⟩, us, hus, htopicwords⟩
    have hvalues := (valuesOfData_eq_ok_iff_of_isFlat hflat hsmall).2 ⟨vs, rfl, hvs, hdatawords⟩
    have htopics := valuesOfTopicsFrom_eq_ok_iff.2 ⟨us, rfl, hus, htopicwords⟩
    obtain ⟨gs, hgs⟩ : ∃ gs, assign s.fields (us.map .word) (vs.map .word) = .ok gs := by
      refine exists_assign ?_ ?_
      · rw [List.length_map]
        exact Nat.le_of_eq hus.length_eq
      · rw [List.length_map]
        exact Nat.le_of_eq hvs.length_eq
    exact ⟨⟨s.name, gs⟩, decode_eq_ok_iff.2 ⟨rfl, _, _, hvalues, htopics, hgs⟩⟩

/-- What decoding a log of a flat event comes to, in octets.

The log is decoded exactly if the data has a word for each of its fields and there is a topic for
each indexed field, and each of them is what a value of the type of the field is written as; of an
indexed field of more than one word any topic will do.  The event is then written as these words and
topics and no others, so logs that differ there are not decoded as one event.  The data of a log in
memory is always shorter than `2 ^ 64` octets. -/
theorem decode_flat (hflat : s.IsFlat) (log : EventLog) (hsmall : log.data.length < 2 ^ 64) :
    ((∃ e, s.decode log = .ok e) ↔
      (s.dataFields.length = 0 ∨ 32 * s.dataFields.length ≤ log.data.length) ∧
      (s.indexedFields.length = 0 ∨
        s.firstTopic + s.indexedFields.length ≤ log.topics.length) ∧
      (∀ i f t, s.dataFields[i]? = some f → f.type = .word t →
        ∃ u : WordValue, u.HasType t ∧ u.encode.toBytes = (log.data.drop (32 * i)).take 32) ∧
      ∀ j f t, s.indexedFields[j]? = some f → f.type = .word t →
        ∃ u : WordValue, u.HasType t ∧ log.topics[s.firstTopic + j]? = some u.encode) ∧
    (∀ e, s.decode log = .ok e →
      encodeSequence (dataValues e.fields) = log.data.take (32 * s.dataFields.length) ∧
      (topicValues e.fields).map AbiValue.toWord =
        (log.topics.drop s.firstTopic).take s.indexedFields.length) ∧
    ∀ e log', log'.data.length < 2 ^ 64 → s.decode log = .ok e → s.decode log' = .ok e →
      log.data.take (32 * s.dataFields.length) = log'.data.take (32 * s.dataFields.length) ∧
      (log.topics.drop s.firstTopic).take s.indexedFields.length =
        (log'.topics.drop s.firstTopic).take s.indexedFields.length := by
  refine ⟨?_, fun e he => encode_of_isFlat hflat hsmall he, fun e log' hsmall' he he' => ?_⟩
  · rw [exists_decode_iff_of_isFlat hflat hsmall]
    constructor
    · rintro ⟨hdata, htopics⟩
      refine ⟨?_, ?_, fun i f t hf ht => ?_, fun j f t hf ht => ?_⟩
      · have hlength := add_length_le (k := 0) (by simpa only [Nat.zero_add] using hdata)
        rw [Bytes.length_words] at hlength
        omega
      · exact add_length_le htopics
      · obtain ⟨u, hu, hw⟩ := hdata i f hf
        rw [EventField.wordType_of_word ht] at hu
        exact ⟨u, hu, Bytes.getElem?_words_eq_some_iff.1 hw⟩
      · obtain ⟨u, hu, hw⟩ := htopics j f hf
        rw [EventField.wordType_of_word ht] at hu
        exact ⟨u, hu, hw⟩
    · rintro ⟨-, htopicCount, hdata, htopics⟩
      refine ⟨fun i f hf => ?_, fun j f hf => ?_⟩
      · obtain ⟨t, ht⟩ := hflat f (List.mem_of_getElem? hf)
        obtain ⟨u, hu, hw⟩ := hdata i f t hf ht
        rw [← EventField.wordType_of_word ht] at hu
        exact ⟨u, hu, Bytes.getElem?_words_eq_some_iff.2 hw⟩
      · have hj : j < s.indexedFields.length := (List.getElem?_eq_some_iff.1 hf).1
        have htopic : s.firstTopic + j < log.topics.length := by omega
        by_cases hword : ∃ t, f.type = .word t
        · obtain ⟨t, ht⟩ := hword
          rw [EventField.wordType_of_word ht]
          exact htopics j f t hf ht
        · have hoctets := isCanonical_octets log.topics[s.firstTopic + j]
          rw [← EventField.wordType_of_ne_word fun t ht => hword ⟨t, ht⟩,
            WordType.isCanonical_iff] at hoctets
          obtain ⟨u, hu, hw⟩ := hoctets
          exact ⟨u, hu, by rw [List.getElem?_eq_getElem htopic, hw]⟩
  · obtain ⟨hdata, htopics⟩ := encode_of_isFlat hflat hsmall he
    obtain ⟨hdata', htopics'⟩ := encode_of_isFlat hflat hsmall' he'
    exact ⟨hdata.symm.trans hdata', htopics.symm.trans htopics'⟩

/-- An event with values and a digest in topics, and two numbers in its data. -/
def voteSchema : EventSchema where
  name := "Vote"
  signature := "Vote(address,int16,string,uint24)"
  selector := Keccak.digest (Utf8.encode "Vote(address,int16,string,uint24)")
  anonymous := true
  fields := [
    ⟨"voter", .word .address, true⟩,
    ⟨"weight", .word (.int .bits16), false⟩,
    ⟨"reason", .string, true⟩,
    ⟨"choice", .word (.uint .bits24), false⟩]

/-- A vote, with more octets and topics than it needs. -/
def voteLog : EventLog where
  topics := [7, 99, 1]
  data := [BitVec.ofInt 256 (-3), 255].flatMap Word.toBytes ++ [1, 2, 3]

theorem voteSchema_decode_flat :
    voteSchema.IsFlat ∧ voteLog.data.length < 2 ^ 64 ∧ ∃ e, voteSchema.decode voteLog = .ok e ∧
      encodeSequence (dataValues e.fields) = voteLog.data.take 64 ∧
      (topicValues e.fields).map AbiValue.toWord = [7, 99] := by
  have hflat : voteSchema.IsFlat := by
    intro f hf
    simp only [dataFields, voteSchema, List.filter_cons, List.filter_nil, Bool.not_true,
      Bool.not_false, if_true, Bool.false_eq_true, if_false, List.mem_cons, List.not_mem_nil,
      or_false] at hf
    rcases hf with rfl | rfl <;> exact ⟨_, rfl⟩
  have hdecode : voteSchema.decode voteLog = .ok ⟨"Vote", [
      ⟨"voter", .word (.address 7), true⟩,
      ⟨"weight", .word (.int .bits16 (-3)), false⟩,
      ⟨"reason", .word (.fixedBytes .word 99), true⟩,
      ⟨"choice", .word (.uint .bits24 255), false⟩]⟩ := rfl
  have hsmall : voteLog.data.length < 2 ^ 64 := by decide +kernel
  exact ⟨hflat, hsmall, _, hdecode, (decode_flat hflat voteLog hsmall).2.1 _ hdecode⟩

end EventSchema
end RollupBoundary
