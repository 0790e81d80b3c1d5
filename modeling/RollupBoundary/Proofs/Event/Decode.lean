import Mathlib
import RollupBoundary.Event.Decode
import RollupBoundary.Proofs.Abi.Word
import RollupBoundary.Proofs.Sequencing

/-!
# What a decoded log says

`EventSchema.decode` works in three steps, and each of them has one lemma here that says when it
succeeds and with what.

* The topics of the indexed fields give values exactly if those values are written as the words
  that stand there (`valuesOfTopicsFrom_eq_ok_iff`).  An indexed field of a type of more than one
  word is no exception: its topic is read as 32 octets, of which every word is an encoding.
* The data gives the values of the payload if it passes the check of each field
  (`valuesOfData_eq_ok_iff`), and a failure is always one of the data (`valuesOfData_error`).
* The fields take their values in their declared order (`assign_eq_ok_iff`), and they run out of
  them only if there are fewer values than fields (`exists_assign`).

`decode_eq_ok_iff` puts the three together.
-/

namespace RollupBoundary

open Abi

/-- A list that begins at a place of another one, element by element. -/
lemma cons_prefix_drop_iff {α : Type} {a : α} {as bs : List α} {k : Nat} :
    a :: as <+: bs.drop k ↔ bs[k]? = some a ∧ as <+: bs.drop (k + 1) := by
  by_cases hk : k < bs.length
  · rw [List.drop_eq_getElem_cons hk, List.cons_prefix_cons, List.getElem?_eq_getElem hk,
      Option.some_inj, eq_comm]
  · rw [List.drop_eq_nil_of_le (by omega), List.getElem?_eq_none (by omega)]
    exact iff_of_false (fun h => nomatch List.prefix_nil.1 h) (fun h => nomatch h.1)

/-! ## Topics -/

/-- The type that a field is read at where it has one word: its own if its values take one word, and
else 32 octets. -/
def EventField.wordType (f : EventField) : WordType :=
  match f.type with
  | .word t => t
  | _ => .fixedBytes .word

lemma EventField.wordType_of_word {f : EventField} {t : WordType} (h : f.type = .word t) :
    f.wordType = t := by
  rw [wordType, h]

lemma EventField.wordType_of_ne_word {f : EventField} (h : ∀ t, f.type ≠ .word t) :
    f.wordType = .fixedBytes .word := by
  rw [wordType]
  cases htype : f.type with
  | word t => exact absurd htype (h t)
  | _ => rfl

namespace EventSchema

lemma isCanonical_octets (w : Word) : (WordType.fixedBytes .word).isCanonical w = true := by
  have hone : w.toNat % 1 = 0 := Nat.mod_one _
  simpa [WordType.isCanonical, ByteWidth.bits, ByteWidth.word] using hone

lemma valueOfTopic_eq (f : EventField) (topic : Word) :
    valueOfTopic f topic =
      if f.wordType.isCanonical topic then .ok (.word (f.wordType.decode topic))
      else .error (.topicNotCanonical f.name f.wordType) := by
  rw [valueOfTopic, EventField.wordType]
  cases f.type with
  | word t => rfl
  | _ => exact (if_pos (isCanonical_octets topic)).symm

/-- A topic is read as a value exactly if the value is written as the topic. -/
lemma valueOfTopic_eq_ok_iff {f : EventField} {topic : Word} {v : AbiValue} :
    valueOfTopic f topic = .ok v ↔
      ∃ u : WordValue, v = .word u ∧ u.HasType f.wordType ∧ u.encode = topic := by
  rw [valueOfTopic_eq]
  constructor
  · intro h
    split at h
    · next hcanonical =>
      cases h
      exact ⟨_, rfl, WordType.hasType_decode hcanonical, WordType.encode_decode hcanonical⟩
    · cases h
  · rintro ⟨u, rfl, hu, rfl⟩
    rw [if_pos (WordType.isCanonical_encode hu), WordType.decode_encode hu]

/-- Topics from a place on are read as values exactly if the values are written as these topics. -/
theorem valuesOfTopicsFrom_eq_ok_iff {topics : List Word} {index : Nat} {fs : List EventField}
    {vs : List AbiValue} :
    valuesOfTopicsFrom topics index fs = .ok vs ↔
      ∃ us : List WordValue, vs = us.map .word ∧
        List.Forall₂ (fun f u => u.HasType f.wordType) fs us ∧
        us.map WordValue.encode <+: topics.drop index := by
  induction fs generalizing index vs with
  | nil =>
    constructor
    · intro h
      cases h
      exact ⟨[], rfl, .nil, List.nil_prefix⟩
    · rintro ⟨us, rfl, hus, -⟩
      cases hus
      rfl
  | cons f fs ih =>
    rw [valuesOfTopicsFrom]
    cases htopic : topics[index]? with
    | none =>
      refine iff_of_false nofun ?_
      rintro ⟨_, -, hus, hwords⟩
      cases hus
      rw [List.map_cons, cons_prefix_drop_iff, htopic] at hwords
      cases hwords.1
    | some topic =>
      simp only [bind_eq_ok_iff, valueOfTopic_eq_ok_iff, ih]
      constructor
      · rintro ⟨_, ⟨u, rfl, hu, rfl⟩, _, ⟨us, rfl, hus, hwords⟩, h⟩
        cases h
        exact ⟨u :: us, rfl, .cons hu hus, cons_prefix_drop_iff.2 ⟨htopic, hwords⟩⟩
      · rintro ⟨_, rfl, hus, hwords⟩
        cases hus with
        | @cons _ u _ us hu hus =>
          rw [List.map_cons, cons_prefix_drop_iff, htopic, Option.some_inj] at hwords
          exact ⟨_, ⟨u, rfl, hu, hwords.1.symm⟩, _, ⟨us, rfl, hus, hwords.2⟩, rfl⟩

/-- Topics without values lack one, or have one that is not canonical. -/
lemma valuesOfTopicsFrom_error {topics : List Word} {index : Nat} {fs : List EventField}
    {e : EventError} (h : valuesOfTopicsFrom topics index fs = .error e) :
    (∃ field place, e = .noTopic field place topics.length) ∨
      ∃ field type, e = .topicNotCanonical field type := by
  induction fs generalizing index with
  | nil => cases h
  | cons f fs ih =>
    rw [valuesOfTopicsFrom] at h
    split at h
    · cases h
      exact .inl ⟨_, _, rfl⟩
    · obtain htopic | ⟨v, -, h⟩ := bind_eq_error_iff.1 h
      · rw [valueOfTopic_eq] at htopic
        split at htopic <;> cases htopic
        exact .inr ⟨_, _, rfl⟩
      · obtain hothers | ⟨vs, -, h⟩ := bind_eq_error_iff.1 h
        · exact ih hothers
        · cases h

/-! ## Data -/

lemma checkValues_cons_eq_ok_iff {data : Bytes} {f : EventField} {fs : List EventField}
    {offset : Nat} {offsets : List Nat} {v : AbiValue} {vs : List AbiValue} :
    checkValues data (f :: fs) (offset :: offsets) (v :: vs) = .ok () ↔
      headIsCanonical f.type offset data = true ∧ v.inRange = true ∧
        checkValues data fs offsets vs = .ok () := by
  rw [checkValues, ← and_assoc, ← Bool.and_eq_true]
  by_cases hpasses : (headIsCanonical f.type offset data && v.inRange) = true
  · rw [if_pos hpasses, and_iff_right hpasses]
  · rw [if_neg hpasses]
    exact ⟨nofun, fun h => absurd h.1 hpasses⟩

lemma checkValues_error {data : Bytes} {fs : List EventField} {offsets : List Nat}
    {vs : List AbiValue} {e : EventError} (h : checkValues data fs offsets vs = .error e) :
    ∃ fault, e = .data fault := by
  induction fs generalizing offsets vs with
  | nil => cases h
  | cons f fs ih =>
    cases offsets with
    | nil => cases h
    | cons offset offsets =>
      cases vs with
      | nil => cases h
      | cons v vs =>
        rw [checkValues] at h
        split at h
        · exact ih h
        · cases h
          exact ⟨_, rfl⟩

variable {s : EventSchema} {log : EventLog} {data : Bytes}

/-- The data gives the values of its payload if they pass. -/
theorem valuesOfData_eq_ok_iff {vs : List AbiValue} :
    s.valuesOfData data = .ok vs ↔
      decodeSequence s.dataTypes data = .ok vs ∧
        checkValues data s.dataFields (AbiType.headOffsets 0 s.dataTypes) vs = .ok () := by
  rw [valuesOfData, dataTypes]
  split
  · next hempty =>
    rw [List.isEmpty_iff.1 hempty, List.map_nil, decodeSequence, AbiType.allZeroSized, if_pos rfl]
    rw [Except.ok.injEq, Except.ok.injEq]
    exact ⟨fun h => ⟨h, rfl⟩, fun h => h.1⟩
  · cases decodeSequence (s.dataFields.map EventField.type) data with
    | error fault =>
      refine iff_of_false (fun h => ?_) (fun h => ?_)
      · cases h
      · cases h.1
    | ok values =>
      simp only [bind_eq_ok_iff]
      constructor
      · rintro ⟨_, hcheck, h⟩
        cases h
        exact ⟨rfl, hcheck⟩
      · rintro ⟨h, hcheck⟩
        cases h
        exact ⟨_, hcheck, rfl⟩

/-- Data without values has a fault. -/
theorem valuesOfData_error {e : EventError} (h : s.valuesOfData data = .error e) :
    ∃ fault, e = .data fault := by
  rw [valuesOfData] at h
  split at h
  · cases h
  · split at h
    · cases h
      exact ⟨_, rfl⟩
    · next vs _ =>
      cases hcheck : checkValues data s.dataFields (AbiType.headOffsets 0 s.dataTypes) vs with
      | error e' =>
        rw [hcheck] at h
        cases h
        exact checkValues_error hcheck
      | ok _ =>
        rw [hcheck] at h
        cases h

end EventSchema

/-! ## Fields with their values -/

namespace FilledField

/-- The values that came from topics, in their declared order. -/
def topicValues (gs : List FilledField) : List AbiValue :=
  (gs.filter fun g => g.indexed).map value

/-- The values that came from the data, in their declared order. -/
def dataValues (gs : List FilledField) : List AbiValue :=
  (gs.filter fun g => !g.indexed).map value

variable {g : FilledField} {gs : List FilledField}

lemma topicValues_cons_true (h : g.indexed = true) :
    topicValues (g :: gs) = g.value :: topicValues gs := by
  rw [topicValues, List.filter_cons_of_pos h, List.map_cons, topicValues]

lemma topicValues_cons_false (h : g.indexed = false) :
    topicValues (g :: gs) = topicValues gs := by
  rw [topicValues, List.filter_cons_of_neg (by simp [h]), topicValues]

lemma dataValues_cons_true (h : g.indexed = true) : dataValues (g :: gs) = dataValues gs := by
  rw [dataValues, List.filter_cons_of_neg (by simp [h]), dataValues]

lemma dataValues_cons_false (h : g.indexed = false) :
    dataValues (g :: gs) = g.value :: dataValues gs := by
  rw [dataValues, List.filter_cons_of_pos (by simp [h]), List.map_cons, dataValues]

end FilledField

namespace EventSchema

open FilledField

/-- That a field has its value from where the schema says it stands. -/
def Fills (f : EventField) (g : FilledField) : Prop :=
  g.name = f.name ∧ g.indexed = f.indexed

/-- The fields are filled with the first values of topics and data, in their declared order. -/
theorem assign_eq_ok_iff {fs : List EventField} {us vs : List AbiValue} {gs : List FilledField} :
    assign fs us vs = .ok gs ↔
      List.Forall₂ Fills fs gs ∧ topicValues gs <+: us ∧ dataValues gs <+: vs := by
  induction fs generalizing us vs gs with
  | nil =>
    constructor
    · intro h
      cases h
      exact ⟨.nil, List.nil_prefix, List.nil_prefix⟩
    · rintro ⟨h, -⟩
      cases h
      rfl
  | cons f fs ih =>
    cases hindexed : f.indexed with
    | true =>
      cases us with
      | nil =>
        simp only [assign, hindexed]
        refine ⟨nofun, ?_⟩
        rintro ⟨h, htopics, -⟩
        cases h with
        | cons hg _ =>
          rw [topicValues_cons_true (hg.2.trans hindexed), List.prefix_nil] at htopics
          cases htopics
      | cons u us =>
        simp only [assign, hindexed, bind_eq_ok_iff, ih]
        constructor
        · rintro ⟨gs, ⟨hgs, htopics, hdata⟩, h⟩
          cases h
          refine ⟨.cons ⟨rfl, hindexed.symm⟩ hgs, ?_, hdata⟩
          exact List.cons_prefix_cons.2 ⟨rfl, htopics⟩
        · rintro ⟨h, htopics, hdata⟩
          cases h with
          | @cons _ g _ gs hg hgs =>
            have hgindexed := hg.2.trans hindexed
            rw [topicValues_cons_true hgindexed, List.cons_prefix_cons] at htopics
            rw [dataValues_cons_true hgindexed] at hdata
            refine ⟨gs, ⟨hgs, htopics.2, hdata⟩, ?_⟩
            rw [← htopics.1, ← hg.1, ← hgindexed]
            rfl
    | false =>
      cases vs with
      | nil =>
        cases us <;>
        · simp only [assign, hindexed]
          refine ⟨nofun, ?_⟩
          rintro ⟨h, -, hdata⟩
          cases h with
          | cons hg _ =>
            rw [dataValues_cons_false (hg.2.trans hindexed), List.prefix_nil] at hdata
            cases hdata
      | cons v vs =>
        simp only [assign, hindexed, bind_eq_ok_iff, ih]
        constructor
        · rintro ⟨gs, ⟨hgs, htopics, hdata⟩, h⟩
          cases h
          refine ⟨.cons ⟨rfl, hindexed.symm⟩ hgs, htopics, ?_⟩
          exact List.cons_prefix_cons.2 ⟨rfl, hdata⟩
        · rintro ⟨h, htopics, hdata⟩
          cases h with
          | @cons _ g _ gs hg hgs =>
            have hgindexed := hg.2.trans hindexed
            rw [dataValues_cons_false hgindexed, List.cons_prefix_cons] at hdata
            rw [topicValues_cons_false hgindexed] at htopics
            refine ⟨gs, ⟨hgs, htopics, hdata.2⟩, ?_⟩
            rw [← hdata.1, ← hg.1, ← hgindexed]
            rfl

lemma length_values_of_fills {fs : List EventField} {gs : List FilledField}
    (h : List.Forall₂ Fills fs gs) :
    (topicValues gs).length = (fs.filter fun f => f.indexed).length ∧
      (dataValues gs).length = (fs.filter fun f => !f.indexed).length := by
  induction h with
  | nil => exact ⟨rfl, rfl⟩
  | @cons f g _ _ hg _ ih =>
    cases hindexed : f.indexed with
    | true =>
      rw [topicValues_cons_true (hg.2.trans hindexed), dataValues_cons_true (hg.2.trans hindexed)]
      simpa [hindexed] using ih
    | false =>
      rw [topicValues_cons_false (hg.2.trans hindexed),
        dataValues_cons_false (hg.2.trans hindexed)]
      simpa [hindexed] using ih

/-- The fields are filled if there is a value for each of them. -/
theorem exists_assign {fs : List EventField} {us vs : List AbiValue}
    (hus : (fs.filter fun f => f.indexed).length ≤ us.length)
    (hvs : (fs.filter fun f => !f.indexed).length ≤ vs.length) :
    ∃ gs, assign fs us vs = .ok gs := by
  induction fs generalizing us vs with
  | nil => exact ⟨[], rfl⟩
  | cons f fs ih =>
    cases hindexed : f.indexed with
    | true =>
      simp only [List.filter_cons, hindexed, if_true, List.length_cons] at hus hvs
      cases us with
      | nil => exact absurd hus (Nat.not_succ_le_zero _)
      | cons u us =>
        obtain ⟨gs, hgs⟩ := ih (Nat.le_of_succ_le_succ hus) hvs
        simp only [assign, hindexed, hgs]
        exact ⟨_, rfl⟩
    | false =>
      simp only [List.filter_cons, hindexed, Bool.not_false, if_true, List.length_cons] at hus hvs
      cases vs with
      | nil => exact absurd hvs (Nat.not_succ_le_zero _)
      | cons v vs =>
        obtain ⟨gs, hgs⟩ := ih hus (Nat.le_of_succ_le_succ hvs)
        simp only [assign, hindexed, hgs]
        exact ⟨_, rfl⟩

/-- Fields that are not filled lack a value. -/
lemma assign_error {fs : List EventField} {us vs : List AbiValue} {e : EventError}
    (h : assign fs us vs = .error e) : ∃ fault, e = .data fault := by
  induction fs generalizing us vs with
  | nil => cases h
  | cons f fs ih =>
    unfold assign at h
    split at h
    · obtain hothers | ⟨gs, -, h⟩ := bind_eq_error_iff.1 h
      · exact ih hothers
      · cases h
    · obtain hothers | ⟨gs, -, h⟩ := bind_eq_error_iff.1 h
      · exact ih hothers
      · cases h
    · cases h
      exact ⟨_, rfl⟩

/-! ## Logs -/

/-- A log is decoded if its data and its topics have values that fill the fields. -/
theorem decode_eq_ok_iff {s : EventSchema} {log : EventLog} {e : Event} :
    s.decode log = .ok e ↔
      e.name = s.name ∧ ∃ us vs, s.valuesOfData log.data = .ok vs ∧
        s.valuesOfTopics log.topics = .ok us ∧ assign s.fields us vs = .ok e.fields := by
  simp only [decode, bind_eq_ok_iff]
  constructor
  · rintro ⟨vs, hvs, us, hus, gs, hgs, h⟩
    cases h
    exact ⟨rfl, us, vs, hvs, hus, hgs⟩
  · rintro ⟨hname, us, vs, hvs, hus, hgs⟩
    refine ⟨vs, hvs, us, hus, e.fields, hgs, ?_⟩
    rw [← hname]
    rfl

/-- A log that is not decoded has a fault in its data or in a topic. -/
lemma decode_error {s : EventSchema} {log : EventLog} {e : EventError}
    (h : s.decode log = .error e) :
    (∃ fault, e = .data fault) ∨
      (∃ field place, e = .noTopic field place log.topics.length) ∨
      ∃ field type, e = .topicNotCanonical field type := by
  rw [decode] at h
  obtain hdata | ⟨vs, -, h⟩ := bind_eq_error_iff.1 h
  · exact .inl (valuesOfData_error hdata)
  obtain htopics | ⟨us, -, h⟩ := bind_eq_error_iff.1 h
  · exact .inr (valuesOfTopicsFrom_error htopics)
  obtain hassign | ⟨gs, -, h⟩ := bind_eq_error_iff.1 h
  · exact .inl (assign_error hassign)
  · cases h

section Outcomes

variable {s : EventSchema} {log : EventLog} {us vs : List AbiValue}

lemma decode_of_valuesOfData_error {err : EventError} (h : s.valuesOfData log.data = .error err) :
    s.decode log = .error err := by
  rw [decode, h]
  rfl

lemma decode_of_valuesOfTopics_error {err : EventError} (hdata : s.valuesOfData log.data = .ok vs)
    (htopics : s.valuesOfTopics log.topics = .error err) : s.decode log = .error err := by
  rw [decode, hdata, htopics]
  rfl

lemma decode_of_assign_error {err : EventError} (hdata : s.valuesOfData log.data = .ok vs)
    (htopics : s.valuesOfTopics log.topics = .ok us) (h : assign s.fields us vs = .error err) :
    s.decode log = .error err := by
  have hbind : s.decode log = assign s.fields us vs >>= fun gs => .ok ⟨s.name, gs⟩ := by
    rw [decode, hdata, htopics]
    rfl
  rw [hbind, h]
  rfl

lemma length_of_valuesOfTopics {topics : List Word} (h : s.valuesOfTopics topics = .ok us) :
    us.length = s.indexedFields.length := by
  obtain ⟨words, rfl, hwords, -⟩ := valuesOfTopicsFrom_eq_ok_iff.1 h
  rw [List.length_map, hwords.length_eq]

/-- A log is decoded if its topics have values and its data has one for each field that stands
there. -/
lemma exists_decode_of_length (hdata : s.valuesOfData log.data = .ok vs)
    (hlength : vs.length = s.dataFields.length)
    (htopics : s.valuesOfTopics log.topics = .ok us) : ∃ e, s.decode log = .ok e := by
  obtain ⟨gs, hgs⟩ : ∃ gs, assign s.fields us vs = .ok gs :=
    exists_assign (Nat.le_of_eq (length_of_valuesOfTopics htopics).symm)
      (Nat.le_of_eq hlength.symm)
  exact ⟨⟨s.name, gs⟩, decode_eq_ok_iff.2 ⟨rfl, us, vs, hdata, htopics, hgs⟩⟩

/-- Data with a value for each field is not where a log fails. -/
lemma decode_ne_data_error (h : s.valuesOfData log.data = .ok vs)
    (hlength : vs.length = s.dataFields.length) (fault : DataFault) :
    s.decode log ≠ .error (.data fault) := by
  intro hdecode
  cases htopics : s.valuesOfTopics log.topics with
  | error err =>
    rw [decode_of_valuesOfTopics_error h htopics] at hdecode
    cases hdecode
    obtain ⟨_, _, hfault⟩ | ⟨_, _, hfault⟩ := valuesOfTopicsFrom_error htopics <;> cases hfault
  | ok us =>
    obtain ⟨e, he⟩ := exists_decode_of_length h hlength htopics
    rw [he] at hdecode
    cases hdecode

end Outcomes

end EventSchema
end RollupBoundary
