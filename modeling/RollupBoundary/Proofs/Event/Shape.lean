import Mathlib
import RollupBoundary.Proofs.Abi.Shape
import RollupBoundary.Proofs.Event.RoundTrip

/-!
# What a decoded event holds

Whatever a log has in it, a decoded event has the fields of the schema in their order, each with a
value that is built as the type of the field is and has no number beyond its width
(`carries_of_decode`).  An indexed field of a type of more than one word is built as 32 octets, as
its topic is all there is of it.  `sound_of_decode` says the same field by field, down to the topic
that such octets are and to the single numbers inside a value.

To look a field up by its name comes to the same in the event and in the schema
(`value?_of_decode`), since both take the first field of that name.
-/

namespace RollupBoundary

open Abi FilledField

/-- The first field of that name. -/
def EventSchema.field? (s : EventSchema) (name : String) : Option EventField :=
  s.fields.find? fun f => f.name = name

/-- That a value is built as a type is and has no number beyond its width. -/
def Abi.AbiValue.WellFormed (v : AbiValue) (t : AbiType) : Prop :=
  v.HasShape t ∧ v.inRange = true

/-- Whether all that a log has of a field is a digest, in a topic. -/
def EventField.isDigest (f : EventField) : Bool :=
  match f.type with
  | .word _ => false
  | _ => f.indexed

lemma EventField.indexed_of_isDigest {f : EventField} (h : f.isDigest = true) :
    f.indexed = true := by
  rw [isDigest] at h
  split at h
  · cases h
  · exact h

lemma EventField.carriedType_eq (f : EventField) :
    f.carriedType = if f.isDigest then .word (.fixedBytes .word) else f.type := by
  rw [carriedType, isDigest, wordType]
  cases f.type <;> cases f.indexed <;> rfl

namespace EventSchema

/-- The place of the topic of a field, given by its place among the fields: behind the selector, if
there is one, and behind the topics of the fields before it. -/
def topicPlace (s : EventSchema) (i : Nat) : Nat :=
  s.firstTopic + (s.fields.take i).countP EventField.indexed

/-- That a field of an event is one of a schema, with a value as its type says. -/
def Carries (f : EventField) (g : FilledField) : Prop :=
  Fills f g ∧ g.value.WellFormed f.carriedType

/-! ## Values in the data -/

variable {s : EventSchema} {log : EventLog} {data : Bytes}

lemma inRange_of_checkValues {fs : List EventField} {start : UInt64} {vs : List AbiValue}
    (h : checkValues data fs (AbiType.headOffsets start (fs.map EventField.type)) vs = .ok ())
    (hlength : vs.length = fs.length) : ∀ v ∈ vs, v.inRange = true := by
  induction fs generalizing start vs with
  | nil =>
    rw [List.length_eq_zero_iff.1 hlength]
    simp
  | cons f fs ih =>
    cases vs with
    | nil => cases hlength
    | cons v vs =>
      rw [List.map_cons, AbiType.headOffsets, checkValues_cons_eq_ok_iff] at h
      rw [List.length_cons, List.length_cons, Nat.succ_inj] at hlength
      exact List.forall_mem_cons.2 ⟨h.2.1, ih h.2.2 hlength⟩

/-- The values in the data are as their types say.  There are none if there is nothing to decode. -/
lemma wellFormed_valuesOfData {vs : List AbiValue} (h : s.valuesOfData data = .ok vs) :
    vs = [] ∨ List.Forall₂ AbiValue.WellFormed vs s.dataTypes := by
  obtain ⟨hdecode, hcheck⟩ := valuesOfData_eq_ok_iff.1 h
  have hread : vs = [] ∨ ∃ c, AbiType.readAll s.dataTypes (Cursor.start data) = .ok (vs, c) := by
    rw [decodeSequence] at hdecode
    grind
  obtain hnone | ⟨c, hread⟩ := hread
  · exact .inl hnone
  right
  have hshapes := hasShape_of_readAll s.dataTypes _ vs c hread
  have hlength : vs.length = s.dataFields.length := by
    rw [hshapes.length_eq, dataTypes, List.length_map]
  have hranges := inRange_of_checkValues hcheck hlength
  have hboth := (List.forall₂_and_left vs s.dataTypes).2 ⟨hranges, hshapes⟩
  exact hboth.imp fun _ _ hv => hv.symm

/-! ## Events -/

/-- A decoded event has values from topics that are written as the topics are. -/
lemma exists_words_of_decode {e : Event} (h : s.decode log = .ok e) :
    ∃ words : List WordValue, topicValues e.fields = words.map .word ∧
      List.Forall₂ (fun f u => u.HasType f.wordType) s.indexedFields words ∧
      words.map WordValue.encode <+: log.topics.drop s.firstTopic := by
  obtain ⟨-, us, vs, -, htopics, hassign⟩ := decode_eq_ok_iff.1 h
  obtain ⟨words, rfl, hwords, hprefix⟩ := valuesOfTopicsFrom_eq_ok_iff.1 htopics
  obtain ⟨hfills, hu, -⟩ := assign_eq_ok_iff.1 hassign
  refine ⟨words, hu.eq_of_length ?_, hwords, hprefix⟩
  rw [(length_values_of_fills hfills).1, List.length_map]
  exact hwords.length_eq

/-- A decoded event has the fields of the schema, with values as their types say. -/
theorem carries_of_decode {e : Event} (h : s.decode log = .ok e) :
    List.Forall₂ Carries s.fields e.fields := by
  obtain ⟨words, hu', hwords, -⟩ := exists_words_of_decode h
  obtain ⟨-, us, vs, hdata, -, hassign⟩ := decode_eq_ok_iff.1 h
  obtain ⟨hfills, -, hv⟩ := assign_eq_ok_iff.1 hassign
  have hvlength := (length_values_of_fills hfills).2
  have hv' : List.Forall₂ AbiValue.WellFormed (dataValues e.fields) s.dataTypes := by
    obtain rfl | hshapes := wellFormed_valuesOfData hdata
    · rw [List.prefix_nil] at hv
      have hnone : s.dataFields = [] := by
        rw [← List.length_eq_zero_iff, dataFields, ← hvlength, hv, List.length_nil]
      rw [hv, dataTypes, hnone]
      exact .nil
    · have hlength : (dataValues e.fields).length = vs.length := by
        rw [hvlength, hshapes.length_eq, dataTypes, List.length_map, dataFields]
      rwa [hv.eq_of_length hlength]
  exact forall₂_of_values (fun _ _ hw => ⟨.word hw.1, hw.2.1⟩) hfills hu' hwords hv'

/-- Fields are found by their names where the fields of the schema are. -/
lemma find?_of_carries {fs : List EventField} {gs : List FilledField}
    (h : List.Forall₂ Carries fs gs) (name : String) :
    Option.Rel Carries (fs.find? fun f => f.name = name) (gs.find? fun g => g.name = name) := by
  induction h with
  | nil => exact .none
  | @cons f g fs gs hg _ ih =>
    by_cases hname : f.name = name
    · rw [List.find?_cons_of_pos (by simpa using hname),
        List.find?_cons_of_pos (by simpa using hg.1.1.trans hname)]
      exact .some hg
    · rw [List.find?_cons_of_neg (by simpa using hname),
        List.find?_cons_of_neg (by simpa [hg.1.1] using hname)]
      exact ih

/-- A decoded event has a value of a name if the schema has a field of that name, and the value is
as the type of the field says. -/
lemma value?_of_decode {e : Event} (h : s.decode log = .ok e) (name : String) :
    Option.Rel (fun f v => v.WellFormed f.carriedType) (s.field? name) (e.value? name) := by
  have hfind := find?_of_carries (carries_of_decode h) name
  rw [field?, Event.value?]
  generalize (s.fields.find? fun f => f.name = name) = f? at hfind ⊢
  generalize (e.fields.find? fun g => g.name = name) = g? at hfind ⊢
  cases hfind with
  | none => exact .none
  | some hg => exact .some hg.2

/-! ## Any log at all -/

section Sound

variable {fs : List EventField} {gs : List FilledField} {e : Event}

/-- An element that passes a filter stands behind those before it that pass. -/
lemma getElem?_filter_countP {α : Type} {p : α → Bool} {as : List α} {i : Nat} {a : α}
    (h : as[i]? = some a) (hp : p a = true) : (as.filter p)[(as.take i).countP p]? = some a := by
  obtain ⟨hi, rfl⟩ := List.getElem?_eq_some_iff.1 h
  have hsplit : as.filter p = (as.take i).filter p ++ as[i] :: (as.drop (i + 1)).filter p := by
    conv_lhs => rw [← List.take_append_drop i as, List.drop_eq_getElem_cons hi]
    rw [List.filter_append, List.filter_cons_of_pos hp]
  rw [hsplit, List.countP_eq_length_filter, List.getElem?_append_right (Nat.le_refl _),
    Nat.sub_self, List.getElem?_cons_zero]

/-- Fields and the fields filled for them are counted alike by where they stand. -/
lemma countP_take_of_fills (h : List.Forall₂ Fills fs gs) (q : Bool → Bool) (i : Nat) :
    ((gs.take i).countP fun g => q g.indexed) = (fs.take i).countP fun f => q f.indexed := by
  induction h generalizing i with
  | nil => simp
  | @cons f g fs gs hg _ ih =>
    cases i with
    | zero => rfl
    | succ i => simp only [List.take_succ_cons, List.countP_cons, ih i, hg.2]

/-- The value of an indexed field stands behind those of the indexed fields before it. -/
lemma getElem?_topicValues (h : List.Forall₂ Fills fs gs) {i : Nat} {g : FilledField}
    (hg : gs[i]? = some g) (hindexed : g.indexed = true) :
    (topicValues gs)[(fs.take i).countP EventField.indexed]? = some g.value := by
  have hcount : (gs.take i).countP FilledField.indexed = (fs.take i).countP EventField.indexed :=
    countP_take_of_fills h id i
  rw [topicValues, List.getElem?_map, ← hcount, getElem?_filter_countP hg hindexed]
  rfl

/-- The value of a field in the data stands behind those of such fields before it. -/
lemma getElem?_dataValues (h : List.Forall₂ Fills fs gs) {i : Nat} {g : FilledField}
    (hg : gs[i]? = some g) (hindexed : g.indexed = false) :
    (dataValues gs)[(fs.take i).countP fun f => !f.indexed]? = some g.value := by
  rw [dataValues, List.getElem?_map, ← countP_take_of_fills h not,
    getElem?_filter_countP hg (by rw [hindexed]; rfl)]
  rfl

/-- The word behind a field whose value came from a topic is the one at the place of the field. -/
lemma exists_word_of_decode (h : s.decode log = .ok e) {i : Nat} {g : FilledField}
    (hg : e.fields[i]? = some g) (hindexed : g.indexed = true) :
    ∃ u : WordValue, g.value = .word u ∧ log.topics[s.topicPlace i]? = some u.encode := by
  obtain ⟨words, hvalues, -, hprefix⟩ := exists_words_of_decode h
  have hfills := (carries_of_decode h).imp fun _ _ hg => hg.1
  have hvalue := getElem?_topicValues hfills hg hindexed
  -- The values are those of the words in order, and the words are the topics behind the selector.
  rw [hvalues, List.getElem?_map, Option.map_eq_some_iff] at hvalue
  obtain ⟨u, hu, hword⟩ := hvalue
  obtain ⟨hlt, rfl⟩ := List.getElem?_eq_some_iff.1 hu
  have htopic := List.prefix_iff_getElem?.1 hprefix _ (by rwa [List.length_map])
  rw [List.getElem?_drop, List.getElem_map] at htopic
  exact ⟨_, hword.symm, htopic⟩

/-- Whatever a log has in it, an event that is decoded from it is one of the schema.

It has the fields of the schema in their order.  Each has a value that is built as its declared type
is: with the same widths, with as many elements in an array of one length and as many components in
a tuple as the type has.  The exception is an indexed field of more than one word, whose value is
its topic as 32 octets.  And no number, however deep inside a value, is beyond its width. -/
theorem sound_of_decode (h : s.decode log = .ok e) :
    e.name = s.name ∧ e.fields.length = s.fields.length ∧
      ∀ i f g, s.fields[i]? = some f → e.fields[i]? = some g →
        g.name = f.name ∧ g.indexed = f.indexed ∧
        (f.isDigest = true → ∃ topic, log.topics[s.topicPlace i]? = some topic ∧
          g.value = .word (.fixedBytes .word topic)) ∧
        (f.isDigest = false → g.value.HasShape f.type) ∧
        (∀ k n, .uint k n ∈ g.value.leaves → n < 2 ^ k.bits) ∧
        ∀ k n, .int k n ∈ g.value.leaves →
          -2 ^ (k.bits - 1) ≤ n ∧ n < 2 ^ (k.bits - 1) := by
  have hcarries := carries_of_decode h
  refine ⟨(decode_eq_ok_iff.1 h).1, hcarries.length_eq.symm, fun i f g hf hg => ?_⟩
  obtain ⟨⟨hname, hindexed⟩, hshape, hrange⟩ : Carries f g := by
    obtain ⟨hi, rfl⟩ := List.getElem?_eq_some_iff.1 hf
    obtain ⟨hj, rfl⟩ := List.getElem?_eq_some_iff.1 hg
    exact (List.forall₂_iff_get.1 hcarries).2 i hi hj
  have hleaves := (AbiValue.inRange_iff g.value).1 hrange
  rw [EventField.carriedType_eq] at hshape
  refine ⟨hname, hindexed, fun hdigest => ?_, fun hdigest => ?_, fun k n hn => ?_, fun k n hn => ?_⟩
  · rw [if_pos hdigest] at hshape
    obtain ⟨u, hu, htopic⟩ :=
      exists_word_of_decode h hg (hindexed.trans (EventField.indexed_of_isDigest hdigest))
    rw [hu] at hshape ⊢
    cases hshape with
    | word htype =>
      cases u <;> cases htype
      exact ⟨_, htopic, rfl⟩
  · rwa [if_neg (by simp [hdigest])] at hshape
  · simpa [WordValue.inRange] using hleaves _ hn
  · simpa [WordValue.inRange] using hleaves _ hn

/-- An event with a digest in a topic, and with numbers inside an array of tuples. -/
def partsSchema : EventSchema where
  name := "Parts"
  signature := "Parts(string,(uint48,int48)[])"
  selector := 0
  anonymous := true
  fields := [
    ⟨"memo", .string, true⟩,
    ⟨"parts", .array (.tuple [.word (.uint .bits48), .word (.int .bits48)]), false⟩]

/-- A log of the event with the greatest and the least number of their widths. -/
def partsLog : EventLog where
  topics := [99]
  data := [32, 1, 2 ^ 48 - 1, -2 ^ 47].flatMap Word.toBytes

/-- The array of the log. -/
def partsValue : AbiValue :=
  .array [.tuple [.word (.uint .bits48 (2 ^ 48 - 1)), .word (.int .bits48 (-2 ^ 47))]]

set_option maxRecDepth 10000 in
theorem partsLog_decode :
    ∃ e, partsSchema.decode partsLog = .ok e ∧
      e.fields = [⟨"memo", .word (.fixedBytes .word 99), true⟩, ⟨"parts", partsValue, false⟩] ∧
      partsLog.topics[partsSchema.topicPlace 0]? = some 99 ∧
      partsValue.HasShape (.array (.tuple [.word (.uint .bits48), .word (.int .bits48)])) ∧
      2 ^ 48 - 1 < 2 ^ ByteWidth.bits48.bits ∧
      -2 ^ (ByteWidth.bits48.bits - 1) ≤ (-2 ^ 47 : Int) := by
  have hdecode : ∃ e, partsSchema.decode partsLog = .ok e ∧ e.fields =
      [⟨"memo", .word (.fixedBytes .word 99), true⟩, ⟨"parts", partsValue, false⟩] :=
    ⟨_, rfl, rfl⟩
  obtain ⟨e, he, hfields⟩ := hdecode
  obtain ⟨-, -, hsound⟩ := sound_of_decode he
  rw [hfields] at hsound
  obtain ⟨-, -, hmemo, -⟩ := hsound 0 _ _ rfl rfl
  obtain ⟨-, -, -, hparts, huint, hint⟩ := hsound 1 _ _ rfl rfl
  obtain ⟨topic, htopic, hdigest⟩ := hmemo rfl
  cases hdigest
  exact ⟨e, he, hfields, htopic, hparts rfl, huint .bits48 _ (.head _),
    (hint .bits48 _ (.tail _ (.head _))).1⟩

end Sound

end EventSchema
end RollupBoundary
