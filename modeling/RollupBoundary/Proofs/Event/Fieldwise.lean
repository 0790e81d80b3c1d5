import Mathlib
import RollupBoundary.Proofs.Abi.Places
import RollupBoundary.Proofs.Event.Shape

/-!
# A log is decoded field by field

The decoder collects the values of the topics and those of the data in two lists and then deals them
out, each field taking the next value of its own list.  What comes out is the same as if each field
were decoded on its own: an indexed field from the topic at its place, any other one from the part
of the payload at its place (`exists_values_of_decode`).

A fault is that of the first field that has one, where the data comes before the topics.  In the
data the payload as a whole comes before its fields, and of topics a missing one is a fault as one
that is not canonical is (`ReportsFaults`).

There is one kind of schema for which the two lists do not come out even.  If the data has fields
but all of them are zero-sized, the payload has no values at all, not even empty ones, and once all
the topics are read the first of these fields is left without one.  `decodesFieldwise_of_ofDecl`
tells the two kinds apart.
-/

namespace RollupBoundary

open Abi FilledField

/-! ## Places in a list -/

section Places

variable {α : Type} {p : α → Bool} {as : List α}

/-- An element of a filtered list stands behind as many others that pass as there are before it. -/
lemma exists_of_getElem?_filter {j : Nat} {a : α} (h : (as.filter p)[j]? = some a) :
    ∃ i : Nat, as[i]? = some a ∧ p a = true ∧ (as.take i).countP p = j := by
  induction as generalizing j with
  | nil => cases h
  | cons b as ih =>
    by_cases hb : p b = true
    · rw [List.filter_cons_of_pos hb] at h
      cases j with
      | zero =>
        cases h
        exact ⟨0, rfl, hb, rfl⟩
      | succ j =>
        obtain ⟨i, hi, ha, hcount⟩ := ih h
        refine ⟨i + 1, hi, ha, ?_⟩
        rw [List.take_succ_cons, List.countP_cons_of_pos hb, hcount]
    · rw [List.filter_cons_of_neg hb] at h
      obtain ⟨i, hi, ha, hcount⟩ := ih h
      refine ⟨i + 1, hi, ha, ?_⟩
      rw [List.take_succ_cons, List.countP_cons_of_neg hb, hcount]

lemma lt_of_countP_take_lt {i j : Nat} (h : (as.take i).countP p < (as.take j).countP p) :
    i < j := by
  by_contra hle
  have hprefix : as.take j <+: as.take i := List.take_prefix_take_left (by omega)
  have hcount : (as.take j).countP p ≤ (as.take i).countP p := hprefix.countP_le
  omega

lemma getElem?_of_isPrefix {bs : List α} (h : as <+: bs) {i : Nat} {a : α} (ha : as[i]? = some a) :
    bs[i]? = some a := by
  obtain ⟨hi, rfl⟩ := List.getElem?_eq_some_iff.1 ha
  exact List.prefix_iff_getElem?.1 h i hi

end Places

namespace EventSchema

/-! ## Topics one by one -/

/-- What the topic at a place comes to for an indexed field. -/
def topicValue (topics : List Word) (place : Nat) (f : EventField) : Except EventError AbiValue :=
  match topics[place]? with
  | none => .error (.noTopic f.name place topics.length)
  | some topic => valueOfTopic f topic

section Topics

variable {topics : List Word} {index : Nat} {fs : List EventField}

lemma topicValue_eq_ok_iff {place : Nat} {f : EventField} {v : AbiValue} :
    topicValue topics place f = .ok v ↔
      ∃ topic, topics[place]? = some topic ∧ valueOfTopic f topic = .ok v := by
  rw [topicValue]
  cases topics[place]? <;> simp

lemma valuesOfTopicsFrom_cons (topics : List Word) (index : Nat) (f : EventField)
    (fs : List EventField) :
    valuesOfTopicsFrom topics index (f :: fs) = do
      let v ← topicValue topics index f
      let vs ← valuesOfTopicsFrom topics (index + 1) fs
      return v :: vs := by
  rw [valuesOfTopicsFrom, topicValue]
  cases topics[index]? <;> rfl

/-- Topics are read if each of them is, and then as what each of them is read as. -/
theorem valuesOfTopicsFrom_eq_ok_iff_forall {us : List AbiValue} :
    valuesOfTopicsFrom topics index fs = .ok us ↔
      us.length = fs.length ∧ ∀ j f, fs[j]? = some f →
        ∃ v, us[j]? = some v ∧ topicValue topics (index + j) f = .ok v := by
  induction fs generalizing index us with
  | nil =>
    rw [valuesOfTopicsFrom, Except.ok.injEq, List.length_nil, List.length_eq_zero_iff]
    simp [eq_comm]
  | cons f fs ih =>
    rw [valuesOfTopicsFrom_cons]
    simp only [bind_eq_ok_iff, ih]
    constructor
    · rintro ⟨v, hv, vs, ⟨hlength, hvs⟩, h⟩
      cases h
      refine ⟨by rw [List.length_cons, List.length_cons, hlength], fun j g hg => ?_⟩
      cases j with
      | zero =>
        cases hg
        exact ⟨v, rfl, hv⟩
      | succ j =>
        obtain ⟨u, hu, htopic⟩ := hvs j g hg
        exact ⟨u, hu, by rwa [← Nat.add_assoc, Nat.add_right_comm]⟩
    · rintro ⟨hlength, hall⟩
      cases us with
      | nil => cases hlength
      | cons u us =>
        obtain ⟨v, hu, hv⟩ := hall 0 f rfl
        cases hu
        refine ⟨u, hv, us, ⟨Nat.succ.inj hlength, fun j g hg => ?_⟩, rfl⟩
        have hother := hall (j + 1) g hg
        rwa [← Nat.add_assoc, Nat.add_right_comm] at hother

lemma exists_valuesOfTopicsFrom
    (h : ∀ j f, fs[j]? = some f → ∃ v, topicValue topics (index + j) f = .ok v) :
    ∃ us, valuesOfTopicsFrom topics index fs = .ok us := by
  induction fs generalizing index with
  | nil => exact ⟨[], rfl⟩
  | cons f fs ih =>
    obtain ⟨v, hv⟩ := h 0 f rfl
    obtain ⟨us, hus⟩ : ∃ us, valuesOfTopicsFrom topics (index + 1) fs = .ok us := by
      refine ih fun j g hg => ?_
      have hother := h (j + 1) g hg
      rwa [← Nat.add_assoc, Nat.add_right_comm] at hother
    rw [Nat.add_zero] at hv
    refine ⟨v :: us, ?_⟩
    rw [valuesOfTopicsFrom_cons, hv, hus]
    rfl

/-- Of topics that are not read the first one is reported. -/
lemma valuesOfTopicsFrom_eq_error {j : Nat} {f : EventField} {e : EventError}
    (hf : fs[j]? = some f) (herror : topicValue topics (index + j) f = .error e)
    (hbefore : ∀ i g, i < j → fs[i]? = some g →
      ∃ v, topicValue topics (index + i) g = .ok v) :
    valuesOfTopicsFrom topics index fs = .error e := by
  induction fs generalizing index j with
  | nil => cases hf
  | cons g fs ih =>
    rw [valuesOfTopicsFrom_cons]
    cases j with
    | zero =>
      cases hf
      rw [Nat.add_zero] at herror
      rw [herror]
      rfl
    | succ j =>
      obtain ⟨v, hv⟩ := hbefore 0 g (Nat.succ_pos j) rfl
      rw [Nat.add_zero] at hv
      have hrest : valuesOfTopicsFrom topics (index + 1) fs = .error e := by
        refine ih (j := j) hf ?_ fun i g' hi hg' => ?_
        · rwa [Nat.add_right_comm]
        · have hother := hbefore (i + 1) g' (Nat.succ_lt_succ hi) hg'
          rwa [← Nat.add_assoc, Nat.add_right_comm] at hother
      rw [hv, hrest]
      rfl

end Topics

/-! ## Values of the data one by one -/

variable {s : EventSchema} {log : EventLog} {data : Bytes}

lemma checkValues_eq_ok_iff_forall {fs : List EventField} {offsets : List Nat}
    {vs : List AbiValue} :
    checkValues data fs offsets vs = .ok () ↔
      ∀ (j : Nat) (f : EventField) (offset : Nat) (v : AbiValue),
        fs[j]? = some f → offsets[j]? = some offset → vs[j]? = some v →
          headIsCanonical f.type offset data = true ∧ v.inRange = true := by
  induction fs generalizing offsets vs with
  | nil => exact iff_of_true rfl (by simp)
  | cons f fs ih =>
    cases offsets with
    | nil => exact iff_of_true rfl (by simp)
    | cons offset offsets =>
      cases vs with
      | nil => exact iff_of_true rfl (by simp)
      | cons v vs =>
        rw [checkValues_cons_eq_ok_iff, ← and_assoc, ih]
        constructor
        · rintro ⟨hfirst, hothers⟩ j g o u hg ho hu
          cases j with
          | zero =>
            cases hg
            cases ho
            cases hu
            exact hfirst
          | succ j => exact hothers j g o u hg ho hu
        · intro hall
          exact ⟨hall 0 f offset v rfl rfl rfl, fun j => hall (j + 1)⟩

/-- Of values that do not pass the first one is reported. -/
lemma checkValues_eq_error {fs : List EventField} {offsets : List Nat} {vs : List AbiValue}
    {j : Nat} {f : EventField} {offset : Nat} {v : AbiValue} (hf : fs[j]? = some f)
    (hoffset : offsets[j]? = some offset) (hv : vs[j]? = some v)
    (hfails : ¬ (headIsCanonical f.type offset data = true ∧ v.inRange = true))
    (hbefore : ∀ (i : Nat) (g : EventField) (o : Nat) (u : AbiValue), i < j →
      fs[i]? = some g → offsets[i]? = some o → vs[i]? = some u →
        headIsCanonical g.type o data = true ∧ u.inRange = true) :
    checkValues data fs offsets vs = .error (.data (.notCanonical f.name f.type)) := by
  induction j generalizing fs offsets vs with
  | zero =>
    obtain ⟨fs, rfl⟩ : ∃ fs', fs = f :: fs' := by
      cases fs <;> cases hf
      exact ⟨_, rfl⟩
    cases offsets <;> cases hoffset
    cases vs <;> cases hv
    rw [checkValues, if_neg (by simpa using hfails)]
  | succ j ih =>
    cases fs with
    | nil => cases hf
    | cons g fs =>
      cases offsets with
      | nil => cases hoffset
      | cons o offsets =>
        cases vs with
        | nil => cases hv
        | cons u vs =>
          have hfirst := hbefore 0 g o u (Nat.succ_pos j) rfl rfl rfl
          rw [checkValues, if_pos (by simpa using hfirst)]
          exact ih hf hoffset hv fun i g' o' u' hi =>
            hbefore (i + 1) g' o' u' (Nat.succ_lt_succ hi)

/-- That the `j`-th value of a payload passes as the one of the `j`-th field in the data: the word at
its head is canonical, if the field is of one word, and its numbers fit their widths. -/
def Passes (s : EventSchema) (data : Bytes) (vs : List AbiValue) (j : Nat) : Prop :=
  ∀ f offset v, s.dataFields[j]? = some f →
    (AbiType.headOffsets 0 s.dataTypes)[j]? = some offset → vs[j]? = some v →
      headIsCanonical f.type offset data = true ∧ v.inRange = true

/-- That data is unpacked to values which all pass. -/
def UnpacksTo (s : EventSchema) (data : Bytes) (vs : List AbiValue) : Prop :=
  decodeSequence s.dataTypes data = .ok vs ∧ ∀ j, s.Passes data vs j

lemma unpacksTo_iff {vs : List AbiValue} :
    s.UnpacksTo data vs ↔ s.valuesOfData data = .ok vs := by
  rw [valuesOfData_eq_ok_iff, checkValues_eq_ok_iff_forall]
  rfl

lemma valuesOfData_of_undecodable {fault : DecodeFault}
    (h : decodeSequence s.dataTypes data = .error fault) :
    s.valuesOfData data = .error (.data (.undecodable fault)) := by
  rw [valuesOfData]
  split
  · next hempty =>
    rw [dataTypes, List.isEmpty_iff.1 hempty] at h
    cases h
  · rw [h]

/-- Of the fields whose values do not pass the first one is reported. -/
lemma valuesOfData_of_not_passes {vs : List AbiValue} {j : Nat} {f : EventField}
    (hdecode : decodeSequence s.dataTypes data = .ok vs) (hf : s.dataFields[j]? = some f)
    (hfails : ¬ s.Passes data vs j) (hbefore : ∀ i < j, s.Passes data vs i) :
    s.valuesOfData data = .error (.data (.notCanonical f.name f.type)) := by
  have hfields : s.dataFields.isEmpty = false := by
    rw [List.isEmpty_eq_false_iff]
    intro hnil
    rw [hnil] at hf
    cases hf
  obtain ⟨g, offset, v, hg, hoffset, hv, hfails⟩ : ∃ g offset v, s.dataFields[j]? = some g ∧
      (AbiType.headOffsets 0 s.dataTypes)[j]? = some offset ∧ vs[j]? = some v ∧
        ¬ (headIsCanonical g.type offset data = true ∧ v.inRange = true) := by
    simpa [Passes] using hfails
  rw [hf] at hg
  cases hg
  rw [valuesOfData, hfields, hdecode]
  simp only [checkValues_eq_error hf hoffset hv hfails fun i g' o u hi => hbefore i hi g' o u]
  rfl

/-- Data without values cannot be unpacked or has a first value that does not pass. -/
lemma valuesOfData_cases (s : EventSchema) (data : Bytes) :
    (∃ vs, s.UnpacksTo data vs) ∨
      (∃ fault, s.valuesOfData data = .error (.data (.undecodable fault))) ∨
      ∃ f : EventField, s.valuesOfData data = .error (.data (.notCanonical f.name f.type)) := by
  cases hdecode : decodeSequence s.dataTypes data with
  | error fault => exact .inr (.inl ⟨fault, valuesOfData_of_undecodable hdecode⟩)
  | ok vs =>
    by_cases hall : ∀ j, s.Passes data vs j
    · exact .inl ⟨vs, hdecode, hall⟩
    · obtain ⟨j, hfails, hbefore⟩ : ∃ j, ¬ s.Passes data vs j ∧ ∀ i < j, s.Passes data vs i := by
        classical
        have hsome := not_forall.1 hall
        exact ⟨Nat.find hsome, Nat.find_spec hsome, fun i hi => not_not.1 (Nat.find_min hsome hi)⟩
      obtain ⟨f, hf⟩ : ∃ f, s.dataFields[j]? = some f := by
        by_contra hnone
        exact hfails fun f _ _ hf => absurd ⟨f, hf⟩ hnone
      exact .inr (.inr ⟨f, valuesOfData_of_not_passes hdecode hf hfails hbefore⟩)

/-! ## Fields one by one -/

/-- The place of a field in the data, given by its place among the fields. -/
def dataPlace (s : EventSchema) (i : Nat) : Nat :=
  (s.fields.take i).countP fun f => !f.indexed

/-- That a value is the one of the `i`-th field: what the topic of the field is read as, or the value
at the place of the field in the data. -/
def HasValue (s : EventSchema) (log : EventLog) (vs : List AbiValue) (i : Nat) (f : EventField)
    (v : AbiValue) : Prop :=
  if f.indexed then topicValue log.topics (s.topicPlace i) f = .ok v
  else vs[s.dataPlace i]? = some v

/-- That the topics of all indexed fields before the `i`-th field are read. -/
def TopicsRead (s : EventSchema) (topics : List Word) (i : Nat) : Prop :=
  ∀ j f, j < i → s.fields[j]? = some f → f.indexed = true →
    ∃ v, topicValue topics (s.topicPlace j) f = .ok v

variable {topics : List Word}

lemma getElem?_indexedFields {i : Nat} {f : EventField} (h : s.fields[i]? = some f)
    (hindexed : f.indexed = true) :
    s.indexedFields[(s.fields.take i).countP EventField.indexed]? = some f :=
  getElem?_filter_countP h hindexed

/-- Each indexed field stands at its place among the fields. -/
lemma exists_place {j : Nat} {f : EventField} (h : s.indexedFields[j]? = some f) :
    ∃ i, s.fields[i]? = some f ∧ f.indexed = true ∧
      (s.fields.take i).countP EventField.indexed = j ∧ s.firstTopic + j = s.topicPlace i := by
  obtain ⟨i, hi, hindexed, hcount⟩ := exists_of_getElem?_filter h
  refine ⟨i, hi, hindexed, hcount, ?_⟩
  rw [topicPlace, ← hcount]

lemma lt_length_of_getElem? {i : Nat} {f : EventField} (h : s.fields[i]? = some f) :
    i < s.fields.length :=
  (List.getElem?_eq_some_iff.1 h).1

/-- The topics give values if all of them are read. -/
lemma exists_valuesOfTopics_iff :
    (∃ us, s.valuesOfTopics topics = .ok us) ↔ s.TopicsRead topics s.fields.length := by
  constructor
  · rintro ⟨us, hus⟩ i f - hf hindexed
    obtain ⟨v, -, hv⟩ := (valuesOfTopicsFrom_eq_ok_iff_forall.1 hus).2 _ f
      (getElem?_indexedFields hf hindexed)
    exact ⟨v, hv⟩
  · intro hread
    refine exists_valuesOfTopicsFrom fun j f hf => ?_
    obtain ⟨i, hi, hindexed, -, hplace⟩ := exists_place hf
    rw [hplace]
    exact hread i f (lt_length_of_getElem? hi) hi hindexed

lemma valuesOfTopics_eq_error {i : Nat} {f : EventField} {e : EventError}
    (hf : s.fields[i]? = some f) (hindexed : f.indexed = true)
    (herror : topicValue topics (s.topicPlace i) f = .error e) (hread : s.TopicsRead topics i) :
    s.valuesOfTopics topics = .error e := by
  refine valuesOfTopicsFrom_eq_error (getElem?_indexedFields hf hindexed) herror
    fun j g hj hg => ?_
  obtain ⟨k, hk, hkindexed, rfl, hplace⟩ := exists_place hg
  rw [hplace]
  exact hread k g (lt_of_countP_take_lt hj) hk hkindexed

/-- A decoded event has in each field the value of that field. -/
theorem exists_values_of_decode {e : Event} (h : s.decode log = .ok e) :
    ∃ vs, s.UnpacksTo log.data vs ∧ ∀ i f, s.fields[i]? = some f →
      ∃ v, e.fields[i]? = some ⟨f.name, v, f.indexed⟩ ∧ s.HasValue log vs i f v := by
  obtain ⟨-, us, vs, hdata, htopics, hassign⟩ := decode_eq_ok_iff.1 h
  obtain ⟨hfills, hus, hvs⟩ := assign_eq_ok_iff.1 hassign
  refine ⟨vs, unpacksTo_iff.2 hdata, fun i f hf => ?_⟩
  obtain ⟨g, hg, hname, hindexed⟩ : ∃ g, e.fields[i]? = some g ∧ Fills f g := by
    obtain ⟨hi, rfl⟩ := List.getElem?_eq_some_iff.1 hf
    have hj : i < e.fields.length := hfills.length_eq ▸ hi
    exact ⟨_, List.getElem?_eq_getElem hj, (List.forall₂_iff_get.1 hfills).2 i hi hj⟩
  refine ⟨g.value, by rw [hg, ← hname, ← hindexed], ?_⟩
  rw [HasValue]
  split
  · next hf' =>
    have hvalue := getElem?_topicValues hfills hg (hindexed.trans hf')
    obtain ⟨v, hv, htopic⟩ := (valuesOfTopicsFrom_eq_ok_iff_forall.1 htopics).2 _ f
      (getElem?_indexedFields hf hf')
    rw [getElem?_of_isPrefix hus hvalue] at hv
    cases hv
    exact htopic
  · next hf' =>
    rw [Bool.not_eq_true] at hf'
    exact getElem?_of_isPrefix hvs (getElem?_dataValues hfills hg (hindexed.trans hf'))

/-- A decoded event has in each indexed field what the topic of the field is read as. -/
lemma valueOfTopic_of_decode {e : Event} (h : s.decode log = .ok e) {i : Nat} {f : EventField}
    {topic : Word} (hf : s.fields[i]? = some f) (hindexed : f.indexed = true)
    (htopic : log.topics[s.topicPlace i]? = some topic) :
    ∃ v, e.fields[i]? = some ⟨f.name, v, true⟩ ∧ valueOfTopic f topic = .ok v := by
  obtain ⟨vs, -, hvalues⟩ := exists_values_of_decode h
  obtain ⟨v, hv, hvalue⟩ := hvalues i f hf
  rw [HasValue, if_pos hindexed, topicValue, htopic] at hvalue
  exact ⟨v, by rw [hv, hindexed], hvalue⟩

/-! ## Fields without values -/

/-- Whether there are fields in the data but no values of them: all their types are zero-sized. -/
def lacksData (s : EventSchema) : Bool :=
  !s.dataFields.isEmpty && AbiType.allZeroSized s.dataTypes

/-- A payload has a value of each field in the data. -/
lemma length_of_unpacksTo {vs : List AbiValue} (h : s.UnpacksTo data vs)
    (hlacks : s.lacksData = false) : vs.length = s.dataFields.length := by
  have hdecode := h.1
  rw [decodeSequence] at hdecode
  split at hdecode
  · next hzero =>
    rw [lacksData, hzero, Bool.and_true, Bool.not_eq_false', List.isEmpty_iff] at hlacks
    cases hdecode
    rw [hlacks, List.length_nil, List.length_nil]
  · split at hdecode
    · cases hdecode
    · split at hdecode <;> cases hdecode
      next hread => rw [length_of_readAll hread, dataTypes, List.length_map]

lemma unpacksTo_nil (hlacks : s.lacksData = true) (data : Bytes) : s.UnpacksTo data [] := by
  rw [lacksData, Bool.and_eq_true] at hlacks
  refine ⟨by rw [decodeSequence, if_pos hlacks.2], fun j f offset v _ _ hv => ?_⟩
  cases hv

/-- Without values in the data the first field that stands there is left without one. -/
lemma assign_nil {fs : List EventField} {us : List AbiValue} {f : EventField}
    (hus : (fs.filter fun f => f.indexed).length ≤ us.length)
    (hf : (fs.filter fun f => !f.indexed).head? = some f) :
    assign fs us [] = .error (.data (.noValue f.name)) := by
  induction fs generalizing us with
  | nil => cases hf
  | cons g fs ih =>
    cases hindexed : g.indexed with
    | true =>
      simp only [List.filter_cons, hindexed, if_true, List.length_cons] at hus
      simp only [List.filter_cons, hindexed, Bool.not_true, Bool.false_eq_true, if_false] at hf
      cases us with
      | nil => exact absurd hus (Nat.not_succ_le_zero _)
      | cons u us =>
        simp only [assign, hindexed, ih (Nat.le_of_succ_le_succ hus) hf]
        rfl
    | false =>
      simp only [List.filter_cons, hindexed, Bool.not_false, if_true, List.head?_cons] at hf
      cases hf
      cases us <;> simp only [assign, hindexed]

/-- A field is left without a value exactly if the data has fields and no values, and nothing else is
wrong. -/
theorem decode_eq_noValue_iff {name : String} :
    s.decode log = .error (.data (.noValue name)) ↔
      s.lacksData = true ∧ s.TopicsRead log.topics s.fields.length ∧
        ∃ f, s.dataFields.head? = some f ∧ f.name = name := by
  constructor
  · intro h
    obtain ⟨vs, hunpacks⟩ | ⟨fault, hdata⟩ | ⟨f, hdata⟩ := s.valuesOfData_cases log.data
    · have hdata := unpacksTo_iff.1 hunpacks
      cases htopics : s.valuesOfTopics log.topics with
      | error err =>
        rw [decode_of_valuesOfTopics_error hdata htopics] at h
        cases h
        obtain ⟨_, _, hfault⟩ | ⟨_, _, hfault⟩ := valuesOfTopicsFrom_error htopics <;> cases hfault
      | ok us =>
        have hus := length_of_valuesOfTopics htopics
        have hlacks : s.lacksData = true := by
          rw [← Bool.not_eq_false]
          intro hlacks
          exact decode_ne_data_error hdata (length_of_unpacksTo hunpacks hlacks) _ h
        obtain ⟨f, hf⟩ : ∃ f, s.dataFields.head? = some f := by
          rw [lacksData, Bool.and_eq_true, Bool.not_eq_true', List.isEmpty_eq_false_iff] at hlacks
          exact ⟨_, List.head?_eq_some_head hlacks.1⟩
        refine ⟨hlacks, exists_valuesOfTopics_iff.1 ⟨us, htopics⟩, f, hf, ?_⟩
        have hnone : vs = [] := Except.ok.inj (hunpacks.1.symm.trans (unpacksTo_nil hlacks _).1)
        rw [hnone] at hdata
        rw [decode_of_assign_error hdata htopics (assign_nil (Nat.le_of_eq hus.symm) hf)] at h
        cases h
        rfl
    · rw [decode_of_valuesOfData_error hdata] at h
      cases h
    · rw [decode_of_valuesOfData_error hdata] at h
      cases h
  · rintro ⟨hlacks, hread, f, hf, rfl⟩
    obtain ⟨us, htopics⟩ := exists_valuesOfTopics_iff.2 hread
    have hdata := unpacksTo_iff.1 (unpacksTo_nil hlacks log.data)
    have hus := length_of_valuesOfTopics htopics
    exact decode_of_assign_error hdata htopics (assign_nil (Nat.le_of_eq hus.symm) hf)

/-! ## The fields of a declared event -/

/-- The name that a parameter has as a field: its own, or its place if it has none. -/
def fieldName (place : Nat) (p : EventParam) : String :=
  if p.param.name = "" then "arg" ++ toString place else p.param.name

/-- That a schema has the parameters of an event for its fields, in their declared order. -/
def DeclaredAs (s : EventSchema) (d : EventDecl) : Prop :=
  s.name = d.name ∧ s.anonymous = d.anonymous ∧ s.fields.length = d.inputs.length ∧
    ∀ (i : Nat) (p : EventParam), d.inputs[i]? = some p → ∃ type, p.param.resolve = .ok type ∧
      s.fields[i]? = some ⟨fieldName i p, type, p.indexed⟩

lemma getElem?_ofParams {place : Nat} {ps : List EventParam} {fs : List EventField}
    (h : EventField.ofParams place ps = .ok fs) :
    fs.length = ps.length ∧ ∀ (i : Nat) (p : EventParam), ps[i]? = some p →
      ∃ type, p.param.resolve = .ok type ∧
        fs[i]? = some ⟨fieldName (place + i) p, type, p.indexed⟩ := by
  induction ps generalizing place fs with
  | nil =>
    cases h
    exact ⟨rfl, by simp⟩
  | cons p ps ih =>
    rw [EventField.ofParams] at h
    obtain ⟨f, hf, h⟩ := bind_eq_ok_iff.1 h
    obtain ⟨fs, hfs, h⟩ := bind_eq_ok_iff.1 h
    cases h
    obtain ⟨hlength, hall⟩ := ih hfs
    refine ⟨by rw [List.length_cons, List.length_cons, hlength], fun i q hq => ?_⟩
    cases i with
    | zero =>
      cases hq
      rw [EventField.ofParam] at hf
      cases hresolve : p.param.resolve with
      | error fault =>
        rw [hresolve] at hf
        cases hf
      | ok type =>
        rw [hresolve] at hf
        cases hf
        exact ⟨type, rfl, rfl⟩
    | succ i =>
      have hother := hall i q hq
      rwa [Nat.add_right_comm] at hother

lemma declaredAs_of_ofDecl {d : EventDecl} (h : ofDecl d = .ok s) : s.DeclaredAs d := by
  rw [ofDecl] at h
  obtain ⟨fs, hfs, h⟩ := bind_eq_ok_iff.1 h
  cases h
  obtain ⟨hlength, hall⟩ := getElem?_ofParams hfs
  refine ⟨rfl, rfl, hlength, fun i p hp => ?_⟩
  have hfield := hall i p hp
  rwa [Nat.zero_add] at hfield

/-! ## Logs -/

/-- Which fault of a log is reported, if it has one.

In the data it is that of the payload, or of the first field whose value does not pass, whatever the
topics are.  If there is none there, it is that of the first indexed field whose topic is missing or
not canonical. -/
structure ReportsFaults (s : EventSchema) (log : EventLog) : Prop where
  undecodable : ∀ fault, decodeSequence s.dataTypes log.data = .error fault →
    ∀ topics, s.decode ⟨topics, log.data⟩ = .error (.data (.undecodable fault))
  notCanonical : ∀ vs j f, decodeSequence s.dataTypes log.data = .ok vs →
    s.dataFields[j]? = some f → ¬ s.Passes log.data vs j → (∀ i < j, s.Passes log.data vs i) →
      ∀ topics, s.decode ⟨topics, log.data⟩ = .error (.data (.notCanonical f.name f.type))
  noTopic : ∀ vs i f, s.UnpacksTo log.data vs →
    s.fields[i]? = some f → f.indexed = true → s.TopicsRead log.topics i →
      log.topics[s.topicPlace i]? = none →
        s.decode log = .error (.noTopic f.name (s.topicPlace i) log.topics.length)
  topicNotCanonical : ∀ vs i f topic t, s.UnpacksTo log.data vs →
    s.fields[i]? = some f → f.indexed = true → s.TopicsRead log.topics i →
      log.topics[s.topicPlace i]? = some topic → f.type = .word t → t.isCanonical topic = false →
        s.decode log = .error (.topicNotCanonical f.name t)

/-- That a log without a fault is decoded, with the value of each field in the order of the fields. -/
def GivesValues (s : EventSchema) (log : EventLog) : Prop :=
  ∀ vs, s.UnpacksTo log.data vs → s.TopicsRead log.topics s.fields.length →
    ∃ e, s.decode log = .ok e ∧ e.name = s.name ∧ e.fields.length = s.fields.length ∧
      ∀ i f, s.fields[i]? = some f →
        ∃ v, e.fields[i]? = some ⟨f.name, v, f.indexed⟩ ∧ s.HasValue log vs i f v

/-- The rule that a log of a declared event is decoded field by field: it has a fault that is
reported, or each field has its value, and no field is ever left without one. -/
structure DecodesFieldwise (s : EventSchema) (d : EventDecl) (log : EventLog) : Prop where
  declared : s.DeclaredAs d
  faults : s.ReportsFaults log
  values : s.GivesValues log
  complete : ∀ name, s.decode log ≠ .error (.data (.noValue name))

lemma reportsFaults (s : EventSchema) (log : EventLog) : s.ReportsFaults log where
  undecodable _ hdecode _ := decode_of_valuesOfData_error (valuesOfData_of_undecodable hdecode)
  notCanonical _ _ _ hdecode hf hfails hbefore _ :=
    decode_of_valuesOfData_error (valuesOfData_of_not_passes hdecode hf hfails hbefore)
  noTopic vs i f hunpacks hf hindexed hread hnone := by
    have herror : topicValue log.topics (s.topicPlace i) f =
        .error (.noTopic f.name (s.topicPlace i) log.topics.length) := by
      rw [topicValue, hnone]
    exact decode_of_valuesOfTopics_error (unpacksTo_iff.1 hunpacks)
      (valuesOfTopics_eq_error hf hindexed herror hread)
  topicNotCanonical vs i f topic t hunpacks hf hindexed hread hsome ht hcanonical := by
    have herror : topicValue log.topics (s.topicPlace i) f =
        .error (.topicNotCanonical f.name t) := by
      rw [topicValue, hsome]
      simp only [valueOfTopic, ht, hcanonical, Bool.false_eq_true, if_false]
    exact decode_of_valuesOfTopics_error (unpacksTo_iff.1 hunpacks)
      (valuesOfTopics_eq_error hf hindexed herror hread)

lemma givesValues (hlacks : s.lacksData = false) (log : EventLog) : s.GivesValues log := by
  intro vs hunpacks hread
  obtain ⟨us, htopics⟩ := exists_valuesOfTopics_iff.2 hread
  obtain ⟨e, hdecode⟩ := exists_decode_of_length (unpacksTo_iff.1 hunpacks)
    (length_of_unpacksTo hunpacks hlacks) htopics
  obtain ⟨hname, _, _, -, -, hassign⟩ := decode_eq_ok_iff.1 hdecode
  obtain ⟨vs', hunpacks', hvalues⟩ := exists_values_of_decode hdecode
  obtain rfl : vs' = vs := Except.ok.inj (hunpacks'.1.symm.trans hunpacks.1)
  exact ⟨e, hdecode, hname, (assign_eq_ok_iff.1 hassign).1.length_eq.symm, hvalues⟩

/-- A log of a declared event is decoded field by field, unless the event has fields in the data that
are all zero-sized.

Of such an event a fault is reported as of any other, but its data never has one: it is unpacked to
no values, whatever it is.  So if the topics have no fault, the first field in the data is reported to
have no value, and that is reported of no other log. -/
theorem decodesFieldwise_of_ofDecl {d : EventDecl} (h : ofDecl d = .ok s) (log : EventLog) :
    (s.lacksData = false → s.DecodesFieldwise d log) ∧
    s.DeclaredAs d ∧ s.ReportsFaults log ∧ (s.lacksData = true → s.UnpacksTo log.data []) ∧
    ∀ name, s.decode log = .error (.data (.noValue name)) ↔
      s.lacksData = true ∧ s.TopicsRead log.topics s.fields.length ∧
        ∃ f, s.dataFields.head? = some f ∧ f.name = name := by
  refine ⟨fun hlacks => ?_, declaredAs_of_ofDecl h, s.reportsFaults log,
    fun hlacks => unpacksTo_nil hlacks log.data, fun name => decode_eq_noValue_iff⟩
  refine ⟨declaredAs_of_ofDecl h, s.reportsFaults log, givesValues hlacks log, fun name herror => ?_⟩
  rw [(decode_eq_noValue_iff.1 herror).1] at hlacks
  cases hlacks

/-- An event with a truth value in its data between a digest without a name and an address in
topics. -/
def depositDecl : EventDecl where
  name := "Deposit"
  inputs := [⟨.mk "" "string" [], true⟩, ⟨.mk "final" "bool" [], false⟩,
    ⟨.mk "owner" "address" [], true⟩]
  anonymous := false

/-- The schema of the event. -/
def depositSchema : EventSchema where
  name := "Deposit"
  signature := "Deposit(string,bool,address)"
  selector := Keccak.digest (Utf8.encode "Deposit(string,bool,address)")
  anonymous := false
  fields := [
    ⟨"arg0", .string, true⟩,
    ⟨"final", .word .bool, false⟩,
    ⟨"owner", .word .address, true⟩]

/-- A log without the topic of the last field. -/
def depositLog : EventLog where
  topics := [depositSchema.selector, 99]
  data := Word.toBytes 1

theorem depositLog_decodesFieldwise :
    ofDecl depositDecl = .ok depositSchema ∧ depositSchema.lacksData = false ∧
      depositSchema.DecodesFieldwise depositDecl depositLog ∧
      depositSchema.decode depositLog = .error (.noTopic "owner" 2 2) := by
  have hbind : ofDecl depositDecl = .ok depositSchema := rfl
  have hlacks : depositSchema.lacksData = false := rfl
  have hfieldwise := (decodesFieldwise_of_ofDecl hbind depositLog).1 hlacks
  have hunpacks : depositSchema.UnpacksTo depositLog.data
      [.word (.bool true)] := unpacksTo_iff.2 rfl
  have hread : depositSchema.TopicsRead depositLog.topics 2 := by
    intro j f hj hf hindexed
    rcases j with _ | _ | j
    · cases hf
      exact ⟨_, rfl⟩
    · cases hf
      cases hindexed
    · omega
  exact ⟨hbind, hlacks, hfieldwise, hfieldwise.faults.noTopic _ 2 _ hunpacks rfl rfl hread rfl⟩

/-- An event whose only field is an empty tuple in the data. -/
def voidDecl : EventDecl where
  name := "Z"
  inputs := [⟨.mk "z0" "()" [], false⟩]
  anonymous := false

/-- The schema of the event. -/
def voidSchema : EventSchema where
  name := "Z"
  signature := "Z(())"
  selector := Keccak.digest (Utf8.encode "Z(())")
  anonymous := false
  fields := [⟨"z0", .tuple [], false⟩]

/-- A log of the event, with the payload of an empty tuple. -/
def voidLog : EventLog where
  topics := [voidSchema.selector]
  data := []

theorem voidLog_not_decodesFieldwise :
    ofDecl voidDecl = .ok voidSchema ∧ ¬ voidSchema.DecodesFieldwise voidDecl voidLog := by
  have hbind : ofDecl voidDecl = .ok voidSchema := rfl
  refine ⟨hbind, fun hrule => ?_⟩
  have hdecode : voidSchema.decode voidLog = .error (.data (.noValue "z0")) := rfl
  exact hrule.complete _ hdecode

end EventSchema
end RollupBoundary
