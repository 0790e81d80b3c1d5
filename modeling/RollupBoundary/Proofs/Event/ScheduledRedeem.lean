import Mathlib
import RollupBoundary.Event.ScheduledRedeem
import RollupBoundary.Proofs.Event.Shape

/-!
# Which schemas announce redeems

An announcement has seven members, each of a type of one word.  A schema should declare the fields
of their names with just these types (`DeclaresRedeem`), but the types are never compared.  What is
looked at are the values of an event, and a value tells less: a number of any width is taken where
it fits, and the digest in the topic of an indexed field cannot be told from 32 octets.

So there are two notions of a schema for announcements.  One that declares the types never meets a
mismatch, and what is decoded are the values of its fields (`decode_of_declaresRedeem`).  One that
merely carries values that can be taken (`SuitsRedeem`) gives announcements as well, from every log
whose numbers are small enough (`exists_decode_iff`), which is why the rule that an announcement
implies the types of its members does not hold (`looseLog_not_holdsTyped`).  `holdsTyped_iff` says
of which schemas and logs it does.
-/

namespace RollupBoundary

open Abi

/-! ## Numbers of any width -/

/-- A type of one word without the width of its numbers. -/
def Abi.WordType.anyWidth : WordType → WordType
  | .uint _ => .uint .word
  | t => t

namespace Abi.WordValue

/-- A value of one word without the width it has as a number. -/
def anyWidth : WordValue → WordValue
  | .uint _ n => .uint .word n
  | v => v

lemma type_anyWidth (v : WordValue) : v.anyWidth.type = v.type.anyWidth := by
  cases v <;> rfl

@[simp] lemma anyWidth_fixedBytes (k : ByteWidth) (w : Word) :
    (fixedBytes k w).anyWidth = .fixedBytes k w := rfl

@[simp] lemma anyWidth_address (a : Address) : (address a).anyWidth = .address a := rfl

@[simp] lemma anyWidth_uint (k : ByteWidth) (n : Nat) : (uint k n).anyWidth = .uint .word n := rfl

@[simp] lemma anyWidth_eq_fixedBytes_iff {v : WordValue} {k : ByteWidth} {w : Word} :
    v.anyWidth = .fixedBytes k w ↔ v = .fixedBytes k w := by
  cases v <;> simp [anyWidth]

@[simp] lemma anyWidth_eq_address_iff {v : WordValue} {a : Address} :
    v.anyWidth = .address a ↔ v = .address a := by
  cases v <;> simp [anyWidth]

@[simp] lemma anyWidth_eq_uint_iff {v : WordValue} {n : Nat} :
    v.anyWidth = .uint .word n ↔ ∃ k, v = .uint k n := by
  cases v <;> simp [anyWidth]

lemma eq_of_anyWidth {u v : WordValue} (h : u.anyWidth = v.anyWidth) (htype : u.type = v.type) :
    u = v := by
  cases u <;> cases v <;> simp_all [anyWidth, type]

end Abi.WordValue

/-! ## Members -/

namespace ScheduledRedeem

/-- The types of the members, each with the name of its field. -/
def memberTypes : List (String × WordType) := [
  ("ticketId", .fixedBytes .word),
  ("retryTxHash", .fixedBytes .word),
  ("sequenceNum", .uint .bits64),
  ("donatedGas", .uint .bits64),
  ("gasDonor", .address),
  ("maxRefund", .uint .word),
  ("submissionFeeRefund", .uint .word)]

/-- The members as values of their types, each with the name of its field. -/
def members (r : ScheduledRedeem) : List (String × WordValue) := [
  ("ticketId", .fixedBytes .word r.ticketId),
  ("retryTxHash", .fixedBytes .word r.retryTxHash),
  ("sequenceNum", .uint .bits64 r.sequenceNum.toNat),
  ("donatedGas", .uint .bits64 r.donatedGas.toNat),
  ("gasDonor", .address r.gasDonor),
  ("maxRefund", .uint .word r.maxRefund),
  ("submissionFeeRefund", .uint .word r.submissionFeeRefund)]

lemma map_members (r : ScheduledRedeem) :
    r.members.map (fun m => (m.1, m.2.type)) = memberTypes := rfl

lemma map_memberTypes : memberTypes.map Prod.fst = fieldNames := rfl

end ScheduledRedeem

namespace Event

/-- That the field of a name has a value of one word, whatever the width of a number. -/
def Holds (e : Event) (name : String) (v : WordValue) : Prop :=
  ∃ u, e.value? name = some (.word u) ∧ u.anyWidth = v.anyWidth

/-- That the field of a name has a value of a type of one word, whatever the width of a number. -/
def HoldsType (e : Event) (name : String) (t : WordType) : Prop :=
  ∃ u, e.value? name = some (.word u) ∧ u.type.anyWidth = t.anyWidth

/-- That the number of a name, if there is one, fits 64 bits. -/
def FitsUInt64 (e : Event) (name : String) : Prop :=
  ∀ k n, e.value? name = some (.word (.uint k n)) → n < 2 ^ 64

variable {e : Event} {name : String}

lemma Holds.holdsType {v : WordValue} (h : e.Holds name v) : e.HoldsType name v.type := by
  obtain ⟨u, hu, hwidth⟩ := h
  refine ⟨u, hu, ?_⟩
  rw [← WordValue.type_anyWidth, hwidth, WordValue.type_anyWidth]

lemma Holds.fitsUInt64 {k : ByteWidth} {n : UInt64} (h : e.Holds name (.uint k n.toNat)) :
    e.FitsUInt64 name := by
  obtain ⟨u, hu, hwidth⟩ := h
  obtain ⟨k', rfl⟩ := WordValue.anyWidth_eq_uint_iff.1 hwidth
  intro k'' m hm
  rw [hu] at hm
  cases hm
  exact n.toNat_lt

lemma HoldsType.exists_octets (h : e.HoldsType name (.fixedBytes .word)) :
    ∃ w, e.Holds name (.fixedBytes .word w) := by
  obtain ⟨u, hu, htype⟩ := h
  cases u <;> cases htype
  exact ⟨_, _, hu, rfl⟩

lemma HoldsType.exists_address (h : e.HoldsType name .address) :
    ∃ a, e.Holds name (.address a) := by
  obtain ⟨u, hu, htype⟩ := h
  cases u <;> cases htype
  exact ⟨_, _, hu, rfl⟩

lemma HoldsType.exists_number {k : ByteWidth} (h : e.HoldsType name (.uint k)) :
    ∃ n, e.Holds name (.uint k n) := by
  obtain ⟨u, hu, htype⟩ := h
  cases u <;> cases htype
  exact ⟨_, _, hu, rfl⟩

lemma HoldsType.exists_uint64 {k : ByteWidth} (h : e.HoldsType name (.uint k))
    (hfits : e.FitsUInt64 name) : ∃ n : UInt64, e.Holds name (.uint k n.toNat) := by
  obtain ⟨n, u, hu, hwidth⟩ := h.exists_number
  obtain ⟨k', rfl⟩ := WordValue.anyWidth_eq_uint_iff.1 hwidth
  refine ⟨UInt64.ofNat n, _, hu, ?_⟩
  rw [UInt64.toNat_ofNat', Nat.mod_eq_of_lt (hfits k' n hu), hwidth]

end Event

namespace ScheduledRedeem

/-! ## Reading an announcement -/

variable {e : Event} {name : String}

lemma octetsAt_eq_ok_iff {w : Word} :
    octetsAt e name = .ok w ↔ e.Holds name (.fixedBytes .word w) := by
  simp only [Event.Holds, WordValue.anyWidth_fixedBytes, WordValue.anyWidth_eq_fixedBytes_iff,
    exists_eq_right]
  grind [octetsAt]

lemma uint64At_eq_ok_iff {k : ByteWidth} {n : UInt64} :
    uint64At e name = .ok n ↔ e.Holds name (.uint k n.toNat) := by
  have hlt := n.toNat_lt
  have hn : ∀ m, m < 2 ^ 64 → (UInt64.ofNat m = n ↔ m = n.toNat) := by
    intro m hm
    rw [← UInt64.toNat_inj, UInt64.toNat_ofNat', Nat.mod_eq_of_lt hm]
  simp only [Event.Holds, WordValue.anyWidth_uint, WordValue.anyWidth_eq_uint_iff]
  grind [uint64At]

lemma numberAt_eq_ok_iff {k : ByteWidth} {n : Nat} :
    numberAt e name = .ok n ↔ e.Holds name (.uint k n) := by
  simp only [Event.Holds, WordValue.anyWidth_uint, WordValue.anyWidth_eq_uint_iff]
  grind [numberAt]

lemma addressAt_eq_ok_iff {a : Address} :
    addressAt e name = .ok a ↔ e.Holds name (.address a) := by
  simp only [Event.Holds, WordValue.anyWidth_address, WordValue.anyWidth_eq_address_iff,
    exists_eq_right]
  grind [addressAt]

/-- An event is read as an announcement exactly if its fields have the members as values, apart from
the widths of numbers. -/
theorem ofEvent_eq_ok_iff {r : ScheduledRedeem} :
    ofEvent e = .ok r ↔ ∀ m ∈ r.members, e.Holds m.1 m.2 := by
  simp only [ofEvent, bind_eq_ok_iff, octetsAt_eq_ok_iff, uint64At_eq_ok_iff (k := .bits64),
    numberAt_eq_ok_iff (k := .word), addressAt_eq_ok_iff, members, List.forall_mem_cons]
  constructor
  · rintro ⟨_, h₁, _, h₂, _, h₃, _, h₄, _, h₅, _, h₆, _, h₇, h⟩
    cases h
    exact ⟨h₁, h₂, h₃, h₄, h₅, h₆, h₇, by simp⟩
  · rintro ⟨h₁, h₂, h₃, h₄, h₅, h₆, h₇, -⟩
    exact ⟨_, h₁, _, h₂, _, h₃, _, h₄, _, h₅, _, h₆, _, h₇, rfl⟩

/-- An event can be read as an announcement exactly if its fields have values of the types of the
members, apart from the widths of numbers, and the numbers of 64 bits fit. -/
theorem exists_ofEvent_iff :
    (∃ r, ofEvent e = .ok r) ↔
      (∀ m ∈ memberTypes, e.HoldsType m.1 m.2) ∧
        e.FitsUInt64 "sequenceNum" ∧ e.FitsUInt64 "donatedGas" := by
  simp only [ofEvent_eq_ok_iff]
  constructor
  · rintro ⟨r, hr⟩
    refine ⟨?_, ?_, ?_⟩
    · rw [← map_members r, List.forall_mem_map]
      exact fun m hm => (hr m hm).holdsType
    · exact (hr ("sequenceNum", .uint .bits64 r.sequenceNum.toNat) (by simp [members])).fitsUInt64
    · exact (hr ("donatedGas", .uint .bits64 r.donatedGas.toNat) (by simp [members])).fitsUInt64
  · rintro ⟨htypes, hfitsSequence, hfitsGas⟩
    simp only [memberTypes, List.forall_mem_cons] at htypes
    obtain ⟨h₁, h₂, h₃, h₄, h₅, h₆, h₇, -⟩ := htypes
    obtain ⟨ticketId, hticket⟩ := h₁.exists_octets
    obtain ⟨retryTxHash, hretry⟩ := h₂.exists_octets
    obtain ⟨sequenceNum, hsequence⟩ := h₃.exists_uint64 hfitsSequence
    obtain ⟨donatedGas, hgas⟩ := h₄.exists_uint64 hfitsGas
    obtain ⟨gasDonor, hdonor⟩ := h₅.exists_address
    obtain ⟨maxRefund, hmax⟩ := h₆.exists_number
    obtain ⟨submissionFeeRefund, hfee⟩ := h₇.exists_number
    refine ⟨⟨ticketId, retryTxHash, sequenceNum, donatedGas, gasDonor, maxRefund,
      submissionFeeRefund⟩, ?_⟩
    simp only [members, List.forall_mem_cons]
    exact ⟨hticket, hretry, hsequence, hgas, hdonor, hmax, hfee, by simp⟩

end ScheduledRedeem

/-! ## Schemas and the values of their events -/

namespace EventSchema

/-- That a schema declares the fields of an announcement with the types of its members, where the
first field of a name counts. -/
def DeclaresRedeem (s : EventSchema) : Prop :=
  ∀ m ∈ ScheduledRedeem.memberTypes, ∃ f, s.field? m.1 = some f ∧ f.type = .word m.2

/-- That the events of a schema have values that can be taken for the members of an announcement:
values of their types, apart from the widths of numbers. -/
def SuitsRedeem (s : EventSchema) : Prop :=
  ∀ m ∈ ScheduledRedeem.memberTypes,
    ∃ f t, s.field? m.1 = some f ∧ f.carriedType = .word t ∧ t.anyWidth = m.2.anyWidth

variable {s : EventSchema} {log : EventLog} {e : Event}

lemma DeclaresRedeem.suitsRedeem (h : s.DeclaresRedeem) : s.SuitsRedeem := by
  intro m hm
  obtain ⟨f, hf, htype⟩ := h m hm
  refine ⟨f, m.2, hf, ?_, rfl⟩
  rw [EventField.carriedType, EventField.wordType_of_word htype, htype, ite_self]

/-- A decoded event has a value of a type of one word where the field carries one. -/
lemma holdsType_iff_of_decode (h : s.decode log = .ok e) {name : String} {t : WordType} :
    e.HoldsType name t ↔
      ∃ f u, s.field? name = some f ∧ f.carriedType = .word u ∧ u.anyWidth = t.anyWidth := by
  have hvalue := value?_of_decode h name
  rw [Event.HoldsType]
  generalize s.field? name = f? at hvalue ⊢
  generalize e.value? name = v? at hvalue ⊢
  cases hvalue with
  | none => simp
  | @some f v hv =>
    constructor
    · rintro ⟨u, hu, hwidth⟩
      cases hu
      refine ⟨f, u.type, rfl, ?_, hwidth⟩
      generalize f.carriedType = t' at hv
      cases hv.1 with
      | word htype => rw [htype]
    · rintro ⟨_, t', hf, hcarried, hwidth⟩
      cases hf
      rw [hcarried] at hv
      cases hv.1 with
      | word htype => exact ⟨_, rfl, htype ▸ hwidth⟩

end EventSchema

namespace RedeemSchema

open EventSchema ScheduledRedeem

variable {log : EventLog}

lemma decode_eq_ok_iff {s : RedeemSchema} {r : ScheduledRedeem} :
    s.decode log = .ok r ↔ ∃ e, s.schema.decode log = .ok e ∧ ofEvent e = .ok r :=
  bind_eq_ok_iff

/-- A log gives an announcement exactly if it is decoded, the schema suits, and the numbers of 64
bits fit. -/
theorem exists_decode_iff {s : RedeemSchema} :
    (∃ r, s.decode log = .ok r) ↔
      ∃ e, s.schema.decode log = .ok e ∧ s.schema.SuitsRedeem ∧
        e.FitsUInt64 "sequenceNum" ∧ e.FitsUInt64 "donatedGas" := by
  simp only [decode_eq_ok_iff]
  rw [exists_comm]
  refine exists_congr fun e => ?_
  rw [exists_and_left]
  refine and_congr_right fun he => ?_
  rw [exists_ofEvent_iff, SuitsRedeem]
  simp only [holdsType_iff_of_decode he]

/-! ## Schemas that declare the types -/

lemma ofSchema_eq_ok {s : EventSchema}
    (h : ∀ name ∈ fieldNames, ∃ f ∈ s.fields, f.name = name) : ofSchema s = .ok ⟨s, h⟩ := by
  rw [ofSchema]
  split
  · next name hname =>
    obtain ⟨f, hf, rfl⟩ := h name (List.mem_of_find?_eq_some hname)
    have hmissing := List.find?_some hname
    rw [hasField, Bool.not_eq_true', List.any_eq_false] at hmissing
    exact absurd (decide_eq_true rfl) (hmissing f hf)
  · rfl

lemma exists_field_of_declaresRedeem {s : EventSchema} (h : s.DeclaresRedeem) :
    ∀ name ∈ fieldNames, ∃ f ∈ s.fields, f.name = name := by
  rw [← map_memberTypes, List.forall_mem_map]
  intro m hm
  obtain ⟨f, hf, -⟩ := h m hm
  exact ⟨f, List.mem_of_find?_eq_some hf, by simpa using List.find?_some hf⟩

/-- A field that a schema declares with the type of a member has a value of this type in every
decoded event, and a number is within its width. -/
lemma exists_value?_of_declaresRedeem {s : EventSchema} {e : Event} (h : s.DeclaresRedeem)
    (he : s.decode log = .ok e) {name : String} {t : WordType} (hm : (name, t) ∈ memberTypes) :
    ∃ u, e.value? name = some (.word u) ∧ u.type = t ∧ u.inRange = true := by
  obtain ⟨f, hf, htype⟩ := h _ hm
  have hvalue := value?_of_decode he name
  rw [hf] at hvalue
  generalize e.value? name = v? at hvalue ⊢
  cases hvalue with
  | some hv =>
    rw [EventField.carriedType, EventField.wordType_of_word htype, htype, ite_self] at hv
    obtain ⟨hshape, hrange⟩ := hv
    cases hshape with
    | word hu => exact ⟨_, rfl, hu, hrange⟩

/-- A number of 64 bits in a decoded event fits if the schema declares it as one. -/
lemma fitsUInt64_of_declaresRedeem {s : EventSchema} {e : Event} (h : s.DeclaresRedeem)
    (he : s.decode log = .ok e) {name : String} (hm : (name, .uint .bits64) ∈ memberTypes) :
    e.FitsUInt64 name := by
  obtain ⟨u, hu, htype, hrange⟩ := exists_value?_of_declaresRedeem h he hm
  intro k n hn
  rw [hu] at hn
  cases hn
  cases htype
  exact of_decide_eq_true hrange

/-- The values of an announcement from a schema that declares the types are those of the event,
widths included. -/
lemma value?_of_declaresRedeem {s : EventSchema} {e : Event} {r : ScheduledRedeem}
    (h : s.DeclaresRedeem) (he : s.decode log = .ok e) (hr : ofEvent e = .ok r) :
    ∀ m ∈ r.members, e.value? m.1 = some (.word m.2) := by
  intro m hm
  have htypes : (m.1, m.2.type) ∈ memberTypes := by
    rw [← map_members r]
    exact List.mem_map_of_mem hm
  obtain ⟨u, hu, htype, -⟩ := exists_value?_of_declaresRedeem h he htypes
  obtain ⟨v, hv, hwidth⟩ := ofEvent_eq_ok_iff.1 hr m hm
  cases hu.symm.trans hv
  rw [hu, WordValue.eq_of_anyWidth hwidth htype]

/-- A schema that declares the types of the members never meets a mismatch.

It is accepted, and on every log the announcement is decoded exactly if the event is.  Its members
are then the values of the fields of their names, with no bit lost; else the error is the one of the
event.  Where the fields stand, in what order, and what other fields there are does not matter. -/
theorem decode_of_declaresRedeem {s : EventSchema} (h : s.DeclaresRedeem) :
    ∃ t : RedeemSchema, ofSchema s = .ok t ∧ ∀ log,
      ((∃ r, t.decode log = .ok r) ↔ ∃ e, s.decode log = .ok e) ∧
      (∀ e r, s.decode log = .ok e → t.decode log = .ok r →
        ∀ m ∈ r.members, e.value? m.1 = some (.word m.2)) ∧
      (∀ err, t.decode log = .error err ↔ s.decode log = .error err) ∧
      ∀ field expected, t.decode log ≠ .error (.wrongValue field expected) := by
  set t : RedeemSchema := ⟨s, exists_field_of_declaresRedeem h⟩ with ht
  refine ⟨t, ofSchema_eq_ok _, fun log => ?_⟩
  have hiff : (∃ r, t.decode log = .ok r) ↔ ∃ e, s.decode log = .ok e := by
    rw [exists_decode_iff]
    refine exists_congr fun e => and_iff_left_of_imp fun he => ⟨h.suitsRedeem, ?_, ?_⟩
    · exact fitsUInt64_of_declaresRedeem h he (by simp [memberTypes])
    · exact fitsUInt64_of_declaresRedeem h he (by simp [memberTypes])
  have herror : ∀ err, t.decode log = .error err ↔ s.decode log = .error err := by
    intro err
    constructor
    · intro herr
      obtain hevent | ⟨e, he, -⟩ := bind_eq_error_iff.1 herr
      · exact hevent
      · obtain ⟨r, hr⟩ := hiff.2 ⟨e, he⟩
        rw [hr] at herr
        cases herr
    · exact fun herr => bind_eq_error_iff.2 (.inl herr)
  refine ⟨hiff, ?_, herror, ?_⟩
  · intro e r he hr
    obtain ⟨e', he', hr⟩ := decode_eq_ok_iff.1 hr
    cases he.symm.trans he'
    exact value?_of_declaresRedeem h he hr
  · intro field expected hmismatch
    obtain ⟨_, hcause⟩ | ⟨_, _, hcause⟩ | ⟨_, _, hcause⟩ :=
      EventSchema.decode_error ((herror _).1 hmismatch) <;> cases hcause

/-- The width of one octet. -/
def octet : ByteWidth :=
  ⟨1, Nat.one_pos, ByteWidth.word.pos⟩

/-- An anonymous event with the fields in another order, some of them in topics, and with fields of
other names and of more than one word in between. -/
def reorderedSchema : EventSchema where
  name := "RedeemScheduled"
  signature := "RedeemScheduled(uint256,string,uint64,bytes32,address,uint8[],uint64,bytes32,uint256)"
  selector := 0
  anonymous := true
  fields := [
    ⟨"maxRefund", .word (.uint .word), false⟩,
    ⟨"memo", .string, false⟩,
    ⟨"sequenceNum", .word (.uint .bits64), true⟩,
    ⟨"ticketId", .word (.fixedBytes .word), false⟩,
    ⟨"gasDonor", .word .address, true⟩,
    ⟨"tags", .array (.word (.uint octet)), true⟩,
    ⟨"donatedGas", .word (.uint .bits64), false⟩,
    ⟨"retryTxHash", .word (.fixedBytes .word), true⟩,
    ⟨"submissionFeeRefund", .word (.uint .word), false⟩]

/-- A log with the greatest number of 64 bits in a topic. -/
def reorderedLog : EventLog where
  topics := [2 ^ 64 - 1, 7, 99, 5]
  data := [11, 160, 3, 21000, 13, 2].flatMap Word.toBytes ++ [104, 105]

set_option maxRecDepth 10000 in
theorem reorderedSchema_decode :
    reorderedSchema.DeclaresRedeem ∧ ∃ t, ofSchema reorderedSchema = .ok t ∧
      ∃ r, t.decode reorderedLog = .ok r ∧ r.sequenceNum.toNat = 2 ^ 64 - 1 := by
  have hdeclares : reorderedSchema.DeclaresRedeem := by
    simp only [DeclaresRedeem, memberTypes, List.forall_mem_cons]
    exact ⟨⟨_, rfl, rfl⟩, ⟨_, rfl, rfl⟩, ⟨_, rfl, rfl⟩, ⟨_, rfl, rfl⟩, ⟨_, rfl, rfl⟩, ⟨_, rfl, rfl⟩,
      ⟨_, rfl, rfl⟩, by simp⟩
  obtain ⟨t, ht, hlogs⟩ := decode_of_declaresRedeem hdeclares
  obtain ⟨hiff, hvalues, -, -⟩ := hlogs reorderedLog
  have hdecode : ∃ e, reorderedSchema.decode reorderedLog = .ok e ∧
      e.value? "sequenceNum" = some (.word (.uint .bits64 (2 ^ 64 - 1))) := ⟨_, rfl, rfl⟩
  obtain ⟨e, he, hsequence⟩ := hdecode
  obtain ⟨r, hr⟩ := hiff.2 ⟨e, he⟩
  have hmember := hvalues e r he hr ("sequenceNum", .uint .bits64 r.sequenceNum.toNat)
    (by simp [members])
  rw [hsequence] at hmember
  refine ⟨hdeclares, t, ht, r, hr, ?_⟩
  simpa using hmember.symm

/-! ## Schemas that do not -/

/-- The rule that an announcement implies the types of its members, for one log: a schema that
declares another type gives an error instead. -/
def HoldsTyped (s : RedeemSchema) (log : EventLog) : Prop :=
  ∀ r, s.decode log = .ok r → s.schema.DeclaresRedeem

/-- What an announcement does imply, and when that amounts to the rule.

The events of its schema have values of the types of the members, apart from the widths of numbers:
a number may be declared with any width, and 32 octets may be the digest of an indexed field.  So
the rule holds if no more than that could be wrong with the schema; and for any other schema it
holds of a log only if the log is not decoded at all or has a number beyond 64 bits. -/
theorem holdsTyped_iff (s : RedeemSchema) (log : EventLog) :
    (∀ r, s.decode log = .ok r → s.schema.SuitsRedeem) ∧
    (s.HoldsTyped log ↔
      (s.schema.SuitsRedeem → s.schema.DeclaresRedeem) ∨
        ∀ e, s.schema.decode log = .ok e →
          ¬ (e.FitsUInt64 "sequenceNum" ∧ e.FitsUInt64 "donatedGas")) := by
  refine ⟨fun r hr => ?_, ?_, ?_⟩
  · obtain ⟨e, -, hsuits, -⟩ := exists_decode_iff.1 ⟨r, hr⟩
    exact hsuits
  · intro hrule
    by_contra hnot
    push Not at hnot
    obtain ⟨⟨hsuits, hdeclares⟩, e, he, hfits⟩ := hnot
    obtain ⟨r, hr⟩ := exists_decode_iff.2 ⟨e, he, hsuits, hfits⟩
    exact hdeclares (hrule r hr)
  · intro hcases r hr
    obtain ⟨e, he, hsuits, hfits⟩ := exists_decode_iff.1 ⟨r, hr⟩
    obtain himplies | hbeyond := hcases
    · exact himplies hsuits
    · exact absurd hfits (hbeyond e he)

/-- An event with texts for the ticket and the transaction, and with numbers of one octet. -/
def looseDecl : EventDecl where
  name := "RedeemScheduled"
  inputs := [
    ⟨.mk "ticketId" "string" [], true⟩,
    ⟨.mk "retryTxHash" "string" [], true⟩,
    ⟨.mk "sequenceNum" "uint8" [], true⟩,
    ⟨.mk "donatedGas" "uint8" [], false⟩,
    ⟨.mk "gasDonor" "address" [], false⟩,
    ⟨.mk "maxRefund" "uint8" [], false⟩,
    ⟨.mk "submissionFeeRefund" "uint8" [], false⟩]
  anonymous := false

/-- The schema of the event. -/
def looseSchema : EventSchema where
  name := "RedeemScheduled"
  signature := "RedeemScheduled(string,string,uint8,uint8,address,uint8,uint8)"
  selector := Keccak.digest
    (Utf8.encode "RedeemScheduled(string,string,uint8,uint8,address,uint8,uint8)")
  anonymous := false
  fields := [
    ⟨"ticketId", .string, true⟩,
    ⟨"retryTxHash", .string, true⟩,
    ⟨"sequenceNum", .word (.uint octet), true⟩,
    ⟨"donatedGas", .word (.uint octet), false⟩,
    ⟨"gasDonor", .word .address, false⟩,
    ⟨"maxRefund", .word (.uint octet), false⟩,
    ⟨"submissionFeeRefund", .word (.uint octet), false⟩]

/-- A log of the event. -/
def looseLog : EventLog where
  topics := [looseSchema.selector, 1, 2, 3]
  data := [4, 5, 6, 7].flatMap Word.toBytes

set_option maxRecDepth 10000 in
theorem looseLog_not_holdsTyped :
    EventSchema.ofDecl looseDecl = .ok looseSchema ∧
      ∃ s, ofSchema looseSchema = .ok s ∧ s.decode looseLog = .ok ⟨1, 2, 3, 4, 5, 6, 7⟩ ∧
        ¬ s.HoldsTyped looseLog := by
  have hfields : EventField.ofParams 0 looseDecl.inputs = .ok looseSchema.fields := rfl
  have hsignature : looseDecl.signature = looseSchema.signature := by decide +kernel
  have hbound : EventSchema.ofDecl looseDecl = .ok looseSchema := by
    rw [EventSchema.ofDecl, hfields, hsignature]
    rfl
  have hcomplete : ∀ name ∈ fieldNames, ∃ f ∈ looseSchema.fields, f.name = name := by
    simp [fieldNames, looseSchema]
  have hdecode : (⟨looseSchema, hcomplete⟩ : RedeemSchema).decode looseLog =
      .ok ⟨1, 2, 3, 4, 5, 6, 7⟩ := rfl
  refine ⟨hbound, _, ofSchema_eq_ok hcomplete, hdecode, fun hrule => ?_⟩
  obtain ⟨f, hf, htype⟩ := hrule _ hdecode ("ticketId", .fixedBytes .word) (by simp [memberTypes])
  cases hf
  cases htype

end RedeemSchema
end RollupBoundary
