import RollupBoundary.Abi.Decode
import RollupBoundary.Event.Schema

/-!
# Decoding a log

A log has topics of one word each and data.  The data is decoded first, so a fault in it is
reported whatever the topics are; then come the topics of the indexed fields, in their declared
order.  The values are then handed to the fields.

A field of a type of one word is held to the canonical form of that type, in a topic as in the
data.  Inside arrays and tuples only the range of numbers is checked.  An indexed field of any other
type has no value in the log: its topic is a digest and is given as it stands.
-/

namespace RollupBoundary

open Abi

/-- What an event left on the chain. -/
structure EventLog where
  topics : List Word
  data : Bytes
deriving DecidableEq

/-- What is wrong with the data of a log. -/
inductive DataFault where
  | undecodable (fault : DecodeFault)
  | notCanonical (field : String) (type : AbiType)
  /-- The data holds no value for the field. -/
  | noValue (field : String)

/-- The text a fault is reported with. -/
def DataFault.message : DataFault → String
  | .undecodable fault => fault.message
  | .notCanonical field type => "'" ++ field ++ "' is not a valid " ++ type.name ++ " encoding"
  | .noValue field => "no value decoded for '" ++ field ++ "'"

/-- Why a log has no event. -/
inductive EventError where
  | noTopic (field : String) (index available : Nat)
  /-- The topic of a field is not a canonical word of its type. -/
  | topicNotCanonical (field : String) (type : WordType)
  | data (fault : DataFault)
  /-- A field is missing or has a value of another kind than the one expected. -/
  | wrongValue (field expected : String)

/-- The text an error is reported with. -/
def EventError.message : EventError → String
  | .noTopic field index available =>
    "log has " ++ toString available ++ " topics, indexed field '" ++ field ++
      "' needs topic " ++ toString index
  | .topicNotCanonical field type =>
    "topic for indexed field '" ++ field ++ "' failed to parse: word is not a valid " ++
      type.name ++ " encoding"
  | .data fault => "log data failed to unpack: " ++ fault.message
  | .wrongValue field expected =>
    "field '" ++ field ++ "' missing or not a " ++ expected

/-- A field with its value. -/
structure FilledField where
  name : String
  value : AbiValue
  /-- Whether the value came from a topic. -/
  indexed : Bool

/-- A log as an event. -/
structure Event where
  name : String
  fields : List FilledField

namespace Event

/-- The value of the first field of that name. -/
def value? (e : Event) (name : String) : Option AbiValue :=
  (e.fields.find? fun f => f.name = name).map FilledField.value

/-- The fields whose values came from topics. -/
def indexedFields (e : Event) : List FilledField :=
  e.fields.filter fun f => f.indexed

end Event

namespace EventSchema

/-- Whether a log says that it is of this event.  Logs of anonymous events do not say so. -/
def isOf (s : EventSchema) (log : EventLog) : Bool :=
  !s.anonymous && log.topics.head? = some s.selector

/-! ## Data -/

/-- Whether the word at an offset is canonical for a type of one word.  Other types are not looked
at, and neither is a word that reaches beyond the data. -/
def headIsCanonical (type : AbiType) (offset : Nat) (data : Bytes) : Bool :=
  match type with
  | .word t =>
    if offset + 32 ≤ data.length then
      t.isCanonical (Word.ofBytes ((data.drop offset).take 32))
    else true
  | _ => true

/-- Checks the values of fields whose heads begin at the offsets. -/
def checkValues (data : Bytes) :
    List EventField → List Nat → List AbiValue → Except EventError Unit
  | f :: fs, offset :: offsets, v :: vs =>
    if headIsCanonical f.type offset data && v.inRange then checkValues data fs offsets vs
    else .error (.data (.notCanonical f.name f.type))
  | _, _, _ => .ok ()

/-- The values in the data of a log. -/
def valuesOfData (s : EventSchema) (data : Bytes) : Except EventError (List AbiValue) :=
  if s.dataFields.isEmpty then .ok []
  else
    match decodeSequence s.dataTypes data with
    | .error fault => .error (.data (.undecodable fault))
    | .ok vs => do
      checkValues data s.dataFields (AbiType.headOffsets 0 s.dataTypes) vs
      return vs

/-! ## Topics -/

/-- The value of an indexed field in its topic. -/
def valueOfTopic (f : EventField) (topic : Word) : Except EventError AbiValue :=
  match f.type with
  | .word t =>
    if t.isCanonical topic then .ok (.word (t.decode topic))
    else .error (.topicNotCanonical f.name t)
  | _ => .ok (.word (.fixedBytes .word topic))

/-- The values of indexed fields, of which the first one stands in the topic at `index`. -/
def valuesOfTopicsFrom (topics : List Word) :
    Nat → List EventField → Except EventError (List AbiValue)
  | _, [] => .ok []
  | index, f :: fs =>
    match topics[index]? with
    | none => .error (.noTopic f.name index topics.length)
    | some topic => do
      let v ← valueOfTopic f topic
      let vs ← valuesOfTopicsFrom topics (index + 1) fs
      return v :: vs

/-- The values of the indexed fields. -/
def valuesOfTopics (s : EventSchema) (topics : List Word) : Except EventError (List AbiValue) :=
  valuesOfTopicsFrom topics s.firstTopic s.indexedFields

/-! ## Logs -/

/-- Hands the values of topics and data to the fields, each field taking the next one. -/
def assign : List EventField → List AbiValue → List AbiValue →
    Except EventError (List FilledField)
  | [], _, _ => .ok []
  | f :: fs, topicValues, dataValues =>
    match f.indexed, topicValues, dataValues with
    | true, v :: topicValues, _ => do
      let others ← assign fs topicValues dataValues
      return ⟨f.name, v, true⟩ :: others
    | false, _, v :: dataValues => do
      let others ← assign fs topicValues dataValues
      return ⟨f.name, v, false⟩ :: others
    | _, _, _ => .error (.data (.noValue f.name))

/-- Decodes a log.  Whether the log says that it is of this event is not asked (`isOf`). -/
def decode (s : EventSchema) (log : EventLog) : Except EventError Event := do
  let dataValues ← s.valuesOfData log.data
  let topicValues ← s.valuesOfTopics log.topics
  let fields ← assign s.fields topicValues dataValues
  return ⟨s.name, fields⟩

end EventSchema
end RollupBoundary
