import RollupBoundary.Event.Decode

/-!
# Scheduled redeems

A ticket that can be retried is redeemed by a transaction of its own, and the event
`RedeemScheduled` announces it.  `ScheduledRedeem.ofEvent` takes the seven fields it needs out of a
decoded event, each the first field of its name, and asks for the kind of value that the field
has to have.  A `RedeemSchema` is a schema that has fields of these names; of what types they are is
found out only from the values.
-/

namespace RollupBoundary

open Abi

/-- The announcement that a ticket is to be redeemed. -/
structure ScheduledRedeem where
  ticketId : Word
  retryTxHash : Word
  sequenceNum : UInt64
  donatedGas : UInt64
  gasDonor : Address
  maxRefund : Nat
  submissionFeeRefund : Nat
deriving DecidableEq

namespace ScheduledRedeem

/-- The name of the event. -/
def eventName : String := "RedeemScheduled"

/-- The names of the fields, in the order in which they are looked for. -/
def fieldNames : List String :=
  ["ticketId", "retryTxHash", "sequenceNum", "donatedGas", "gasDonor", "maxRefund",
    "submissionFeeRefund"]

/-! ## Values of fields -/

/-- A whole word of octets. -/
def octetsAt (e : Event) (field : String) : Except EventError Word :=
  match e.value? field with
  | some (.word (.fixedBytes k w)) =>
    if k = .word then .ok w else .error (.wrongValue field "bytes32")
  | _ => .error (.wrongValue field "bytes32")

/-- An unsigned number, of whatever width, that fits 64 bits. -/
def uint64At (e : Event) (field : String) : Except EventError UInt64 :=
  match e.value? field with
  | some (.word (.uint _ n)) =>
    if n < 2 ^ (64 : Nat) then .ok (UInt64.ofNat n) else .error (.wrongValue field "uint64")
  | _ => .error (.wrongValue field "uint64")

/-- An unsigned number of whatever width. -/
def numberAt (e : Event) (field : String) : Except EventError Nat :=
  match e.value? field with
  | some (.word (.uint _ n)) => .ok n
  | _ => .error (.wrongValue field "uint256")

/-- An address. -/
def addressAt (e : Event) (field : String) : Except EventError Address :=
  match e.value? field with
  | some (.word (.address a)) => .ok a
  | _ => .error (.wrongValue field "address")

/-- The announcement in an event. -/
def ofEvent (e : Event) : Except EventError ScheduledRedeem := do
  let ticketId ← octetsAt e "ticketId"
  let retryTxHash ← octetsAt e "retryTxHash"
  let sequenceNum ← uint64At e "sequenceNum"
  let donatedGas ← uint64At e "donatedGas"
  let gasDonor ← addressAt e "gasDonor"
  let maxRefund ← numberAt e "maxRefund"
  let submissionFeeRefund ← numberAt e "submissionFeeRefund"
  return ⟨ticketId, retryTxHash, sequenceNum, donatedGas, gasDonor, maxRefund,
    submissionFeeRefund⟩

end ScheduledRedeem

/-! ## Schemas -/

/-- A schema that has a field of each name that an announcement needs. -/
structure RedeemSchema where
  schema : EventSchema
  complete : ∀ name ∈ ScheduledRedeem.fieldNames, ∃ f ∈ schema.fields, f.name = name

namespace RedeemSchema

/-- Whether a schema has a field of that name. -/
def hasField (s : EventSchema) (name : String) : Bool :=
  s.fields.any fun f => f.name = name

/-- The schema, if it has all the fields; else the first one that is missing is reported. -/
def ofSchema (s : EventSchema) : Except BindError RedeemSchema :=
  match h : ScheduledRedeem.fieldNames.find? fun name => !hasField s name with
  | some name => .error (.noSuchField s.name name)
  | none => .ok ⟨s, by
      intro name hname
      have := List.find?_eq_none.1 h name hname
      simpa [hasField] using this⟩

/-- The schema of the event in the text of an ABI document. -/
def bind (abi : String) : Except BindError RedeemSchema :=
  match EventSchema.bind abi ScheduledRedeem.eventName with
  | .ok s => ofSchema s
  | .error e => .error e

/-- Whether a log says that it is of this event. -/
def isOf (s : RedeemSchema) (log : EventLog) : Bool :=
  s.schema.isOf log

/-- Decodes a log as an announcement. -/
def decode (s : RedeemSchema) (log : EventLog) : Except EventError ScheduledRedeem := do
  let e ← s.schema.decode log
  ScheduledRedeem.ofEvent e

end RedeemSchema
end RollupBoundary
