import RollupBoundary.Checksum
import RollupBoundary.Boundary
import RollupBoundary.Event.Outcomes
import RollupBoundary.Logging.Record

/-!
# What operations report

The operations themselves are functions and say nothing.  Here stands, for each of them, which log
records it gives rise to, in order.  Addresses in records are shown with their checksum.
-/

namespace RollupBoundary

open Logging

/-- An address as it stands in a record. -/
def addressField (a : Address) : FieldValue :=
  .text a.checksummed

/-! ## Streams -/

/-- Reading reports a byte string whose declared length is refused, and nothing else. -/
def Wire.takeReport {α : Type} : Except StreamError α → List Record
  | .error (.tooLong declared max) =>
    [⟨.warn, "chainbridge_wire::reader", "byte string length prefix rejected",
      [("declared", .number declared.toNat), ("max", .number max.toNat)]⟩]
  | _ => []

/-! ## Aliasing -/

/-- Aliasing reports both addresses. -/
def Aliasing.aliasReport (o : Aliasing) (a : Address) : List Record :=
  [⟨.trace, "chainbridge_alias::offsets", "applied L1-to-L2 alias",
    [("l1_address", addressField a), ("aliased", addressField (o.aliased a))]⟩]

/-- Going back reports both addresses. -/
def Aliasing.unaliasReport (o : Aliasing) (a : Address) : List Record :=
  [⟨.trace, "chainbridge_alias::offsets", "removed L1-to-L2 alias",
    [("l2_address", addressField a), ("original", addressField (o.unaliased a))]⟩]

/-! ## Events -/

/-- Binding reports the schema, if there is one. -/
def EventSchema.bindReport (abi name : String) : List Record :=
  match EventSchema.bind abi name with
  | .ok s =>
    [⟨.debug, "chainbridge_evm::decoder", "bound event decoder",
      [("event", .text s.name), ("indexed", .number s.indexedFields.length),
        ("data", .number s.dataFields.length)]⟩]
  | .error _ => []

/-- Decoding many logs reports how many went wrong, if any did. -/
def EventSchema.matchingReport (s : EventSchema) (logs : List EventLog) : List Record :=
  let outcomes := s.decodeMatching logs
  if outcomes.errors.isEmpty then []
  else
    [⟨.debug, "chainbridge_evm::batch", "batch decode finished with errors",
      [("event", .text s.name), ("failed", .number outcomes.errors.length),
        ("decoded", .number outcomes.events.length)]⟩]

/-- Binding the schema of redeems reports the event as soon as it is bound, even if it turns out to
lack a field. -/
def RedeemSchema.bindReport (abi : String) : List Record :=
  EventSchema.bindReport abi ScheduledRedeem.eventName

/-! ## The boundary -/

/-- Setting up the boundary reports the schema, and then the boundary if there is one. -/
def Boundary.startReport (config : Configuration) (abi : String) : List Record :=
  match Aliasing.ofSetting config.offset with
  | .error _ => []
  | .ok _ =>
    RedeemSchema.bindReport abi ++
      match Boundary.start config abi with
      | .error _ => []
      | .ok b =>
        [⟨.info, "chainbridge::context", "bridge context initialised",
          [("alias_offset", addressField b.aliasing.offset),
            ("max_bytestring_len", .number b.maxByteString.toNat),
            ("redeem_selector", .text (Hex.encode b.redeem.schema.selector.toBytes))]⟩]

/-- Setting it up from the document that a configuration names reports the same, once the document
has been read. -/
def Boundary.configurationReport (files : FileSystem) (config : Configuration) : List Record :=
  match Boundary.readAbi files config with
  | .ok abi => Boundary.startReport config abi
  | .error _ => []

/-- Asking for the origin of a sender reports the way back, if it is gone. -/
def Boundary.originReport (b : Boundary) (tag : UInt8) (sender : Address) : List Record :=
  if tagHasAliasedSender tag then b.aliasing.unaliasReport sender else []

end RollupBoundary
