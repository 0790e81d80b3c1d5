import Mathlib
import RollupBoundary.Boundary
import RollupBoundary.Proofs.Abi.Document
import RollupBoundary.Proofs.Alias.Aliasing
import RollupBoundary.Proofs.Event.Binding
import RollupBoundary.Proofs.Event.ScheduledRedeem
import RollupBoundary.Proofs.Wire.Value

/-!
# A message across the boundary

A message from the base chain has the tag of its transaction, its sender there, and a payload.  It
is written as three fields, with the aliased sender in place of the sender, and read back field by
field; the tag and the sender that were read then say who sent it on the base chain.

`Boundary.exchange` is this whole way for one message.  Each of its parts has been dealt with on its
own, the fields, the rotation of addresses and the tags that stand for it; here they are put behind
each other, under the offset and the greatest length of whatever configuration the boundary was set
up with.  The document with the events has no part in it.
-/

namespace RollupBoundary

open Wire

/-! ## Tags -/

/-- A tag marks the one type that has it. -/
lemma TransactionType.ofTag?_eq_some_iff {tag : UInt8} {t : TransactionType} :
    ofTag? tag = some t ↔ t.tag = tag := by
  constructor
  · intro h
    simpa using List.find?_some h
  · rintro rfl
    cases t <;> rfl

/-- Transactions with one of these tags have the aliased sender for their sender: unsigned calls,
calls from contracts and retries. -/
def aliasedTags : List UInt8 := [0x65, 0x66, 0x68]

/-- The aliased sender comes with these tags and with no others. -/
lemma tagHasAliasedSender_iff (tag : UInt8) :
    tagHasAliasedSender tag = true ↔ tag ∈ aliasedTags := by
  rw [tagHasAliasedSender, Option.any_eq_true]
  simp only [aliasedTags, TransactionType.ofTag?_eq_some_iff, List.mem_cons, List.not_mem_nil,
    or_false]
  constructor
  · rintro ⟨t, rfl, ht⟩
    cases t with
    | unsigned => decide
    | contract => decide
    | retry => decide
    | _ => cases ht
  · rintro (rfl | rfl | rfl)
    · exact ⟨.unsigned, rfl, rfl⟩
    · exact ⟨.contract, rfl, rfl⟩
    · exact ⟨.retry, rfl, rfl⟩

namespace Boundary

/-! ## Setting up -/

variable {config : Configuration} {abi : String} {b : Boundary}

/-- A boundary has the offset and the greatest length of its configuration. -/
lemma aliasing_of_start (h : start config abi = .ok b) :
    Aliasing.ofSetting config.offset = .ok b.aliasing ∧ b.maxByteString = config.maxByteString := by
  rw [start] at h
  split at h
  · cases h
  · next aliasing haliasing =>
    split at h
    · cases h
    · cases h
      exact ⟨haliasing, rfl⟩

/-- The names of the fields of an event, if the types of its parameters can be resolved. -/
def fieldNames? (e : Abi.EventDecl) : Option (List String) :=
  (EventField.ofParams 0 e.inputs).toOption.map (List.map EventField.name)

/-- A document of an event that has all the fields sets up a boundary. -/
lemma exists_start {o : Aliasing} {e : Abi.EventDecl} {names : List String}
    (hoffset : Aliasing.ofSetting config.offset = .ok o)
    (hname : e.name = ScheduledRedeem.eventName) (hplain : e.isPlain)
    (hfields : fieldNames? e = some names) (hnames : ScheduledRedeem.fieldNames ⊆ names) :
    ∃ b, start config (Abi.Document.ofEvents [e]).render = .ok b := by
  cases hresolved : EventField.ofParams 0 e.inputs with
  | error fault =>
    rw [fieldNames?, hresolved] at hfields
    cases hfields
  | ok fields =>
    rw [fieldNames?, hresolved] at hfields
    obtain rfl : fields.map EventField.name = names := Option.some.inj hfields
    have hbind : ∃ s, EventSchema.bind (Abi.Document.ofEvents [e]).render e.name = .ok s ∧
        s.fields = fields := by
      rw [EventSchema.bind_of_parse (Abi.Document.parse_render (by simpa using hplain)),
        Abi.Document.eventsNamed_events, List.filter_singleton]
      simp only [decide_true, cond_true, List.head?_cons, Option.elim_some, EventSchema.ofDecl,
        hresolved]
      exact ⟨_, rfl, rfl⟩
    obtain ⟨s, hs, rfl⟩ := hbind
    have hcomplete : ∀ name ∈ ScheduledRedeem.fieldNames, ∃ f ∈ s.fields, f.name = name :=
      fun name hname => List.mem_map.1 (hnames hname)
    rw [start, hoffset, RedeemSchema.bind, ← hname, hs]
    simp only [RedeemSchema.ofSchema_eq_ok hcomplete]
    exact ⟨_, rfl⟩

/-- The event that announces redeems. -/
def redeemDecl : Abi.EventDecl where
  name := "RedeemScheduled"
  inputs := [
    ⟨.mk "ticketId" "bytes32" [], true⟩,
    ⟨.mk "retryTxHash" "bytes32" [], true⟩,
    ⟨.mk "sequenceNum" "uint64" [], true⟩,
    ⟨.mk "donatedGas" "uint64" [], false⟩,
    ⟨.mk "gasDonor" "address" [], false⟩,
    ⟨.mk "maxRefund" "uint256" [], false⟩,
    ⟨.mk "submissionFeeRefund" "uint256" [], false⟩]
  anonymous := false

/-! ## Exchanges -/

/-- A message from the base chain. -/
structure Message where
  /-- The tag of its transaction. -/
  tag : UInt8
  /-- Its sender on the base chain. -/
  sender : Address
  payload : Bytes
  /-- What a process holds in memory is never longer. -/
  length_payload_lt : payload.length < memoryBound

/-- What becomes of a message on its way. -/
structure Exchange where
  /-- What the writers of its three fields come to. -/
  written : List (Except StreamError Unit)
  tag : Except StreamError UInt64
  /-- The sender as it is read, on the rollup. -/
  sender : Except StreamError Address
  payload : Except StreamError Bytes
  /-- Octets that are unread behind it. -/
  unread : Bytes
  /-- The sender on the base chain behind the tag and the sender that were read, if there is one. -/
  origin : Except StreamError (Option Address)

/-- Writes a message to a byte string, and reads it back with `rest` behind it. -/
def exchange (b : Boundary) (m : Message) (rest : Bytes) : Exchange :=
  let (wroteTag, octets) := putUInt64 m.tag.toUInt64 ([] : Bytes)
  let (wroteSender, octets) := putPaddedAddress (b.aliasing.aliased m.sender) octets
  let (wrotePayload, octets) := putByteString m.payload octets
  let (tag, stream) := takeUInt64 (octets ++ rest)
  let (sender, stream) := takePaddedAddress stream
  let (payload, stream) := b.takeByteString stream
  { written := [wroteTag, wroteSender, wrotePayload]
    tag, sender, payload
    unread := stream
    origin := do return b.origin? (← tag).toUInt8 (← sender) }

/-- The sender of a message comes back if its tag stands for senders that are aliased. -/
lemma origin?_aliased (b : Boundary) (tag : UInt8) (a : Address) :
    b.origin? tag (b.aliasing.aliased a) = if tag ∈ aliasedTags then some a else none := by
  rw [origin?, Aliasing.unaliased_aliased]
  exact if_congr (tagHasAliasedSender_iff tag) rfl rfl

/-- The reader takes the octets of a byte string that is short enough, and else only its length. -/
lemma takeByteString_append (b : Boundary) {bs : Bytes} (hbs : bs.length < memoryBound)
    (rest : Bytes) :
    b.takeByteString
      (Bytes.ofNat uint64Width (UInt64.ofNat bs.length).toNat ++ (bs ++ rest)) =
      if bs.length ≤ b.maxByteString.toNat then (.ok bs, rest)
      else (.error (.tooLong (UInt64.ofNat bs.length) b.maxByteString), bs ++ rest) := by
  rw [takeByteString]
  split
  · next hle => exact Wire.takeByteString_append hle hbs rest
  · next hlt => exact takeByteString_of_lt (lt_two_pow_of_lt hbs) (by omega) (bs ++ rest)

/-- What becomes of a message under an aliasing and a greatest length. -/
def outcome (o : Aliasing) (max : UInt64) (m : Message) (rest : Bytes) : Exchange where
  written := [.ok (), .ok (), .ok ()]
  tag := .ok m.tag.toUInt64
  sender := .ok (o.aliased m.sender)
  payload :=
    if m.payload.length ≤ max.toNat then .ok m.payload
    else .error (.tooLong (UInt64.ofNat m.payload.length) max)
  unread := if m.payload.length ≤ max.toNat then rest else m.payload ++ rest
  origin := .ok (if m.tag ∈ aliasedTags then some m.sender else none)

lemma exchange_eq (b : Boundary) (m : Message) (rest : Bytes) :
    b.exchange m rest = outcome b.aliasing b.maxByteString m rest := by
  have htag := WireValue.put_eq (.uint64 m.tag.toUInt64) []
  have hsender := WireValue.put_eq (.paddedAddress (b.aliasing.aliased m.sender))
  have hpayload := WireValue.put_eq (.byteString m.payload)
  simp only [WireValue.put, WireValue.encode, WireValue.parts, List.flatMap_cons, List.flatMap_nil,
    List.append_nil, List.nil_append] at htag hsender hpayload
  have hpadding : (Bytes.zeros padding).length = padding := Bytes.length_zeros padding
  have horigin : b.origin? m.tag.toUInt64.toUInt8 (b.aliasing.aliased m.sender) =
      if m.tag ∈ aliasedTags then some m.sender else none := by
    rw [UInt8.toUInt8_toUInt64, origin?_aliased]
  simp only [exchange, htag, hsender, hpayload, List.append_assoc, takeUInt64_append]
  -- The padding is read together with the address behind it.
  rw [← List.append_assoc (Bytes.zeros padding), takePaddedAddress_append hpadding, outcome,
    ← horigin]
  simp only [takeByteString_append b m.length_payload_lt]
  split <;> rfl

/-- A message that crosses a boundary comes out as it went in.

All of it is written.  What is read is its tag, the aliased sender, and the payload with just `rest`
behind it, or, if the payload is longer than is configured, an error with its length and the
configured one, and the payload is still unread.  The tag and the sender that were read give the
sender on the base chain if the tag is one of `aliasedTags`, and nothing for any other tag.

Of the configuration nothing but the offset and the greatest length matters, and nothing of the
document with the events: two boundaries that agree on the one and the other treat all messages
alike. -/
theorem exchange_of_start (h : start config abi = .ok b) (m : Message) (rest : Bytes) :
    (∃ o, Aliasing.ofSetting config.offset = .ok o ∧
      b.exchange m rest = outcome o config.maxByteString m rest) ∧
    (UInt64.ofNat m.payload.length).toNat = m.payload.length ∧
    ∀ (config' : Configuration) (abi' : String) (b' : Boundary),
      start config' abi' = .ok b' →
      Aliasing.ofSetting config'.offset = Aliasing.ofSetting config.offset →
      config'.maxByteString = config.maxByteString →
        b'.exchange m rest = b.exchange m rest := by
  obtain ⟨haliasing, hmax⟩ := aliasing_of_start h
  refine ⟨⟨b.aliasing, haliasing, ?_⟩, ?_, ?_⟩
  · rw [exchange_eq, hmax]
  · rw [UInt64.toNat_ofNat', Nat.mod_eq_of_lt (lt_two_pow_of_lt m.length_payload_lt)]
  · intro config' abi' b' h' hoffset hmax'
    obtain ⟨haliasing', hmaximum⟩ := aliasing_of_start h'
    have hsame : b'.aliasing = b.aliasing := by
      rw [hoffset, haliasing] at haliasing'
      exact (Except.ok.inj haliasing').symm
    rw [exchange_eq, exchange_eq, hsame, hmaximum, hmax', hmax]

/-- A configuration with an offset and a greatest length of its own. -/
def narrowConfiguration : Configuration :=
  { Configuration.standard with offset := some "0x10", maxByteString := 2 }

/-- A call of a contract whose payload is longer than that configuration admits. -/
def longMessage : Message where
  tag := 0x66
  sender := 2 ^ 160 - 1
  payload := [1, 2, 3]
  length_payload_lt := by decide

set_option maxRecDepth 10000 in
/-- The sender is aliased past the greatest address, and comes back; the payload does not, and is
unread. -/
theorem exchange_narrowConfiguration :
    ∃ b, start narrowConfiguration (Abi.Document.ofEvents [redeemDecl]).render = .ok b ∧
      b.exchange longMessage [9] =
        { written := [.ok (), .ok (), .ok ()]
          tag := .ok 0x66
          sender := .ok 15
          payload := .error (.tooLong 3 2)
          unread := [1, 2, 3, 9]
          origin := .ok (some (2 ^ 160 - 1)) } := by
  have hoffset : Aliasing.ofSetting narrowConfiguration.offset = .ok ⟨16⟩ := rfl
  have hfields : fieldNames? redeemDecl = some ScheduledRedeem.fieldNames := by decide +kernel
  obtain ⟨b, hb⟩ := exists_start hoffset rfl (by decide +kernel) hfields (List.Subset.refl _)
  obtain ⟨⟨o, ho, hexchange⟩, -, -⟩ := exchange_of_start hb longMessage [9]
  obtain rfl : o = ⟨16⟩ := Except.ok.inj (ho.symm.trans hoffset)
  exact ⟨b, hb, hexchange⟩

end Boundary
end RollupBoundary
