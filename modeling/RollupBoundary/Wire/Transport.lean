import RollupBoundary.Wire.Basic

/-!
# Streams with a transport underneath

A `Transport` hands out octets in calls.  A call may be interrupted and is then made again, may
give fewer octets than asked for, may find the data at its end, and may meet a fault.  `fill` makes
calls until it has what was asked for.  That need not come to an end: from a fault on that
interrupts every call (`isStuck`), calls are made for ever.  `fill` is then `unending`, which stands
for no result at all.  Elsewhere a call that is interrupted is followed by one that is not.

A `BoundedSink` is the counterpart for writing: it takes octets in calls too and has room for only
so many.
-/

namespace RollupBoundary.Wire

/-! ## Sources -/

/-- A source of octets with the behaviour of a connection. -/
structure Transport where
  /-- Octets not yet handed out. -/
  pending : Bytes
  /-- Octets handed out so far. -/
  position : Nat
  /-- The most octets one call hands out. -/
  chunk : Option Nat
  /-- A position from which on every call meets the fault; no octet beyond it is handed out. -/
  fault : Option (Nat × Fault)
  /-- Whether every other call is interrupted. -/
  interrupts : Bool
  /-- Whether the next call is interrupted, if any call is. -/
  interruptNext : Bool

namespace Transport

/-- A transport at its start: if calls are interrupted, the first one is. -/
def ofBytes (data : Bytes) (chunk : Option Nat) (fault : Option (Nat × Fault))
    (interrupts : Bool) : Transport :=
  ⟨data, 0, chunk, fault, interrupts, true⟩

/-- What one call comes back with. -/
inductive Outcome where
  | interrupted
  | fault (f : Fault)
  /-- Octets; none means that the data is at its end. -/
  | data (bs : Bytes)

/-- What a call comes back with that meets a fault. -/
def Outcome.ofFault : Fault → Outcome
  | .interrupted => .interrupted
  | f => .fault f

/-- Whether the next call is interrupted. -/
def willInterrupt (t : Transport) : Bool :=
  t.interrupts && t.interruptNext

/-- Octets a call for `want` of them hands out at most. -/
def limit (t : Transport) (want : Nat) : Nat :=
  let size := match t.chunk with
    | none => want
    | some c => min want c
  match t.fault with
  | none => size
  | some (place, _) => min size (place - t.position)

/-- One call for at most `want` octets. -/
def call (t : Transport) (want : Nat) : Outcome × Transport :=
  if t.willInterrupt then (.interrupted, { t with interruptNext := false })
  else
    let ready := { t with interruptNext := true }
    let bs := t.pending.take (t.limit want)
    let after := { ready with
      pending := t.pending.drop (t.limit want), position := t.position + bs.length }
    match t.fault with
    | none => (.data bs, after)
    | some (place, f) =>
      if place ≤ t.position then (.ofFault f, ready) else (.data bs, after)

/-- Whether the fault has been reached and is that every call is interrupted. -/
def isStuck (t : Transport) : Bool :=
  match t.fault with
  | some (place, .interrupted) => place ≤ t.position
  | _ => false

theorem willInterrupt_call {t t' : Transport} {want : Nat} (hstuck : t.isStuck = false)
    (h : t.call want = (.interrupted, t')) : t.willInterrupt = true ∧ t'.willInterrupt = false := by
  rw [call] at h
  split at h
  · next hwill =>
    cases h
    exact ⟨hwill, by simp [willInterrupt]⟩
  · dsimp only at h
    split at h
    · cases h
    · next place f hfault =>
      split at h
      · next hplace => cases f <;> simp [Outcome.ofFault, isStuck, hfault, hplace] at h hstuck
      · cases h

/-- The failure a fault shows as: a connection that is gone reads as the end of the data. -/
def failure : Fault → ReadFailure
  | .closed => .endOfData
  | f => .fault f

/-- Calls until `want` octets have come. -/
def fill (t : Transport) (want : Nat) : Except ReadFailure Bytes × Transport :=
  if want = 0 then (.ok [], t)
  else if _stuck : t.isStuck then (.error .unending, t)
  else
    match _called : t.call want with
    | (.interrupted, t') => fill t' want
    | (.fault f, t') => (.error (failure f), t')
    | (.data [], t') => (.error .endOfData, t')
    | (.data (b :: bs), t') =>
      let (more, t'') := fill t' (want - (bs.length + 1))
      (more.map (b :: bs ++ ·), t'')
termination_by (want, if t.willInterrupt then 1 else 0)
decreasing_by
  · have ⟨h₁, h₂⟩ := willInterrupt_call (Bool.not_eq_true _ ▸ _stuck) _called
    simp [h₁, h₂, Prod.lex_def]
  · simp only [Prod.lex_def]
    omega

end Transport

instance : ByteSource Transport where
  take t n := t.fill n

/-! ## Sinks -/

/-- A sink with room for a fixed number of octets. -/
structure BoundedSink where
  /-- Octets taken so far. -/
  held : Bytes
  /-- Octets there is room for. -/
  capacity : Nat
  /-- The most octets one call takes. -/
  chunk : Option Nat
  /-- Whether a call on the full sink fails as closed; otherwise it takes no octet. -/
  closesWhenFull : Bool
  /-- Whether every other call is interrupted. -/
  interrupts : Bool
  /-- Whether the next call is interrupted, if any call is. -/
  interruptNext : Bool

namespace BoundedSink

/-- An empty sink: if calls are interrupted, the first one is. -/
def ofCapacity (capacity : Nat) (chunk : Option Nat) (closesWhenFull interrupts : Bool) :
    BoundedSink :=
  ⟨[], capacity, chunk, closesWhenFull, interrupts, true⟩

/-- What one call comes back with. -/
inductive Outcome where
  | interrupted
  | closed
  /-- The number of octets taken. -/
  | took (n : Nat)

/-- Whether the next call is interrupted. -/
def willInterrupt (k : BoundedSink) : Bool :=
  k.interrupts && k.interruptNext

/-- Octets a call with `offered` of them takes. -/
def limit (k : BoundedSink) (offered : Nat) : Nat :=
  let size := match k.chunk with
    | none => offered
    | some c => min offered c
  min size (k.capacity - k.held.length)

/-- One call with some octets, of which the first few are taken. -/
def call (k : BoundedSink) (bs : Bytes) : Outcome × BoundedSink :=
  if k.willInterrupt then (.interrupted, { k with interruptNext := false })
  else
    let ready := { k with interruptNext := true }
    if k.closesWhenFull ∧ k.capacity ≤ k.held.length then (.closed, ready)
    else
      let n := k.limit bs.length
      (.took n, { ready with held := k.held ++ bs.take n })

theorem willInterrupt_call {k k' : BoundedSink} {bs : Bytes}
    (h : k.call bs = (.interrupted, k')) : k.willInterrupt = true ∧ k'.willInterrupt = false := by
  rw [call] at h
  split at h
  · next hwill =>
    cases h
    exact ⟨hwill, by simp [willInterrupt]⟩
  · split at h <;> cases h

/-- Calls until all of `bs` has been taken. -/
def drain (k : BoundedSink) (bs : Bytes) : Except WriteFailure Unit × BoundedSink :=
  if _full : bs = [] then (.ok (), k)
  else
    match _called : k.call bs with
    | (.interrupted, k') => drain k' bs
    | (.closed, k') => (.error .closed, k')
    | (.took 0, k') => (.error .noRoom, k')
    | (.took (n + 1), k') => drain k' (bs.drop (n + 1))
termination_by (bs.length, if k.willInterrupt then 1 else 0)
decreasing_by
  · have ⟨h₁, h₂⟩ := willInterrupt_call _called
    simp [h₁, h₂, Prod.lex_def]
  · have : 0 < bs.length := List.length_pos_iff.2 _full
    simp only [Prod.lex_def, List.length_drop]
    omega

end BoundedSink

instance : ByteSink BoundedSink where
  put k bs := k.drain bs

end RollupBoundary.Wire
