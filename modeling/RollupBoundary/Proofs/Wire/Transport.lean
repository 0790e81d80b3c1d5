import Mathlib
import RollupBoundary.Wire.Transport
import RollupBoundary.Proofs.Wire.Value

/-!
# Reads do not depend on the transport

A transport hands out the octets before its fault, or all it has if there is no fault among them,
and comes back with one failure ever after.  How it cuts the octets into pieces and how often it is
interrupted cannot be seen from the fields that are read (`takeAll_ofBytes`).  One fault is no
failure: if every call is interrupted from some place on (`Transport.call_iterate_of_isStuck`), the
first read for which the octets before it do not suffice never comes back (`reads_not_asReported`).

The proof is a simulation.  A source *tracks* a byte string if asking both for octets gives the same
octets, or the failure of the source where the string is at its end, and the source then tracks what
is left of the string (`Tracks`).  Every reader takes two sources that stand in such a relation to
results that agree (`FieldKind.take_agrees`), and a transport tracks the octets before its fault
(`Transport.tracks_standsFor`).  The latter is the only place where pieces and interruptions are
looked at: one call either brings octets from the front of what is left, or nothing is left, or the
call is interrupted (`Transport.meets_call`).
-/

namespace RollupBoundary.Wire

/-! ## Reads that agree -/

/-- An error met on a byte string, for a source that fails with `e` where the string ends. -/
def StreamError.recast (e : ReadFailure) : StreamError → StreamError
  | .dataEnded part expected => .ofReadFailure part expected e
  | err => err

lemma StreamError.recast_endOfData (err : StreamError) : err.recast .endOfData = err := by
  cases err <;> rfl

lemma mapError_recast_endOfData {α : Type} :
    (Except.mapError (StreamError.recast .endOfData) : Except StreamError α → _) = id := by
  funext r
  cases r with
  | ok => rfl
  | error err => exact congrArg Except.error err.recast_endOfData

/-- Errors are recast as errors, unless the source asks for ever. -/
lemma comesBack_recast {α : Type} {e : ReadFailure} (he : e ≠ .unending)
    (r : Except StreamError α) :
    comesBack (r.mapError (StreamError.recast e)) = comesBack r := by
  cases r with
  | ok => rfl
  | error err =>
    cases err with
    | dataEnded part expected =>
      cases e with
      | unending => exact absurd rfl he
      | _ => rfl
    | _ => rfl

/-- A read that comes back from a source comes back from the byte string too. -/
lemma comesBack_of_mapError {α : Type} {e : ReadFailure} {r : Except StreamError α}
    (h : comesBack (r.mapError (StreamError.recast e)) = true) : comesBack r = true := by
  cases r with
  | ok => rfl
  | error err =>
    cases err with
    | outOfRoom declared => exact h
    | neverEnds part => exact h
    | _ => rfl

/-- A read from a source agrees with one from the byte string it stands for. -/
structure Agrees {σ : Type} (standsFor : σ → Bytes → Prop) (e : ReadFailure) {α : Type}
    (r : Except StreamError α × σ) (q : Except StreamError α × Bytes) : Prop where
  result : r.1 = q.1.mapError (StreamError.recast e)
  left : standsFor r.2 q.2

lemma Agrees.map {σ : Type} {standsFor : σ → Bytes → Prop} {e : ReadFailure} {α β : Type}
    {r : Except StreamError α × σ} {q : Except StreamError α × Bytes}
    (h : Agrees standsFor e r q) (f : α → β) :
    Agrees standsFor e (r.1.map f, r.2) (q.1.map f, q.2) := by
  refine ⟨?_, h.left⟩
  rw [h.result]
  cases q.1 <;> rfl

/-- That sources hand out the octets of the strings they stand for and fail with `e` at their end. -/
def Tracks {σ : Type} [ByteSource σ] (standsFor : σ → Bytes → Prop) (e : ReadFailure) : Prop :=
  ∀ t s, standsFor t s → ∀ n, ∃ t', standsFor t' (s.drop n) ∧
    ByteSource.take t n = (if n ≤ s.length then .ok (s.take n) else .error e, t')

/-- The results up to the first that does not come back, and this one. -/
def upToStop {α : Type} : List (Except StreamError α) → List (Except StreamError α)
  | [] => []
  | r :: rs => r :: if comesBack r then upToStop rs else []

lemma upToStop_map {α β : Type} {f : Except StreamError α → Except StreamError β}
    (hf : ∀ r, comesBack (f r) = comesBack r) (rs : List (Except StreamError α)) :
    upToStop (rs.map f) = (upToStop rs).map f := by
  induction rs with
  | nil => rfl
  | cons r rs ih =>
    rw [List.map_cons, upToStop, upToStop, List.map_cons, hf, ih]
    split <;> rfl

lemma FieldKind.upToStop_takeAll {σ : Type} [ByteSource σ] (kinds : List FieldKind) (s : σ) :
    upToStop (takeAll kinds s).1 = (takeAll kinds s).1 := by
  induction kinds generalizing s with
  | nil => rfl
  | cons kind kinds ih =>
    obtain ⟨⟨r, s'⟩, hr⟩ : ∃ x, kind.take s = x := ⟨_, rfl⟩
    cases hback : comesBack r with
    | true => rw [takeAll_cons hr hback, upToStop, if_pos hback, ih]
    | false =>
      rw [takeAll_cons_of_not_comesBack hr hback, upToStop, hback]
      rfl

lemma FieldKind.takeAll_take {σ : Type} [ByteSource σ] (kinds : List FieldKind) (s : σ) (i : Nat) :
    (takeAll (kinds.take i) s).1 = (takeAll kinds s).1.take i := by
  induction kinds generalizing s i with
  | nil => rw [List.take_nil, takeAll, List.take_nil]
  | cons kind kinds ih =>
    cases i with
    | zero => rfl
    | succ i =>
      obtain ⟨⟨r, s'⟩, hr⟩ : ∃ x, kind.take s = x := ⟨_, rfl⟩
      rw [List.take_succ_cons]
      cases hback : comesBack r with
      | true => rw [takeAll_cons hr hback, takeAll_cons hr hback, ih, List.take_succ_cons]
      | false =>
        rw [takeAll_cons_of_not_comesBack hr hback, takeAll_cons_of_not_comesBack hr hback,
          List.take_succ_cons, List.take_nil]

section Readers

variable {σ : Type} [ByteSource σ] {standsFor : σ → Bytes → Prop} {e : ReadFailure}
variable (htracks : Tracks standsFor e) {t : σ} {s : Bytes} (h : standsFor t s)
include htracks h

lemma takePart_agrees (part : Part) (width : Nat) :
    Agrees standsFor e (takePart part width t) (takePart part width s) := by
  obtain ⟨t', hleft, htake⟩ := htracks t s h width
  by_cases hwidth : width ≤ s.length
  · rw [takePart, takePart, htake]
    simp only [ByteSource.take, if_pos hwidth]
    exact ⟨rfl, hleft⟩
  · rw [List.drop_of_length_le (by omega)] at hleft
    rw [takePart, takePart, htake]
    simp only [ByteSource.take, if_neg hwidth]
    exact ⟨rfl, hleft⟩

lemma takeUInt64_agrees : Agrees standsFor e (takeUInt64 t) (takeUInt64 s) :=
  (takePart_agrees htracks h .uint64 uint64Width).map _

/-- The payload of a byte string is asked for by both or by neither. -/
lemma takeByteString_agrees (max : UInt64) :
    Agrees standsFor e (takeByteString max t) (takeByteString max s) := by
  have hnumber := takeUInt64_agrees htracks h
  rw [takeByteString, takeByteString]
  generalize takeUInt64 t = r at hnumber ⊢
  generalize takeUInt64 s = q at hnumber ⊢
  obtain ⟨_, t'⟩ := r
  obtain ⟨err | declared, s'⟩ := q <;> obtain ⟨rfl, hleft⟩ := hnumber
  · exact ⟨rfl, hleft⟩
  · simp only [Except.mapError]
    split
    · exact ⟨rfl, hleft⟩
    · split
      · exact ⟨rfl, hleft⟩
      · exact takePart_agrees htracks hleft .byteString declared.toNat

lemma FieldKind.take_agrees (kind : FieldKind) :
    Agrees standsFor e (kind.take t) (kind.take s) := by
  cases kind with
  | hash => exact ((takePart_agrees htracks h .hash hashWidth).map Word.ofBytes).map _
  | address => exact ((takePart_agrees htracks h .address addressWidth).map Address.ofBytes).map _
  | paddedAddress =>
    exact ((takePart_agrees htracks h .paddedAddress paddedWidth).map
      fun bs => Address.ofBytes (bs.drop padding)).map _
  | uint64 => exact (takeUInt64_agrees htracks h).map _
  | byteString max => exact (takeByteString_agrees htracks h max).map _

/-- One read after another agrees, also behind a read that failed, up to one that does not come
back. -/
lemma FieldKind.takeAll_agrees (kinds : List FieldKind) :
    (takeAll kinds t).1 =
      upToStop ((takeAll kinds s).1.map (Except.mapError (StreamError.recast e))) ∧
    ((∀ r ∈ (takeAll kinds t).1, comesBack r = true) →
      standsFor (takeAll kinds t).2 (takeAll kinds s).2) := by
  induction kinds generalizing t s with
  | nil => exact ⟨rfl, fun _ => h⟩
  | cons kind kinds ih =>
    obtain ⟨⟨r, t'⟩, hr⟩ : ∃ x, kind.take t = x := ⟨_, rfl⟩
    obtain ⟨⟨q, s'⟩, hq⟩ : ∃ x, kind.take s = x := ⟨_, rfl⟩
    have hagrees := FieldKind.take_agrees htracks h kind
    rw [hr, hq] at hagrees
    obtain ⟨hresult, hleft⟩ := hagrees
    have hresult : r = q.mapError (StreamError.recast e) := hresult
    cases hback : comesBack r with
    | true =>
      have hbackOctets : comesBack q = true := comesBack_of_mapError (hresult ▸ hback)
      obtain ⟨hresults, hlast⟩ := ih hleft
      rw [takeAll_cons hr hback, takeAll_cons hq hbackOctets, List.map_cons, upToStop, ← hresult,
        if_pos hback, ← hresults]
      exact ⟨rfl, fun hall => hlast fun r hr => hall r (List.mem_cons_of_mem _ hr)⟩
    | false =>
      rw [takeAll_cons_of_not_comesBack hr hback, takeAll, hq]
      simp only [List.map_cons, upToStop, ← hresult, hback, List.forall_mem_cons]
      exact ⟨rfl, fun hall => absurd hall.1 (by simp)⟩

end Readers

/-! ## Transports -/

/-- A piece of some octets holds at least one of them. -/
lemma piece_pos {chunk : Option Nat} {n : Nat} (hchunk : ∀ c ∈ chunk, 0 < c) (hn : 0 < n) :
    0 < (match chunk with | none => n | some c => min n c) := by
  cases hc : chunk with
  | none => exact hn
  | some c => exact lt_min hn (hchunk c hc)

namespace Transport

/-- Octets that a transport comes to hand out: those before its fault. -/
def rest (t : Transport) : Bytes :=
  match t.fault with
  | none => t.pending
  | some (place, _) => t.pending.take (place - t.position)

/-- What a fault comes to that every call meets. -/
def lastingFailure : Fault → ReadFailure
  | .interrupted => .unending
  | f => failure f

/-- What a transport comes back with when it has handed out all it hands out. -/
def ending (t : Transport) : ReadFailure :=
  match t.fault with
  | none => .endOfData
  | some (place, f) =>
    if place ≤ t.position + t.pending.length then lastingFailure f else .endOfData

/-- A transport stands for the octets it comes to hand out.  It stops with `e`, when `n` octets have
been handed out, and its pieces are not empty. -/
structure StandsFor (n : Nat) (e : ReadFailure) (t : Transport) (s : Bytes) : Prop where
  rest_eq : t.rest = s
  ending_eq : t.ending = e
  position_add : t.position + s.length = n
  chunk_pos : ∀ c ∈ t.chunk, 0 < c

variable {n want : Nat} {e : ReadFailure} {t t' : Transport} {s : Bytes}

/-! ### One call -/

/-- A transport that has handed out `k` more octets, if it had so many. -/
def advance (t : Transport) (k : Nat) : Transport :=
  { t with
    pending := t.pending.drop k
    position := t.position + (t.pending.take k).length
    interruptNext := true }

lemma ending_advance (t : Transport) (k : Nat) : (t.advance k).ending = t.ending := by
  have hlength : t.position + (t.pending.take k).length + (t.pending.drop k).length =
      t.position + t.pending.length := by
    rw [List.length_take, List.length_drop]
    omega
  simp only [ending, advance, hlength]

lemma take_append_rest_advance {k : Nat} (hfault : ∀ x ∈ t.fault, t.position + k ≤ x.1) :
    t.pending.take k ++ (t.advance k).rest = t.rest := by
  rw [rest, rest, advance]
  cases hx : t.fault with
  | none => exact List.take_append_drop k t.pending
  | some x =>
    have hle : t.position + k ≤ x.1 := hfault x hx
    have hplace : x.1 - t.position = k + (x.1 - (t.position + k)) := by omega
    simp only [hplace, List.take_add]
    congr 1
    -- Either `k` octets are handed out, or none are left.
    by_cases hk : k ≤ t.pending.length
    · rw [List.length_take_of_le hk]
    · rw [List.drop_of_length_le (by omega), List.take_nil, List.take_nil]

lemma limit_pos (hchunk : ∀ c ∈ t.chunk, 0 < c) (hfault : ∀ x ∈ t.fault, t.position < x.1)
    (hwant : 0 < want) : 0 < t.limit want := by
  have hsize := piece_pos hchunk hwant
  rw [limit]
  cases hx : t.fault with
  | none => exact hsize
  | some x => exact lt_min hsize (Nat.sub_pos_of_lt (hfault x hx))

lemma limit_le (t : Transport) (want : Nat) : t.limit want ≤ want := by
  grind [limit]

lemma limit_le_fault (want : Nat) (hfault : ∀ x ∈ t.fault, t.position < x.1) :
    ∀ x ∈ t.fault, t.position + t.limit want ≤ x.1 := by
  grind [limit]

/-- What a call for `want` octets comes back with if `s` is left, and what is left then, where it is
not the turn of this call to be interrupted. -/
inductive Meets (e : ReadFailure) (want : Nat) : Bytes → Outcome → Bytes → Prop where
  | fault {f : Fault} : failure f = e → Meets e want [] (.fault f) []
  | ended : .endOfData = e → Meets e want [] (.data []) []
  | data (b : UInt8) (bs s : Bytes) :
    bs.length < want → Meets e want (b :: bs ++ s) (.data (b :: bs)) s

lemma meets_ofFault {f : Fault} (hf : f ≠ .interrupted) (want : Nat) :
    Meets (lastingFailure f) want [] (.ofFault f) [] := by
  cases f with
  | interrupted => exact absurd rfl hf
  | _ => exact .fault rfl

/-- Unless it is at its fault, a transport hands out octets from the front of what is left. -/
lemma meets_advance (hchunk : ∀ c ∈ t.chunk, 0 < c) (hfault : ∀ x ∈ t.fault, t.position < x.1)
    (hwant : 0 < want) :
    Meets t.ending want t.rest (.data (t.pending.take (t.limit want)))
      (t.advance (t.limit want)).rest := by
  have hpos := limit_pos hchunk hfault hwant
  have hle := limit_le t want
  rw [← take_append_rest_advance (limit_le_fault want hfault)]
  cases hpending : t.pending with
  | nil =>
    have hrest : (t.advance (t.limit want)).rest = [] := by
      cases hx : t.fault <;> simp [rest, advance, hx, hpending]
    have hending : .endOfData = t.ending := by
      cases hx : t.fault with
      | none => simp [ending, hx]
      | some x => simp [ending, hx, hpending, hfault x hx]
    rw [hrest, List.take_nil]
    exact .ended hending
  | cons b bs =>
    obtain ⟨k, hk⟩ := Nat.exists_eq_add_of_lt hpos
    rw [hk]
    exact .data b _ _ (by simp; omega)

lemma call_of_lt_fault (want : Nat) (hready : t.willInterrupt = false)
    (hfault : ∀ x ∈ t.fault, t.position < x.1) :
    t.call want = (.data (t.pending.take (t.limit want)), t.advance (t.limit want)) := by
  rw [call, if_neg (by simp [hready])]
  cases hx : t.fault with
  | none => simp only [advance, hx]
  | some x =>
    have hlt : ¬ x.1 ≤ t.position := Nat.not_le_of_lt (hfault x hx)
    simp only [advance, hx, if_neg hlt]

/-- One call meets nothing but the octets that are left, and the transport it leaves stands for
those that are left then. -/
lemma meets_call (h : StandsFor n e t s) (hstuck : t.isStuck = false)
    (hready : t.willInterrupt = false) (hwant : 0 < want) :
    ∃ s', Meets e want s (t.call want).1 s' ∧ StandsFor n e (t.call want).2 s' := by
  obtain ⟨rfl, rfl, rfl, hchunk⟩ := h
  by_cases hfault : ∀ x ∈ t.fault, t.position < x.1
  · have hposition := congrArg List.length (take_append_rest_advance (limit_le_fault want hfault))
    rw [List.length_append] at hposition
    rw [call_of_lt_fault want hready hfault]
    refine ⟨_, meets_advance hchunk hfault hwant, rfl, ending_advance t _, ?_, hchunk⟩
    simp only [advance] at hposition ⊢
    omega
  · push Not at hfault
    obtain ⟨⟨place, f⟩, hx, hplace⟩ := hfault
    have hx : t.fault = some (place, f) := hx
    have hplace : place ≤ t.position := hplace
    have hf : f ≠ .interrupted := by
      rintro rfl
      simp [isStuck, hx, hplace] at hstuck
    have hrest : t.rest = [] := by simp [rest, hx, hplace]
    have hending : t.ending = lastingFailure f := by
      simp [ending, hx, Nat.le_add_right_of_le hplace]
    rw [call, if_neg (by simp [hready])]
    simp only [hx, if_pos hplace]
    rw [hrest]
    refine ⟨[], hending ▸ meets_ofFault hf want, ?_, ?_, ?_, hchunk⟩
    · simp [rest, hplace]
    · simp [ending, hx]
    · simp

lemma StandsFor.meets {o : Outcome} (h : StandsFor n e t s) (hstuck : t.isStuck = false)
    (hready : t.willInterrupt = false) (hwant : want ≠ 0) (hcall : t.call want = (o, t')) :
    ∃ s', Meets e want s o s' ∧ StandsFor n e t' s' := by
  have hmeets := meets_call h hstuck hready (Nat.pos_of_ne_zero hwant)
  rwa [hcall] at hmeets

/-- A transport that has just interrupted a call, and does not interrupt the next one. -/
def resumed (t : Transport) : Transport :=
  { t with interruptNext := false }

lemma call_of_willInterrupt (hinterrupts : t.willInterrupt = true) (want : Nat) :
    t.call want = (.interrupted, t.resumed) := by
  rw [call, if_pos hinterrupts, resumed]

lemma willInterrupt_resumed (t : Transport) : t.resumed.willInterrupt = false :=
  Bool.and_false _

/-- No octet is lost by an interruption. -/
lemma StandsFor.resumed (h : StandsFor n e t s) : StandsFor n e t.resumed s :=
  ⟨h.rest_eq, h.ending_eq, h.position_add, h.chunk_pos⟩

/-! ### Calls for ever -/

lemma exists_fault_of_isStuck (hstuck : t.isStuck = true) :
    ∃ place, t.fault = some (place, .interrupted) ∧ place ≤ t.position := by
  rw [isStuck] at hstuck
  split at hstuck
  · next place hfault => exact ⟨place, hfault, of_decide_eq_true hstuck⟩
  · cases hstuck

/-- A call on a transport that is stuck is interrupted, and leaves it stuck. -/
lemma call_of_isStuck (hstuck : t.isStuck = true) (want : Nat) :
    (t.call want).1 = .interrupted ∧ (t.call want).2.isStuck = true := by
  obtain ⟨place, hfault, hplace⟩ := exists_fault_of_isStuck hstuck
  rw [call]
  split
  · exact ⟨rfl, hstuck⟩
  · simp only [hfault, if_pos hplace]
    exact ⟨rfl, by simp [isStuck, hplace]⟩

/-- However often a call is made again on a transport that is stuck, it is interrupted. -/
theorem call_iterate_of_isStuck (hstuck : t.isStuck = true) (want calls : Nat) :
    (((fun t => (t.call want).2)^[calls] t).call want).1 = .interrupted := by
  induction calls generalizing t with
  | zero => exact (call_of_isStuck hstuck want).1
  | succ calls ih => exact ih (call_of_isStuck hstuck want).2

/-- A transport that is stuck has handed out all it hands out. -/
lemma StandsFor.of_isStuck (h : StandsFor n e t s) (hstuck : t.isStuck = true) :
    s = [] ∧ e = .unending := by
  obtain ⟨rfl, rfl, -, -⟩ := h
  obtain ⟨place, hfault, hplace⟩ := exists_fault_of_isStuck hstuck
  refine ⟨by simp [rest, hfault, hplace], ?_⟩
  simp [ending, hfault, Nat.le_add_right_of_le hplace, lastingFailure]

/-! ### Calls in a row -/

lemma fill_zero (t : Transport) : t.fill 0 = (.ok [], t) := by
  rw [fill, if_pos rfl]

lemma fill_of_isStuck (hwant : want ≠ 0) (hstuck : t.isStuck = true) :
    t.fill want = (.error .unending, t) := by
  rw [fill, if_neg hwant, dif_pos hstuck]

/-- One call, and what is read behind it. -/
lemma fill_eq_call (hwant : want ≠ 0) (hstuck : t.isStuck = false) :
    t.fill want =
      match t.call want with
      | (.interrupted, t') => t'.fill want
      | (.fault f, t') => (.error (failure f), t')
      | (.data [], t') => (.error .endOfData, t')
      | (.data (b :: bs), t') =>
        let (more, t'') := t'.fill (want - (bs.length + 1))
        (more.map (b :: bs ++ ·), t'') := by
  rw [fill, if_neg hwant, dif_neg (by simp [hstuck])]
  split <;> simp_all

/-- That calls until `want` octets have come give the octets that are left, or the failure that
comes behind them. -/
def Fills (n : Nat) (e : ReadFailure) (t : Transport) (s : Bytes) (want : Nat) : Prop :=
  ∃ t', StandsFor n e t' (s.drop want) ∧
    t.fill want = (if want ≤ s.length then .ok (s.take want) else .error e, t')

lemma Fills.data {b : UInt8} {bs : Bytes} (hstuck : t.isStuck = false)
    (hcall : t.call want = (.data (b :: bs), t')) (hlt : bs.length < want)
    (h : Fills n e t' s (want - (bs.length + 1))) : Fills n e t (b :: bs ++ s) want := by
  obtain ⟨t'', hleft, hfill⟩ := h
  obtain ⟨k, rfl⟩ : ∃ k, want = (b :: bs).length + k := Nat.exists_eq_add_of_le hlt
  have hk : (b :: bs).length + k - (bs.length + 1) = k := Nat.add_sub_cancel_left _ _
  rw [hk] at hleft hfill
  refine ⟨t'', by rwa [List.drop_length_add_append], ?_⟩
  rw [fill_eq_call (Nat.ne_of_gt (Nat.zero_lt_of_lt hlt)) hstuck, hcall]
  simp only [hk, hfill, List.take_length_add_append, List.length_append, Nat.add_le_add_iff_left]
  split <;> rfl

theorem fill_of_standsFor (h : StandsFor n e t s) (want : Nat) : Fills n e t s want := by
  induction want using Nat.strong_induction_on generalizing t s with
  | _ want ih =>
    by_cases hwant : want = 0
    · subst hwant
      exact ⟨t, h, by rw [fill_zero]; simp⟩
    cases hstuck : t.isStuck with
    | true =>
      obtain ⟨rfl, rfl⟩ := h.of_isStuck hstuck
      refine ⟨t, by simpa using h, ?_⟩
      rw [fill_of_isStuck hwant hstuck, if_neg (by simpa using hwant)]
    | false =>
      wlog hready : t.willInterrupt = false generalizing t
      · rw [Bool.not_eq_false] at hready
        rw [Fills, fill_eq_call hwant hstuck, call_of_willInterrupt hready]
        exact this h.resumed hstuck (willInterrupt_resumed t)
      obtain ⟨⟨o, t'⟩, hcall⟩ : ∃ x, t.call want = x := ⟨_, rfl⟩
      obtain ⟨s', hmeets, h'⟩ := h.meets hstuck hready hwant hcall
      cases hmeets with
      | fault he =>
        refine ⟨t', by simpa using h', ?_⟩
        rw [fill_eq_call hwant hstuck, hcall, if_neg (by simpa using hwant), ← he]
      | ended he =>
        refine ⟨t', by simpa using h', ?_⟩
        rw [fill_eq_call hwant hstuck, hcall, if_neg (by simpa using hwant), ← he]
      | data b bs s hlt => exact .data hstuck hcall hlt (ih _ (by omega) h')

/-- Transports track the octets that they come to hand out. -/
theorem tracks_standsFor (n : Nat) (e : ReadFailure) : Tracks (StandsFor n e) e :=
  fun _ _ h want => fill_of_standsFor h want

/-! ### From the start -/

/-- Octets of some number that come before a fault, if there is one. -/
def reach (length : Nat) : Option (Nat × Fault) → Nat
  | none => length
  | some (place, _) => if place ≤ length then place else length

/-- What comes behind octets of some number: a fault among them, or their end. -/
def stop (length : Nat) : Option (Nat × Fault) → ReadFailure
  | none => .endOfData
  | some (place, f) => if place ≤ length then lastingFailure f else .endOfData

lemma standsFor_ofBytes (b : Bytes) {chunk : Option Nat} (hchunk : ∀ c ∈ chunk, 0 < c)
    (fault : Option (Nat × Fault)) (interrupts : Bool) :
    StandsFor (reach b.length fault) (stop b.length fault) (ofBytes b chunk fault interrupts)
      (b.take (reach b.length fault)) := by
  constructor
  · cases fault with
    | none => simp [rest, ofBytes, reach]
    | some x =>
      simp only [rest, ofBytes, reach, Nat.sub_zero]
      split
      · rfl
      · rw [List.take_length, List.take_of_length_le (by omega)]
  · cases fault <;> simp [ending, ofBytes, stop]
  · cases fault with
    | none => simp [ofBytes, reach]
    | some x => grind [ofBytes, reach]
  · exact hchunk

lemma takeAll_ofBytes_agrees (b : Bytes) {chunk : Option Nat} (hchunk : ∀ c ∈ chunk, 0 < c)
    (fault : Option (Nat × Fault)) (interrupts : Bool) (kinds : List FieldKind) :
    let t := ofBytes b chunk fault interrupts
    let s := b.take (reach b.length fault)
    let e := stop b.length fault
    (FieldKind.takeAll kinds t).1 =
      upToStop ((FieldKind.takeAll kinds s).1.map (Except.mapError (StreamError.recast e))) ∧
    ((∀ r ∈ (FieldKind.takeAll kinds t).1, comesBack r = true) →
      (FieldKind.takeAll kinds t).2.position + (FieldKind.takeAll kinds s).2.length = s.length) := by
  intro t s e
  have hstart : StandsFor _ e t s := standsFor_ofBytes b hchunk fault interrupts
  obtain ⟨hresults, hleft⟩ := FieldKind.takeAll_agrees (tracks_standsFor _ e) hstart kinds
  refine ⟨hresults, fun hall => ?_⟩
  rw [(hleft hall).position_add, ← hstart.position_add]
  exact Nat.zero_add s.length

/-- Reads from a transport are reads from the octets before its fault.

Whatever fields are read, each attempted whatever the ones before came to, the results are those of
the same reads from the byte string, where the end of the data shows as the failure the transport
stops with; if it stops as the data ends, they are the same results.  After each number of reads as
many octets have been handed out as are read from the byte string.  In how many pieces they came and
which calls were interrupted makes no difference.

If every call is interrupted from the fault on, the results are the same up to the first read that
meets the end of the byte string.  This one never comes back. -/
theorem takeAll_ofBytes (b : Bytes) {chunk : Option Nat} (hchunk : ∀ c ∈ chunk, 1 ≤ c)
    (fault : Option (Nat × Fault)) (interrupts : Bool) (kinds : List FieldKind) :
    let t := ofBytes b chunk fault interrupts
    let s := b.take (reach b.length fault)
    let e := stop b.length fault
    (e ≠ .unending → (FieldKind.takeAll kinds t).1 =
      (FieldKind.takeAll kinds s).1.map (Except.mapError (StreamError.recast e))) ∧
    (e = .endOfData → (FieldKind.takeAll kinds t).1 = (FieldKind.takeAll kinds s).1) ∧
    (e = .unending → (FieldKind.takeAll kinds t).1 =
      upToStop ((FieldKind.takeAll kinds s).1.map (Except.mapError (StreamError.recast e)))) ∧
    ∀ i, (∀ r ∈ (FieldKind.takeAll kinds t).1.take i, comesBack r = true) →
      (FieldKind.takeAll (kinds.take i) t).2.position +
        (FieldKind.takeAll (kinds.take i) s).2.length = s.length := by
  intro t s e
  have hagrees := takeAll_ofBytes_agrees b hchunk fault interrupts
  have hresults : e ≠ .unending → (FieldKind.takeAll kinds t).1 =
      (FieldKind.takeAll kinds s).1.map (Except.mapError (StreamError.recast e)) := by
    intro he
    rw [(hagrees kinds).1, upToStop_map (comesBack_recast he), FieldKind.upToStop_takeAll]
  refine ⟨hresults, fun he => ?_, fun _ => (hagrees kinds).1, fun i hall => ?_⟩
  · rw [hresults (by rw [he]; decide), he, mapError_recast_endOfData, List.map_id]
  · rw [← FieldKind.takeAll_take] at hall
    exact (hagrees (kinds.take i)).2 hall

/-- A number, a byte string of three octets, and two octets that begin another number. -/
def brokenOctets : Bytes :=
  encodeAll [.uint64 258, .byteString [1, 2, 3]] ++ [4, 5]

/-- The deadline passes in the payload of the byte string.  The number before it comes in pieces of
three octets, and the read behind it is attempted all the same. -/
theorem brokenOctets_takeAll :
    let t := ofBytes brokenOctets (some 3) (some (18, .timedOut)) true
    let kinds : List FieldKind := [.uint64, .byteString 3, .hash]
    (FieldKind.takeAll kinds t).1 = [.ok (.uint64 258),
      .error (.sourceFailed .byteString .timedOut), .error (.sourceFailed .hash .timedOut)] ∧
    (FieldKind.takeAll (kinds.take 1) t).2.position = 8 ∧
    (FieldKind.takeAll (kinds.take 2) t).2.position = 18 := by
  intro t kinds
  have hchunk : ∀ c ∈ some 3, 1 ≤ c := by simp
  obtain ⟨hresults, -, -, hpositions⟩ :=
    takeAll_ofBytes brokenOctets hchunk (some (18, .timedOut)) true kinds
  have hresults := hresults (by decide)
  have hfirst : ∀ r ∈ (FieldKind.takeAll kinds t).1.take 1, comesBack r = true := by
    rw [hresults]
    decide
  have hboth : ∀ r ∈ (FieldKind.takeAll kinds t).1.take 2, comesBack r = true := by
    rw [hresults]
    decide
  exact ⟨hresults, Nat.eq_sub_of_add_eq (hpositions 1 hfirst),
    Nat.eq_sub_of_add_eq (hpositions 2 hboth)⟩

/-! ### A fault that is no failure -/

/-- What comes behind octets of some number if every fault among them is a failure. -/
def reported (length : Nat) : Option (Nat × Fault) → ReadFailure
  | none => .endOfData
  | some (place, f) => if place ≤ length then failure f else .endOfData

/-- That every read from a transport comes back, with the result of the same read from the octets
before its fault, where the end of the data shows as the fault, and with as many octets handed out. -/
def ReadsAsReported (b : Bytes) (chunk : Option Nat) (fault : Option (Nat × Fault))
    (interrupts : Bool) (kinds : List FieldKind) : Prop :=
  let t := ofBytes b chunk fault interrupts
  let s := b.take (reach b.length fault)
  (∀ r ∈ (FieldKind.takeAll kinds t).1, comesBack r = true) ∧
    (FieldKind.takeAll kinds t).1 = (FieldKind.takeAll kinds s).1.map
      (Except.mapError (StreamError.recast (reported b.length fault))) ∧
    ∀ i, (FieldKind.takeAll (kinds.take i) t).2.position +
      (FieldKind.takeAll (kinds.take i) s).2.length = s.length

/-- A length that no byte string has, with no octet of its payload behind it. -/
def unholdableLength : Bytes :=
  [0x80, 0, 0, 0, 0, 0, 0, 0]

/-- From a source without octets whose every call is interrupted a number is read for ever, and no
fault is reported.  A length that no byte string has stops the program if it is admitted, from any
source, and nothing is reported either. -/
theorem reads_not_asReported :
    ((FieldKind.takeAll [.uint64] (ofBytes [] none (some (0, .interrupted)) false)).1 =
        [.error (.neverEnds .uint64)] ∧
      ¬ ReadsAsReported [] none (some (0, .interrupted)) false [.uint64]) ∧
    (FieldKind.takeAll [.byteString 18446744073709551615]
        (ofBytes unholdableLength none none false)).1 =
        [.error (.outOfRoom 9223372036854775808)] ∧
      ¬ ReadsAsReported unholdableLength none none false [.byteString 18446744073709551615] := by
  have hchunk : ∀ c ∈ (none : Option Nat), 0 < c := nofun
  have hnever := (takeAll_ofBytes_agrees [] hchunk (some (0, .interrupted)) false [.uint64]).1
  have hstops := (takeAll_ofBytes_agrees unholdableLength hchunk none false
    [.byteString 18446744073709551615]).1
  refine ⟨⟨hnever, fun h => ?_⟩, hstops, fun h => ?_⟩
  · have hback := h.1
    rw [hnever] at hback
    exact absurd (hback _ (List.mem_singleton_self _)) (by decide)
  · have hback := h.1
    rw [hstops] at hback
    exact absurd (hback _ (List.mem_singleton_self _)) (by decide)

end Transport

end RollupBoundary.Wire
