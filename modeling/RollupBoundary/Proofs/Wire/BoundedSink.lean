import Mathlib
import RollupBoundary.Proofs.Wire.Transport

/-!
# What a bounded sink holds

However often a writer fails, a bounded sink never holds anything but the front of all the octets
it was to take (`Offered`): it is full before it refuses the first octet.  So what a write comes to
can be told from places alone.  Octets are taken if they end within the capacity
(`drain_of_offered`), a value is written if it does, and else the error is that of its first part
that does not (`resultWithin`).  In how many pieces octets are taken makes no difference
(`putAll_ofCapacity`).
-/

namespace RollupBoundary.Wire

/-! ## Parts one after another -/

/-- Writes parts in order, up to the first one that cannot be written. -/
def putParts {κ : Type} [ByteSink κ] : List (Part × Bytes) → κ → Except StreamError Unit × κ
  | [], k => (.ok (), k)
  | (part, bs) :: parts, k =>
    match putPart part bs k with
    | (.ok (), k') => putParts parts k'
    | failed => failed

lemma putParts_singleton {κ : Type} [ByteSink κ] (part : Part) (bs : Bytes) (k : κ) :
    putParts [(part, bs)] k = putPart part bs k := by
  rw [putParts]
  obtain ⟨_ | _, _⟩ := putPart part bs k <;> rfl

/-- On every sink the writer of a value writes its parts. -/
lemma WireValue.put_eq_putParts {κ : Type} [ByteSink κ] (v : WireValue) (k : κ) :
    v.put k = putParts v.parts k := by
  cases v with
  | hash w => exact (putParts_singleton ..).symm
  | address a => exact (putParts_singleton ..).symm
  | paddedAddress a =>
    rw [put, putPaddedAddress, parts, putParts]
    obtain ⟨_ | _, k'⟩ := putPart .paddedAddress (Bytes.zeros padding) k
    · rfl
    · exact (putParts_singleton .address a.toBytes k').symm
  | uint64 n => exact (putParts_singleton ..).symm
  | byteString bs =>
    rw [put, putByteString, parts, putParts, putUInt64]
    obtain ⟨_ | _, k'⟩ := putPart .uint64 _ k
    · rfl
    · exact (putParts_singleton .byteString bs k').symm

/-- Only the payload of a byte string may be empty, and it is not the first part. -/
lemma WireValue.head_parts_ne_nil (v : WireValue) : ∀ p ∈ v.parts.head?, p.2 ≠ [] := by
  intro p hp
  rw [← List.length_pos_iff]
  cases v <;> cases hp <;> simp [padding, uint64Width]

/-! ## Places -/

/-- The first of some parts that ends beyond a capacity, where the first one begins at `start`. -/
def firstBeyond (capacity : Nat) : Nat → List (Part × Bytes) → Option Part
  | _, [] => none
  | start, (part, bs) :: parts =>
    if capacity < start + bs.length then some part
    else firstBeyond capacity (start + bs.length) parts

/-- What writing parts from a place on comes to, as far as a capacity goes. -/
def resultWithin (capacity : Nat) (failure : WriteFailure) (start : Nat)
    (parts : List (Part × Bytes)) : Except StreamError Unit :=
  match firstBeyond capacity start parts with
  | none => .ok ()
  | some part => .error (.sinkFailed part failure)

variable {capacity start : Nat} {failure : WriteFailure} {parts : List (Part × Bytes)}

lemma firstBeyond_eq_none_iff (hparts : parts ≠ []) :
    firstBeyond capacity start parts = none ↔
      start + (parts.flatMap Prod.snd).length ≤ capacity := by
  induction parts generalizing start with
  | nil => exact absurd rfl hparts
  | cons p parts ih =>
    obtain ⟨part, bs⟩ := p
    rw [firstBeyond, List.flatMap_cons, List.length_append]
    split
    · simp; omega
    · cases parts with
      | nil => simp [firstBeyond]; omega
      | cons q parts => rw [ih (by simp), Nat.add_assoc]

lemma resultWithin_eq_error_iff {err : StreamError} :
    resultWithin capacity failure start parts = .error err ↔
      ∃ part, err = .sinkFailed part failure ∧ firstBeyond capacity start parts = some part := by
  rw [resultWithin]
  cases firstBeyond capacity start parts <;> simp [eq_comm]

/-- A value is written if it ends within the capacity. -/
lemma resultWithin_parts_eq_ok_iff (v : WireValue) :
    resultWithin capacity failure start v.parts = .ok () ↔ start + v.encode.length ≤ capacity := by
  have hparts : v.parts ≠ [] := by cases v <;> exact List.cons_ne_nil _ _
  rw [WireValue.encode, ← firstBeyond_eq_none_iff hparts, resultWithin]
  cases firstBeyond capacity start v.parts <;> simp

/-- An empty payload ends where the length before it does. -/
lemma firstBeyond_parts_byteString_nil (capacity start : Nat) :
    firstBeyond capacity start (WireValue.byteString []).parts ≠ some .byteString := by
  rw [WireValue.parts, firstBeyond]
  split
  · simp
  case isFalse hbegins => simpa [firstBeyond] using hbegins

/-! ## Sinks -/

namespace BoundedSink

/-- How a full sink fails. -/
def refusal (closesWhenFull : Bool) : WriteFailure :=
  if closesWhenFull then .closed else .noRoom

/-- A sink of some capacity that was to take the octets `s` in all holds the first of them. -/
structure Offered (capacity : Nat) (failure : WriteFailure) (k : BoundedSink) (s : Bytes) :
    Prop where
  held_eq : k.held = s.take capacity
  capacity_eq : k.capacity = capacity
  refusal_eq : refusal k.closesWhenFull = failure
  chunk_pos : ∀ c ∈ k.chunk, 0 < c

variable {k k' : BoundedSink} {s bs : Bytes}

/-- A full sink may be offered anything. -/
lemma Offered.append_of_le (h : Offered capacity failure k s) (hfull : capacity ≤ s.length)
    (bs : Bytes) : Offered capacity failure k (s ++ bs) :=
  { h with held_eq := by rw [List.take_append_of_le_length hfull, h.held_eq] }

/-- What a call with the octets `bs` comes back with behind the octets `s`, and which octets the
sink was then to take in all. -/
inductive Meets (capacity : Nat) (failure : WriteFailure) (s bs : Bytes) :
    Outcome → Bytes → Prop where
  | interrupted : Meets capacity failure s bs .interrupted s
  | closed : capacity ≤ s.length → failure = .closed → Meets capacity failure s bs .closed s
  | full : capacity ≤ s.length → failure = .noRoom → Meets capacity failure s bs (.took 0) s
  | took (n : Nat) : n < bs.length → s.length + n < capacity →
    Meets capacity failure s bs (.took (n + 1)) (s ++ bs.take (n + 1))

lemma limit_le (k : BoundedSink) (offered : Nat) : k.limit offered ≤ offered := by
  grind [limit]

lemma limit_le_room (k : BoundedSink) (offered : Nat) :
    k.limit offered ≤ k.capacity - k.held.length := by
  grind [limit]

/-- A call takes no octet only if there is no room for any. -/
lemma full_of_limit_eq_zero {offered : Nat} (hchunk : ∀ c ∈ k.chunk, 0 < c)
    (hoffered : 0 < offered) (h : k.limit offered = 0) : k.capacity ≤ k.held.length := by
  by_contra hroom
  exact (lt_min (piece_pos hchunk hoffered) (Nat.sub_pos_of_lt (not_le.1 hroom))).ne' h

/-- One call takes octets as long as there is room, and refuses them only when there is none. -/
lemma meets_call (h : Offered capacity failure k s) (hbs : bs ≠ []) :
    ∃ s', Meets capacity failure s bs (k.call bs).1 s' ∧
      Offered capacity failure (k.call bs).2 s' := by
  obtain ⟨hheld, rfl, rfl, hchunk⟩ := h
  have hlength : k.held.length = min k.capacity s.length := by rw [hheld, List.length_take]
  rw [call]
  split
  · exact ⟨s, .interrupted, hheld, rfl, rfl, hchunk⟩
  · split
    case isTrue hcloses =>
      obtain ⟨hcloses, hfull⟩ := hcloses
      exact ⟨s, .closed (by omega) (if_pos hcloses), hheld, rfl, rfl, hchunk⟩
    case isFalse hopen =>
      have hle := k.limit_le bs.length
      have hroom := k.limit_le_room bs.length
      cases hlimit : k.limit bs.length with
      | zero =>
        have hfull := full_of_limit_eq_zero hchunk (List.length_pos_iff.2 hbs) hlimit
        have hstays : k.closesWhenFull = false := by simpa [hfull] using hopen
        refine ⟨s, .full (by omega) (by simp [refusal, hstays]), ?_, rfl, rfl, hchunk⟩
        simpa using hheld
      | succ n =>
        have hall : k.held = s := by rw [hheld, List.take_of_length_le (by omega)]
        refine ⟨_, .took n (by omega) (by omega), ?_, rfl, rfl, hchunk⟩
        rw [List.take_of_length_le (by simp; omega)]
        simp only [hall]

lemma Offered.meets {o : Outcome} (h : Offered capacity failure k s) (hbs : bs ≠ [])
    (hcall : k.call bs = (o, k')) :
    ∃ s', Meets capacity failure s bs o s' ∧ Offered capacity failure k' s' := by
  have hmeets := meets_call h hbs
  rwa [hcall] at hmeets

/-! ### Calls in a row -/

lemma drain_nil (k : BoundedSink) : k.drain [] = (.ok (), k) := by
  rw [drain, dif_pos rfl]

/-- One call, and what is written behind it. -/
lemma drain_eq_call (hbs : bs ≠ []) :
    k.drain bs =
      match k.call bs with
      | (.interrupted, k') => k'.drain bs
      | (.closed, k') => (.error .closed, k')
      | (.took 0, k') => (.error .noRoom, k')
      | (.took (n + 1), k') => k'.drain (bs.drop (n + 1)) := by
  rw [drain, dif_neg hbs]
  split <;> simp_all

/-- That draining the octets `bs` behind the octets `s` comes to what the places tell: they are
refused if there are any and they end beyond the capacity. -/
def Drains (capacity : Nat) (failure : WriteFailure) (k : BoundedSink) (s bs : Bytes) : Prop :=
  ∃ k', Offered capacity failure k' (s ++ bs) ∧
    k.drain bs =
      (if bs ≠ [] ∧ capacity < s.length + bs.length then .error failure else .ok (), k')

/-- Octets are refused once the sink is full. -/
lemma Drains.refused (hbs : bs ≠ []) (hfull : capacity ≤ s.length)
    (h : Offered capacity failure k' s)
    (hdrain : k.drain bs = (.error failure, k')) : Drains capacity failure k s bs := by
  have hpos := List.length_pos_iff.2 hbs
  refine ⟨k', h.append_of_le hfull bs, ?_⟩
  rw [hdrain, if_pos ⟨hbs, by omega⟩]

/-- Octets of which the first `n` have been taken are drained if the others are. -/
lemma Drains.took {n : Nat} (hle : n ≤ bs.length) (hroom : s.length + n ≤ capacity)
    (hdrain : k.drain bs = k'.drain (bs.drop n))
    (h : Drains capacity failure k' (s ++ bs.take n) (bs.drop n)) :
    Drains capacity failure k s bs := by
  obtain ⟨k'', h'', hdrop⟩ := h
  rw [List.append_assoc, List.take_append_drop] at h''
  refine ⟨k'', h'', ?_⟩
  have hfits : (bs.drop n ≠ [] ∧
      capacity < (s ++ bs.take n).length + (bs.drop n).length) ↔
      (bs ≠ [] ∧ capacity < s.length + bs.length) := by
    rw [← List.length_pos_iff, ← List.length_pos_iff, List.length_append,
      List.length_take_of_le hle, List.length_drop]
    omega
  simp only [hdrain, hdrop, hfits]

theorem drain_of_offered (h : Offered capacity failure k s) (bs : Bytes) :
    Drains capacity failure k s bs := by
  induction k, bs using drain.induct generalizing s with
  | case1 k => exact ⟨k, by simpa using h, by simp [drain_nil]⟩
  | case2 k bs hbs k' hcall ih =>
    obtain ⟨s', hmeets, h'⟩ := h.meets hbs hcall
    cases hmeets
    rw [Drains, drain_eq_call hbs, hcall]
    exact ih h'
  | case3 k bs hbs k' hcall =>
    obtain ⟨s', hmeets, h'⟩ := h.meets hbs hcall
    cases hmeets with
    | closed hfull hfailure =>
      exact .refused hbs hfull h' (by rw [drain_eq_call hbs, hcall, ← hfailure])
  | case4 k bs hbs k' hcall =>
    obtain ⟨s', hmeets, h'⟩ := h.meets hbs hcall
    cases hmeets with
    | full hfull hfailure =>
      exact .refused hbs hfull h' (by rw [drain_eq_call hbs, hcall, ← hfailure])
  | case5 k bs hbs n k' hcall ih =>
    obtain ⟨s', hmeets, h'⟩ := h.meets hbs hcall
    cases hmeets with
    | took _ hn hroom => exact .took hn hroom (by rw [drain_eq_call hbs, hcall]) (ih h')

/-! ## Values on a sink -/

/-- Parts are written as far as the capacity goes.  Where the sink is full already, the first part
has to have octets to be refused. -/
lemma putParts_of_offered (h : Offered capacity failure k s)
    (hfirst : s.length ≤ capacity ∨ ∀ p ∈ parts.head?, p.2 ≠ []) :
    (putParts parts k).1 = resultWithin capacity failure s.length parts ∧
      Offered capacity failure (putParts parts k).2 (s ++ parts.flatMap Prod.snd) := by
  induction parts generalizing k s with
  | nil => exact ⟨rfl, by simpa [putParts] using h⟩
  | cons p parts ih =>
    obtain ⟨part, bs⟩ := p
    obtain ⟨k', h', hdrain⟩ := drain_of_offered h bs
    have hput : ByteSink.put k bs = k.drain bs := rfl
    rw [putParts, putPart, hput, hdrain, resultWithin, firstBeyond, List.flatMap_cons,
      ← List.append_assoc]
    by_cases hbeyond : capacity < s.length + bs.length
    · have hbs : bs ≠ [] := by
        rintro rfl
        exact hfirst.elim (fun hle => absurd hbeyond hle.not_gt) fun hne => hne (part, []) rfl rfl
      rw [if_pos ⟨hbs, hbeyond⟩, if_pos hbeyond]
      exact ⟨rfl, h'.append_of_le (by simp; omega) _⟩
    · rw [if_neg (hbeyond ·.2), if_neg hbeyond]
      have hrest := ih h' (.inl (by simp; omega))
      rwa [List.length_append] at hrest

lemma put_of_offered (h : Offered capacity failure k s) (v : WireValue) :
    (v.put k).1 = resultWithin capacity failure s.length v.parts ∧
      Offered capacity failure (v.put k).2 (s ++ v.encode) := by
  rw [v.put_eq_putParts]
  exact putParts_of_offered h (.inr v.head_parts_ne_nil)

/-- One value after another, also behind a value that was not written. -/
lemma putAll_of_offered (h : Offered capacity failure k s) (vs : List WireValue) :
    Offered capacity failure (WireValue.putAll vs k).2 (s ++ encodeAll vs) ∧
      (WireValue.putAll vs k).1.length = vs.length ∧
      ∀ i v, vs[i]? = some v → (WireValue.putAll vs k).1[i]? =
        some (resultWithin capacity failure (s ++ encodeAll (vs.take i)).length v.parts) := by
  induction vs generalizing k s with
  | nil => exact ⟨by simpa [encodeAll, WireValue.putAll] using h, rfl, by simp⟩
  | cons v vs ih =>
    obtain ⟨hresult, hput⟩ := put_of_offered h v
    obtain ⟨hall, hlength, hresults⟩ := ih hput
    have hcons : ∀ us, s ++ v.encode ++ encodeAll us = s ++ encodeAll (v :: us) := fun us => by
      rw [List.append_assoc, encodeAll, encodeAll, List.flatMap_cons]
    refine ⟨?_, ?_, ?_⟩
    · rw [← hcons]
      exact hall
    · simp only [WireValue.putAll, List.length_cons, hlength]
    · intro i u hu
      cases i with
      | zero =>
        cases hu
        simp [WireValue.putAll, hresult, encodeAll]
      | succ i =>
        rw [List.take_succ_cons, ← hcons]
        exact hresults i u hu

/-- Writes to a bounded sink leave the front of what was to be written.

Whatever values are written, each attempted whatever the ones before came to, the sink holds as many
octets of their encodings as there is room for.  A value is written exactly if its encoding ends
within the capacity; else the error names the first of its parts that ends beyond, which is never
the payload of an empty byte string. -/
theorem putAll_ofCapacity (capacity : Nat) {chunk : Option Nat} (hchunk : ∀ c ∈ chunk, 1 ≤ c)
    (closesWhenFull interrupts : Bool) (vs : List WireValue) :
    let (results, k) := WireValue.putAll vs (ofCapacity capacity chunk closesWhenFull interrupts)
    k.held = (encodeAll vs).take capacity ∧ results.length = vs.length ∧
    ∀ i v, vs[i]? = some v → ∃ r, results[i]? = some r ∧
      (r = .ok () ↔ (encodeAll (vs.take (i + 1))).length ≤ capacity) ∧
      (∀ err, r = .error err → ∃ part, err = .sinkFailed part (refusal closesWhenFull) ∧
        firstBeyond capacity (encodeAll (vs.take i)).length v.parts = some part) ∧
      (v = .byteString [] → ∀ failure, r ≠ .error (.sinkFailed .byteString failure)) := by
  have hstart : Offered capacity (refusal closesWhenFull)
      (ofCapacity capacity chunk closesWhenFull interrupts) [] :=
    ⟨List.take_nil.symm, rfl, rfl, hchunk⟩
  obtain ⟨hall, hlength, hresults⟩ := putAll_of_offered hstart vs
  have htake : ∀ {i v}, vs[i]? = some v →
      encodeAll (vs.take (i + 1)) = encodeAll (vs.take i) ++ v.encode := by
    intro i v hv
    rw [List.take_add_one, hv, encodeAll, encodeAll, List.flatMap_append]
    simp
  refine ⟨hall.held_eq, hlength, fun i v hv => ⟨_, hresults i v hv, ?_, ?_, ?_⟩⟩
  · rw [resultWithin_parts_eq_ok_iff, List.nil_append, htake hv, List.length_append]
  · exact fun err => resultWithin_eq_error_iff.1
  · rintro rfl failure hfailed
    obtain ⟨part, herr, hpart⟩ := resultWithin_eq_error_iff.1 hfailed
    cases herr
    exact firstBeyond_parts_byteString_nil _ _ hpart

/-- A pipe with room for 50 octets that takes 7 at a time and is interrupted at every other call.
The second value ends at 52 and begins with twelve octets that end at 32, so it is written up to the
middle of the address. -/
theorem putAll_narrowPipe :
    let vs : List WireValue := [.address 1, .paddedAddress 2, .byteString []]
    let (results, k) := WireValue.putAll vs (ofCapacity 50 (some 7) true true)
    k.held = (encodeAll vs).take 50 ∧ results[0]? = some (.ok ()) ∧
      results[1]? = some (.error (.sinkFailed .address .closed)) := by
  intro vs
  have hchunk : ∀ c ∈ some 7, 1 ≤ c := by simp
  obtain ⟨hheld, -, hresults⟩ := putAll_ofCapacity 50 hchunk true true vs
  obtain ⟨r₀, hr₀, hok₀, -⟩ := hresults 0 _ rfl
  obtain ⟨r₁, hr₁, hok₁, herror₁, -⟩ := hresults 1 _ rfl
  refine ⟨hheld, by rw [hr₀, hok₀.2 (by decide)], ?_⟩
  cases r₁ with
  | ok => exact absurd (hok₁.1 rfl) (by decide)
  | error err =>
    obtain ⟨part, rfl, hpart⟩ := herror₁ err rfl
    cases hpart
    exact hr₁

end BoundedSink

end RollupBoundary.Wire
