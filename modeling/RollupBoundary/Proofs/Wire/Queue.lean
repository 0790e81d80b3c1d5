import Mathlib
import RollupBoundary.Proofs.Wire.Value

/-!
# A byte string with fields is a queue of values

A program writes fields at the end of a byte string and reads fields from its front, in any order.
Each step takes one of two ways, the operation named for the kind of field or the one chosen by the
type of the value; both come to the same (`putVia_eq`, `takeVia_eq`).

What such a program sees is a queue of values.  The invariant is that the unread octets are the
encodings of the values in the queue, one behind the other.  One step keeps it (`run_encodeAll`), so
a whole run does: `runAll_encodeAll` says that every read gives the oldest value there is, as long
as the program asks for the kind that this value has.
-/

namespace RollupBoundary.Wire

/-! ## Two ways to a field -/

/-- How a step puts a field on the stream or takes it from there. -/
inductive Via where
  /-- By the operation named for the kind of field. -/
  | named
  /-- By the type of the value, if it is one of fixed width. -/
  | typed
deriving DecidableEq

/-- Writes a value.  A byte string has no type of fixed width, so there is but one way for it. -/
def WireValue.putVia {κ : Type} [ByteSink κ] : Via → WireValue → κ → Except StreamError Unit × κ
  | .typed, .hash w, k => FixedWidth.putTo w k
  | .typed, .address a, k => FixedWidth.putTo a k
  | .typed, .paddedAddress a, k => FixedWidth.putTo (PaddedAddress.mk a) k
  | .typed, .uint64 n, k => FixedWidth.putTo n k
  | _, v, k => v.put k

/-- Reads a value.  A byte string has no type of fixed width, so there is but one way for it. -/
def FieldKind.takeVia {σ : Type} [ByteSource σ] :
    Via → FieldKind → σ → Except StreamError WireValue × σ
  | .typed, .hash, s =>
    let (r, s') := FixedWidth.takeFrom s
    (r.map .hash, s')
  | .typed, .address, s =>
    let (r, s') := FixedWidth.takeFrom s
    (r.map .address, s')
  | .typed, .paddedAddress, s =>
    let (r, s') := FixedWidth.takeFrom s
    (r.map fun a : PaddedAddress => .paddedAddress a.address, s')
  | .typed, .uint64, s =>
    let (r, s') := FixedWidth.takeFrom s
    (r.map .uint64, s')
  | _, kind, s => kind.take s

lemma WireValue.putVia_eq {κ : Type} [ByteSink κ] (via : Via) (v : WireValue) (k : κ) :
    v.putVia via k = v.put k := by
  cases via with
  | named => rfl
  | typed => cases v <;> rfl

lemma FieldKind.takeVia_eq {σ : Type} [ByteSource σ] (via : Via) (kind : FieldKind) (s : σ) :
    kind.takeVia via s = kind.take s := by
  cases via with
  | named => rfl
  | typed =>
    cases kind with
    | paddedAddress =>
      simp only [takeVia, take, FixedWidth.takeFrom]
      cases (takePaddedAddress s).1 <;> rfl
    | _ => rfl

/-! ## Programs -/

/-- A step of a program on a byte string. -/
inductive Step where
  | write (via : Via) (v : WireValue)
  | read (via : Via) (kind : FieldKind)

/-- What a step comes to. -/
inductive Answer where
  | wrote (r : Except StreamError Unit)
  | gave (r : Except StreamError WireValue)

/-- A step: its answer and the octets that are unread after it. -/
def Step.run : Step → Bytes → Answer × Bytes
  | .write via v, buffer =>
    let (r, buffer') := v.putVia via buffer
    (.wrote r, buffer')
  | .read via kind, buffer =>
    let (r, buffer') := kind.takeVia via buffer
    (.gave r, buffer')

/-- The steps of a program, each with its answer and the octets that are unread after it. -/
def runAll : List Step → Bytes → List (Answer × Bytes)
  | [], _ => []
  | step :: steps, buffer => step.run buffer :: runAll steps (step.run buffer).2

/-! ## Queues -/

/-- What a step comes to on a queue of values: a written value is the last one, and a read gives
the first one, if that is of the kind asked for. -/
inductive Serves : List WireValue → Step → Answer → List WireValue → Prop where
  | write (q : List WireValue) (via : Via) (v : WireValue) :
    Serves q (.write via v) (.wrote (.ok ())) (q ++ [v])
  | read (q : List WireValue) (via : Via) {v : WireValue} {kind : FieldKind} :
    v.fits kind → Serves (v :: q) (.read via kind) (.gave (.ok v)) q

/-- The steps of a program on a queue, each with its answer and the values in the queue after it. -/
inductive ServesAll : List WireValue → List Step → List (Answer × List WireValue) → Prop where
  | nil (q : List WireValue) : ServesAll q [] []
  | cons {q q' : List WireValue} {step : Step} {steps : List Step} {answer : Answer}
    {outcomes : List (Answer × List WireValue)} :
    Serves q step answer q' → ServesAll q' steps outcomes →
    ServesAll q (step :: steps) ((answer, q') :: outcomes)

/-- That each read of a program asks for the kind of the oldest value that is not yet read. -/
def Matches : List WireValue → List Step → Prop
  | _, [] => True
  | q, .write _ v :: steps => Matches (q ++ [v]) steps
  | [], .read _ _ :: _ => False
  | v :: q, .read _ kind :: steps => v.fits kind ∧ Matches q steps

lemma exists_servesAll {q : List WireValue} {steps : List Step} (h : Matches q steps) :
    ∃ outcomes, ServesAll q steps outcomes := by
  induction steps generalizing q with
  | nil => exact ⟨[], .nil q⟩
  | cons step steps ih =>
    cases step with
    | write via v =>
      obtain ⟨outcomes, hall⟩ := ih h
      exact ⟨_, .cons (.write q via v) hall⟩
    | read via kind =>
      cases q with
      | nil => exact absurd h id
      | cons v q =>
        obtain ⟨outcomes, hall⟩ := ih h.2
        exact ⟨_, .cons (.read q via h.1) hall⟩

/-! ## The octets of a queue -/

/-- One step on the octets of a queue comes to what it comes to on the queue, and leaves the octets
of the queue. -/
lemma run_encodeAll {q q' : List WireValue} {step : Step} {answer : Answer}
    (h : Serves q step answer q') : step.run (encodeAll q) = (answer, encodeAll q') := by
  cases h with
  | write via v =>
    rw [Step.run, WireValue.putVia_eq, WireValue.put_eq]
    simp [encodeAll]
  | read _ via hfits =>
    rw [Step.run, FieldKind.takeVia_eq, encodeAll, List.flatMap_cons, FieldKind.take_encode hfits,
      encodeAll]

lemma runAll_of_servesAll {q : List WireValue} {steps : List Step}
    {outcomes : List (Answer × List WireValue)} (h : ServesAll q steps outcomes) :
    runAll steps (encodeAll q) = outcomes.map fun x => (x.1, encodeAll x.2) := by
  induction h with
  | nil q => rfl
  | cons hstep _ ih => rw [runAll, run_encodeAll hstep, ih, List.map_cons]

/-- A program on the octets of a queue sees the queue.

Of any writes and reads in any order, each read of the kind of the oldest value that is not yet
read, every write succeeds, every read gives just that value, and after each step the unread octets
are the encodings of the values written and not yet read.  Each encoding has the width of its kind,
which for a type of fixed width is the width of the type. -/
theorem runAll_encodeAll {q : List WireValue} {steps : List Step} (h : Matches q steps) :
    (∃ outcomes, ServesAll q steps outcomes ∧
      runAll steps (encodeAll q) = outcomes.map fun x => (x.1, encodeAll x.2)) ∧
    (∀ v : WireValue, v.encode.length = v.width) ∧
    FixedWidth.width Word = 32 ∧ FixedWidth.width Address = 20 ∧
      FixedWidth.width PaddedAddress = 32 ∧ FixedWidth.width UInt64 = 8 := by
  obtain ⟨outcomes, hall⟩ := exists_servesAll h
  exact ⟨⟨outcomes, hall, runAll_of_servesAll hall⟩, WireValue.length_encode, rfl, rfl, rfl, rfl⟩

/-- Steps of every kind, some of them both ways; an empty byte string is read before the rest. -/
def mixedSteps : List Step := [
  .write .named (.byteString []),
  .write .typed (.paddedAddress 7),
  .read .named (.byteString 0),
  .write .named (.uint64 256),
  .read .named .paddedAddress,
  .write .typed (.hash 1),
  .write .named (.byteString [1, 2, 3]),
  .read .typed .uint64,
  .read .typed .hash,
  .write .named (.address 9),
  .read .named (.byteString 3)]

theorem mixedSteps_runAll :
    Matches [] mixedSteps ∧ ∃ outcomes, ServesAll [] mixedSteps outcomes ∧
      runAll mixedSteps [] = outcomes.map fun x => (x.1, encodeAll x.2) := by
  have hmatches : Matches [] mixedSteps := by
    simp [Matches, mixedSteps, WireValue.fits, memoryBound]
  exact ⟨hmatches, (runAll_encodeAll hmatches).1⟩

end RollupBoundary.Wire
