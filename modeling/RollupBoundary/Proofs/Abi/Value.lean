import Mathlib
import RollupBoundary.Abi.Type

/-!
# Values of a type, part by part

`AbiValue.Fits` walks a tuple one component at a time, so its own induction principle meets the
tail of a tuple as if it were a tuple of its own.  `Fits.induct` puts the components side by side
instead: a case for each kind of type, with the hypothesis for every part.

`leaves` are the values of one word inside a value, in their order.  A check that looks at each of
them, such as the one of ranges, is a statement about this list (`inRange_iff`).
-/

namespace RollupBoundary.Abi.AbiValue

variable {rel : WordValue → WordType → Prop}

/-! ## Tuples -/

lemma fits_tuple_iff {vs : List AbiValue} {ts : List AbiType} :
    Fits rel (.tuple vs) (.tuple ts) ↔ List.Forall₂ (Fits rel) vs ts := by
  constructor
  · intro h
    induction ts generalizing vs with
    | nil =>
      cases h
      exact .nil
    | cons t ts ih =>
      cases h with
      | tuple hv hvs => exact .cons hv (ih hvs)
  · intro h
    induction h with
    | nil => exact .emptyTuple
    | cons hv _ ih => exact .tuple hv ih

/-- Induction over the parts of a value, with the components of a tuple side by side. -/
theorem Fits.induct {motive : AbiValue → AbiType → Prop}
    (word : ∀ v t, rel v t → motive (.word v) (.word t))
    (bytes : ∀ bs, motive (.bytes bs) .bytes)
    (string : ∀ s, motive (.string s) .string)
    (array : ∀ vs t, (∀ v ∈ vs, motive v t) → motive (.array vs) (.array t))
    (fixedArray : ∀ vs t, (∀ v ∈ vs, motive v t) →
      motive (.fixedArray vs) (.fixedArray t vs.length))
    (tuple : ∀ vs ts, List.Forall₂ motive vs ts → motive (.tuple vs) (.tuple ts))
    {v : AbiValue} {t : AbiType} (h : Fits rel v t) : motive v t := by
  -- The second half carries the components through the tails of a tuple.
  suffices hboth : motive v t ∧
      ∀ vs ts, v = .tuple vs → t = .tuple ts → List.Forall₂ motive vs ts from hboth.1
  induction h with
  | word hrel => exact ⟨word _ _ hrel, by simp⟩
  | bytes bs => exact ⟨bytes bs, by simp⟩
  | string s => exact ⟨string s, by simp⟩
  | array _ ih => exact ⟨array _ _ fun v hv => (ih v hv).1, by simp⟩
  | fixedArray _ ih => exact ⟨fixedArray _ _ fun v hv => (ih v hv).1, by simp⟩
  | emptyTuple =>
    refine ⟨tuple [] [] .nil, ?_⟩
    rintro _ _ ⟨⟩ ⟨⟩
    exact .nil
  | tuple _ _ ihv ihvs =>
    have hparts := List.Forall₂.cons ihv.1 (ihvs.2 _ _ rfl rfl)
    refine ⟨tuple _ _ hparts, ?_⟩
    rintro _ _ ⟨⟩ ⟨⟩
    exact hparts

/-! ## Ranges -/

mutual

/-- The values of one word inside a value, in their order. -/
def leaves : AbiValue → List WordValue
  | .word v => [v]
  | .bytes _ => []
  | .string _ => []
  | .array vs => allLeaves vs
  | .fixedArray vs => allLeaves vs
  | .tuple vs => allLeaves vs

/-- The values of one word inside some values, in their order. -/
def allLeaves : List AbiValue → List WordValue
  | [] => []
  | v :: vs => v.leaves ++ allLeaves vs

end

mutual

/-- The range check on a value is the one on each of its leaves. -/
theorem inRange_iff : ∀ v : AbiValue, v.inRange = true ↔ ∀ l ∈ v.leaves, l.inRange = true
  | .word v => by simp [inRange, leaves]
  | .bytes _ => by simp [inRange, leaves]
  | .string _ => by simp [inRange, leaves]
  | .array vs => by rw [inRange, leaves, allInRange_iff vs]
  | .fixedArray vs => by rw [inRange, leaves, allInRange_iff vs]
  | .tuple vs => by rw [inRange, leaves, allInRange_iff vs]

theorem allInRange_iff : ∀ vs : List AbiValue,
    allInRange vs = true ↔ ∀ l ∈ allLeaves vs, l.inRange = true
  | [] => by simp [allInRange, allLeaves]
  | v :: vs => by
    rw [allInRange, allLeaves, Bool.and_eq_true, inRange_iff v, allInRange_iff vs]
    simp only [List.mem_append, or_imp, forall_and]

end

end RollupBoundary.Abi.AbiValue
