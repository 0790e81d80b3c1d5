import Mathlib
import RollupBoundary.Proofs.Abi.Cursor
import RollupBoundary.Proofs.Abi.Value
import RollupBoundary.Proofs.Abi.Word

/-!
# What is read at a type has its shape

The decoder takes any payload, hostile ones included, and checks little of what it reads.  Of one
thing it leaves no doubt: a value that it reads at a type is built as the type is, with the widths
of its numbers and octets, as many elements in an array of one length and as many components in a
tuple as the type has (`hasShape_of_read`).  What the numbers are is another matter.

As with every statement about the reader the argument is one step for each combinator.  `Yields`
says what is true of all that a reader gives, and each combinator hands it on.
-/

namespace RollupBoundary.Abi

/-! ## What a reader gives -/

/-- That whatever a reader gives, wherever it stands, has a property. -/
def Yields {α : Type} (P : α → Prop) (read : Cursor → Except DecodeFault (α × Cursor)) : Prop :=
  ∀ c x c', read c = .ok (x, c') → P x

section Yields

variable {α β : Type} {P : α → Prop} {read : Cursor → Except DecodeFault (α × Cursor)}

lemma yields_map {Q : β → Prop} {f : α → β} (hf : ∀ x, P x → Q (f x)) (h : Yields P read) :
    Yields Q fun c => readMap f (read c) := by
  intro c y c' hread
  obtain ⟨x, hx, rfl⟩ := readMap_eq_ok_iff.1 hread
  exact hf x (h c x c' hx)

lemma yields_times (h : Yields P read) (n : Nat) :
    Yields (fun xs => xs.length = n ∧ ∀ x ∈ xs, P x) (Cursor.times read n) := by
  induction n with
  | zero =>
    intro c xs c' hread
    cases hread
    exact ⟨rfl, by simp⟩
  | succ n ih =>
    intro c ys c' hread
    rw [Cursor.times_succ, Cursor.andThen_eq_ok_iff] at hread
    obtain ⟨x, xs, c'', hx, hxs, rfl⟩ := hread
    obtain ⟨hlength, hall⟩ := ih c'' xs c' hxs
    exact ⟨by rw [List.length_cons, hlength], List.forall_mem_cons.2 ⟨h c x c'' hx, hall⟩⟩

/-- The values of a tuple or an array of one length are those of the reader of its parts. -/
lemma yields_enclosed (h : Yields P read) (dynamic : Bool) :
    Yields P (Cursor.enclosed dynamic read) := by
  intro c x c' hread
  cases dynamic with
  | true =>
    obtain ⟨inner, after, -, hparts⟩ := Cursor.enclosed_true_eq_ok_iff.1 hread
    exact h inner x after hparts
  | false =>
    obtain ⟨inner, after, -, hparts, -⟩ := Cursor.enclosed_false_eq_ok_iff.1 hread
    exact h inner x after hparts

/-- The elements of an array are each read by the reader of elements. -/
lemma yields_counted (h : Yields P read) (minWords : Nat) :
    Yields (fun xs => ∀ x ∈ xs, P x) (Cursor.counted minWords read) := by
  intro c xs c' hread
  obtain ⟨_, n, _, -, -, ⟨-, rfl⟩ | ⟨-, body, after, -, -, helements⟩⟩ :=
    Cursor.counted_eq_ok_iff.1 hread
  · simp
  · exact (yields_times h n body xs after helements).2

end Yields

/-! ## Values -/

lemma hasShape_fixedArray {t : AbiType} {n : Nat} {vs : List AbiValue}
    (h : vs.length = n ∧ ∀ v ∈ vs, v.HasShape t) :
    (AbiValue.fixedArray vs).HasShape (.fixedArray t n) := by
  obtain ⟨rfl, hall⟩ := h
  exact .fixedArray hall

mutual

/-- A value that is read at a type has the shape of the type. -/
theorem hasShape_of_read : ∀ t : AbiType, Yields (fun v => v.HasShape t) t.read
  | .word t => fun c v c' h => by
    obtain ⟨w, -, rfl⟩ := readMap_eq_ok_iff.1 h
    exact .word (WordType.type_decode t w)
  | .bytes => fun c v c' h => by
    obtain ⟨bs, -, rfl⟩ := readMap_eq_ok_iff.1 h
    exact .bytes bs
  | .string => fun c v c' h => by
    obtain ⟨bs, -, rfl⟩ := readMap_eq_ok_iff.1 h
    exact .string (Utf8.decodeLossy bs)
  | .array t =>
    yields_map (fun _ hvs => .array hvs) (yields_counted (hasShape_of_read t) t.minWords)
  | .fixedArray t n =>
    yields_map (fun _ hvs => hasShape_fixedArray hvs)
      (yields_enclosed (yields_times (hasShape_of_read t) n) t.isDynamic)
  | .tuple ts =>
    yields_map (fun _ hvs => AbiValue.fits_tuple_iff.2 hvs)
      (yields_enclosed (hasShape_of_readAll ts) (AbiType.anyDynamic ts))

theorem hasShape_of_readAll : ∀ ts : List AbiType,
    Yields (fun vs => List.Forall₂ AbiValue.HasShape vs ts) (AbiType.readAll ts)
  | [] => fun c vs c' h => by
    cases h
    exact .nil
  | t :: ts => fun c vs c' h => by
    rw [Cursor.readAll_cons, Cursor.andThen_eq_ok_iff] at h
    obtain ⟨v, vs, c'', hv, hvs, rfl⟩ := h
    exact .cons (hasShape_of_read t c v c'' hv) (hasShape_of_readAll ts c'' vs c' hvs)

end

end RollupBoundary.Abi
