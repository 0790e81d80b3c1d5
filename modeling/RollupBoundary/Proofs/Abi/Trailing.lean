import Mathlib
import RollupBoundary.Proofs.Abi.Places

/-!
# Octets behind a payload

The decoder never asks where a payload ends except to refuse what would go beyond the end.  A payload
that it has read is therefore read alike with anything behind it (`decodeSequence_append`): every
place it went to is still there, with the same octets, and of the words that have to be left for an
array there are no fewer than before.

The argument is one step for each combinator again.  `Lasts` says of a reader that its answers stay
when octets come to the end of the buffer; the cursors it leaves differ in these octets alone.
-/

namespace RollupBoundary

/-- Octets within a buffer are not changed by those behind it. -/
lemma Bytes.take_drop_append {bs : Bytes} {place n : Nat} (h : place + n ≤ bs.length)
    (tail : Bytes) : ((bs ++ tail).drop place).take n = (bs.drop place).take n := by
  have hdrop : place ≤ bs.length := by omega
  have htake : n ≤ (bs.drop place).length := by
    rw [List.length_drop]
    omega
  rw [List.drop_append_of_le_length hdrop, List.take_append_of_le_length htake]

namespace Abi

namespace Cursor

/-- The same place in a buffer with more octets at its end. -/
def extend (tail : Bytes) (c : Cursor) : Cursor :=
  { c with buffer := c.buffer ++ tail }

@[simp] lemma buffer_extend (tail : Bytes) (c : Cursor) :
    (c.extend tail).buffer = c.buffer ++ tail := rfl

@[simp] lemma offset_extend (tail : Bytes) (c : Cursor) : (c.extend tail).offset = c.offset := rfl

@[simp] lemma depth_extend (tail : Bytes) (c : Cursor) : (c.extend tail).depth = c.depth := rfl

end Cursor

open Cursor

/-- That whatever a reader gives, it gives with octets behind the buffer as well. -/
def Lasts {α : Type} (tail : Bytes) (read : Cursor → Except DecodeFault (α × Cursor)) : Prop :=
  ∀ c x c', read c = .ok (x, c') → read (c.extend tail) = .ok (x, c'.extend tail)

section Lasts

variable {tail : Bytes} {c c' inner : Cursor}

/-! ## Steps of a cursor -/

lemma octets_extend {n : Nat} {bs : Bytes} (h : c.octets n = .ok (bs, c')) :
    (c.extend tail).octets n = .ok (bs, c'.extend tail) := by
  rw [octets] at h ⊢
  split at h
  · next hle =>
    cases h
    rw [buffer_extend, offset_extend, if_pos (by rw [List.length_append]; omega),
      Bytes.take_drop_append hle]
    rfl
  · cases h

lemma lasts_word : Lasts tail Cursor.word := by
  intro c w c' h
  rw [word] at h
  cases hoctets : c.octets 32 with
  | error e =>
    rw [hoctets] at h
    cases h
  | ok read =>
    rw [hoctets] at h
    cases h
    rw [word, octets_extend hoctets]

lemma lasts_size : Lasts tail Cursor.size := by
  intro c n c' h
  obtain ⟨w, hw, hn⟩ := size_eq_ok_iff.1 h
  exact size_eq_ok_iff.2 ⟨w, lasts_word c w c' hw, hn⟩

lemma child_extend {place : Nat} (h : c.child place = .ok inner) :
    (c.extend tail).child place = .ok (inner.extend tail) := by
  rw [child] at h ⊢
  split at h
  · cases h
  · next hdepth =>
    split at h
    · next hplace =>
      cases h
      rw [depth_extend, buffer_extend, if_neg hdepth,
        if_pos (by rw [List.length_append]; omega), List.drop_append_of_le_length hplace]
      rfl
    · cases h

lemma follow_extend (h : c.follow = .ok (inner, c')) :
    (c.extend tail).follow = .ok (inner.extend tail, c'.extend tail) := by
  obtain ⟨place, hplace, hchild⟩ := follow_eq_ok_iff.1 h
  exact follow_eq_ok_iff.2 ⟨place, lasts_size c place c' hplace, child_extend hchild⟩

lemma here_extend (h : c.here = .ok inner) : (c.extend tail).here = .ok (inner.extend tail) :=
  child_extend h

lemma lasts_string : Lasts tail Cursor.string := by
  intro c bs c' h
  obtain ⟨inner, n, inner', after, hfollow, hsize, hoctets⟩ := string_eq_ok_iff.1 h
  exact string_eq_ok_iff.2 ⟨_, n, _, _, follow_extend hfollow, lasts_size _ _ _ hsize,
    octets_extend hoctets⟩

lemma wordsLeft_le_extend (c : Cursor) : c.wordsLeft ≤ (c.extend tail).wordsLeft := by
  simp only [wordsLeft, extend, List.length_append]
  omega

/-! ## Combinators -/

variable {α β : Type} {read : Cursor → Except DecodeFault (α × Cursor)}

lemma lasts_map (f : α → β) (h : Lasts tail read) : Lasts tail fun c => readMap f (read c) := by
  intro c y c' hread
  obtain ⟨x, hx, rfl⟩ := readMap_eq_ok_iff.1 hread
  exact readMap_eq_ok_iff.2 ⟨x, h c x c' hx, rfl⟩

lemma lasts_andThen {reads : Cursor → Except DecodeFault (List α × Cursor)} (h : Lasts tail read)
    (hs : Lasts tail reads) : Lasts tail (andThen read reads) := by
  intro c ys c' hread
  obtain ⟨x, xs, c'', hx, hxs, rfl⟩ := andThen_eq_ok_iff.1 hread
  exact andThen_eq_ok_iff.2 ⟨x, xs, _, h c x c'' hx, hs c'' xs c' hxs, rfl⟩

lemma lasts_nil : Lasts tail fun c => .ok (([] : List α), c) := by
  intro c xs c' h
  cases h
  rfl

lemma lasts_times (h : Lasts tail read) (n : Nat) : Lasts tail (times read n) := by
  induction n with
  | zero => exact lasts_nil
  | succ n ih =>
    rw [times_succ]
    exact lasts_andThen h ih

lemma lasts_enclosed (h : Lasts tail read) (dynamic : Bool) :
    Lasts tail (enclosed dynamic read) := by
  intro c x c' hread
  cases dynamic with
  | true =>
    obtain ⟨inner, after, hfollow, hx⟩ := enclosed_true_eq_ok_iff.1 hread
    exact enclosed_true_eq_ok_iff.2 ⟨_, _, follow_extend hfollow, h inner x after hx⟩
  | false =>
    obtain ⟨inner, after, hhere, hx, rfl⟩ := enclosed_false_eq_ok_iff.1 hread
    exact enclosed_false_eq_ok_iff.2 ⟨_, _, here_extend hhere, h inner x after hx, rfl⟩

lemma lasts_counted (h : Lasts tail read) (minWords : Nat) :
    Lasts tail (counted minWords read) := by
  intro c xs c' hread
  obtain ⟨inner, n, inner', hfollow, hsize, helements⟩ := counted_eq_ok_iff.1 hread
  refine counted_eq_ok_iff.2 ⟨_, n, _, follow_extend hfollow, lasts_size _ _ _ hsize, ?_⟩
  obtain hnone | ⟨hn, body, after, hhere, hleft, helements⟩ := helements
  · exact .inl hnone
  · exact .inr ⟨hn, _, _, here_extend hhere, hleft.trans (wordsLeft_le_extend body),
      lasts_times h n body xs after helements⟩

end Lasts

/-! ## Values -/

mutual

/-- A value that is read is read with octets behind the buffer as well. -/
theorem lasts_read (tail : Bytes) (t : AbiType) : Lasts tail t.read := by
  cases t with
  | word t => exact lasts_map _ lasts_word
  | bytes => exact lasts_map _ lasts_string
  | string => exact lasts_map _ lasts_string
  | array t => exact lasts_map _ (lasts_counted (lasts_read tail t) t.minWords)
  | fixedArray t n => exact lasts_map _ (lasts_enclosed (lasts_times (lasts_read tail t) n) _)
  | tuple ts => exact lasts_map _ (lasts_enclosed (lasts_readAll tail ts) _)

theorem lasts_readAll (tail : Bytes) (ts : List AbiType) : Lasts tail (AbiType.readAll ts) := by
  cases ts with
  | nil => exact lasts_nil
  | cons t ts =>
    rw [readAll_cons]
    exact lasts_andThen (lasts_read tail t) (lasts_readAll tail ts)

end

/-- A payload that is decoded is decoded to the same values with octets behind it. -/
theorem decodeSequence_append {ts : List AbiType} {data : Bytes} {vs : List AbiValue}
    (h : decodeSequence ts data = .ok vs) (tail : Bytes) :
    decodeSequence ts (data ++ tail) = .ok vs := by
  rw [decodeSequence] at h ⊢
  split at h
  · next hzero => rw [if_pos hzero, h]
  · next hzero =>
    split at h
    · cases h
    · next hwords =>
      cases hread : AbiType.readAll ts (start data) with
      | error e =>
        rw [hread] at h
        cases h
      | ok read =>
        rw [hread] at h
        cases h
        have hlonger : AbiType.readAll ts (start (data ++ tail)) =
            .ok (read.1, read.2.extend tail) := lasts_readAll tail ts _ _ _ hread
        rw [if_neg hzero, if_neg (by rw [List.length_append]; omega), hlonger]

end Abi
end RollupBoundary
