import Mathlib
import RollupBoundary.Proofs.Abi.Cursor
import RollupBoundary.Proofs.Abi.Layout
import RollupBoundary.Proofs.Abi.Value
import RollupBoundary.Proofs.Abi.Word

/-!
# Where the words of a payload stand

A value does not tell which words of the payload it was taken from, and offsets may send the decoder
anywhere.  `AbiType.places` therefore goes the way that `AbiType.read` goes, over the same cursors,
and notes each word of a type of one word: its type, where it begins in the payload, and whether it
was taken inside an array or a tuple.

The two readers are in step (`inStep_read`, `inStep_readAll`).  They fail together and with one
fault; when they do not, they come to stand at one place, which is as far on as the type counts
words in the head and not beyond the buffer, and the leaves of the value are what the noted words are
read as.  The argument is the same for every reader put together from the combinators of the decoder: each combinator
keeps `InStep`, whatever its two readers give.
-/

namespace RollupBoundary.Abi

/-! ## Noted words -/

/-- A word of a payload that a value was taken from. -/
structure WordPlace where
  type : WordType
  /-- Where the word begins in the payload. -/
  place : Nat
  /-- Whether the value is part of an array or a tuple. -/
  nested : Bool

namespace WordPlace

/-- The word that stands there. -/
def word (data : Bytes) (p : WordPlace) : Word :=
  Word.ofBytes ((data.drop p.place).take 32)

/-- What the word is read as. -/
def value (data : Bytes) (p : WordPlace) : WordValue :=
  p.type.decode (p.word data)

/-- Whether the word is canonical for its type. -/
def isCanonical (data : Bytes) (p : WordPlace) : Bool :=
  p.type.isCanonical (p.word data)

/-- The same word, as part of an array or a tuple. -/
def inside (p : WordPlace) : WordPlace :=
  { p with nested := true }

end WordPlace

/-- Where a cursor stands in the payload that its buffer is the end of. -/
def Cursor.place (data : Bytes) (c : Cursor) : Nat :=
  data.length - c.buffer.length + c.offset

/-- The words of all parts of an array or a tuple. -/
def placesInside (pss : List (List WordPlace)) : List WordPlace :=
  pss.flatten.map WordPlace.inside

mutual

/-- Notes the words of a value of a type, read where the cursor stands. -/
def AbiType.places (data : Bytes) :
    AbiType → Cursor → Except DecodeFault (List WordPlace × Cursor)
  | .word t, c => readMap (fun _ => [⟨t, c.place data, false⟩]) c.word
  | .bytes, c => readMap (fun _ => []) c.string
  | .string, c => readMap (fun _ => []) c.string
  | .array t, c => readMap placesInside (c.counted t.minWords (AbiType.places data t))
  | .fixedArray t n, c =>
    readMap placesInside (c.enclosed t.isDynamic (Cursor.times (AbiType.places data t) n))
  | .tuple ts, c =>
    readMap placesInside (c.enclosed (AbiType.anyDynamic ts) (AbiType.placesAll data ts))

/-- Notes the words of values of the types, one behind the other. -/
def AbiType.placesAll (data : Bytes) :
    List AbiType → Cursor → Except DecodeFault (List (List WordPlace) × Cursor)
  | [], c => .ok ([], c)
  | t :: ts, c => Cursor.andThen (AbiType.places data t) (AbiType.placesAll data ts) c

end

/-- The words of the values in a payload, or the fault that `decodeSequence` stops at. -/
def payloadPlaces (ts : List AbiType) (data : Bytes) : Except DecodeFault (List WordPlace) :=
  if AbiType.allZeroSized ts then .ok []
  else if data.length / 32 < AbiType.sumMinWords ts then .error .overrun
  else
    match AbiType.placesAll data ts (Cursor.start data) with
    | .ok (pss, _) => .ok pss.flatten
    | .error e => .error e

/-! ## Steps of a cursor -/

namespace Cursor

variable {c : Cursor}

/-- That `n` octets further on a cursor has not left its buffer, if it was in it before. -/
def Reaches (c : Cursor) (n : Nat) : Prop :=
  c.offset + n ≤ max c.offset c.buffer.length

lemma reaches_zero (c : Cursor) : c.Reaches 0 :=
  le_max_left _ _

lemma Reaches.add {m n : Nat} (hm : c.Reaches m) (hn : (c.advance m).Reaches n) :
    c.Reaches (m + n) := by
  simp only [Reaches, offset_advance, buffer_advance] at hm hn ⊢
  omega

lemma child_cases (c : Cursor) (place : Nat) :
    (∃ e, c.child place = .error e) ∨
      ∃ inner, c.child place = .ok inner ∧ inner.buffer = c.buffer.drop place ∧
        inner.offset = 0 ∧ place ≤ c.buffer.length := by
  rw [child]
  split
  · exact .inl ⟨_, rfl⟩
  · split
    · next hle => exact .inr ⟨_, rfl, rfl, rfl, hle⟩
    · exact .inl ⟨_, rfl⟩

lemma size_cases (c : Cursor) :
    (∃ e, c.size = .error e) ∨ ∃ n, c.size = .ok (n, c.advance 32) ∧ c.Reaches 32 := by
  rw [size, word_eq]
  by_cases h : c.offset + 32 ≤ c.buffer.length
  · exact .inr ⟨_, by rw [if_pos h], le_max_of_le_right h⟩
  · exact .inl ⟨_, by rw [if_neg h]⟩

lemma follow_cases (c : Cursor) :
    (∃ e, c.follow = .error e) ∨
      ∃ inner, c.follow = .ok (inner, c.advance 32) ∧ inner.buffer <:+ c.buffer ∧
        c.Reaches 32 := by
  rw [follow]
  obtain ⟨e, he⟩ | ⟨place, hplace, hreaches⟩ := c.size_cases
  · exact .inl ⟨e, by rw [he]⟩
  · rw [hplace]
    obtain ⟨e, he⟩ | ⟨inner, hinner, hbuffer, -⟩ := (c.advance 32).child_cases place
    · exact .inl ⟨e, by simp only [he]⟩
    · exact .inr ⟨inner, by simp only [hinner], hbuffer ▸ List.drop_suffix _ _, hreaches⟩

lemma string_cases (c : Cursor) :
    (∃ e, c.string = .error e) ∨ ∃ bs, c.string = .ok (bs, c.advance 32) ∧ c.Reaches 32 := by
  rw [string]
  obtain ⟨e, he⟩ | ⟨inner, hinner, -, hreaches⟩ := c.follow_cases
  · exact .inl ⟨e, by rw [he]⟩
  · rw [hinner]
    obtain ⟨e, he⟩ | ⟨n, hn, -⟩ := inner.size_cases
    · exact .inl ⟨e, by simp only [he]⟩
    · cases hoctets : (inner.advance 32).octets n with
      | error e => exact .inl ⟨e, by simp only [hn, hoctets]⟩
      | ok read => exact .inr ⟨read.1, by simp only [hn, hoctets], hreaches⟩

/-- The word where a cursor stands, seen from the start of the payload. -/
lemma take_drop_place {data : Bytes} (hsuffix : c.buffer <:+ data) :
    data.drop (c.place data) = c.buffer.drop c.offset := by
  obtain ⟨pre, rfl⟩ := hsuffix
  rw [place, List.length_append, Nat.add_sub_cancel, ← List.drop_drop, List.drop_left]

end Cursor

/-! ## Readers in step -/

/-- That two readers in a payload have outcomes of one kind, wherever they stand: one fault, or
values that are related and a cursor moved on by `n` octets within its buffer. -/
def InStep {α β : Type} (data : Bytes) (R : α → β → Prop) (n : Nat)
    (read : Cursor → Except DecodeFault (α × Cursor))
    (note : Cursor → Except DecodeFault (β × Cursor)) : Prop :=
  ∀ c : Cursor, c.buffer <:+ data →
    (∃ e, read c = .error e ∧ note c = .error e) ∨
      ∃ x y, R x y ∧ c.Reaches n ∧ read c = .ok (x, c.advance n) ∧ note c = .ok (y, c.advance n)

section InStep

variable {α β γ δ : Type} {data : Bytes} {R : α → β → Prop} {n : Nat}
  {read : Cursor → Except DecodeFault (α × Cursor)}
  {note : Cursor → Except DecodeFault (β × Cursor)}

lemma inStep_map {S : γ → δ → Prop} {f : α → γ} {g : β → δ} (hf : ∀ x y, R x y → S (f x) (g y))
    (h : InStep data R n read note) :
    InStep data S n (fun c => readMap f (read c)) (fun c => readMap g (note c)) := by
  intro c hc
  obtain ⟨e, hread, hnote⟩ | ⟨x, y, hxy, hreaches, hread, hnote⟩ := h c hc
  · exact .inl ⟨e, by simp only [hread, readMap], by simp only [hnote, readMap]⟩
  · exact .inr ⟨f x, g y, hf x y hxy, hreaches, by simp only [hread, readMap],
      by simp only [hnote, readMap]⟩

lemma inStep_cons {m : Nat} {reads : Cursor → Except DecodeFault (List α × Cursor)}
    {notes : Cursor → Except DecodeFault (List β × Cursor)} (h : InStep data R m read note)
    (hs : InStep data (List.Forall₂ R) n reads notes) :
    InStep data (List.Forall₂ R) (m + n) (Cursor.andThen read reads)
      (Cursor.andThen note notes) := by
  intro c hc
  rw [Cursor.andThen, Cursor.andThen]
  obtain ⟨e, hread, hnote⟩ | ⟨x, y, hxy, hreaches, hread, hnote⟩ := h c hc
  · exact .inl ⟨e, by rw [hread], by rw [hnote]⟩
  · rw [hread, hnote, ← Cursor.advance_advance]
    obtain ⟨e, hreads, hnotes⟩ | ⟨xs, ys, hxys, hreaches', hreads, hnotes⟩ := hs (c.advance m) hc
    · exact .inl ⟨e, by simp only [hreads], by simp only [hnotes]⟩
    · exact .inr ⟨x :: xs, y :: ys, .cons hxy hxys, hreaches.add hreaches',
        by simp only [hreads], by simp only [hnotes]⟩

lemma inStep_times (h : InStep data R n read note) (k : Nat) :
    InStep data (List.Forall₂ R) (k * n) (Cursor.times read k) (Cursor.times note k) := by
  induction k with
  | zero =>
    intro c _
    rw [Nat.zero_mul]
    exact .inr ⟨[], [], .nil, c.reaches_zero, rfl, rfl⟩
  | succ k ih =>
    rw [Nat.succ_mul, Nat.add_comm, Cursor.times_succ, Cursor.times_succ]
    exact inStep_cons h ih

/-- A tuple or an array of one length takes one word if it stands elsewhere, and else what its parts
take. -/
lemma inStep_enclosed (h : InStep data R n read note) (dynamic : Bool) :
    InStep data R (if dynamic then 32 else n) (Cursor.enclosed dynamic read)
      (Cursor.enclosed dynamic note) := by
  intro c hc
  rw [Cursor.enclosed, Cursor.enclosed]
  cases dynamic with
  | true =>
    simp only [if_true]
    obtain ⟨e, he⟩ | ⟨inner, hinner, hsuffix, hreaches⟩ := c.follow_cases
    · exact .inl ⟨e, by rw [he], by rw [he]⟩
    · rw [hinner]
      obtain ⟨e, hread, hnote⟩ | ⟨x, y, hxy, -, hread, hnote⟩ := h inner (hsuffix.trans hc)
      · exact .inl ⟨e, by simp only [hread], by simp only [hnote]⟩
      · exact .inr ⟨x, y, hxy, hreaches, by simp only [hread], by simp only [hnote]⟩
  | false =>
    simp only [Bool.false_eq_true, if_false, Cursor.here]
    obtain ⟨e, he⟩ | ⟨inner, hinner, hbuffer, hoffset, hle⟩ := c.child_cases c.offset
    · exact .inl ⟨e, by rw [he], by rw [he]⟩
    · rw [hinner]
      have hskip : c.skip (inner.advance n) = c.advance n := by
        rw [Cursor.skip, Cursor.offset_advance, hoffset, Nat.zero_add, Cursor.advance]
      have hsuffix : inner.buffer <:+ c.buffer := hbuffer ▸ List.drop_suffix _ _
      obtain ⟨e, hread, hnote⟩ | ⟨x, y, hxy, hreaches, hread, hnote⟩ := h inner (hsuffix.trans hc)
      · exact .inl ⟨e, by simp only [hread], by simp only [hnote]⟩
      · refine .inr ⟨x, y, hxy, ?_, by simp only [hread, hskip], by simp only [hnote, hskip]⟩
        rw [Cursor.Reaches, hbuffer, hoffset, List.length_drop] at hreaches
        rw [Cursor.Reaches]
        omega

/-- An array of any length takes the word that says where it is. -/
lemma inStep_counted (h : InStep data R n read note) (minWords : Nat) :
    InStep data (List.Forall₂ R) 32 (Cursor.counted minWords read)
      (Cursor.counted minWords note) := by
  intro c hc
  rw [Cursor.counted, Cursor.counted]
  obtain ⟨e, he⟩ | ⟨inner, hinner, hsuffix, hreaches⟩ := c.follow_cases
  · exact .inl ⟨e, by rw [he], by rw [he]⟩
  · rw [hinner]
    obtain ⟨e, he⟩ | ⟨count, hcount, -⟩ := inner.size_cases
    · exact .inl ⟨e, by simp only [he], by simp only [he]⟩
    · simp only [hcount]
      by_cases hzero : count = 0
      · exact .inr ⟨[], [], .nil, hreaches, by rw [if_pos hzero], by rw [if_pos hzero]⟩
      · simp only [if_neg hzero, Cursor.here]
        obtain ⟨e, he⟩ | ⟨body, hbody, hbuffer, -⟩ :=
          (inner.advance 32).child_cases (inner.advance 32).offset
        · exact .inl ⟨e, by rw [he], by rw [he]⟩
        · rw [hbody]
          have hsuffix' : body.buffer <:+ inner.buffer := hbuffer ▸ List.drop_suffix _ _
          simp only
          by_cases hleft : body.wordsLeft < count * minWords
          · exact .inl ⟨_, by rw [if_pos hleft], by rw [if_pos hleft]⟩
          · rw [if_neg hleft, if_neg hleft]
            obtain ⟨e, hreads, hnotes⟩ | ⟨xs, ys, hxys, -, hreads, hnotes⟩ :=
              inStep_times h count body (hsuffix'.trans (hsuffix.trans hc))
            · exact .inl ⟨e, by simp only [hreads], by simp only [hnotes]⟩
            · exact .inr ⟨xs, ys, hxys, hreaches, by simp only [hreads], by simp only [hnotes]⟩

end InStep

/-! ## Values and their words -/

/-- That words within a payload are what the leaves of a value were taken from. -/
def TakenFrom (data : Bytes) (v : AbiValue) (ps : List WordPlace) : Prop :=
  v.leaves = ps.map (WordPlace.value data) ∧ ∀ p ∈ ps, p.place + 32 ≤ data.length

lemma takenFrom_inside {data : Bytes} {vs : List AbiValue} {pss : List (List WordPlace)}
    (h : List.Forall₂ (TakenFrom data) vs pss) :
    AbiValue.allLeaves vs = (placesInside pss).map (WordPlace.value data) ∧
      ∀ p ∈ placesInside pss, p.place + 32 ≤ data.length := by
  induction h with
  | nil => exact ⟨rfl, by simp [placesInside]⟩
  | @cons v ps vs pss hv _ ih =>
    have hcons : placesInside (ps :: pss) = ps.map WordPlace.inside ++ placesInside pss := by
      rw [placesInside, List.flatten_cons, List.map_append, placesInside]
    have hvalue : WordPlace.value data ∘ WordPlace.inside = WordPlace.value data := rfl
    rw [AbiValue.allLeaves, hv.1, ih.1, hcons, List.map_append, List.map_map, hvalue]
    refine ⟨rfl, List.forall_mem_append.2 ⟨?_, ih.2⟩⟩
    rw [List.forall_mem_map]
    exact hv.2

/-- A word where a cursor stands is noted with its place. -/
lemma inStep_word (data : Bytes) (t : WordType) :
    InStep data (TakenFrom data) 32 (AbiType.read (.word t)) (AbiType.places data (.word t)) := by
  intro c hc
  rw [AbiType.read, AbiType.places, Cursor.word_eq]
  by_cases hle : c.offset + 32 ≤ c.buffer.length
  · rw [if_pos hle]
    have hplace : c.place data + 32 ≤ data.length := by
      have hlength := hc.length_le
      rw [Cursor.place]
      omega
    have hword := Cursor.take_drop_place hc
    refine .inr ⟨_, _, ⟨?_, by simpa using hplace⟩, le_max_of_le_right hle, rfl, rfl⟩
    rw [AbiValue.leaves, List.map_singleton, WordPlace.value, WordPlace.word, hword]
  · rw [if_neg hle]
    exact .inl ⟨_, rfl, rfl⟩

lemma inStep_string (data : Bytes) (f : Bytes → AbiValue) (hf : ∀ bs, (f bs).leaves = []) :
    InStep data (TakenFrom data) 32 (fun c => readMap f c.string)
      (fun c => readMap (fun _ => []) c.string) := by
  intro c _
  obtain ⟨e, he⟩ | ⟨bs, hbs, hreaches⟩ := c.string_cases
  · exact .inl ⟨e, by simp only [he, readMap], by simp only [he, readMap]⟩
  · have htaken : TakenFrom data (f bs) [] := ⟨hf bs, by simp⟩
    exact .inr ⟨f bs, [], htaken, hreaches, by simp only [hbs, readMap],
      by simp only [hbs, readMap]⟩

mutual

/-- Reading a value and noting its words go the same way, as far on as the type counts words in the
head. -/
theorem inStep_read (data : Bytes) : ∀ t : AbiType,
    InStep data (TakenFrom data) (32 * t.wordsInHead) t.read (AbiType.places data t)
  | .word t => inStep_word data t
  | .bytes => inStep_string data .bytes fun _ => rfl
  | .string => inStep_string data (fun bs => .string (Utf8.decodeLossy bs)) fun _ => rfl
  | .array t =>
    inStep_map (fun _ _ h => takenFrom_inside h) (inStep_counted (inStep_read data t) t.minWords)
  | .fixedArray t n => by
    have hparts := inStep_enclosed (inStep_times (inStep_read data t) n) t.isDynamic
    have hwords : (if t.isDynamic then 32 else n * (32 * t.wordsInHead)) =
        32 * (AbiType.fixedArray t n).wordsInHead := by
      rw [AbiType.wordsInHead]
      split
      · rfl
      · exact Nat.mul_left_comm n 32 _
    rw [hwords] at hparts
    exact inStep_map (fun _ _ h => takenFrom_inside h) hparts
  | .tuple ts => by
    have hparts := inStep_enclosed (inStep_readAll data ts) (AbiType.anyDynamic ts)
    have hwords : (if AbiType.anyDynamic ts then 32 else 32 * AbiType.wordsInHeads ts) =
        32 * (AbiType.tuple ts).wordsInHead := by
      rw [AbiType.wordsInHead]
      split <;> rfl
    rw [hwords] at hparts
    exact inStep_map (fun _ _ h => takenFrom_inside h) hparts

theorem inStep_readAll (data : Bytes) : ∀ ts : List AbiType,
    InStep data (List.Forall₂ (TakenFrom data)) (32 * AbiType.wordsInHeads ts)
      (AbiType.readAll ts) (AbiType.placesAll data ts)
  | [] => fun c _ => .inr ⟨[], [], .nil, c.reaches_zero, rfl, rfl⟩
  | t :: ts => by
    rw [AbiType.wordsInHeads, Nat.mul_add, Cursor.readAll_cons]
    exact inStep_cons (inStep_read data t) (inStep_readAll data ts)

end

/-- A value that is read leaves the cursor behind the head of its type, within the buffer. -/
lemma advance_of_read {t : AbiType} {c c' : Cursor} {v : AbiValue} (h : t.read c = .ok (v, c')) :
    c' = c.advance (32 * t.wordsInHead) ∧ c.Reaches (32 * t.wordsInHead) := by
  obtain ⟨e, hread, -⟩ | ⟨_, _, -, hreaches, hread, -⟩ := inStep_read c.buffer t c List.suffix_rfl
  · rw [hread] at h
    cases h
  · rw [hread] at h
    cases h
    exact ⟨rfl, hreaches⟩

/-! ## Parts and payloads -/

lemma nested_of_mem_placesInside {pss : List (List WordPlace)} {p : WordPlace}
    (h : p ∈ placesInside pss) : p.nested = true := by
  obtain ⟨q, -, rfl⟩ := List.mem_map.1 h
  rfl

/-- The words of a value that takes more than a word are parts of it. -/
lemma nested_of_places {data : Bytes} {t : AbiType} {c c' : Cursor} {ps : List WordPlace}
    (hplaces : AbiType.places data t c = .ok (ps, c')) (ht : ∀ w, t ≠ .word w) :
    ∀ p ∈ ps, p.nested = true := by
  intro p hp
  cases t with
  | word w => exact absurd rfl (ht w)
  | bytes =>
    obtain ⟨_, -, rfl⟩ := readMap_eq_ok_iff.1 hplaces
    cases hp
  | string =>
    obtain ⟨_, -, rfl⟩ := readMap_eq_ok_iff.1 hplaces
    cases hp
  | array t =>
    obtain ⟨_, -, rfl⟩ := readMap_eq_ok_iff.1 hplaces
    exact nested_of_mem_placesInside hp
  | fixedArray t n =>
    obtain ⟨_, -, rfl⟩ := readMap_eq_ok_iff.1 hplaces
    exact nested_of_mem_placesInside hp
  | tuple ts =>
    obtain ⟨_, -, rfl⟩ := readMap_eq_ok_iff.1 hplaces
    exact nested_of_mem_placesInside hp

lemma length_of_readAll {ts : List AbiType} {c c' : Cursor} {vs : List AbiValue}
    (h : AbiType.readAll ts c = .ok (vs, c')) : vs.length = ts.length := by
  induction ts generalizing c c' vs with
  | nil =>
    cases h
    rfl
  | cons t ts ih =>
    rw [Cursor.readAll_cons, Cursor.andThen_eq_ok_iff] at h
    obtain ⟨v, vs, c'', -, hothers, rfl⟩ := h
    rw [List.length_cons, List.length_cons, ih hothers]

/-- A payload without zero-sized types is decoded as its words are noted. -/
theorem payload_cases (ts : List AbiType) (data : Bytes) :
    (decodeSequence ts data = .ok [] ∧ payloadPlaces ts data = .ok []) ∨
      (∃ e, decodeSequence ts data = .error e ∧ payloadPlaces ts data = .error e) ∨
      ∃ vs pss c, AbiType.readAll ts (Cursor.start data) = .ok (vs, c) ∧
        AbiType.placesAll data ts (Cursor.start data) = .ok (pss, c) ∧
        decodeSequence ts data = .ok vs ∧ payloadPlaces ts data = .ok pss.flatten := by
  rw [decodeSequence, payloadPlaces]
  by_cases hzero : AbiType.allZeroSized ts = true
  · exact .inl ⟨by rw [if_pos hzero], by rw [if_pos hzero]⟩
  · rw [if_neg hzero, if_neg hzero]
    by_cases hwords : data.length / 32 < AbiType.sumMinWords ts
    · exact .inr (.inl ⟨_, by rw [if_pos hwords], by rw [if_pos hwords]⟩)
    · rw [if_neg hwords, if_neg hwords]
      obtain ⟨e, hread, hnote⟩ | ⟨vs, pss, -, -, hread, hnote⟩ :=
        inStep_readAll data ts (Cursor.start data) List.suffix_rfl
      · exact .inr (.inl ⟨e, by rw [hread], by rw [hnote]⟩)
      · exact .inr (.inr ⟨vs, pss, _, hread, hnote, by rw [hread], by rw [hnote]⟩)

end RollupBoundary.Abi
