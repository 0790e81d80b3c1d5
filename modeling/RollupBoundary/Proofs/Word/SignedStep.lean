import Mathlib
import RollupBoundary.Word

/-!
# Signed steps among the integers

The sum of a word and a signed step, taken among the integers, says all about the two forms of the
step.  The refusing form gives a word exactly if the sum is the number of one, and then this word
(`Word.plus?_eq_some_iff`).  The form that always answers gives the sum modulo `2 ^ 256` where it is
not negative, and its magnitude where it is (`Word.toNat_plus`).

A run of steps is therefore a sum as well.  Its value does not depend on the order of the steps, but
whether the refusing form gets through does, as it looks at each partial sum
(`Word.plusAll?_eq_some_iff`).  A step that was taken can be taken back by the opposite one, and so
can a run, last step first (`Word.plusAll?_reverse_neg`).  Only the least step has no opposite.
-/

namespace RollupBoundary.Word

/-! ## Numbers -/

lemma toNat_toBytes (x : Word) : Bytes.toNat x.toBytes = x.toNat :=
  Bytes.toNat_ofNat_of_lt x.isLt

/-- No magnitude is cut, not even that of the least step. -/
lemma toNat_ofMagnitude (step : Int64) : (ofMagnitude step).toNat = step.toInt.natAbs := by
  have hlow := step.le_toInt
  have hhigh := step.toInt_lt
  rw [ofMagnitude, BitVec.toNat_ofNat]
  exact Nat.mod_eq_of_lt (by omega)

/-- A word is the one of its number. -/
lemma eq_of_toNat_cast_eq {x y : Word} (h : (x.toNat : Int) = y.toNat) : x = y :=
  BitVec.eq_of_toNat_eq (Int.ofNat_inj.1 h)

/-- The integers that are the number of a word. -/
lemma exists_toNat_eq_iff {n : Int} :
    (∃ x : Word, (x.toNat : Int) = n) ↔ 0 ≤ n ∧ n < 2 ^ 256 := by
  constructor
  · rintro ⟨x, rfl⟩
    have hx := x.isLt
    omega
  · rintro ⟨hnonneg, hlt⟩
    refine ⟨BitVec.ofNat 256 n.toNat, ?_⟩
    rw [BitVec.toNat_ofNat, Nat.mod_eq_of_lt (by omega)]
    exact Int.toNat_of_nonneg hnonneg

/-- The difference of two words, if it is not negative. -/
def minus? (x y : Word) : Option Word :=
  if y ≤ x then some (x - y) else none

lemma some_eq_some_iff_of_toNat {x z : Word} {n : Int} (hx : (x.toNat : Int) = n) :
    some x = some z ↔ (z.toNat : Int) = n := by
  constructor
  · rintro ⟨⟩
    exact hx
  · intro hz
    rw [eq_of_toNat_cast_eq (hx.trans hz.symm)]

/-- No difference is taken below zero, so none wraps. -/
lemma minus?_eq_some_iff {x y z : Word} :
    minus? x y = some z ↔ (z.toNat : Int) = x.toNat - y.toNat := by
  rw [minus?]
  split
  · next hle =>
    have hdifference := BitVec.toNat_sub_of_le hle
    rw [BitVec.le_def] at hle
    exact some_eq_some_iff_of_toNat (by omega)
  · next hlt =>
    rw [BitVec.le_def] at hlt
    constructor
    · exact nofun
    · omega

/-! ## One step -/

/-- A word moved by a signed step, by way of differences that are refused below zero: the magnitude
is taken off the word, or the word off the magnitude. -/
def plusByDifference (x : Word) (step : Int64) : Option Word :=
  if 0 ≤ step.toInt then some (x + ofMagnitude step)
  else (minus? x (ofMagnitude step)).or (minus? (ofMagnitude step) x)

section Step

variable (x : Word) (step : Int64)

/-- Of the two differences one is never refused, and it is the one that is taken. -/
lemma plusByDifference_eq : x.plusByDifference step = some (x.plus step) := by
  rw [plusByDifference, plus]
  split
  · rfl
  · rw [minus?, minus?]
    split
    · rfl
    · next hlt =>
      have hle : x ≤ ofMagnitude step := BitVec.le_of_lt (BitVec.not_le.1 hlt)
      rw [if_pos hle, Option.none_or]

/-- The number of a word that was moved, in terms of the sum of the integers. -/
theorem toNat_plus :
    ((x.plus step).toNat : Int) =
      if 0 ≤ x.toNat + step.toInt then (x.toNat + step.toInt) % 2 ^ 256
      else |x.toNat + step.toInt| := by
  have hx := x.isLt
  have hlow := step.le_toInt
  have hsize := toNat_ofMagnitude step
  rw [plus]
  split
  · next hnonneg =>
    rw [if_pos (by omega), BitVec.toNat_add, hsize]
    omega
  · next hneg =>
    -- Which of the two differences is taken says whether the sum is negative.
    split
    · next hle =>
      rw [BitVec.le_def, hsize] at hle
      rw [if_pos (by omega), BitVec.toNat_sub_of_le (BitVec.le_def.2 (hsize ▸ hle)), hsize]
      omega
    · next hlt =>
      rw [BitVec.le_def, hsize] at hlt
      have hle : x ≤ ofMagnitude step := BitVec.le_def.2 (by omega)
      rw [if_neg (by omega), BitVec.toNat_sub_of_le hle, hsize, abs_of_neg (by omega)]
      omega

example : plus 2 (-5) = 3 ∧ plus 0 Int64.minValue = 9223372036854775808 ∧
    plus (BitVec.allOnes 256) 1 = 0 := by decide

variable {x step}

/-- The step is taken exactly if the sum is the number of a word. -/
theorem plus?_eq_some_iff {z : Word} :
    x.plus? step = some z ↔ (z.toNat : Int) = x.toNat + step.toInt := by
  have hsize := toNat_ofMagnitude step
  by_cases hnonneg : 0 ≤ step.toInt
  · simp only [plus?, if_pos hnonneg]
    split
    · next hlt =>
      have hsum := BitVec.toNat_add_of_lt hlt
      exact some_eq_some_iff_of_toNat (by omega)
    · have hz := z.isLt
      constructor
      · exact nofun
      · omega
  · have hminus : x.plus? step = minus? x (ofMagnitude step) := by
      rw [plus?, if_neg hnonneg, minus?]
    rw [hminus, minus?_eq_some_iff, hsize]
    omega

/-- The word whose octets are the numeral of its number. -/
lemma ofBytes_ofNat_of_toNat_eq {z : Word} {n : Int} (hz : (z.toNat : Int) = n) :
    ofBytes (Bytes.ofNat 32 n.toNat) = z := by
  have hbytes : Bytes.ofNat 32 n.toNat = z.toBytes := by
    rw [← hz, Int.toNat_natCast, toBytes]
  rw [hbytes, ofBytes_toBytes]

/-- The refusing form of the step in terms of the sum of the integers. -/
lemma plus?_eq_ite {sum : Int} (hsum : sum = x.toNat + step.toInt) :
    x.plus? step =
      if 0 ≤ sum ∧ sum < 2 ^ 256 then some (ofBytes (Bytes.ofNat 32 sum.toNat)) else none := by
  split
  · next hword =>
    obtain ⟨z, hz⟩ := exists_toNat_eq_iff.2 hword
    rw [ofBytes_ofNat_of_toNat_eq hz, plus?_eq_some_iff, hz, hsum]
  · next hword =>
    rw [Option.eq_none_iff_forall_ne_some]
    intro z hz
    exact hword (exists_toNat_eq_iff.1 ⟨z, (plus?_eq_some_iff.1 hz).trans hsum.symm⟩)

/-- The word of a magnitude is zero moved by the signed number. -/
lemma ofMagnitude_eq_plus (step : Int64) : ofMagnitude step = plus 0 step := by
  have hlow := step.le_toInt
  have hhigh := step.toInt_lt
  have hzero : (0 : Word).toNat = 0 := rfl
  apply eq_of_toNat_cast_eq
  rw [toNat_ofMagnitude, toNat_plus, hzero]
  split
  · omega
  · rw [abs_of_neg (by omega)]
    omega

/-- Where the step is not refused, both forms of it agree. -/
lemma plus_of_plus? {z : Word} (h : x.plus? step = some z) : x.plus step = z := by
  have hsum := plus?_eq_some_iff.1 h
  have hz := z.isLt
  apply eq_of_toNat_cast_eq
  rw [toNat_plus, if_pos (by omega), ← hsum]
  omega

/-- A word moved by a signed step against the sum of the integers.

Let the sum be that of the number that the octets of the word spell and of the step.  A sum that is
not negative is answered modulo `2 ^ 256` and any other one by its magnitude.  The refusing form
gives the word of the sum where there is one, and then the two forms agree.  The word of a magnitude
is zero moved by the signed number.  No difference of words that is taken on the way is negative. -/
theorem plus_eq_sum (x : Word) (step : Int64) :
    let sum : Int := Bytes.toNat x.toBytes + step.toInt
    (Bytes.toNat (x.plus step).toBytes : Int) = (if 0 ≤ sum then sum % 2 ^ 256 else |sum|) ∧
    x.plus? step =
      (if 0 ≤ sum ∧ sum < 2 ^ 256 then some (ofBytes (Bytes.ofNat 32 sum.toNat)) else none) ∧
    (∀ z, x.plus? step = some z → x.plus step = z) ∧
    ofMagnitude step = plus 0 step ∧
    x.plusByDifference step = some (x.plus step) := by
  intro sum
  have hsum : sum = x.toNat + step.toInt := by rw [← toNat_toBytes]
  refine ⟨?_, plus?_eq_ite hsum, fun z => plus_of_plus?, ofMagnitude_eq_plus step,
    plusByDifference_eq x step⟩
  rw [toNat_toBytes, toNat_plus, hsum]

end Step

/-! ## Runs of steps -/

/-- A word moved by one step after the other, up to the first that is refused. -/
def plusAll? (x : Word) (steps : List Int64) : Option Word :=
  steps.foldlM plus? x

/-- A word moved by one step after the other. -/
def plusAll (x : Word) (steps : List Int64) : Word :=
  steps.foldl plus x

/-- The sum of steps among the integers, which need not be a step itself. -/
def total (steps : List Int64) : Int :=
  (steps.map Int64.toInt).sum

lemma total_nil : total [] = 0 := rfl

lemma total_cons (step : Int64) (steps : List Int64) :
    total (step :: steps) = step.toInt + total steps := by
  rw [total, List.map_cons, List.sum_cons, total]

section Run

variable {x z : Word} {steps : List Int64}

lemma plusAll?_cons_eq_some_iff {step : Int64} :
    x.plusAll? (step :: steps) = some z ↔
      ∃ y, x.plus? step = some y ∧ y.plusAll? steps = some z := by
  rw [plusAll?, List.foldlM_cons, Option.bind_eq_bind, Option.bind_eq_some_iff]
  rfl

/-- That a word and the steps up to any place of a run sum up to the number of a word. -/
def StaysInRange (x : Word) (steps : List Int64) : Prop :=
  ∀ i ≤ steps.length, 0 ≤ x.toNat + total (steps.take i) ∧
    x.toNat + total (steps.take i) < 2 ^ 256

lemma staysInRange_nil (x : Word) : StaysInRange x [] := by
  intro i _
  have hx := x.isLt
  rw [List.take_nil, total_nil]
  omega

/-- The sums of a run are those of the rest of the run from where its first step leads. -/
lemma staysInRange_cons_iff {step : Int64} :
    StaysInRange x (step :: steps) ↔
      ∃ y : Word, (y.toNat : Int) = x.toNat + step.toInt ∧ StaysInRange y steps := by
  have hsum : ∀ i, (x.toNat : Int) + total ((step :: steps).take (i + 1)) =
      x.toNat + step.toInt + total (steps.take i) := by
    intro i
    rw [List.take_succ_cons, total_cons, add_assoc]
  constructor
  · intro h
    have hrest : ∀ i ≤ steps.length, 0 ≤ x.toNat + step.toInt + total (steps.take i) ∧
        x.toNat + step.toInt + total (steps.take i) < 2 ^ 256 := by
      intro i hi
      rw [← hsum]
      exact h (i + 1) (Nat.succ_le_succ hi)
    have hfirst := hrest 0 (Nat.zero_le _)
    rw [List.take_zero, total_nil, add_zero] at hfirst
    obtain ⟨y, hy⟩ := exists_toNat_eq_iff.2 hfirst
    exact ⟨y, hy, fun i hi => by rw [hy]; exact hrest i hi⟩
  · rintro ⟨y, hy, h⟩ i hi
    cases i with
    | zero =>
      have hx := x.isLt
      rw [List.take_zero, total_nil]
      omega
    | succ i =>
      rw [hsum, ← hy]
      exact h i (Nat.le_of_succ_le_succ hi)

/-- A run gets through exactly if each partial sum is the number of a word, and ends in the word of
the whole sum. -/
theorem plusAll?_eq_some_iff :
    x.plusAll? steps = some z ↔
      StaysInRange x steps ∧ (z.toNat : Int) = x.toNat + total steps := by
  induction steps generalizing x with
  | nil =>
    rw [total_nil, add_zero, and_iff_right (staysInRange_nil x)]
    exact some_eq_some_iff_of_toNat rfl
  | cons step steps ih =>
    rw [plusAll?_cons_eq_some_iff, staysInRange_cons_iff, total_cons]
    constructor
    · rintro ⟨y, hstep, hrun⟩
      have hy := plus?_eq_some_iff.1 hstep
      obtain ⟨hrange, hz⟩ := ih.1 hrun
      exact ⟨⟨y, hy, hrange⟩, by rw [hz, hy, add_assoc]⟩
    · rintro ⟨⟨y, hy, hrange⟩, hz⟩
      exact ⟨y, plus?_eq_some_iff.2 hy, ih.2 ⟨hrange, by rw [hz, hy, add_assoc]⟩⟩

/-- Where no step of a run is refused, both forms of the run agree. -/
lemma plusAll_of_plusAll? (h : x.plusAll? steps = some z) : x.plusAll steps = z := by
  induction steps generalizing x with
  | nil => exact Option.some.inj h
  | cons step steps ih =>
    obtain ⟨y, hstep, hrun⟩ := plusAll?_cons_eq_some_iff.1 h
    rw [plusAll, List.foldl_cons, plus_of_plus? hstep]
    exact ih hrun

/-! ## Taking a run back -/

/-- Only the least step has no opposite. -/
lemma toInt_neg_of_ne {step : Int64} (h : step ≠ Int64.minValue) :
    (-step).toInt = -step.toInt := by
  have hlow := step.le_toInt
  have hhigh := step.toInt_lt
  have hne : step.toInt ≠ -2 ^ 63 := by
    rw [← Int64.toInt_minValue, ne_eq, Int64.toInt_inj]
    exact h
  rw [Int64.toInt_neg]
  exact Int.bmod_eq_of_le_mul_two (by omega) (by omega)

/-- A step that was taken is taken back by its opposite. -/
lemma plus?_neg_eq_some_iff {step : Int64} (h : step ≠ Int64.minValue) :
    z.plus? (-step) = some x ↔ x.plus? step = some z := by
  rw [plus?_eq_some_iff, plus?_eq_some_iff, toInt_neg_of_ne h]
  omega

lemma plusAll?_concat_eq_some_iff {step : Int64} :
    x.plusAll? (steps ++ [step]) = some z ↔
      ∃ y, x.plusAll? steps = some y ∧ y.plus? step = some z := by
  rw [plusAll?, List.foldlM_append, Option.bind_eq_bind, Option.bind_eq_some_iff]
  simp only [List.foldlM_cons, List.foldlM_nil, Option.bind_eq_bind, Option.pure_def,
    Option.bind_fun_some, plusAll?]

/-- A run is taken back by the opposite steps, last one first. -/
theorem plusAll?_reverse_neg (h : ∀ step ∈ steps, step ≠ Int64.minValue) :
    z.plusAll? (steps.reverse.map (-·)) = some x ↔ x.plusAll? steps = some z := by
  induction steps generalizing x with
  | nil => exact eq_comm
  | cons step steps ih =>
    -- The first step is the last one to be taken back.
    rw [List.forall_mem_cons] at h
    rw [List.reverse_cons, List.map_append, List.map_singleton, plusAll?_concat_eq_some_iff,
      plusAll?_cons_eq_some_iff]
    constructor
    · rintro ⟨y, hrun, hstep⟩
      exact ⟨y, (plus?_neg_eq_some_iff h.1).1 hstep, (ih h.2).1 hrun⟩
    · rintro ⟨y, hstep, hrun⟩
      exact ⟨y, (ih h.2).2 hrun, (plus?_neg_eq_some_iff h.1).2 hstep⟩

/-- A run of steps against the sum of the integers.

It gets through exactly if the number of the word and the steps up to any place sum up to the number
of a word.  It then ends in the word of the whole sum, and so does the run that always answers; and
the opposite steps lead back, last one first, unless one of the steps has no opposite. -/
theorem plusAll?_sum (x : Word) (steps : List Int64) :
    ((∃ z, x.plusAll? steps = some z) ↔
      ∀ i ≤ steps.length, 0 ≤ x.toNat + total (steps.take i) ∧
        x.toNat + total (steps.take i) < 2 ^ 256) ∧
    ∀ z, x.plusAll? steps = some z →
      (z.toNat : Int) = x.toNat + total steps ∧ x.plusAll steps = z ∧
      ((∀ step ∈ steps, step ≠ Int64.minValue) →
        z.plusAll? (steps.reverse.map (-·)) = some x) := by
  refine ⟨⟨?_, fun hrange => ?_⟩, fun z h => ?_⟩
  · rintro ⟨z, h⟩
    exact (plusAll?_eq_some_iff.1 h).1
  · have hlast := hrange steps.length le_rfl
    rw [List.take_length] at hlast
    obtain ⟨z, hz⟩ := exists_toNat_eq_iff.2 hlast
    exact ⟨z, plusAll?_eq_some_iff.2 ⟨hrange, hz⟩⟩
  · exact ⟨(plusAll?_eq_some_iff.1 h).2, plusAll_of_plusAll? h,
      fun hne => (plusAll?_reverse_neg hne).2 h⟩

end Run

/-- Steps whose sum is beyond the greatest step. -/
def farSteps : List Int64 :=
  [9223372036854775807, 9223372036854775807, -7, 9223372036854775807]

/-- A run goes further than any step and comes back; with another step first it would be refused. -/
theorem farSteps_sum :
    let z : Word := 27670116110564327414
    (∀ step ∈ farSteps, step ≠ Int64.minValue) ∧ plusAll? 0 farSteps = some z ∧
      (z.toNat : Int) = total farSteps ∧
      z.plusAll? (farSteps.reverse.map (-·)) = some 0 ∧
      ¬ ∃ w, plusAll? 0 (-7 :: farSteps) = some w := by
  intro z
  have hne : ∀ step ∈ farSteps, step ≠ Int64.minValue := by
    rintro step hstep rfl
    exact absurd hstep (by decide)
  have hrun : plusAll? 0 farSteps = some z := rfl
  obtain ⟨-, hsum⟩ := plusAll?_sum 0 farSteps
  obtain ⟨hvalue, -, hback⟩ := hsum z hrun
  refine ⟨hne, hrun, hvalue.trans (zero_add _), hback hne, fun hother => ?_⟩
  have hfirst := (plusAll?_sum 0 (-7 :: farSteps)).1.1 hother 1 (by decide)
  exact absurd hfirst.1 (by decide)

end RollupBoundary.Word
