import Mathlib
import RollupBoundary.Text.Alphanumeric
import RollupBoundary.Text.Pieces

/-!
# Cutting a text that is put together, and trimming it

Cutting at a mark is what the library calls splitting (`cutAt_eq_splitOn`).  A text that is put
together from parts, with a mark before each of them, is cut into the pieces of the parts
(`cutAt_append_flatMap`); a part that has the mark in it gives more pieces than one.

Trimming takes blanks away on both sides (`exists_eq_append_trim`).
-/

namespace RollupBoundary.Text

variable {mark : Char}

lemma cutAt_eq_splitOn (mark : Char) (cs : List Char) : cutAt mark cs = cs.splitOn mark := by
  induction cs with
  | nil => rfl
  | cons c cs ih =>
    rw [cutAt, ih, List.splitOn_cons_eq_if_modifyHead]
    by_cases h : c = mark
    · rw [if_pos h, if_pos (beq_iff_eq.2 h)]
    · rw [if_neg h, if_neg (by simpa using h)]
      cases hpieces : cs.splitOn mark with
      | nil => exact absurd hpieces (List.splitOn_ne_nil mark cs)
      | cons piece pieces => rfl

lemma cutAt_of_notMem {cs : List Char} (h : mark ∉ cs) : cutAt mark cs = [cs] := by
  rw [cutAt_eq_splitOn, List.splitOn_eq_singleton h]

/-- Parts with a mark before each of them are cut into the pieces of the parts. -/
lemma cutAt_append_flatMap {α : Type} (part : α → List Char) (as : List α) (cs : List Char) :
    cutAt mark (cs ++ as.flatMap fun a => mark :: part a) =
      cutAt mark cs ++ as.flatMap fun a => cutAt mark (part a) := by
  induction as generalizing cs with
  | nil => rw [List.flatMap_nil, List.flatMap_nil, List.append_nil, List.append_nil]
  | cons a as ih =>
    have hnext : cutAt mark (part a ++ as.flatMap fun a => mark :: part a) = _ := ih (part a)
    rw [cutAt_eq_splitOn] at hnext ⊢
    rw [List.flatMap_cons, List.cons_append, List.splitOn_append_cons_self, hnext,
      ← cutAt_eq_splitOn, List.flatMap_cons]

/-- What follows the last mark stands at the end of a piece. -/
lemma exists_mem_cutAt_append (as : List Char) {bs : List Char} (h : mark ∉ bs) :
    ∃ front, front ++ bs ∈ cutAt mark (as ++ bs) := by
  induction as with
  | nil => exact ⟨[], by rw [List.nil_append, cutAt_of_notMem h]; exact List.mem_cons_self⟩
  | cons c as ih =>
    obtain ⟨front, hfront⟩ := ih
    rw [List.cons_append, cutAt]
    split
    · exact ⟨front, List.mem_cons_of_mem _ hfront⟩
    · split
      · next hnil =>
        rw [hnil] at hfront
        cases hfront
      · next piece pieces hpieces =>
        rw [hpieces] at hfront
        obtain rfl | hlater := List.mem_cons.1 hfront
        · exact ⟨c :: front, List.mem_cons_self⟩
        · exact ⟨front, List.mem_cons_of_mem _ hlater⟩

/-- What follows the last mark is the same wherever that mark is found. -/
lemma eq_of_append_cons_eq {front front' back back' : List Char} (hback : mark ∉ back)
    (hback' : mark ∉ back') (h : front ++ mark :: back = front' ++ mark :: back') :
    back = back' := by
  have hlast {more behind behind' : List Char} (hmark : mark ∉ behind)
      (h : mark :: behind = more ++ mark :: behind') : behind = behind' := by
    cases more with
    | nil => exact (List.cons.inj h).2
    | cons c more =>
      rw [(List.cons.inj h).2] at hmark
      exact absurd (List.mem_append_right more List.mem_cons_self) hmark
  obtain ⟨more, -, h⟩ | ⟨more, -, h⟩ := List.append_eq_append_iff.1 h
  · exact hlast hback h
  · exact (hlast hback' h).symm

/-! ## Blanks -/

/-- A character is no blank if it has a property that no blank has. -/
lemma isBlank_of_all_blanks {p : Char → Bool} (hall : (blanks.all fun b => !p b) = true) {c : Char}
    (hc : p c = true) : isBlank c = false := by
  by_contra hblank
  rw [isBlank, Bool.not_eq_false, List.contains_iff_mem] at hblank
  have hnot := List.all_eq_true.1 hall c hblank
  rw [hc] at hnot
  cases hnot

lemma isBlank_of_isAlphanumeric {c : Char} (h : isAlphanumeric c = true) : isBlank c = false :=
  isBlank_of_all_blanks (by decide +kernel) h

lemma trim_of_forall {cs : List Char} (h : ∀ c ∈ cs, isBlank c = false) : trim cs = cs := by
  have hnone {bs : List Char} (h : ∀ c ∈ bs, isBlank c = false) : bs.dropWhile isBlank = bs :=
    List.dropWhile_eq_self_iff.2 fun hpos => by simp [h _ (List.getElem_mem hpos)]
  rw [trim, hnone h, hnone (by simpa using h), List.reverse_reverse]

/-- Where a text ends in no blank, what trimming takes away stands in front. -/
lemma exists_eq_append_trim (cs : List Char) {c : Char} (h : isBlank c = false) :
    ∃ front back, cs ++ [c] = front ++ (back ++ [c]) ∧ trim (cs ++ [c]) = back ++ [c] ∧
      ∀ b ∈ front, isBlank b = true := by
  refine ⟨cs.takeWhile isBlank, cs.dropWhile isBlank, ?_, ?_, fun b => List.mem_takeWhile_imp⟩
  · rw [← List.append_assoc, List.takeWhile_append_dropWhile]
  · have hfront : (cs ++ [c]).dropWhile isBlank = cs.dropWhile isBlank ++ [c] := by
      rw [List.dropWhile_append]
      split
      · next hnil =>
        rw [List.isEmpty_iff.1 hnil, List.dropWhile_cons_of_neg (by simp [h]), List.nil_append]
      · rfl
    rw [trim, hfront, List.reverse_append, List.reverse_singleton, List.singleton_append,
      List.dropWhile_cons_of_neg (by simp [h]), List.reverse_cons, List.reverse_reverse]

end RollupBoundary.Text
