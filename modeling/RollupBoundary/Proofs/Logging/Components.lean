import Mathlib
import RollupBoundary.Logging.Settings

/-!
# The order in which components are given

The entries of a finite map are inserted one by one, each in its place by name.  Where their names
differ, all of them are kept, and as a map has them sorted, the order in which they came is
forgotten: each reordering of the entries of a map makes the same map
(`Components.ofList_of_perm`).
-/

namespace RollupBoundary.Logging

lemma perm_insertEntry {name level : String} {es : List (String × String)}
    (h : ∀ e ∈ es, name ≠ e.1) : (insertEntry name level es).Perm ((name, level) :: es) := by
  induction es with
  | nil => exact .refl _
  | cons e es ih =>
    rw [List.forall_mem_cons] at h
    rw [insertEntry, if_neg h.1]
    split
    · exact .refl _
    · exact ((ih h.2).cons e).trans (.swap _ _ _)

/-- Entries of different names are all kept. -/
lemma perm_foldl_insert {c : Components} {es : List (String × String)}
    (h : (c.entries ++ es).Pairwise fun a b => a.1 ≠ b.1) :
    (es.foldl (fun c e => c.insert e.1 e.2) c).entries.Perm (c.entries ++ es) := by
  induction es generalizing c with
  | nil => rw [List.foldl_nil, List.append_nil]
  | cons e es ih =>
    have hnew : ∀ d ∈ c.entries, e.1 ≠ d.1 := fun d hd =>
      ((List.pairwise_append.1 h).2.2 d hd e List.mem_cons_self).symm
    have hinsert : (c.insert e.1 e.2).entries.Perm (c.entries ++ [e]) :=
      (perm_insertEntry hnew).trans (List.perm_append_singleton e c.entries).symm
    have hall : ((c.insert e.1 e.2).entries ++ es).Perm (c.entries ++ e :: es) := by
      rw [List.append_cons c.entries e es]
      exact hinsert.append_right es
    exact (ih (hall.symm.pairwise h fun h => h.symm)).trans hall

lemma Components.eq_of_entries_eq {c d : Components} (h : c.entries = d.entries) : c = d := by
  cases c
  cases d
  cases h
  rfl

/-- A finite map is made of its entries in any order. -/
lemma Components.ofList_of_perm {c : Components} {es : List (String × String)}
    (h : es.Perm c.entries) : Components.ofList es = c := by
  have hnames : es.Pairwise fun a b => a.1 ≠ b.1 :=
    h.symm.pairwise (c.sorted.imp fun hlt => ne_of_lt hlt) fun h => h.symm
  have hperm : (Components.ofList es).entries.Perm c.entries :=
    (perm_foldl_insert (c := .empty) hnames).trans h
  apply Components.eq_of_entries_eq
  refine hperm.eq_of_pairwise (fun a b _ _ hab hba => ?_) (Components.ofList es).sorted c.sorted
  exact absurd hba (String.lt_asymm hab)

end RollupBoundary.Logging
