import Mathlib
import RollupBoundary.Json.Record
import RollupBoundary.Proofs.Json.RoundTrip

/-!
# Which members of an object a record depends on

A record is read from an object by the names of its fields.  So the order of the members does not
matter, nor do members of other names, whatever their values; and a member that is left out leaves
its field without a value and the other fields as they were.  `record?_of_varies` says all of this
at once.

`Varies` is the relation between an object and another one that is made from it in these ways, with
a relation of its own for the values of the members, as a record may hold records.
-/

namespace RollupBoundary.Json

/-! ## Objects made from others -/

/-- That a value is another one, but for the order of its members if it is an object. -/
inductive Reorders : Json → Json → Prop where
  | refl (j : Json) : Reorders j j
  | object {members members' : List (JsonText × Json)} :
    members'.Perm members → Reorders (.object members) (.object members')

lemma Reorders.exists_perm {members : List (JsonText × Json)} {j : Json}
    (h : Reorders (.object members) j) :
    ∃ members', j = .object members' ∧ members'.Perm members := by
  cases h with
  | refl => exact ⟨members, rfl, .refl _⟩
  | object hperm => exact ⟨_, rfl, hperm⟩

/-- The members whose names are kept. -/
def keep (kept : String → Bool) (members : List (JsonText × Json)) : List (JsonText × Json) :=
  members.filter fun m => m.1.any kept

/-- That members have the same names as others, and values that are related to theirs. -/
def ChangeEach (changes : String → Json → Json → Prop)
    (members changed : List (JsonText × Json)) : Prop :=
  List.Forall₂ (fun m m' => ∃ name, m.1 = some name ∧ m'.1 = some name ∧ changes name m.2 m'.2)
    members changed

/-- That an object is made from another one: the values of its members are changed, members are left
out unless their names are kept, others are added whose names are none of those that are known, and
all of them are put in some order. -/
inductive Varies (names : List String) (kept : String → Bool)
    (changes : String → Json → Json → Prop) : Json → Json → Prop where
  | object {members changed others members' : List (JsonText × Json)} :
    ChangeEach changes members changed →
    (∀ m ∈ others, ∃ name, m.1 = some name ∧ name ∉ names) →
    members'.Perm (keep kept changed ++ others) →
    Varies names kept changes (.object members) (.object members')

section ChangeEach

variable {changes : String → Json → Json → Prop} {members changed : List (JsonText × Json)}

lemma changeEach_nil_iff : ChangeEach changes [] changed ↔ changed = [] :=
  List.forall₂_nil_left_iff

lemma changeEach_cons_iff {name : String} {value : Json} :
    ChangeEach changes ((some name, value) :: members) changed ↔
      ∃ value' changed', changes name value value' ∧ ChangeEach changes members changed' ∧
        changed = (some name, value') :: changed' := by
  rw [ChangeEach, List.forall₂_cons_left_iff]
  constructor
  · rintro ⟨⟨key, value'⟩, changed', ⟨_, ⟨⟩, rfl, hvalue⟩, hmembers, rfl⟩
    exact ⟨value', changed', hvalue, hmembers, rfl⟩
  · rintro ⟨value', changed', hvalue, hmembers, rfl⟩
    exact ⟨(some name, value'), changed', ⟨name, rfl, rfl, hvalue⟩, hmembers, rfl⟩

lemma changeEach_refl (h : ∀ m ∈ members, m.1.isSome = true) :
    ChangeEach (fun _ => Reorders) members members := by
  refine List.forall₂_same.2 fun m hm => ?_
  obtain ⟨name, hname⟩ := Option.isSome_iff_exists.1 (h m hm)
  exact ⟨name, hname, hname, .refl _⟩

/-- An object varies to itself if all names are kept and the values of its members change to
themselves. -/
lemma Varies.self {names : List String} (h : ChangeEach changes members members) :
    Varies names (fun _ => true) changes (.object members) (.object members) := by
  have hkeep : keep (fun _ => true) members = members := by
    refine List.filter_eq_self.2 fun m hm => ?_
    obtain ⟨name, hname, -⟩ := List.forall₂_same.1 h m hm
    rw [hname]
    rfl
  refine .object h (List.forall_mem_nil _) ?_
  rw [hkeep, List.append_nil]

end ChangeEach

/-! ## Fields -/

section Fields

variable {members members' others : List (JsonText × Json)} {name : String}
  {kept : String → Bool}

/-- A field is given once, twice or not at all in whatever order the members come. -/
lemma field?_of_perm (h : members.Perm members') : field? members name = field? members' name := by
  have hvalues : (valuesOf name members).Perm (valuesOf name members') := (h.filter _).map _
  rw [field?, field?]
  match hm : valuesOf name members with
  | [] =>
    rw [hm] at hvalues
    rw [List.nil_perm.1 hvalues]
  | [j] =>
    rw [hm] at hvalues
    rw [List.singleton_perm.1 hvalues]
  | j :: k :: js =>
    have hlength := hvalues.length_eq
    rw [hm] at hlength
    match hm' : valuesOf name members', hlength with
    | _ :: _ :: _, _ => rfl

/-- Members of other names are not looked at. -/
lemma field?_append (hothers : ∀ m ∈ others, ∃ other, m.1 = some other ∧ other ≠ name) :
    field? (members ++ others) name = field? members name := by
  have hnone : (others.filter fun m => m.1 = some name) = [] := by
    rw [List.filter_eq_nil_iff]
    intro m hm
    obtain ⟨other, hother, hne⟩ := hothers m hm
    simp [hother, hne]
  rw [field?, field?, valuesOf, valuesOf, List.filter_append, hnone, List.append_nil]

/-- A field has its value if its name is kept, and none otherwise. -/
lemma field?_keep :
    field? (keep kept members) name = if kept name then field? members name else some none := by
  by_cases hkept : kept name = true
  · have hvalues : valuesOf name (keep kept members) = valuesOf name members := by
      rw [valuesOf, keep, List.filter_filter, valuesOf]
      congr 2
      funext m
      by_cases hm : m.1 = some name <;> simp [hm, hkept]
    rw [if_pos hkept, field?, field?, hvalues]
  · have hvalues : valuesOf name (keep kept members) = [] := by
      rw [valuesOf, List.map_eq_nil_iff, keep, List.filter_filter, List.filter_eq_nil_iff]
      intro m _ hm
      rw [Bool.and_eq_true, decide_eq_true_eq] at hm
      rw [hm.1] at hm
      exact hkept hm.2
    rw [if_neg hkept, field?, hvalues]

end Fields

/-! ## Records -/

lemma record?_object_eq_some_iff {names : List String} {members : List (JsonText × Json)}
    {values : List (Option Json)} :
    record? names (.object members) = some values ↔
      (∀ m ∈ members, m.1.isSome = true) ∧
        List.Forall₂ (fun name value => field? members name = some value) names values := by
  rw [record?, ← mapM_eq_some_iff, ← List.all_eq_true]
  split
  · next hall => exact (and_iff_right hall).symm
  · next hall => simp [hall]

section Varies

variable {names : List String} {kept : String → Bool} {changes : String → Json → Json → Prop}
  {members : List (JsonText × Json)} {j : Json}

/-- The values of a record that is made from another one: those of the members that were kept. -/
def keptValues (kept : String → Bool) (names : List String) (values : List (Option Json)) :
    List (Option Json) :=
  names.zipWith (fun name value => if kept name then value else none) values

lemma record?_of_perm {changed others members' : List (JsonText × Json)}
    {values : List (Option Json)}
    (hothers : ∀ m ∈ others, ∃ name, m.1 = some name ∧ name ∉ names)
    (hperm : members'.Perm (keep kept changed ++ others))
    (h : record? names (.object changed) = some values) :
    record? names (.object members') = some (keptValues kept names values) := by
  rw [record?_object_eq_some_iff] at h ⊢
  obtain ⟨htexts, hfields⟩ := h
  have hfield : ∀ name ∈ names,
      field? members' name = if kept name then field? changed name else some none := by
    intro name hname
    rw [field?_of_perm hperm, field?_append, field?_keep]
    intro m hm
    obtain ⟨other, hother, hunknown⟩ := hothers m hm
    exact ⟨other, hother, fun heq => hunknown (heq ▸ hname)⟩
  constructor
  · intro m hm
    rcases List.mem_append.1 (hperm.mem_iff.1 hm) with hm | hm
    · exact htexts m (List.mem_of_mem_filter hm)
    · obtain ⟨other, hother, -⟩ := hothers m hm
      rw [hother]
      rfl
  · -- Field by field: by now it does not matter what the other members are called.
    clear hothers
    induction hfields with
    | nil => exact .nil
    | @cons name value names values hvalue _ ih =>
      rw [List.forall_mem_cons] at hfield
      refine .cons ?_ (ih hfield.2)
      rw [hfield.1, hvalue]
      exact (apply_ite some _ _ _).symm

/-- A record that is made from another one has the values of the members that were kept, as they
were changed, and no others. -/
theorem record?_of_varies (h : Varies names kept changes (.object members) j) :
    ∃ changed, ChangeEach changes members changed ∧
      ∀ values, record? names (.object changed) = some values →
        record? names j = some (keptValues kept names values) := by
  cases h with
  | object hchanged hothers hperm =>
    exact ⟨_, hchanged, fun values hvalues => record?_of_perm hothers hperm hvalues⟩

end Varies

/-- A field that is read has its value if its name is kept, and the one of its own otherwise. -/
lemma orDefault_kept {α : Type} {value x : α} {read : Json → Option α} {j : Json} (kept : Bool)
    (h : read j = some x) :
    orDefault value read (if kept then some j else none) = some (if kept then x else value) := by
  cases kept with
  | false => rfl
  | true => exact h

end RollupBoundary.Json
