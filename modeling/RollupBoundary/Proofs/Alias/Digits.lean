import Mathlib
import RollupBoundary.Alias.Aliasing
import RollupBoundary.Proofs.Text.Hex

/-!
# Digits from the last to the first

The digits of an offset are read from the last octet to the first, and the reader stops at a fault,
so it finds the fault of the octet nearest the end (`LastFault`).  The argument follows it: an octet
is read when those behind it have been read (`readDigits_reverse_cons`), and what is asked of it
depends on the number of digits behind it alone (`Offends`, `readDigits_step`).  Where no octet has
a fault the number that the digits spell fits into an address (`clear_iff`), and that number is what
is read (`readDigits_eq_ok_iff`).
-/

namespace RollupBoundary.Aliasing

/-! ## Octets -/

/-- The digits among octets. -/
def digitsOf (bs : Bytes) : List Nat :=
  bs.filterMap digitValue?

/-- The number that they spell, most significant digit first. -/
def valueOf (bs : Bytes) : Nat :=
  Nat.ofDigits 16 (digitsOf bs).reverse

/-- That octets are digits and underscores. -/
def AllDigits (bs : Bytes) : Prop :=
  ∀ b ∈ bs, b = 0x5F ∨ (digitValue? b).isSome = true

instance (bs : Bytes) : Decidable (AllDigits bs) :=
  List.decidableBAll (fun b => b = 0x5F ∨ (digitValue? b).isSome = true) bs

lemma digitValue?_lt {b : UInt8} {d : Nat} (h : digitValue? b = some d) : d < 16 := by
  rw [digitValue?] at h
  split at h
  · exact (Hex.value?_lt h).1
  · cases h

/-! ## One octet -/

section Octets

variable {b : UInt8} {d : Nat} {bs : Bytes}

lemma digitsOf_underscore : digitsOf (0x5F :: bs) = digitsOf bs :=
  List.filterMap_cons_none (by decide)

lemma digitsOf_digit (h : digitValue? b = some d) : digitsOf (b :: bs) = d :: digitsOf bs :=
  List.filterMap_cons_some h

lemma length_digitsOf_reverse (bs : Bytes) :
    (digitsOf bs.reverse).length = (digitsOf bs).length := by
  rw [digitsOf, List.filterMap_reverse, List.length_reverse, digitsOf]

lemma valueOf_underscore : valueOf (0x5F :: bs) = valueOf bs := by
  rw [valueOf, digitsOf_underscore, valueOf]

lemma valueOf_digit (h : digitValue? b = some d) :
    valueOf (b :: bs) = valueOf bs + 16 ^ (digitsOf bs).length * d := by
  rw [valueOf, digitsOf_digit h, List.reverse_cons, Nat.ofDigits_append, List.length_reverse,
    Nat.ofDigits_singleton]
  rfl

lemma valueOf_lt (bs : Bytes) : valueOf bs < 16 ^ (digitsOf bs).length := by
  have hlt := Nat.ofDigits_lt_base_pow_length (b := 16) (l := (digitsOf bs).reverse) (by decide)
  rw [List.length_reverse] at hlt
  refine hlt fun d hd => ?_
  obtain ⟨b, -, hb⟩ := List.mem_filterMap.1 (List.mem_reverse.1 hd)
  exact digitValue?_lt hb

variable (rest : Bytes) (place sum : Nat)

lemma readDigits_underscore : readDigits (0x5F :: rest) place sum = readDigits rest place sum := by
  rw [readDigits, if_pos rfl]

lemma readDigits_invalid (hne : b ≠ 0x5F) (hnone : digitValue? b = none) :
    readDigits (b :: rest) place sum = .error (.invalidDigit b) := by
  rw [readDigits, if_neg hne, hnone]

lemma readDigits_digit (hd : digitValue? b = some d) :
    readDigits (b :: rest) place sum =
      if 40 ≤ place then if d = 0 then readDigits rest place sum else .error .tooLarge
      else readDigits rest (place + 1) (sum + d * 16 ^ place) := by
  have hne : b ≠ 0x5F := by
    rintro rfl
    cases hd
  rw [readDigits, if_neg hne, hd]

end Octets

/-! ## From the last octet to the first -/

/-- What is read after other octets starts at the place those have reached; no place is counted
beyond the fortieth. -/
lemma readDigits_append (rs ys : Bytes) {place : Nat} (h : place ≤ 40) (sum : Nat) :
    readDigits (rs ++ ys) place sum =
      (readDigits rs place sum).bind
        (readDigits ys (min 40 (place + (digitsOf rs).length))) := by
  induction rs generalizing place sum with
  | nil =>
    have hplace : min 40 (place + (digitsOf []).length) = place := Nat.min_eq_right h
    rw [hplace]
    rfl
  | cons b rs ih =>
    rw [List.cons_append]
    by_cases hb : b = 0x5F
    · rw [hb, readDigits_underscore, readDigits_underscore, digitsOf_underscore, ih h]
    · cases hvalue : digitValue? b with
      | none =>
        rw [readDigits_invalid _ _ _ hb hvalue, readDigits_invalid _ _ _ hb hvalue]
        rfl
      | some d =>
        have hlength : (digitsOf (b :: rs)).length = (digitsOf rs).length + 1 := by
          rw [digitsOf_digit hvalue, List.length_cons]
        rw [readDigits_digit _ _ _ hvalue, readDigits_digit _ _ _ hvalue, hlength]
        split_ifs with hfull hzero
        · rw [ih h]
          congr 2
          omega
        · rfl
        · rw [ih (by omega)]
          congr 2
          omega

/-- An octet is read after those behind it, at the place of the number of digits among them. -/
lemma readDigits_reverse_cons (b : UInt8) (bs : Bytes) :
    readDigits (b :: bs).reverse 0 0 =
      (readDigits bs.reverse 0 0).bind (readDigits [b] (min 40 (digitsOf bs).length)) := by
  rw [List.reverse_cons, readDigits_append _ _ (Nat.zero_le 40), Nat.zero_add,
    length_digitsOf_reverse]

/-! ## Faults -/

/-- The fault of an octet, given those behind it: it is no digit, or it is one with too many
digits behind it, and not zero. -/
inductive Offends (b : UInt8) (behind : Bytes) : Fault → Prop where
  | invalidDigit : b ≠ 0x5F → digitValue? b = none → Offends b behind (.invalidDigit b)
  | tooLarge {d : Nat} : digitValue? b = some d → d ≠ 0 → 40 ≤ (digitsOf behind).length →
    Offends b behind .tooLarge

/-- That no octet has a fault. -/
def Clear (bs : Bytes) : Prop :=
  ∀ b behind, b :: behind <:+ bs → ∀ f, ¬ Offends b behind f

/-- The fault that is nearest the end: no octet behind it has one. -/
def LastFault (bs : Bytes) (f : Fault) : Prop :=
  ∃ b behind, b :: behind <:+ bs ∧ Offends b behind f ∧ Clear behind

section Faults

variable {b : UInt8} {bs behind : Bytes} {d : Nat} {f g : Fault}

lemma not_offends_underscore : ¬ Offends 0x5F behind f := by
  intro h
  cases h with
  | invalidDigit hne _ => exact hne rfl
  | tooLarge hd _ _ => cases hd

lemma offends_digit_iff (hd : digitValue? b = some d) :
    Offends b behind f ↔ f = .tooLarge ∧ d ≠ 0 ∧ 40 ≤ (digitsOf behind).length := by
  constructor
  · intro h
    cases h with
    | invalidDigit _ hnone =>
      rw [hd] at hnone
      cases hnone
    | tooLarge hd' hne hfull =>
      rw [hd, Option.some.injEq] at hd'
      exact ⟨rfl, hd' ▸ hne, hfull⟩
  · rintro ⟨rfl, hne, hfull⟩
    exact .tooLarge hd hne hfull

lemma not_offends_digit_iff (hd : digitValue? b = some d) :
    (∀ f, ¬ Offends b behind f) ↔ d = 0 ∨ (digitsOf behind).length < 40 := by
  constructor
  · intro h
    by_contra hfault
    rw [not_or, Nat.not_lt] at hfault
    exact h .tooLarge (.tooLarge hd hfault.1 hfault.2)
  · intro h f hf
    obtain ⟨-, hne, hfull⟩ := (offends_digit_iff hd).1 hf
    omega

/-- An octet has one fault at most. -/
lemma Offends.unique (h : Offends b behind f) (h' : Offends b behind g) : f = g := by
  cases h with
  | invalidDigit _ hnone =>
    cases h' with
    | invalidDigit _ _ => rfl
    | tooLarge hd _ _ =>
      rw [hnone] at hd
      cases hd
  | tooLarge hd _ _ => exact ((offends_digit_iff hd).1 h').1.symm

lemma clear_nil : Clear [] :=
  fun _ _ h => absurd (List.suffix_nil.1 h) (List.cons_ne_nil _ _)

lemma clear_cons_iff : Clear (b :: bs) ↔ Clear bs ∧ ∀ f, ¬ Offends b bs f := by
  constructor
  · intro h
    exact ⟨fun c behind hc => h c behind (hc.trans (List.suffix_cons b bs)),
      h b bs List.suffix_rfl⟩
  · rintro ⟨hbs, hb⟩ c behind hc
    obtain heq | hc := List.suffix_cons_iff.1 hc
    · rw [List.cons.injEq] at heq
      rw [heq.1, heq.2]
      exact hb
    · exact hbs c behind hc

lemma not_lastFault_nil : ¬ LastFault [] f :=
  fun ⟨_, _, h, _⟩ => absurd (List.suffix_nil.1 h) (List.cons_ne_nil _ _)

lemma lastFault_cons_iff : LastFault (b :: bs) f ↔ LastFault bs f ∨ Clear bs ∧ Offends b bs f := by
  constructor
  · rintro ⟨c, behind, hc, hoffends, hclear⟩
    obtain heq | hc := List.suffix_cons_iff.1 hc
    · rw [List.cons.injEq] at heq
      rw [heq.1, heq.2] at hoffends
      rw [heq.2] at hclear
      exact .inr ⟨hclear, hoffends⟩
    · exact .inl ⟨c, behind, hc, hoffends, hclear⟩
  · rintro (⟨c, behind, hc, h⟩ | ⟨hclear, hoffends⟩)
    · exact ⟨c, behind, hc.trans (List.suffix_cons b bs), h⟩
    · exact ⟨b, bs, List.suffix_rfl, hoffends, hclear⟩

lemma LastFault.not_clear (h : LastFault bs f) : ¬ Clear bs :=
  fun hclear => match h with
    | ⟨c, behind, hc, hoffends, _⟩ => hclear c behind hc f hoffends

lemma LastFault.unique (h : LastFault bs f) (h' : LastFault bs g) : f = g := by
  induction bs with
  | nil => exact absurd h not_lastFault_nil
  | cons b bs ih =>
    obtain h | ⟨hclear, h⟩ := lastFault_cons_iff.1 h <;>
      obtain h' | ⟨hclear', h'⟩ := lastFault_cons_iff.1 h'
    · exact ih h h'
    · exact absurd hclear' h.not_clear
    · exact absurd hclear h'.not_clear
    · exact h.unique h'

lemma allDigits_cons_iff :
    AllDigits (b :: bs) ↔ (b = 0x5F ∨ (digitValue? b).isSome = true) ∧ AllDigits bs :=
  List.forall_mem_cons

/-- One more digit in front fits unless it is at the fortieth place or beyond, and not zero. -/
lemma valueOf_digit_lt_iff (hd : digitValue? b = some d) :
    valueOf (b :: bs) < 2 ^ 160 ↔
      valueOf bs < 2 ^ 160 ∧ (d = 0 ∨ (digitsOf bs).length < 40) := by
  have hd16 := digitValue?_lt hd
  have hlt := valueOf_lt bs
  have hsixteen : (2 : Nat) ^ 160 = 16 ^ 40 := by decide
  rw [valueOf_digit hd, hsixteen]
  obtain hk | hk := Nat.lt_or_ge (digitsOf bs).length 40
  · have hle : 16 ^ ((digitsOf bs).length + 1) ≤ 16 ^ 40 := Nat.pow_le_pow_right (by decide) hk
    have hdigit : 16 ^ (digitsOf bs).length * d ≤ 16 ^ (digitsOf bs).length * 15 :=
      Nat.mul_le_mul_left _ (by omega)
    rw [Nat.pow_succ] at hle
    omega
  · have hle : 16 ^ 40 ≤ 16 ^ (digitsOf bs).length := Nat.pow_le_pow_right (by decide) hk
    obtain rfl | hd0 := Nat.eq_zero_or_pos d
    · rw [Nat.mul_zero, Nat.add_zero]
      exact ⟨fun h => ⟨h, .inl rfl⟩, fun h => h.1⟩
    · have hdigit := Nat.le_mul_of_pos_right (16 ^ (digitsOf bs).length) hd0
      omega

/-- What is clear of faults are the digits of a number that fits. -/
lemma clear_iff (bs : Bytes) : Clear bs ↔ AllDigits bs ∧ valueOf bs < 2 ^ 160 := by
  induction bs with
  | nil => exact ⟨fun _ => ⟨List.forall_mem_nil _, by decide⟩, fun _ => clear_nil⟩
  | cons b bs ih =>
    rw [clear_cons_iff, ih, allDigits_cons_iff]
    by_cases hb : b = 0x5F
    · have hoffends : ∀ f, ¬ Offends 0x5F bs f := fun f => not_offends_underscore
      rw [hb, valueOf_underscore]
      tauto
    · cases hd : digitValue? b with
      | none =>
        have hoffends : ¬ ∀ f, ¬ Offends b bs f := fun h => h _ (.invalidDigit hb hd)
        simp [hb, hoffends]
      | some d =>
        rw [not_offends_digit_iff hd, valueOf_digit_lt_iff hd, Option.isSome_some]
        tauto

end Faults

/-! ## What is read -/

/-- An octet is read into the number behind it, or it has a fault and that is found. -/
lemma readDigits_step (b : UInt8) (bs : Bytes) :
    (∀ f, ¬ Offends b bs f) ∧
        readDigits [b] (min 40 (digitsOf bs).length) (valueOf bs) = .ok (valueOf (b :: bs)) ∨
      ∃ f, Offends b bs f ∧
        readDigits [b] (min 40 (digitsOf bs).length) (valueOf bs) = .error f := by
  by_cases hb : b = 0x5F
  · rw [hb, valueOf_underscore, readDigits_underscore, readDigits]
    exact .inl ⟨fun f => not_offends_underscore, rfl⟩
  · cases hd : digitValue? b with
    | none => exact .inr ⟨_, .invalidDigit hb hd, readDigits_invalid _ _ _ hb hd⟩
    | some d =>
      rw [readDigits_digit _ _ _ hd, valueOf_digit hd, not_offends_digit_iff hd]
      split_ifs with hfull hzero
      · rw [hzero, Nat.mul_zero, Nat.add_zero, readDigits]
        exact .inl ⟨.inl rfl, rfl⟩
      · exact .inr ⟨_, .tooLarge hd hzero (by omega), rfl⟩
      · rw [Nat.min_eq_right (by omega), readDigits, Nat.mul_comm]
        exact .inl ⟨.inr (by omega), rfl⟩

/-- The number is read if there is no fault, and otherwise the one nearest the end is found. -/
lemma readDigits_outcome (bs : Bytes) :
    Clear bs ∧ readDigits bs.reverse 0 0 = .ok (valueOf bs) ∨
      ∃ f, LastFault bs f ∧ readDigits bs.reverse 0 0 = .error f := by
  induction bs with
  | nil => exact .inl ⟨clear_nil, rfl⟩
  | cons b bs ih =>
    rw [readDigits_reverse_cons]
    obtain ⟨hclear, hread⟩ | ⟨f, hfault, hread⟩ := ih <;> rw [hread]
    · obtain ⟨hnone, hstep⟩ | ⟨f, hoffends, hstep⟩ := readDigits_step b bs
      · exact .inl ⟨clear_cons_iff.2 ⟨hclear, hnone⟩, hstep⟩
      · exact .inr ⟨f, lastFault_cons_iff.2 (.inr ⟨hclear, hoffends⟩), hstep⟩
    · exact .inr ⟨f, lastFault_cons_iff.2 (.inl hfault), rfl⟩

lemma readDigits_eq_ok_iff {bs : Bytes} {n : Nat} :
    readDigits bs.reverse 0 0 = .ok n ↔ Clear bs ∧ n = valueOf bs := by
  obtain ⟨hclear, hread⟩ | ⟨f, hfault, hread⟩ := readDigits_outcome bs
  · rw [hread, Except.ok.injEq]
    exact ⟨fun h => ⟨hclear, h.symm⟩, fun h => h.2.symm⟩
  · rw [hread]
    exact ⟨nofun, fun h => absurd h.1 hfault.not_clear⟩

lemma readDigits_eq_error_iff {bs : Bytes} {f : Fault} :
    readDigits bs.reverse 0 0 = .error f ↔ LastFault bs f := by
  obtain ⟨hclear, hread⟩ | ⟨g, hfault, hread⟩ := readDigits_outcome bs
  · rw [hread]
    exact ⟨nofun, fun h => absurd hclear h.not_clear⟩
  · rw [hread, Except.error.injEq]
    exact ⟨fun h => h ▸ hfault, fun h => hfault.unique h⟩

end RollupBoundary.Aliasing
