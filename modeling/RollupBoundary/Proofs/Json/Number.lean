import Mathlib
import RollupBoundary.Json.Writer

/-!
# A number is read back from its digits

A number has no end of its own: its digits go on as long as there are any.  So it is read back as it
was written only if what comes behind it does not go on with it (`EndsNumber`), and in a document
nothing that may stand behind a number does.

Each part of a number is read back under such a condition, the whole part (`whole?_toDigits`), the
digits behind the point (`fraction?_append`) and the exponent (`exponent?_append`), and
`number?_writeNumber` puts them together.  Every number is read back as the one that was written,
to the digit; none is rounded, and none has two written forms.
-/

namespace RollupBoundary.Json

/-! ## What a number ends before -/

/-- That a text does not begin with a character of a kind. -/
def Avoids (p : Char → Bool) (s : List Char) : Prop :=
  ∀ c ∈ s.head?, p c = false

/-- The characters that a number may go on with. -/
def continuesNumber (c : Char) : Bool :=
  c.isDigit || c = '.' || c = 'e' || c = 'E'

/-- That a text does not go on with a number before it. -/
def EndsNumber (s : List Char) : Prop :=
  Avoids continuesNumber s

lemma avoids_nil (p : Char → Bool) : Avoids p [] := by
  simp [Avoids]

lemma avoids_cons_iff {p : Char → Bool} {c : Char} {s : List Char} :
    Avoids p (c :: s) ↔ p c = false := by
  simp [Avoids]

lemma EndsNumber.avoids_isDigit {s : List Char} (h : EndsNumber s) : Avoids Char.isDigit s := by
  intro c hc
  have hends := h c hc
  simp only [continuesNumber, Bool.or_eq_false_iff] at hends
  exact hends.1.1.1

lemma EndsNumber.head_ne {s t : List Char} {c : Char} (h : EndsNumber s)
    (hc : continuesNumber c = true) : s ≠ c :: t := by
  rintro rfl
  rw [EndsNumber, avoids_cons_iff, hc] at h
  cases h

/-! ## Digits -/

lemma spanDigits_append {ds rest : List Char} (hds : ∀ c ∈ ds, c.isDigit = true)
    (hrest : Avoids Char.isDigit rest) : spanDigits (ds ++ rest) = (ds, rest) := by
  have htake : rest.takeWhile Char.isDigit = [] := by
    cases rest with
    | nil => rfl
    | cons c s => rw [List.takeWhile_cons_of_neg (by simpa using avoids_cons_iff.1 hrest)]
  have hdrop : rest.dropWhile Char.isDigit = rest := by
    cases rest with
    | nil => rfl
    | cons c s => rw [List.dropWhile_cons_of_neg (by simpa using avoids_cons_iff.1 hrest)]
  rw [spanDigits, List.takeWhile_append_of_pos hds, List.dropWhile_append_of_pos hds, htake, hdrop,
    List.append_nil]

lemma spanDigits_toDigits (n : Nat) {rest : List Char} (hrest : Avoids Char.isDigit rest) :
    spanDigits (Nat.toDigits 10 n ++ rest) = (Nat.toDigits 10 n, rest) :=
  spanDigits_append (fun _ hc => Nat.isDigit_of_mem_toDigits (by decide) (by decide) hc) hrest

/-- Only the numeral of zero begins with a zero. -/
lemma toDigits_ne_zero_cons {n : Nat} (hn : 0 < n) (ds : List Char) :
    Nat.toDigits 10 n ≠ '0' :: ds := by
  induction n using Nat.strong_induction_on generalizing ds with
  | _ n ih =>
    intro h
    rw [Nat.toDigits_eq_if (by decide)] at h
    split at h
    · have hzero := Nat.digitChar_eq_zero.1 (List.cons.inj h).1
      omega
    · cases hfirst : Nat.toDigits 10 (n / 10) with
      | nil => exact Nat.toDigits_ne_nil hfirst
      | cons c cs =>
        rw [hfirst, List.cons_append, List.cons.injEq] at h
        obtain ⟨rfl, -⟩ := h
        exact ih (n / 10) (by omega) (by omega) cs hfirst

/-! ## Parts of a number -/

lemma whole?_toDigits (n : Nat) {rest : List Char} (hrest : Avoids Char.isDigit rest) :
    whole? (Nat.toDigits 10 n ++ rest) = some (n, rest) := by
  rw [whole?, spanDigits_toDigits n hrest]
  split
  · next h => exact absurd (Prod.ext_iff.1 h).1 Nat.toDigits_ne_nil
  · next h =>
    obtain rfl | hn := Nat.eq_zero_or_pos n
    · cases h
    · exact absurd (Prod.ext_iff.1 h).1 (toDigits_ne_zero_cons hn _)
  · next h =>
    cases h
    rw [Nat.ofDigitChars_ten_toDigits]

lemma exponentDigits?_toDigits (n : Nat) {rest : List Char} (hrest : Avoids Char.isDigit rest) :
    exponentDigits? (Nat.toDigits 10 n ++ rest) = some (n, rest) := by
  rw [exponentDigits?, spanDigits_toDigits n hrest]
  split
  · next h => exact absurd (Prod.ext_iff.1 h).1 Nat.toDigits_ne_nil
  · next h =>
    cases h
    rw [Nat.ofDigitChars_ten_toDigits]

lemma exists_toDigits_eq_cons (n : Nat) :
    ∃ c cs, Nat.toDigits 10 n = c :: cs ∧ c.isDigit = true := by
  obtain ⟨c, cs, h⟩ := List.exists_cons_of_ne_nil (Nat.toDigits_ne_nil (n := n) (b := 10))
  refine ⟨c, cs, h, Nat.isDigit_of_mem_toDigits (b := 10) (n := n) (by decide) (by decide) ?_⟩
  rw [h]
  exact List.mem_cons_self

/-- A signed number is read back.  There is no sign before one that is not negative, and the reader
does not take its first digit for a sign. -/
lemma exponentValue?_writeInt (n : Int) {rest : List Char} (hrest : Avoids Char.isDigit rest) :
    exponentValue? (writeInt n ++ rest) = some (n, rest) := by
  have hread := exponentDigits?_toDigits n.natAbs hrest
  rw [writeInt]
  split
  · next hneg =>
    have hvalue : -(n.natAbs : Int) = n := by omega
    rw [List.singleton_append, List.cons_append, exponentValue?, hread]
    simp only [Option.map_some, hvalue]
  · next hneg =>
    have hvalue : (n.natAbs : Int) = n := by omega
    obtain ⟨c, cs, hdigits, hc⟩ := exists_toDigits_eq_cons n.natAbs
    rw [List.nil_append]
    rw [hdigits, List.cons_append] at hread ⊢
    rw [exponentValue?, hread]
    · simp only [Option.map_some, hvalue]
    · rintro s ⟨⟩
      cases hc
    · rintro s ⟨⟩
      cases hc

lemma digitOf_digitChar (d : Fin 10) : digitOf (Nat.digitChar d.val) = d := by
  decide +revert

/-- The point and the digits behind it; nothing if there are none. -/
def writeFraction (ds : List (Fin 10)) : List Char :=
  if ds = [] then [] else '.' :: ds.map fun d => Nat.digitChar d.val

/-- The exponent with its `e`, if there is one. -/
def writeExponent : Option Int → List Char
  | none => []
  | some e => 'e' :: writeInt e

lemma writeNumber_eq (n : JsonNumber) :
    writeNumber n = (if n.negative then ['-'] else []) ++
      (Nat.toDigits 10 n.whole ++ (writeFraction n.fraction ++ writeExponent n.exponent)) := by
  rw [writeNumber, writeFraction, List.append_assoc, List.append_assoc]
  rfl

lemma fraction?_append (ds : List (Fin 10)) {rest : List Char} (hrest : Avoids Char.isDigit rest)
    (hpoint : ∀ s, rest ≠ '.' :: s) : fraction? (writeFraction ds ++ rest) = some (ds, rest) := by
  rw [writeFraction]
  split
  · next hds =>
    rw [List.nil_append, fraction?, hds]
    exact hpoint
  · next hds =>
    have hdigits : ∀ c ∈ ds.map fun d => Nat.digitChar d.val, c.isDigit = true := by
      simp [Nat.isDigit_digitChar]
    rw [List.cons_append, fraction?, spanDigits_append hdigits hrest]
    split
    · next h => exact absurd (List.map_eq_nil_iff.1 (Prod.ext_iff.1 h).1) hds
    · next h =>
      cases h
      simp [Function.comp_def, digitOf_digitChar]

lemma exponent?_append (e : Option Int) {rest : List Char} (hrest : EndsNumber rest) :
    exponent? (writeExponent e ++ rest) = some (e, rest) := by
  cases e with
  | none =>
    rw [writeExponent, List.nil_append, exponent?]
    · exact fun s => hrest.head_ne (by decide)
    · exact fun s => hrest.head_ne (by decide)
  | some n =>
    rw [writeExponent, List.cons_append, exponent?, exponentValue?_writeInt n hrest.avoids_isDigit]
    rfl

/-! ## Numbers -/

/-- Neither a digit nor a point stands behind the digits of the fraction. -/
lemma writeExponent_append (e : Option Int) {rest : List Char} (hrest : EndsNumber rest) :
    Avoids Char.isDigit (writeExponent e ++ rest) ∧ ∀ s, writeExponent e ++ rest ≠ '.' :: s := by
  cases e with
  | none => exact ⟨hrest.avoids_isDigit, fun s => hrest.head_ne (by decide)⟩
  | some n =>
    refine ⟨avoids_cons_iff.2 (by decide), ?_⟩
    rintro s ⟨⟩

/-- No digit stands behind the whole part. -/
lemma writeFraction_append (ds : List (Fin 10)) {rest : List Char}
    (hrest : Avoids Char.isDigit rest) : Avoids Char.isDigit (writeFraction ds ++ rest) := by
  rw [writeFraction]
  split
  · exact hrest
  · exact avoids_cons_iff.2 (by decide)

lemma magnitude?_append (n : JsonNumber) {rest : List Char} (hrest : EndsNumber rest) :
    magnitude? n.negative (Nat.toDigits 10 n.whole ++
      (writeFraction n.fraction ++ (writeExponent n.exponent ++ rest))) = some (n, rest) := by
  obtain ⟨hdigit, hpoint⟩ := writeExponent_append n.exponent hrest
  rw [magnitude?, whole?_toDigits n.whole (writeFraction_append n.fraction hdigit)]
  simp only [Option.bind_eq_bind, Option.bind_some, fraction?_append n.fraction hdigit hpoint,
    exponent?_append n.exponent hrest, Option.pure_def]

/-- A number is read back from its digits, whatever does not go on with it behind them. -/
theorem number?_writeNumber (n : JsonNumber) {rest : List Char} (hrest : EndsNumber rest) :
    number? (writeNumber n ++ rest) = some (n, rest) := by
  have hread := magnitude?_append n hrest
  rw [writeNumber_eq]
  cases hsign : n.negative with
  | true =>
    rw [hsign] at hread
    simpa [number?] using hread
  | false =>
    obtain ⟨c, cs, hdigits, hc⟩ := exists_toDigits_eq_cons n.whole
    rw [hsign] at hread
    simp only [Bool.false_eq_true, if_false, List.nil_append, List.append_assoc]
    rw [hdigits, List.cons_append] at hread ⊢
    rw [number?, hread]
    rintro s ⟨⟩
    cases hc

end RollupBoundary.Json
