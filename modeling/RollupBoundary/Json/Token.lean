import RollupBoundary.Hex
import RollupBoundary.Json.Basic

/-!
# JSON tokens

A document is cut into tokens before its structure is read.  Blanks may stand between any two
tokens and mean nothing.  `token?` reads the token at the front of a text and always leaves less
than it was given (`length_lt_of_token?`), so `lex` ends.

A string is read in two steps: its literal is first a list of `Piece`s, characters and escaped
16-bit units, and `Piece.join` then turns the units into characters, two at a time where they make
up a surrogate pair.  The first step decides whether the literal is well-formed, the second whether
it has a text.
-/

namespace RollupBoundary.Json

/-- The smallest parts of a document. -/
inductive Token where
  | openArray
  | closeArray
  | openObject
  | closeObject
  | comma
  | colon
  | null
  | bool (b : Bool)
  | number (n : JsonNumber)
  | string (s : JsonText)
deriving DecidableEq

/-! ## Strings -/

/-- A part of a string literal: a character, or a 16-bit unit written as four digits. -/
inductive Piece where
  | char (c : Char)
  | unit (n : Nat)
deriving DecidableEq

/-- The character that a short escape stands for. -/
def shortEscape? : Char → Option Char
  | '"' => some '"'
  | '\\' => some '\\'
  | '/' => some '/'
  | 'b' => some '\x08'
  | 'f' => some '\x0c'
  | 'n' => some '\n'
  | 'r' => some '\r'
  | 't' => some '\t'
  | _ => none

/-- The unit that four digits spell. -/
def unit? (a b c d : Char) : Option Nat := do
  let a ← Hex.value? a
  let b ← Hex.value? b
  let c ← Hex.value? c
  let d ← Hex.value? d
  return 4096 * a + 256 * b + 16 * c + d

/-- The pieces of a string literal up to its closing quote, and the text behind it.  Control
characters have to be escaped. -/
def pieces? : List Char → Option (List Piece × List Char)
  | [] => none
  | '"' :: rest => some ([], rest)
  | '\\' :: 'u' :: a :: b :: c :: d :: rest => do
    let n ← unit? a b c d
    let (ps, rest) ← pieces? rest
    return (.unit n :: ps, rest)
  | '\\' :: e :: rest => do
    let c ← shortEscape? e
    let (ps, rest) ← pieces? rest
    return (.char c :: ps, rest)
  | c :: rest =>
    if c < ' ' then none
    else do
      let (ps, rest) ← pieces? rest
      return (.char c :: ps, rest)

/-- Whether a unit is the first half of a surrogate pair. -/
def isHighHalf (n : Nat) : Bool :=
  0xD800 ≤ n && n < 0xDC00

/-- Whether a unit is the second half of a surrogate pair. -/
def isLowHalf (n : Nat) : Bool :=
  0xDC00 ≤ n && n < 0xE000

/-- The character that a surrogate pair stands for. -/
def pairChar (high low : Nat) : Char :=
  Char.ofNat (0x10000 + 1024 * (high - 0xD800) + (low - 0xDC00))

/-- The characters that pieces stand for; half a surrogate pair stands for none. -/
def Piece.join : List Piece → Option (List Char)
  | [] => some []
  | .char c :: rest => (join rest).map (c :: ·)
  | .unit high :: .unit low :: rest =>
    if isHighHalf high then
      if isLowHalf low then (join rest).map (pairChar high low :: ·) else none
    else if isLowHalf high then none
    else (join (.unit low :: rest)).map (Char.ofNat high :: ·)
  | .unit n :: rest =>
    if isHighHalf n || isLowHalf n then none
    else (join rest).map (Char.ofNat n :: ·)

/-- The text of a string literal given by its pieces. -/
def textOf (ps : List Piece) : JsonText :=
  (Piece.join ps).map String.ofList

/-! ## Numbers -/

/-- The leading digits of a text, and what stands behind them. -/
def spanDigits (s : List Char) : List Char × List Char :=
  (s.takeWhile Char.isDigit, s.dropWhile Char.isDigit)

/-- The value of a digit. -/
def digitOf (c : Char) : Fin 10 :=
  Fin.ofNat 10 (c.toNat - 48)

/-- The digits before the point: at least one, and no zero before another digit. -/
def whole? (s : List Char) : Option (Nat × List Char) :=
  match spanDigits s with
  | ([], _) => none
  | ('0' :: _ :: _, _) => none
  | (ds, rest) => some (Nat.ofDigitChars 10 ds 0, rest)

/-- The digits behind the point, if there is a point. -/
def fraction? : List Char → Option (List (Fin 10) × List Char)
  | '.' :: s =>
    match spanDigits s with
    | ([], _) => none
    | (ds, rest) => some (ds.map digitOf, rest)
  | s => some ([], s)

/-- The digits of an exponent, as a number. -/
def exponentDigits? (s : List Char) : Option (Nat × List Char) :=
  match spanDigits s with
  | ([], _) => none
  | (ds, rest) => some (Nat.ofDigitChars 10 ds 0, rest)

/-- The signed exponent behind an `e`. -/
def exponentValue? : List Char → Option (Int × List Char)
  | '-' :: s => (exponentDigits? s).map fun (n, rest) => (-(n : Int), rest)
  | '+' :: s => (exponentDigits? s).map fun (n, rest) => ((n : Int), rest)
  | s => (exponentDigits? s).map fun (n, rest) => ((n : Int), rest)

/-- The exponent, if there is an `e`. -/
def exponent? : List Char → Option (Option Int × List Char)
  | 'e' :: s => (exponentValue? s).map fun (n, rest) => (some n, rest)
  | 'E' :: s => (exponentValue? s).map fun (n, rest) => (some n, rest)
  | s => some (none, s)

/-- A number without its sign. -/
def magnitude? (negative : Bool) (s : List Char) : Option (JsonNumber × List Char) := do
  let (whole, s) ← whole? s
  let (fraction, s) ← fraction? s
  let (exponent, s) ← exponent? s
  return (⟨negative, whole, fraction, exponent⟩, s)

/-- A number. -/
def number? : List Char → Option (JsonNumber × List Char)
  | '-' :: s => magnitude? true s
  | s => magnitude? false s

/-! ## Tokens -/

/-- The token at the front of a text, and what stands behind it. -/
def token? : List Char → Option (Token × List Char)
  | '[' :: s => some (.openArray, s)
  | ']' :: s => some (.closeArray, s)
  | '{' :: s => some (.openObject, s)
  | '}' :: s => some (.closeObject, s)
  | ',' :: s => some (.comma, s)
  | ':' :: s => some (.colon, s)
  | 'n' :: 'u' :: 'l' :: 'l' :: s => some (.null, s)
  | 't' :: 'r' :: 'u' :: 'e' :: s => some (.bool true, s)
  | 'f' :: 'a' :: 'l' :: 's' :: 'e' :: s => some (.bool false, s)
  | '"' :: s => (pieces? s).map fun (ps, rest) => (.string (textOf ps), rest)
  | s => (number? s).map fun (n, rest) => (.number n, rest)

/-- Characters that may stand between tokens. -/
def isBlank (c : Char) : Bool :=
  c = ' ' || c = '\t' || c = '\n' || c = '\r'

/-! ## Every token takes something -/

/-- How a literal goes on: with its closing quote, or with a piece that takes something. -/
theorem pieces?_cases {s rest : List Char} {ps : List Piece} (h : pieces? s = some (ps, rest)) :
    (s = '"' :: rest ∧ ps = []) ∨
      ∃ c cs p s' ps', s = c :: cs ++ s' ∧ ps = p :: ps' ∧ pieces? s' = some (ps', rest) := by
  rw [pieces?.eq_def] at h
  split at h
  next => cases h
  next behind =>
    cases h
    exact .inl ⟨rfl, rfl⟩
  next a b c d behind =>
    obtain ⟨n, -, hrest⟩ := Option.bind_eq_some_iff.1 h
    obtain ⟨⟨ps', rest'⟩, hread, heq⟩ := Option.bind_eq_some_iff.1 hrest
    cases heq
    exact .inr ⟨'\\', ['u', a, b, c, d], .unit n, behind, ps', rfl, rfl, hread⟩
  next e behind _ =>
    obtain ⟨c, -, hrest⟩ := Option.bind_eq_some_iff.1 h
    obtain ⟨⟨ps', rest'⟩, hread, heq⟩ := Option.bind_eq_some_iff.1 hrest
    cases heq
    exact .inr ⟨'\\', [e], .char c, behind, ps', rfl, rfl, hread⟩
  next c behind _ _ _ =>
    split at h
    · cases h
    · obtain ⟨⟨ps', rest'⟩, hread, heq⟩ := Option.bind_eq_some_iff.1 h
      cases heq
      exact .inr ⟨c, [], .char c, behind, ps', rfl, rfl, hread⟩

theorem length_lt_of_pieces? {s rest : List Char} {ps : List Piece}
    (h : pieces? s = some (ps, rest)) : rest.length < s.length := by
  induction ps generalizing s with
  | nil =>
    obtain ⟨rfl, -⟩ | ⟨c, cs, p, s', ps', -, hps, -⟩ := pieces?_cases h
    · exact Nat.lt_succ_self _
    · cases hps
  | cons p ps ih =>
    obtain ⟨-, hps⟩ | ⟨c, cs, p', s', ps', rfl, hps, hread⟩ := pieces?_cases h
    · cases hps
    · cases hps
      have hlt := ih hread
      rw [List.length_append, List.length_cons]
      omega

theorem length_lt_of_spanDigits {s ds rest : List Char} (h : spanDigits s = (ds, rest))
    (hne : ds ≠ []) : rest.length < s.length := by
  cases h
  have hpos := List.length_pos_iff.2 hne
  have hsum := congrArg List.length (List.takeWhile_append_dropWhile (p := Char.isDigit) (l := s))
  rw [List.length_append] at hsum
  omega

theorem length_lt_of_whole? {s rest : List Char} {n : Nat} (h : whole? s = some (n, rest)) :
    rest.length < s.length := by
  rw [whole?] at h
  split at h
  next => cases h
  next => cases h
  next ds behind hne _ hspan =>
    cases h
    exact length_lt_of_spanDigits hspan hne

theorem length_le_of_fraction? {s rest : List Char} {ds : List (Fin 10)}
    (h : fraction? s = some (ds, rest)) : rest.length ≤ s.length := by
  rw [fraction?.eq_def] at h
  split at h
  next behind =>
    split at h
    next => cases h
    next digits behind hne hspan =>
      cases h
      exact Nat.le_succ_of_le (Nat.le_of_lt (length_lt_of_spanDigits hspan hne))
  next =>
    cases h
    exact Nat.le_refl _

theorem length_lt_of_exponentDigits? {s rest : List Char} {n : Nat}
    (h : exponentDigits? s = some (n, rest)) : rest.length < s.length := by
  rw [exponentDigits?] at h
  split at h
  next => cases h
  next ds behind hne hspan =>
    cases h
    exact length_lt_of_spanDigits hspan hne

/-- What is made of a value that has been read changes nothing about the text behind it. -/
theorem exists_of_map_eq_some {α β : Type} {f : α → β} {read : Option (α × List Char)} {b : β}
    {rest : List Char} (h : (read.map fun (a, rest) => (f a, rest)) = some (b, rest)) :
    ∃ a, read = some (a, rest) := by
  obtain ⟨⟨a, rest'⟩, hread, heq⟩ := Option.map_eq_some_iff.1 h
  cases heq
  exact ⟨a, hread⟩

theorem length_lt_of_exponentValue? {s rest : List Char} {n : Int}
    (h : exponentValue? s = some (n, rest)) : rest.length < s.length := by
  rw [exponentValue?.eq_def] at h
  split at h
  next behind =>
    obtain ⟨m, hm⟩ := exists_of_map_eq_some (f := fun n : Nat => -(n : Int)) h
    exact Nat.lt_succ_of_lt (length_lt_of_exponentDigits? hm)
  next behind =>
    obtain ⟨m, hm⟩ := exists_of_map_eq_some h
    exact Nat.lt_succ_of_lt (length_lt_of_exponentDigits? hm)
  next =>
    obtain ⟨m, hm⟩ := exists_of_map_eq_some h
    exact length_lt_of_exponentDigits? hm

theorem length_le_of_exponent? {s rest : List Char} {n : Option Int}
    (h : exponent? s = some (n, rest)) : rest.length ≤ s.length := by
  rw [exponent?.eq_def] at h
  split at h
  next behind =>
    obtain ⟨m, hm⟩ := exists_of_map_eq_some h
    exact Nat.le_succ_of_le (Nat.le_of_lt (length_lt_of_exponentValue? hm))
  next behind =>
    obtain ⟨m, hm⟩ := exists_of_map_eq_some h
    exact Nat.le_succ_of_le (Nat.le_of_lt (length_lt_of_exponentValue? hm))
  next =>
    cases h
    exact Nat.le_refl _

theorem length_lt_of_magnitude? {negative : Bool} {s rest : List Char} {n : JsonNumber}
    (h : magnitude? negative s = some (n, rest)) : rest.length < s.length := by
  obtain ⟨⟨whole, s₁⟩, hwhole, h⟩ := Option.bind_eq_some_iff.1 h
  obtain ⟨⟨fraction, s₂⟩, hfraction, h⟩ := Option.bind_eq_some_iff.1 h
  obtain ⟨⟨exponent, s₃⟩, hexponent, h⟩ := Option.bind_eq_some_iff.1 h
  cases h
  calc rest.length
      ≤ s₂.length := length_le_of_exponent? hexponent
    _ ≤ s₁.length := length_le_of_fraction? hfraction
    _ < s.length := length_lt_of_whole? hwhole

theorem length_lt_of_number? {s rest : List Char} {n : JsonNumber}
    (h : number? s = some (n, rest)) : rest.length < s.length := by
  rw [number?.eq_def] at h
  split at h
  next behind => exact Nat.lt_succ_of_lt (length_lt_of_magnitude? h)
  next => exact length_lt_of_magnitude? h

/-- A token takes at least one character. -/
theorem length_lt_of_token? {s rest : List Char} {t : Token} (h : token? s = some (t, rest)) :
    rest.length < s.length := by
  rw [token?.eq_def] at h
  split at h
  -- the tokens that are written in one way only
  iterate 9
    next behind =>
      cases h
      simp only [List.length_cons]
      omega
  next behind =>
    obtain ⟨ps, hps⟩ := exists_of_map_eq_some (f := fun ps => Token.string (textOf ps)) h
    exact Nat.lt_succ_of_lt (length_lt_of_pieces? hps)
  next =>
    obtain ⟨n, hn⟩ := exists_of_map_eq_some h
    exact length_lt_of_number? hn

/-- The tokens of a text. -/
def lex (s : List Char) : Option (List Token) :=
  match s with
  | [] => some []
  | c :: s =>
    if isBlank c then lex s
    else
      match _front : token? (c :: s) with
      | none => none
      | some (t, rest) => (lex rest).map (t :: ·)
termination_by s.length
decreasing_by
  · exact Nat.lt_succ_self _
  · exact length_lt_of_token? _front

end RollupBoundary.Json
