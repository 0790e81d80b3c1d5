import RollupBoundary.Bytes

/-!
# UTF-8, read strictly and read leniently

Octets are read one at a time.  Between characters the reader holds nothing; inside one it holds a
`Pending`, which says how many octets the character still owes and between which bounds the next
one has to lie.  The bounds after `0xE0`, `0xED`, `0xF0` and `0xF4` keep out overlong forms,
surrogates and numbers beyond the last character.

`scan` gives one entry for each character and one `none` for each ill-formed part.  A part ends
just before the first octet that cannot continue it, so it is as long as it can be.  A file must
hold no such part (`decode?`); a string inside a log has each replaced by `U+FFFD`
(`decodeLossy`).
-/

namespace RollupBoundary.Utf8

/-- The octets of a text. -/
def encode (text : String) : Bytes :=
  text.toList.flatMap String.utf8EncodeChar

/-- A character that has begun: octets still owed, bounds of the next octet, and the bits so far. -/
structure Pending where
  owed : Nat
  low : Nat
  high : Nat
  bits : Nat

/-- What an octet means where a character may begin. -/
inductive Lead where
  | whole (c : Char)
  | opens (p : Pending)
  | illFormed

/-- Reads the first octet of a character. -/
def lead (b : Nat) : Lead :=
  if b < 0x80 then .whole (Char.ofNat b)
  else if 0xC2 ≤ b ∧ b ≤ 0xDF then .opens ⟨1, 0x80, 0xBF, b - 0xC0⟩
  else if b = 0xE0 then .opens ⟨2, 0xA0, 0xBF, 0⟩
  else if b = 0xED then .opens ⟨2, 0x80, 0x9F, 0xD⟩
  else if 0xE1 ≤ b ∧ b ≤ 0xEF then .opens ⟨2, 0x80, 0xBF, b - 0xE0⟩
  else if b = 0xF0 then .opens ⟨3, 0x90, 0xBF, 0⟩
  else if 0xF1 ≤ b ∧ b ≤ 0xF3 then .opens ⟨3, 0x80, 0xBF, b - 0xF0⟩
  else if b = 0xF4 then .opens ⟨3, 0x80, 0x8F, 4⟩
  else .illFormed

/-- The characters of a byte string, with `none` for each ill-formed part. -/
def scan : Option Pending → Bytes → List (Option Char)
  | none, [] => []
  | some _, [] => [none]
  | none, b :: rest =>
    match lead b.toNat with
    | .whole c => some c :: scan none rest
    | .opens p => scan (some p) rest
    | .illFormed => none :: scan none rest
  | some p, b :: rest =>
    if p.low ≤ b.toNat ∧ b.toNat ≤ p.high then
      let bits := 64 * p.bits + (b.toNat - 0x80)
      if p.owed ≤ 1 then some (Char.ofNat bits) :: scan none rest
      else scan (some ⟨p.owed - 1, 0x80, 0xBF, bits⟩) rest
    else
      match lead b.toNat with
      | .whole c => none :: some c :: scan none rest
      | .opens q => none :: scan (some q) rest
      | .illFormed => none :: none :: scan none rest

/-- The text of a byte string that is well-formed throughout. -/
def decode? (bs : Bytes) : Option String :=
  ((scan none bs).mapM id).map String.ofList

/-- The text of any byte string, with `U+FFFD` for each ill-formed part. -/
def decodeLossy (bs : Bytes) : String :=
  String.ofList ((scan none bs).map fun c => c.getD '\uFFFD')

end RollupBoundary.Utf8
