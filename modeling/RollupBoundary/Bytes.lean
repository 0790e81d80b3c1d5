/-!
# Byte strings as big-endian numbers

Everything that crosses the rollup boundary is a string of octets, and nearly every field of it is
a number written most significant octet first.  `Bytes.toNat` reads such a numeral and
`Bytes.ofNat` writes one of a given width, dropping whatever does not fit.  The two are inverse on
numerals of one width: `toNat_ofNat` and `ofNat_toNat`.  All later statements about words,
addresses and length fields rest on this pair, so no other module looks at single octets of a
number.
-/

namespace RollupBoundary

-- A power is that of the core library everywhere, also where other libraries bring their own.
attribute [instance (high)] instPowNat

/-- A string of octets, first octet first. -/
abbrev Bytes := List UInt8

namespace Bytes

/-- The number that `bs` spells in base 256, most significant octet first. -/
def toNat (bs : Bytes) : Nat :=
  bs.foldl (fun n b => 256 * n + b.toNat) 0

/-- The numeral of `n` with exactly `width` octets; octets above the width are dropped. -/
def ofNat : Nat → Nat → Bytes
  | 0, _ => []
  | width + 1, n => ofNat width (n / 256) ++ [UInt8.ofNat n]

/-- A run of `n` zero octets. -/
def zeros (n : Nat) : Bytes :=
  List.replicate n 0

/-- Induction that adds octets on the right, the order in which a numeral gains digits. -/
theorem snocRec {P : Bytes → Prop} (nil : P [])
    (snoc : ∀ bs b, P bs → P (bs ++ [b])) (bs : Bytes) : P bs := by
  have h : ∀ rs : Bytes, P rs.reverse := by
    intro rs
    induction rs with
    | nil => exact nil
    | cons b rs ih => simpa using snoc rs.reverse b ih
  simpa using h bs.reverse

/-! ## Lengths -/

@[simp] theorem length_ofNat (width n : Nat) : (ofNat width n).length = width := by
  induction width generalizing n with
  | zero => rfl
  | succ width ih => simp [ofNat, ih]

@[simp] theorem length_zeros (n : Nat) : (zeros n).length = n := by
  simp [zeros]

/-! ## Reading a numeral -/

@[simp] theorem toNat_nil : toNat [] = 0 := rfl

/-- The last octet is the least significant digit. -/
theorem toNat_concat (bs : Bytes) (b : UInt8) :
    toNat (bs ++ [b]) = 256 * toNat bs + b.toNat := by
  simp [toNat, List.foldl_append]

/-- Octets on the left weigh as much as the width of what stands to their right. -/
theorem toNat_append (as bs : Bytes) :
    toNat (as ++ bs) = toNat as * 256 ^ bs.length + toNat bs := by
  induction bs using snocRec with
  | nil => simp
  | snoc bs b ih =>
    rw [← List.append_assoc, toNat_concat, ih, toNat_concat, List.length_append,
      List.length_singleton, Nat.pow_succ]
    rw [Nat.mul_add, ← Nat.mul_assoc, Nat.mul_comm 256 (toNat as), Nat.mul_assoc,
      Nat.mul_comm 256 (256 ^ bs.length), Nat.add_assoc]

@[simp] theorem toNat_zeros (n : Nat) : toNat (zeros n) = 0 := by
  induction n with
  | zero => rfl
  | succ n ih =>
    have h : zeros (n + 1) = zeros n ++ [0] := List.replicate_succ'
    rw [h, toNat_concat, ih]
    rfl

/-- A numeral of `k` octets stays below `256 ^ k`. -/
theorem toNat_lt (bs : Bytes) : toNat bs < 256 ^ bs.length := by
  induction bs using snocRec with
  | nil => simp
  | snoc bs b ih =>
    have hb : b.toNat < 256 := b.toNat_lt
    rw [toNat_concat, List.length_append, List.length_singleton, Nat.pow_succ]
    omega

/-! ## Writing and reading are inverse -/

/-- Reading back a numeral of fixed width gives the number reduced to that width. -/
theorem toNat_ofNat (width n : Nat) : toNat (ofNat width n) = n % 256 ^ width := by
  induction width generalizing n with
  | zero => simp [ofNat, Nat.mod_one]
  | succ width ih =>
    rw [ofNat, toNat_concat, ih, Nat.pow_succ, Nat.mul_comm (256 ^ width) 256,
      Nat.mod_mul]
    simp only [UInt8.toNat_ofNat']
    omega

theorem toNat_ofNat_of_lt {width n : Nat} (h : n < 256 ^ width) : toNat (ofNat width n) = n := by
  rw [toNat_ofNat, Nat.mod_eq_of_lt h]

/-- A byte string is the numeral, of its own width, of the number it spells. -/
theorem ofNat_toNat (bs : Bytes) : ofNat bs.length (toNat bs) = bs := by
  induction bs using snocRec with
  | nil => rfl
  | snoc bs b ih =>
    have hb : b.toNat < 256 := b.toNat_lt
    rw [List.length_append, List.length_singleton, ofNat, toNat_concat]
    have h₁ : (256 * toNat bs + b.toNat) / 256 = toNat bs := by omega
    have h₂ : UInt8.ofNat (256 * toNat bs + b.toNat) = b := by
      apply UInt8.toNat.inj
      rw [UInt8.toNat_ofNat']
      omega
    rw [h₁, h₂, ih]

/-- Two byte strings of one length that spell one number are equal. -/
theorem eq_of_toNat_eq {as bs : Bytes} (hlen : as.length = bs.length)
    (h : toNat as = toNat bs) : as = bs := by
  rw [← ofNat_toNat as, ← ofNat_toNat bs, hlen, h]

end Bytes
end RollupBoundary
