import RollupBoundary.Bytes

/-!
# Chain words and addresses

A chain word is 256 bits wide and an address 160.  Both are written as big-endian octets, 32 and
20 of them, and `toBytes`/`ofBytes` are inverse on strings of that length (`Word.ofBytes_toBytes`,
`Word.toBytes_ofBytes` and the same for `Address`).  An address stands in a word right-aligned,
behind twelve zero octets (`Address.toWord`), and `Word.address` takes the low 160 bits back.

Signed steps on a word come in two forms.  `Word.plus?` refuses a sum outside `[0, 2^256)`.
`Word.plus` always answers: it wraps above, and below zero it keeps the magnitude of the sum, which
is also how `Word.ofMagnitude` stores a signed number.
-/

namespace RollupBoundary

/-- A word of the chain: 256 bits. -/
abbrev Word := BitVec 256

/-- An account address: 160 bits. -/
abbrev Address := BitVec 160

/-! ## Octets -/

namespace Word

/-- The 32 octets of a word, most significant first. -/
def toBytes (w : Word) : Bytes :=
  Bytes.ofNat 32 w.toNat

/-- The word that a byte string spells, reduced to 256 bits. -/
def ofBytes (bs : Bytes) : Word :=
  BitVec.ofNat 256 (Bytes.toNat bs)

@[simp] theorem length_toBytes (w : Word) : (toBytes w).length = 32 := by
  simp [toBytes]

@[simp] theorem ofBytes_toBytes (w : Word) : ofBytes (toBytes w) = w := by
  apply BitVec.eq_of_toNat_eq
  rw [ofBytes, toBytes, BitVec.toNat_ofNat, Bytes.toNat_ofNat]
  have := w.isLt
  omega

theorem toNat_ofBytes {bs : Bytes} (h : bs.length = 32) :
    (ofBytes bs).toNat = Bytes.toNat bs := by
  have hlt := Bytes.toNat_lt bs
  rw [h] at hlt
  rw [ofBytes, BitVec.toNat_ofNat]
  exact Nat.mod_eq_of_lt hlt

theorem toBytes_ofBytes {bs : Bytes} (h : bs.length = 32) : toBytes (ofBytes bs) = bs := by
  rw [toBytes, toNat_ofBytes h, ← h, Bytes.ofNat_toNat]

end Word

namespace Address

/-- The 20 octets of an address, most significant first. -/
def toBytes (a : Address) : Bytes :=
  Bytes.ofNat 20 a.toNat

/-- The address that a byte string spells, reduced to 160 bits. -/
def ofBytes (bs : Bytes) : Address :=
  BitVec.ofNat 160 (Bytes.toNat bs)

@[simp] theorem length_toBytes (a : Address) : (toBytes a).length = 20 := by
  simp [toBytes]

@[simp] theorem ofBytes_toBytes (a : Address) : ofBytes (toBytes a) = a := by
  apply BitVec.eq_of_toNat_eq
  rw [ofBytes, toBytes, BitVec.toNat_ofNat, Bytes.toNat_ofNat]
  have := a.isLt
  omega

theorem toNat_ofBytes {bs : Bytes} (h : bs.length = 20) :
    (ofBytes bs).toNat = Bytes.toNat bs := by
  have hlt := Bytes.toNat_lt bs
  rw [h] at hlt
  rw [ofBytes, BitVec.toNat_ofNat]
  exact Nat.mod_eq_of_lt hlt

theorem toBytes_ofBytes {bs : Bytes} (h : bs.length = 20) : toBytes (ofBytes bs) = bs := by
  rw [toBytes, toNat_ofBytes h, ← h, Bytes.ofNat_toNat]

/-- An address right-aligned in a word. -/
def toWord (a : Address) : Word :=
  a.setWidth 256

/-- The word form of an address is twelve zero octets and then the address. -/
theorem toBytes_toWord (a : Address) :
    Word.toBytes (toWord a) = Bytes.zeros 12 ++ toBytes a := by
  apply Bytes.eq_of_toNat_eq (by simp)
  have := a.isLt
  rw [Word.toBytes, Bytes.toNat_ofNat, Bytes.toNat_append, Bytes.toNat_zeros, toBytes,
    Bytes.toNat_ofNat, toWord, BitVec.toNat_setWidth]
  omega

end Address

namespace Word

/-- The address in the low 160 bits of a word; the rest is not looked at. -/
def address (w : Word) : Address :=
  w.setWidth 160

@[simp] theorem address_toWord (a : Address) : address (Address.toWord a) = a := by
  apply BitVec.eq_of_toNat_eq
  rw [address, Address.toWord, BitVec.toNat_setWidth, BitVec.toNat_setWidth]
  have := a.isLt
  omega

/-! ## Numbers in a word -/

/-- An unsigned number of 64 bits as a word. -/
def ofUInt64 (n : UInt64) : Word :=
  BitVec.ofNat 256 n.toNat

/-- The magnitude of a signed number of 64 bits as a word.

A negative number is not sign-extended, so `-5` and `5` are the same word.  The magnitude of the
least number, `2^63`, still fits. -/
def ofMagnitude (n : Int64) : Word :=
  BitVec.ofNat 256 n.toInt.natAbs

/-- A word moved by a signed step.

Above, the sum wraps modulo `2^256`.  Below zero the result is the magnitude of the sum, so that
`2` moved by `-5` is `3`; `plus?` refuses such a sum instead. -/
def plus (x : Word) (step : Int64) : Word :=
  let size := ofMagnitude step
  if 0 ≤ step.toInt then x + size
  else if size ≤ x then x - size
  else size - x

/-- A word moved by a signed step, if the sum is still a word. -/
def plus? (x : Word) (step : Int64) : Option Word :=
  let size := ofMagnitude step
  if 0 ≤ step.toInt then
    if x.toNat + size.toNat < 2 ^ (256 : Nat) then some (x + size) else none
  else if size ≤ x then some (x - size)
  else none

end Word
end RollupBoundary
