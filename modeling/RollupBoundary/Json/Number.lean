/-!
# JSON numbers

A `JsonNumber` keeps the decimal form that a document gives, so that nothing is rounded and `1`,
`1.0` and `1e0` stay distinct, as the reader of a plain integer needs.

Some readers hold every number as a double, and then a number may be too large.  It is held as the
product of two doubles, the one nearest to its leading digits and the one nearest to a power of
ten, where the leading digits are as many as fit in 64 bits (`JsonNumber.leading`).  Each of the two
is rounded, so near the greatest double it is this product and not the number itself that decides
(`JsonNumber.isFinite`).
-/

namespace RollupBoundary

/-- A number in decimal form. -/
structure JsonNumber where
  negative : Bool
  /-- The digits before the point. -/
  whole : Nat
  /-- The digits behind the point, first one first; empty if there is no point. -/
  fraction : List (Fin 10)
  /-- The power of ten behind the `e`, if there is one. -/
  exponent : Option Int
deriving DecidableEq

/-! ## Doubles -/

/-- The double nearest to a natural number, of two equally near ones the even one.  A double has 53
significant bits, so the lower bits of a longer number are rounded away. -/
def nearestDouble (n : Nat) : Nat :=
  let unit := 2 ^ (n.log2 + 1 - 53)
  let low := n / unit * unit
  let rest := n % unit
  if unit < 2 * rest ∨ (unit = 2 * rest ∧ n / unit % 2 = 1) then low + unit else low

/-- The least magnitude that rounds beyond the greatest double. -/
def doubleBound : Nat :=
  2 ^ (1024 : Nat) - 2 ^ (970 : Nat)

namespace JsonNumber

/-- The number written as the plain digits of `n`. -/
def ofNat (n : Nat) : JsonNumber :=
  ⟨false, n, [], none⟩

/-- The number of 64 bits that plain digits spell; a sign, a point or an exponent is refused. -/
def toUInt64? (n : JsonNumber) : Option UInt64 :=
  if n.negative = false ∧ n.fraction = [] ∧ n.exponent = none ∧ n.whole < 2 ^ (64 : Nat) then
    some (UInt64.ofNat n.whole)
  else none

/-! ## Leading digits -/

/-- The leading digits of a numeral that fit in 64 bits, and how many digits come behind them. -/
def leadingWhole (n : Nat) : Nat × Nat :=
  if n < 2 ^ (64 : Nat) then (n, 0)
  else
    let (digits, behind) := leadingWhole (n / 10)
    (digits, behind + 1)
termination_by n
decreasing_by omega

/-- Digits with as many more behind them as fit in 64 bits, and how many more these are. -/
def extendDigits (digits : Nat) : List (Fin 10) → Nat × Nat
  | [] => (digits, 0)
  | d :: ds =>
    if 10 * digits + d.val < 2 ^ (64 : Nat) then
      let (digits, taken) := extendDigits (10 * digits + d.val) ds
      (digits, taken + 1)
    else (digits, 0)

/-- The leading digits of a number and the power of ten they are multiplied with. -/
def leading (n : JsonNumber) : Nat × Int :=
  let (whole, behind) := leadingWhole n.whole
  let (digits, taken) := extendDigits whole n.fraction
  (digits, n.exponent.getD 0 + behind - taken)

/-- Whether the number can be held as a double.  A power of ten beyond `10 ^ 308` is too large
whatever stands before it, so that a long exponent is never expanded. -/
def isFinite (n : JsonNumber) : Bool :=
  let (digits, power) := n.leading
  if digits = 0 ∨ power ≤ 0 then true
  else if 308 < power then false
  else nearestDouble digits * nearestDouble (10 ^ power.toNat) < doubleBound

end JsonNumber
end RollupBoundary
