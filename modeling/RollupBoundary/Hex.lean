import RollupBoundary.Bytes

/-!
# Hexadecimal text

Byte strings are shown as `0x` and two lower-case digits an octet.  Digits of either case are read.
-/

namespace RollupBoundary
namespace Hex

/-- The lower-case digit of a number below sixteen. -/
def digit (n : Nat) : Char :=
  if n < 10 then Char.ofNat (48 + n) else Char.ofNat (87 + n)

/-- The value of a hexadecimal digit of either case. -/
def value? (c : Char) : Option Nat :=
  if '0' ≤ c ∧ c ≤ '9' then some (c.toNat - 48)
  else if 'a' ≤ c ∧ c ≤ 'f' then some (c.toNat - 87)
  else if 'A' ≤ c ∧ c ≤ 'F' then some (c.toNat - 55)
  else none

/-- Two lower-case digits an octet. -/
def digits (bs : Bytes) : List Char :=
  bs.flatMap fun b => [digit (b.toNat / 16), digit (b.toNat % 16)]

/-- A byte string as `0x` and its digits. -/
def encode (bs : Bytes) : String :=
  "0x" ++ String.ofList (digits bs)

/-- The octets that pairs of digits spell. -/
def octets? : List Char → Option Bytes
  | [] => some []
  | [_] => none
  | a :: b :: rest => do
    let high ← value? a
    let low ← value? b
    let more ← octets? rest
    return UInt8.ofNat (16 * high + low) :: more

/-- Reads back what `encode` writes; digits of either case are taken. -/
def decode? (text : String) : Option Bytes :=
  match text.toList with
  | '0' :: 'x' :: rest => octets? rest
  | _ => none

end Hex
end RollupBoundary
