import RollupBoundary.Hex
import RollupBoundary.Keccak

/-!
# Addresses with a checksum

An address in a log record is shown in mixed case: a letter is upper case when the digit at its
place in the Keccak digest of the lower-case spelling is at least eight, which lets a reader detect
a mistyped address.
-/

namespace RollupBoundary

/-- The mixed-case spelling of an address, whose letters carry a checksum. -/
def Address.checksummed (a : Address) : String :=
  let plain := Hex.digits a.toBytes
  let digest := Hex.digits (Keccak.digest (plain.map fun c => UInt8.ofNat c.toNat)).toBytes
  "0x" ++ String.ofList
    (List.zipWith (fun c d => if '8' ≤ d then c.toUpper else c) plain digest)

end RollupBoundary
