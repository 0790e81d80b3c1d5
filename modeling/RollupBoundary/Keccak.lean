import RollupBoundary.Word

/-!
# The Keccak-256 digest

Event selectors and the mixed-case spelling of addresses are taken from the Keccak-256 digest: the
sponge over the permutation `keccakF` of 1600 bits, with a rate of 136 octets and the padding
`0x01 … 0x80`.  A state is a five by five grid of 64-bit lanes, `state[x][y]`.  Coordinates are of
type `Fin 5`, whose arithmetic wraps, so the step mappings read as they are usually written.
-/

namespace RollupBoundary.Keccak

/-- Five columns of five lanes: `state[x][y]`. -/
abbrev State := Vector (Vector UInt64 5) 5

/-- The state whose lane at `(x, y)` is `f x y`. -/
def State.tabulate (f : Fin 5 → Fin 5 → UInt64) : State :=
  Vector.ofFn fun x => Vector.ofFn fun y => f x y

/-- A lane rotated to the left; a rotation by zero is covered, as shifts take their amount modulo
the width. -/
def rotate (lane : UInt64) (amount : UInt64) : UInt64 :=
  (lane <<< amount) ||| (lane >>> (64 - amount))

/-! ## The permutation -/

/-- How far the lane at `(x, y)` is rotated. -/
def offsets : State :=
  #v[#v[0, 36, 3, 41, 18], #v[1, 44, 10, 45, 2], #v[62, 6, 43, 15, 61],
    #v[28, 55, 25, 21, 56], #v[27, 20, 39, 8, 14]]

/-- One constant a round, added to the lane at the origin to break the symmetry. -/
def roundConstants : List UInt64 :=
  [0x0000000000000001, 0x0000000000008082, 0x800000000000808a, 0x8000000080008000,
   0x000000000000808b, 0x0000000080000001, 0x8000000080008081, 0x8000000000008009,
   0x000000000000008a, 0x0000000000000088, 0x0000000080008009, 0x000000008000000a,
   0x000000008000808b, 0x800000000000008b, 0x8000000000008089, 0x8000000000008003,
   0x8000000000008002, 0x8000000000000080, 0x000000000000800a, 0x800000008000000a,
   0x8000000080008081, 0x8000000000008080, 0x0000000080000001, 0x8000000080008008]

/-- Each lane takes in the parities of the two columns beside its own. -/
def theta (a : State) : State :=
  let parity : Vector UInt64 5 :=
    a.map fun column => column[0] ^^^ column[1] ^^^ column[2] ^^^ column[3] ^^^ column[4]
  State.tabulate fun x y => a[x][y] ^^^ parity[x - 1] ^^^ rotate parity[x + 1] 1

/-- Lanes are rotated and then moved: the lane at `(x, y)` goes to `(y, 2x + 3y)`. -/
def rhoPi (a : State) : State :=
  State.tabulate fun x y => rotate a[x + 3 * y][x] offsets[x + 3 * y][x]

/-- The only step that is not linear, along each row. -/
def chi (a : State) : State :=
  State.tabulate fun x y => a[x][y] ^^^ (~~~a[x + 1][y] &&& a[x + 2][y])

/-- The round constant goes into the lane at the origin. -/
def iota (constant : UInt64) (a : State) : State :=
  State.tabulate fun x y => if x = 0 ∧ y = 0 then a[x][y] ^^^ constant else a[x][y]

/-- The permutation: twenty-four rounds. -/
def keccakF (a : State) : State :=
  roundConstants.foldl (fun a constant => iota constant (chi (rhoPi (theta a)))) a

/-! ## The sponge -/

/-- Octets taken in between two permutations. -/
def rate : Nat := 136

/-- The message with its padding, a whole number of blocks. -/
def padded (message : Bytes) : Bytes :=
  let gap := rate - message.length % rate
  if gap = 1 then message ++ [0x81]
  else message ++ [0x01] ++ Bytes.zeros (gap - 2) ++ [0x80]

/-- The lane that eight octets spell, least significant octet first. -/
def lane (octets : Bytes) : UInt64 :=
  UInt64.ofNat (Bytes.toNat octets.reverse)

/-- A block added to the state, lane `(x, y)` taking the octets from `8 (x + 5y)`; lanes beyond the
block stay. -/
def absorb (block : Bytes) (a : State) : State :=
  State.tabulate fun x y => a[x][y] ^^^ lane ((block.drop (8 * (x.val + 5 * y.val))).take 8)

/-- The state after `blocks` blocks of `message`. -/
def run : Nat → Bytes → State → State
  | 0, _, a => a
  | blocks + 1, message, a =>
    run blocks (message.drop rate) (keccakF (absorb (message.take rate) a))

/-- The Keccak-256 digest of a message. -/
def digest (message : Bytes) : Word :=
  let input := padded message
  let final := run (input.length / rate) input (State.tabulate fun _ _ => 0)
  let lanes := [final[0][0], final[1][0], final[2][0], final[3][0]]
  Word.ofBytes (lanes.flatMap fun lane => (Bytes.ofNat 8 lane.toNat).reverse)

end RollupBoundary.Keccak
