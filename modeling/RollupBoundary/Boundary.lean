import RollupBoundary.Alias.TransactionType
import RollupBoundary.Configuration
import RollupBoundary.Event.ScheduledRedeem
import RollupBoundary.Wire.Field

/-!
# The boundary at work

A `Boundary` is what the configuration comes to: the aliasing in force, the schema of the event that
announces redeems, and the greatest length of a byte string from a stream.  It is set up once, and
nothing in it changes afterwards.  The offset is checked before the ABI document, and a file that
the configuration names is read before either.
-/

namespace RollupBoundary

/-- What the boundary needs to work. -/
structure Boundary where
  aliasing : Aliasing
  redeem : RedeemSchema
  maxByteString : UInt64

/-- Why no boundary can be set up. -/
inductive StartError where
  | config (e : ConfigurationError)
  | schema (e : BindError)
  | noAbiFile
deriving DecidableEq

/-- The text an error is reported with, if its cause has one. -/
def StartError.message? : StartError → Option String
  | .config e => e.message?.map ("configuration error: " ++ ·)
  | .schema e => e.message?.map ("event schema error: " ++ ·)
  | .noAbiFile => some "events.abi_path is not set"

namespace Boundary

/-- The boundary of a configuration and the text of an ABI document. -/
def start (config : Configuration) (abi : String) : Except StartError Boundary :=
  match Aliasing.ofSetting config.offset with
  | .error e => .error (.config e)
  | .ok aliasing =>
    match RedeemSchema.bind abi with
    | .error e => .error (.schema e)
    | .ok redeem => .ok ⟨aliasing, redeem, config.maxByteString⟩

/-- The text of the ABI document that a configuration names. -/
def readAbi (files : FileSystem) (config : Configuration) : Except StartError String :=
  match config.abiFile with
  | none => .error .noAbiFile
  | some path =>
    match files.readText path with
    | .ok abi => .ok abi
    | .error fault => .error (.config (.file fault))

/-- The boundary of a configuration that names its ABI document. -/
def ofConfiguration (files : FileSystem) (config : Configuration) : Except StartError Boundary := do
  let abi ← readAbi files config
  start config abi

/-- Reads a byte string no longer than is configured. -/
def takeByteString {σ : Type} [Wire.ByteSource σ] (b : Boundary) (s : σ) :
    Except Wire.StreamError Bytes × σ :=
  Wire.takeByteString b.maxByteString s

/-- The sender on the base chain behind the sender of a transaction with this tag, if such
transactions have aliased senders. -/
def origin? (b : Boundary) (tag : UInt8) (sender : Address) : Option Address :=
  if tagHasAliasedSender tag then some (b.aliasing.unaliased sender) else none

end Boundary
end RollupBoundary
