import RollupBoundary.Json.Reader
import RollupBoundary.Json.Writer

/-!
# Transaction types of the rollup

The rollup adds its own transaction types to those of the base chain.  Each has a tag octet and a
name.  The senders of three of them went through aliasing on their way: unsigned calls, calls from
contracts, and retries.
-/

namespace RollupBoundary

/-- A transaction type of the rollup. -/
inductive TransactionType where
  /-- Value deposited from the base chain. -/
  | deposit
  /-- A call without a signature, sent from the base chain. -/
  | unsigned
  /-- A call from a contract on the base chain. -/
  | contract
  /-- An attempt to execute a ticket that can be retried. -/
  | retry
  /-- The creation of such a ticket. -/
  | submitRetryable
  /-- Book-keeping of the chain itself. -/
  | internal
  /-- A transaction from before the upgrade of the chain. -/
  | legacy
deriving DecidableEq

namespace TransactionType

/-- All types, by rising tag. -/
def all : List TransactionType :=
  [.deposit, .unsigned, .contract, .retry, .submitRetryable, .internal, .legacy]

/-- The octet that marks a transaction of this type. -/
def tag : TransactionType → UInt8
  | .deposit => 0x64
  | .unsigned => 0x65
  | .contract => 0x66
  | .retry => 0x68
  | .submitRetryable => 0x69
  | .internal => 0x6A
  | .legacy => 0x78

/-- The type a tag marks; tags of the base chain mark none. -/
def ofTag? (tag : UInt8) : Option TransactionType :=
  all.find? fun t => t.tag = tag

/-- The name of a type, as it is shown and as it stands in documents. -/
def name : TransactionType → String
  | .deposit => "deposit"
  | .unsigned => "unsigned"
  | .contract => "contract"
  | .retry => "retry"
  | .submitRetryable => "submit_retryable"
  | .internal => "internal"
  | .legacy => "legacy"

/-- The type of that name. -/
def ofName? (text : String) : Option TransactionType :=
  all.find? fun t => t.name = text

/-- Whether senders of this type are aliased. -/
def hasAliasedSender : TransactionType → Bool
  | .unsigned | .contract | .retry => true
  | _ => false

/-! ## Documents -/

/-- The value that names a type in a document. -/
def toJson (t : TransactionType) : Json :=
  .string (some t.name)

/-- The type that a value names: by its name, or by an object whose one key is the name and whose
value is `null`. -/
def ofJson? : Json → Option TransactionType
  | .string (some text) => ofName? text
  | .object [(some key, .null)] => ofName? key
  | _ => none

/-- The type that a document names. -/
def ofText? (text : String) : Option TransactionType :=
  (Json.parse text).bind ofJson?

end TransactionType

/-- Whether a tag marks transactions with aliased senders. -/
def tagHasAliasedSender (tag : UInt8) : Bool :=
  (TransactionType.ofTag? tag).any TransactionType.hasAliasedSender

end RollupBoundary
