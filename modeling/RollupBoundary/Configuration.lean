import RollupBoundary.Alias.Aliasing
import RollupBoundary.Files
import RollupBoundary.Json.Reader
import RollupBoundary.Json.Record
import RollupBoundary.Json.Writer
import RollupBoundary.Logging.Settings

/-!
# Configuration of the boundary

The configuration says how to log, which alias offset to use, how long a byte string from a stream
may be, and where the ABI document is.  It is written as a JSON record of four sections, each a
record itself; whatever is missing has its standard value.  An offset and a path may be absent, and
absent ones are left out when a configuration is written.
-/

namespace RollupBoundary

/-- The configuration of the boundary. -/
structure Configuration where
  log : Logging.Settings
  /-- The alias offset as text; without one the standard offset holds. -/
  offset : Option String
  /-- The greatest length of a byte string from a stream. -/
  maxByteString : UInt64
  /-- Where the ABI document is. -/
  abiFile : Option String
deriving DecidableEq

/-- Why there is no configuration, or why it does not hold. -/
inductive ConfigurationError where
  | invalidOffset (text : String) (fault : Aliasing.Fault)
  | file (fault : FileFault)
  /-- The document is no configuration. -/
  | malformed
deriving DecidableEq

/-- The text an error is reported with; a malformed document is reported without one. -/
def ConfigurationError.message? : ConfigurationError → Option String
  | .invalidOffset text fault =>
    some ("invalid alias offset '" ++ text ++ "': " ++ fault.message)
  | .file fault => some ("IO error: " ++ fault.message)
  | .malformed => none

/-- The greatest length of a byte string unless another one is configured: 256 KiB. -/
def standardMaxByteString : UInt64 := 262144

namespace Configuration

/-- The configuration that holds unless another one is given. -/
def standard : Configuration :=
  ⟨.standard, none, standardMaxByteString, none⟩

/-! ## Reading -/

/-- The section on the log. -/
def readLog (j : Json) : Option Logging.Settings := do
  match ← j.record? ["level", "components", "json"] with
  | [level, components, json] =>
    let level ← Json.orDefault Logging.Settings.standard.level Json.string? level
    let components ← Json.orDefault [] Json.stringMembers? components
    let json ← Json.orDefault Logging.Settings.standard.json Json.bool? json
    return ⟨level, .ofList components, json⟩
  | _ => none

/-- The section on aliasing: the offset, if there is one. -/
def readAlias (j : Json) : Option (Option String) := do
  match ← j.record? ["offset"] with
  | [offset] => Json.orDefault none (Json.optional? Json.string?) offset
  | _ => none

/-- The section on streams: the greatest length of a byte string. -/
def readWire (j : Json) : Option UInt64 := do
  match ← j.record? ["max_bytestring_len"] with
  | [max] => Json.orDefault standardMaxByteString Json.uint64? max
  | _ => none

/-- The section on events: the path of the ABI document, if there is one. -/
def readEvents (j : Json) : Option (Option String) := do
  match ← j.record? ["abi_path"] with
  | [path] => Json.orDefault none (Json.optional? Json.string?) path
  | _ => none

/-- The configuration that a value spells. -/
def ofJson? (j : Json) : Option Configuration := do
  match ← j.record? ["log", "alias", "wire", "events"] with
  | [log, aliasing, wire, events] =>
    let log ← Json.orDefault standard.log readLog log
    let offset ← Json.orDefault standard.offset readAlias aliasing
    let maxByteString ← Json.orDefault standard.maxByteString readWire wire
    let abiFile ← Json.orDefault standard.abiFile readEvents events
    return ⟨log, offset, maxByteString, abiFile⟩
  | _ => none

/-- The configuration that a document spells. -/
def ofText (text : String) : Except ConfigurationError Configuration :=
  match (Json.parse text).bind ofJson? with
  | some c => .ok c
  | none => .error .malformed

/-- The configuration in a file. -/
def ofFile (files : FileSystem) (path : String) : Except ConfigurationError Configuration :=
  match files.readText path with
  | .ok text => ofText text
  | .error fault => .error (.file fault)

/-! ## Writing -/

/-- A text as a value. -/
def text (s : String) : Json :=
  .string (some s)

/-- A member of an object. -/
def member (key : String) (value : Json) : JsonText × Json :=
  (some key, value)

/-- A member that is left out if there is no text for it. -/
def optionalMember (key : String) : Option String → List (JsonText × Json)
  | none => []
  | some s => [member key (text s)]

/-- The value that spells a configuration. -/
def toJson (c : Configuration) : Json :=
  .object [
    member "log" (.object [
      member "level" (text c.log.level),
      member "components" (.object (c.log.components.entries.map fun e => member e.1 (text e.2))),
      member "json" (.bool c.log.json)]),
    member "alias" (.object (optionalMember "offset" c.offset)),
    member "wire" (.object [
      member "max_bytestring_len" (.number (.ofNat c.maxByteString.toNat))]),
    member "events" (.object (optionalMember "abi_path" c.abiFile))]

/-- The document of a configuration. -/
def toText (c : Configuration) : String :=
  c.toJson.render

end Configuration

/-- The offset that a text configures, or the standard one where there is no text. -/
def Aliasing.ofSetting : Option String → Except ConfigurationError Aliasing
  | none => .ok .standard
  | some text =>
    match Aliasing.ofText text with
    | .ok o => .ok o
    | .error fault => .error (.invalidOffset text fault)

end RollupBoundary
