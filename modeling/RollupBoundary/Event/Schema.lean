import RollupBoundary.Abi.Document
import RollupBoundary.Abi.Layout
import RollupBoundary.Keccak
import RollupBoundary.Text.Utf8

/-!
# Event schemas

An event schema says how the logs of one event are laid out.  It is bound once, from the first
event of that name in an ABI document, and then decodes any number of logs.  Binding resolves the
type of each parameter; a parameter without a name is called by its place.

The signature is put together from the texts of the types as the document gives them, and the
selector is its digest.
-/

namespace RollupBoundary

open Abi

/-- A field of an event. -/
structure EventField where
  name : String
  type : AbiType
  /-- Whether the field stands in a topic. -/
  indexed : Bool

/-- How the logs of an event are laid out. -/
structure EventSchema where
  name : String
  signature : String
  /-- The digest of the signature, which is the first topic unless the event is anonymous. -/
  selector : Word
  anonymous : Bool
  fields : List EventField

/-- Why there is no schema. -/
inductive BindError where
  /-- The document is no ABI document. -/
  | malformed
  | noSuchEvent (name : String)
  | noSuchField (event field : String)
  | unresolvedType (param type : String) (fault : TypeText.Fault)
deriving DecidableEq

/-- The text an error is reported with; an ill-formed document or type is reported without one. -/
def BindError.message? : BindError → Option String
  | .malformed => none
  | .noSuchEvent name => some ("event '" ++ name ++ "' not found in ABI")
  | .noSuchField event field => some ("event '" ++ event ++ "' has no field '" ++ field ++ "'")
  | .unresolvedType param type fault =>
    fault.message?.map fun reason =>
      "cannot resolve type '" ++ type ++ "' of parameter '" ++ param ++ "': " ++ reason

/-! ## Types of parameters -/

mutual

/-- The type of a parameter.  Components stand for the stem of the text, of which only the sizes
are kept. -/
def Abi.Param.resolve : Param → Except TypeText.Fault AbiType
  | .mk _ type components =>
    match TypeText.parse type with
    | none => .error .illFormed
    | some text =>
      match components with
      | [] => text.resolve
      | c :: cs => do
        let first ← Abi.Param.resolve c
        let others ← Abi.Param.resolveAll cs
        return TypeText.wrap (.tuple (first :: others)) text.sizes

/-- The types of parameters; of several faults the first one is reported. -/
def Abi.Param.resolveAll : List Param → Except TypeText.Fault (List AbiType)
  | [] => .ok []
  | p :: ps => do
    let first ← Abi.Param.resolve p
    let others ← Abi.Param.resolveAll ps
    return first :: others

end

mutual

/-- The type of a parameter as it stands in a signature: the text as the document gives it, with
components written out in place of the word `tuple`. -/
def Abi.Param.signatureType : Param → String
  | .mk _ type [] => type
  | .mk _ type (c :: cs) =>
    "(" ++ String.intercalate "," (Abi.Param.signatureTypes (c :: cs)) ++ ")" ++
      String.ofList (type.toList.drop 5)

/-- The types of parameters as they stand in a signature. -/
def Abi.Param.signatureTypes : List Param → List String
  | [] => []
  | p :: ps => Abi.Param.signatureType p :: Abi.Param.signatureTypes ps

end

/-- The name of an event with the types of its parameters. -/
def Abi.EventDecl.signature (e : EventDecl) : String :=
  e.name ++ "(" ++
    String.intercalate "," (Param.signatureTypes (e.inputs.map EventParam.param)) ++ ")"

/-! ## Binding -/

/-- The field of a parameter; `place` is its place among the parameters. -/
def EventField.ofParam (place : Nat) (p : EventParam) : Except BindError EventField :=
  let name := if p.param.name = "" then "arg" ++ toString place else p.param.name
  match p.param.resolve with
  | .ok type => .ok ⟨name, type, p.indexed⟩
  | .error fault => .error (.unresolvedType name p.param.type fault)

/-- The fields of parameters from a place on; of several faults the first one is reported. -/
def EventField.ofParams : Nat → List EventParam → Except BindError (List EventField)
  | _, [] => .ok []
  | place, p :: ps => do
    let first ← ofParam place p
    let others ← ofParams (place + 1) ps
    return first :: others

namespace EventSchema

/-- The schema of a declared event. -/
def ofDecl (e : EventDecl) : Except BindError EventSchema := do
  let fields ← EventField.ofParams 0 e.inputs
  return ⟨e.name, e.signature, Keccak.digest (Utf8.encode e.signature), e.anonymous, fields⟩

/-- The schema of the first event of that name in the text of an ABI document. -/
def bind (abi : String) (name : String) : Except BindError EventSchema :=
  match Document.parse abi with
  | none => .error .malformed
  | some document =>
    match document.declarations.event? name with
    | none => .error (.noSuchEvent name)
    | some e => ofDecl e

/-- The fields that stand in topics, in their declared order. -/
def indexedFields (s : EventSchema) : List EventField :=
  s.fields.filter fun f => f.indexed

/-- The fields that stand in the data, in their declared order. -/
def dataFields (s : EventSchema) : List EventField :=
  s.fields.filter fun f => !f.indexed

/-- The types of the fields in the data. -/
def dataTypes (s : EventSchema) : List AbiType :=
  s.dataFields.map EventField.type

/-- The topic of the first indexed field: behind the selector, if there is one. -/
def firstTopic (s : EventSchema) : Nat :=
  if s.anonymous then 0 else 1

end EventSchema
end RollupBoundary
