import RollupBoundary.Abi.TypeText
import RollupBoundary.Json.Reader
import RollupBoundary.Json.Record

/-!
# ABI documents

An ABI document is a JSON array of items: events, functions, errors, and at most one constructor,
one fallback and one receiver.  Only events are used, but every item has to be well-formed, and the
whole document has to fit in memory (`Json.isBufferable`), since an item is read before its kind is
known.

A parameter gives its type as text.  If it has components, the text has to begin with `tuple` and
the components stand for the types of the tuple; else the text has to be well-formed as it stands.
Whether it names a type is not asked here.

Parameters, events and errors may be written as arrays of their members too, in a fixed order; an
array for an event or an error has its kind in front.

The declarations of a document are kept by kind, and functions, events and errors by name.  A name
may be declared more than once, even for one kind.
-/

namespace RollupBoundary.Abi

/-! ## Parameters -/

/-- A parameter as a document declares it. -/
inductive Param where
  | mk (name type : String) (components : List Param)

namespace Param

/-- The name, empty if there is none. -/
def name : Param → String
  | mk name _ _ => name

/-- The text of the type. -/
def type : Param → String
  | mk _ type _ => type

/-- The types of the tuple that the parameter is built from, if it is. -/
def components : Param → List Param
  | mk _ _ components => components

end Param

/-- A parameter of an event, which may stand in a topic. -/
structure EventParam where
  param : Param
  indexed : Bool

/-- An event as a document declares it. -/
structure EventDecl where
  name : String
  inputs : List EventParam
  anonymous : Bool

/-- What a document declares. -/
inductive Item where
  | event (e : EventDecl)
  | function (name : String) (inputs outputs : List Param)
  | error (name : String) (inputs : List Param)
  | constructor (inputs : List Param)
  | fallback
  | receive

/-! ## Reading parameters -/

/-- A member of the object of a parameter. -/
inductive ParamMember where
  | name (s : String)
  | type (s : String)
  | components (ps : List Param)
  | internalType
  | indexed (b : Option Bool)
  /-- A member that means nothing. -/
  | other

/-- What stands at most once among some members: `none` if it stands there twice. -/
def atMostOnce {α : Type} (pick : ParamMember → Option α) (ms : List ParamMember) :
    Option (Option α) :=
  match ms.filterMap pick with
  | [] => some none
  | [x] => some (some x)
  | _ => none

/-- Whether a text may be a name: it is empty or an identifier. -/
def mayName (text : String) : Bool :=
  text = "" || TypeText.isIdentifier text

/-- Whether a text may be the type of a parameter. -/
def mayType (text : String) (components : List Param) : Bool :=
  if components.isEmpty then (TypeText.parse text).isSome
  else (TypeText.behind? "tuple" text.toList).isSome

/-- The parameter that members make up, and its mark of being indexed. -/
def ofMembers? (ms : List ParamMember) : Option (Param × Option Bool) := do
  let name ← atMostOnce (fun | .name s => some s | _ => none) ms
  let type ← atMostOnce (fun | .type s => some s | _ => none) ms
  let components ← atMostOnce (fun | .components ps => some ps | _ => none) ms
  let _ ← atMostOnce (fun | .internalType => some () | _ => none) ms
  let indexed ← atMostOnce (fun | .indexed b => some b | _ => none) ms
  let name := name.getD ""
  let type ← type
  let components := components.getD []
  if mayName name && mayType type components then
    return (.mk name type components, indexed.getD none)
  else none

/-- The names of the members of a parameter, in the order in which an array gives them. -/
def paramKeys : List String :=
  ["name", "type", "indexed", "internalType", "components"]

/-- A parameter that is not marked as indexed or not, as it has to be outside an event. -/
def unmarked? : Param × Option Bool → Option Param
  | (p, none) => some p
  | _ => none

mutual

/-- Reads a parameter and its mark of being indexed. -/
def readMarkedParam : Json → Option (Param × Option Bool)
  | .object members => do
    let ms ← readMembers members
    ofMembers? ms
  | .array items => do
    let ms ← readInOrder paramKeys items
    ofMembers? ms
  | _ => none

/-- Reads parameters that cannot be indexed. -/
def readParams : List Json → Option (List Param)
  | [] => some []
  | j :: js => do
    let marked ← readMarkedParam j
    let p ← unmarked? marked
    let ps ← readParams js
    return p :: ps

/-- Reads the members of the object of a parameter. -/
def readMembers : List (JsonText × Json) → Option (List ParamMember)
  | [] => some []
  | (key, value) :: members => do
    let key ← key
    let m ← readMember key value
    let ms ← readMembers members
    return m :: ms

/-- Reads the items of the array of a parameter, which stand for the members of the given keys. -/
def readInOrder : List String → List Json → Option (List ParamMember)
  | _, [] => some []
  | [], _ :: _ => none
  | key :: keys, value :: values => do
    let m ← readMember key value
    let ms ← readInOrder keys values
    return m :: ms

/-- Reads a member of a parameter. -/
def readMember (key : String) (value : Json) : Option ParamMember :=
  match key, value with
  | "name", .string s => s.map .name
  | "type", .string s => s.map .type
  | "indexed", .null => some (.indexed none)
  | "indexed", .bool b => some (.indexed (some b))
  | "internalType", .null => some .internalType
  | "internalType", .string _ => some .internalType
  | "components", .array items => (readParams items).map .components
  | key, _ => if key ∈ paramKeys then none else some .other

end

/-- Reads a parameter of an event. -/
def readEventParam (j : Json) : Option EventParam := do
  let (param, indexed) ← readMarkedParam j
  return ⟨param, indexed.getD false⟩

/-! ## Reading items -/

/-- The value of a member that has to be there. -/
def required? {α : Type} (members : List (JsonText × Json)) (key : String)
    (read : Json → Option α) : Option α := do
  match ← Json.field? members key with
  | some j => read j
  | none => none

/-- The name of an item. -/
def readName (j : Json) : Option String := do
  let name ← j.string?
  if mayName name then return name else none

/-- A list of parameters that cannot be indexed. -/
def readParamList : Json → Option (List Param)
  | .array items => readParams items
  | _ => none

/-- A list of parameters of an event. -/
def readEventParamList : Json → Option (List EventParam)
  | .array items => items.mapM readEventParam
  | _ => none

/-- How an item may act on the state of the chain. -/
def mutabilities : List String :=
  ["pure", "view", "nonpayable", "payable"]

/-- Whether a value says how an item may act on the state: by a name, or by an object whose one key
is a name and whose value is `null` or empty. -/
def isMutability : Json → Bool
  | .string (some name) => name ∈ mutabilities
  | .object [(some name, .null)] => name ∈ mutabilities
  | .object [(some name, .object [])] => name ∈ mutabilities
  | _ => false

/-- Reads a truth value that may be missing or `null`. -/
def readFlag (members : List (JsonText × Json)) (key : String) : Option (Option Bool) := do
  let flag ← Json.field? members key
  Json.orDefault none (Json.optional? Json.bool?) flag

/-- Reads how an item may act on the state.  There are two older keys for it, which are looked at if
the present one is missing and then must not both be set. -/
def readMutability (members : List (JsonText × Json)) : Option Unit := do
  let mutability ← Json.field? members "stateMutability"
  let payable ← readFlag members "payable"
  let constant ← readFlag members "constant"
  match mutability with
  | none | some .null => if payable = some true ∧ constant = some true then none else return ()
  | some j => if isMutability j then return () else none

/-- Reads the item of a kind. -/
def readKind (members : List (JsonText × Json)) : String → Option Item
  | "event" => do
    let name ← required? members "name" readName
    let inputs ← required? members "inputs" readEventParamList
    let anonymous ← required? members "anonymous" Json.bool?
    return .event ⟨name, inputs, anonymous⟩
  | "function" => do
    let name ← required? members "name" readName
    let inputs ← required? members "inputs" readParamList
    let outputs ← required? members "outputs" readParamList
    readMutability members
    return .function name inputs outputs
  | "error" => do
    let name ← required? members "name" readName
    let inputs ← required? members "inputs" readParamList
    return .error name inputs
  | "constructor" => do
    let inputs ← required? members "inputs" readParamList
    readMutability members
    return .constructor inputs
  | "fallback" => do
    readMutability members
    return .fallback
  | "receive" => do
    readMutability members
    return .receive
  | _ => none

/-- The keys of an item that may be written as an array, in the order of the array. -/
def itemKeys? : String → Option (List String)
  | "event" => some ["name", "inputs", "anonymous"]
  | "error" => some ["name", "inputs"]
  | _ => none

/-- Reads an item. -/
def readItem : Json → Option Item
  | .object members => do
    let kind ← required? members "type" Json.string?
    readKind members kind
  | .array (kind :: items) => do
    let kind ← kind.string?
    let keys ← itemKeys? kind
    let members ← Json.inOrder? keys items
    readKind members kind
  | _ => none

/-! ## Documents -/

/-- The items of a document, in order. -/
abbrev Document := List Item

namespace Document

/-- Whether an item is of a kind of which there may be only one. -/
def isConstructor : Item → Bool
  | .constructor _ => true
  | _ => false

/-- Whether an item is a fallback. -/
def isFallback : Item → Bool
  | .fallback => true
  | _ => false

/-- Whether an item is a receiver. -/
def isReceive : Item → Bool
  | .receive => true
  | _ => false

/-- Reads a document. -/
def ofJson? : Json → Option Document
  | .array js => do
    let items ← js.mapM readItem
    if items.countP isConstructor ≤ 1 ∧ items.countP isFallback ≤ 1 ∧
        items.countP isReceive ≤ 1 then
      return items
    else none
  | _ => none

/-- Reads the text of a document. -/
def parse (text : String) : Option Document := do
  let j ← Json.parse text
  if j.isBufferable then ofJson? j else none

end Document

/-! ## Declarations -/

/-- Declarations under their names.  Those of one name stay in the order in which they came. -/
structure ByName (α : Type) where
  entries : List (String × List α)

namespace ByName

variable {α : Type}

/-- Entries with one more declaration, behind the others of its name. -/
def addEntry (name : String) (x : α) : List (String × List α) → List (String × List α)
  | [] => [(name, [x])]
  | e :: es => if e.1 = name then (name, e.2 ++ [x]) :: es else e :: addEntry name x es

/-- No declarations. -/
def empty : ByName α :=
  ⟨[]⟩

/-- One more declaration, behind the others of its name. -/
def add (m : ByName α) (name : String) (x : α) : ByName α :=
  ⟨addEntry name x m.entries⟩

/-- The declarations of a name. -/
def named (m : ByName α) (name : String) : List α :=
  match m.entries.find? fun e => e.1 = name with
  | some e => e.2
  | none => []

end ByName

/-- What a document declares, by kind and by name. -/
structure Declarations where
  constructor : Option (List Param)
  fallback : Bool
  receive : Bool
  /-- Parameters and results. -/
  functions : ByName (List Param × List Param)
  events : ByName EventDecl
  errors : ByName (List Param)

namespace Declarations

/-- Nothing at all. -/
def empty : Declarations :=
  ⟨none, false, false, .empty, .empty, .empty⟩

/-- One more item, in its place. -/
def add (d : Declarations) : Item → Declarations
  | .event e => { d with events := d.events.add e.name e }
  | .function name inputs outputs => { d with functions := d.functions.add name (inputs, outputs) }
  | .error name inputs => { d with errors := d.errors.add name inputs }
  | .constructor inputs => { d with constructor := some inputs }
  | .fallback => { d with fallback := true }
  | .receive => { d with receive := true }

end Declarations

/-- What the items of a document declare. -/
def Document.declarations (d : Document) : Declarations :=
  d.foldl Declarations.add .empty

/-- The event that a name stands for: the first one that was declared by it. -/
def Declarations.event? (d : Declarations) (name : String) : Option EventDecl :=
  (d.events.named name).head?

end RollupBoundary.Abi
