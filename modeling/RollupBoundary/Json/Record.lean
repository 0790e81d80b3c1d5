import RollupBoundary.Json.Basic

/-!
# Records in JSON documents

A record is a fixed list of named fields.  It may be written as an object or as an array.

In an object the fields come in any order, any of them may be missing, and members of other names
are ignored; but a field given twice, or a key that has no text, spoils the record.  In an array
the fields come in their declared order, later ones may be missing, and there may be no more items
than fields.  Such an array is read as the object that it stands for (`inOrder?`).
-/

namespace RollupBoundary.Json

/-- The values of all members of that name, in order. -/
def valuesOf (name : String) (members : List (JsonText × Json)) : List Json :=
  (members.filter fun m => m.1 = some name).map Prod.snd

/-- The value of a field in an object: `none` if it is given twice. -/
def field? (members : List (JsonText × Json)) (name : String) : Option (Option Json) :=
  match valuesOf name members with
  | [] => some none
  | [j] => some (some j)
  | _ => none

/-- The members that the items of an array stand for, where the names say which fields they are. -/
def inOrder? (names : List String) (items : List Json) : Option (List (JsonText × Json)) :=
  if items.length ≤ names.length then some ((names.map some).zip items) else none

/-- The values of the named fields of a record, in the order of the names; a missing one is `none`.
The whole is `none` if the value is not such a record. -/
def record? (names : List String) : Json → Option (List (Option Json))
  | .object members =>
    if members.all fun m => m.1.isSome then names.mapM (field? members) else none
  | .array items => do
    let members ← inOrder? names items
    names.mapM (field? members)
  | _ => none

/-! ## Fields of a type -/

/-- The text of a string. -/
def string? : Json → Option String
  | .string s => s
  | _ => none

/-- A truth value. -/
def bool? : Json → Option Bool
  | .bool b => some b
  | _ => none

/-- A plain number of 64 bits. -/
def uint64? : Json → Option UInt64
  | .number n => n.toUInt64?
  | _ => none

/-- `null`, or a value that `read` accepts. -/
def optional? {α : Type} (read : Json → Option α) : Json → Option (Option α)
  | .null => some none
  | j => (read j).map some

/-- A field that has a value of its own when it is missing. -/
def orDefault {α : Type} (value : α) (read : Json → Option α) : Option Json → Option α
  | none => some value
  | some j => read j

/-- The members of an object as pairs of texts, in order. -/
def stringMembers? : Json → Option (List (String × String))
  | .object members =>
    members.mapM fun m => do
      let key ← m.1
      let value ← string? m.2
      return (key, value)
  | _ => none

end RollupBoundary.Json
