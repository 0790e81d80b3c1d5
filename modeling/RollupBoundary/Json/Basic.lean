import RollupBoundary.Json.Number

/-!
# JSON values

`Json` is the value that a document spells.  Numbers keep their decimal form, and an object keeps
its members in order, repetitions included.

The text of a string is optional.  A string literal may escape half of a surrogate pair, which is
no character, so such a literal is well-formed and still has no text; its text is `none`.  Whether
that is an error depends on whether anybody reads the string.

Some readers take a value into memory before they know what it is for.  They can hold only what
`isBufferable` describes: every string has a text, every number can be held as a double, and arrays
and objects are nested at most `nestingLimit` deep.
-/

namespace RollupBoundary

/-- The text of a string literal, if it has one. -/
abbrev JsonText := Option String

/-- The value that a document spells. -/
inductive Json where
  | null
  | bool (b : Bool)
  | number (n : JsonNumber)
  | string (s : JsonText)
  | array (items : List Json)
  | object (members : List (JsonText × Json))

/-! ## What fits in memory -/

/-- The greatest number of arrays and objects around a value that is taken into memory. -/
def Json.nestingLimit : Nat := 127

mutual

/-- Whether a value has texts and numbers that can be held and is nested at most `depth` deep. -/
def Json.fitsWithin (depth : Nat) : Json → Bool
  | .null => true
  | .bool _ => true
  | .number n => n.isFinite
  | .string s => s.isSome
  | .array items => depth ≠ 0 && Json.itemsFitWithin (depth - 1) items
  | .object members => depth ≠ 0 && Json.membersFitWithin (depth - 1) members

/-- `fitsWithin` for the items of an array. -/
def Json.itemsFitWithin (depth : Nat) : List Json → Bool
  | [] => true
  | item :: items => item.fitsWithin depth && Json.itemsFitWithin depth items

/-- `fitsWithin` for the members of an object. -/
def Json.membersFitWithin (depth : Nat) : List (JsonText × Json) → Bool
  | [] => true
  | (key, value) :: members =>
    key.isSome && value.fitsWithin depth && Json.membersFitWithin depth members

end

/-- Whether a value can be taken into memory before it is known what it is for. -/
def Json.isBufferable (j : Json) : Bool :=
  j.fitsWithin Json.nestingLimit

end RollupBoundary
