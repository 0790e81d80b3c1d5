import RollupBoundary.Abi.Type

/-!
# Types as text

The text of a type is a stem and then sizes: `[]` for an array of any length, `[3]` for one of
three.  A stem is an identifier or a list of types in parentheses, with or without the word `tuple`
before it.  An identifier followed by a dot names a member of an enumeration, which is stored as a
`uint8`.

Blanks may stand in a list behind the opening parenthesis, behind a comma and before the closing
parenthesis, and a comma may follow the last type.  Lists are nested less than `maxDepth` deep,
which also bounds the recursion of the reader.

A text is first read into a `TypeText` and then resolved to a type, since a text may be well-formed
and name no type.
-/

namespace RollupBoundary.Abi

/-- A size behind a stem. -/
inductive Size where
  | any
  | exactly (n : Nat)
deriving DecidableEq

/-- A well-formed text of a type. -/
inductive TypeText where
  | named (identifier : String) (sizes : List Size)
  | list (types : List TypeText) (sizes : List Size)

/-- The sizes behind the stem. -/
def TypeText.sizes : TypeText → List Size
  | .named _ sizes => sizes
  | .list _ sizes => sizes

namespace TypeText

/-! ## Identifiers -/

/-- Characters that an identifier may begin with. -/
def beginsIdentifier (c : Char) : Bool :=
  c.isAlpha || c = '_' || c = '$'

/-- Characters that an identifier may go on with. -/
def continuesIdentifier (c : Char) : Bool :=
  beginsIdentifier c || c.isDigit

/-- The identifier at the front of a text. -/
def identifier? : List Char → Option (List Char × List Char)
  | [] => none
  | c :: s =>
    if beginsIdentifier c then
      some (c :: s.takeWhile continuesIdentifier, s.dropWhile continuesIdentifier)
    else none

/-- Whether a whole text is an identifier. -/
def isIdentifier (text : String) : Bool :=
  match text.toList with
  | [] => false
  | c :: s => beginsIdentifier c && s.all continuesIdentifier

/-- The identifier at the front of a text, where one with a dot behind it reads as `uint8`. -/
def root? (s : List Char) : Option (String × List Char) := do
  let (name, rest) ← identifier? s
  match rest with
  | '.' :: rest =>
    match identifier? rest with
    | some (_, rest) => return ("uint8", rest)
    | none => return ("uint8", rest)
  | rest => return (String.ofList name, rest)

/-! ## Sizes -/

/-- The size between two brackets: nothing, or a number from 1 below `2^64`. -/
def size? (digits : List Char) : Option Size :=
  if digits = [] then some .any
  else
    let n := Nat.ofDigitChars 10 digits 0
    if 0 < n ∧ n < 2 ^ (64 : Nat) then some (.exactly n) else none

/-- The sizes at the front of a text.  The first argument holds, inside brackets, the digits so
far, last one first. -/
def sizesFrom? : Option (List Char) → List Char → Option (List Size × List Char)
  | none, '[' :: s => sizesFrom? (some []) s
  | none, s => some ([], s)
  | some _, [] => none
  | some digits, c :: s =>
    if c = ']' then do
      let size ← size? digits.reverse
      let (sizes, rest) ← sizesFrom? none s
      return (size :: sizes, rest)
    else if c.isDigit then sizesFrom? (some (c :: digits)) s
    else none

/-! ## Lists -/

/-- Characters that may stand between the types of a list. -/
def isBlank (c : Char) : Bool :=
  c = ' ' || c = '\t'

/-- The elements of a list that is not empty, up to its closing parenthesis, and the text behind
it.  Each element has to leave less than it was given, as every reader of one does. -/
def elements? {α : Type} (element? : List Char → Option (α × List Char)) (s : List Char) :
    Option (List α × List Char) :=
  match element? s with
  | none => none
  | some (x, ',' :: rest) =>
    match rest.dropWhile isBlank with
    | ')' :: rest => some ([x], rest)
    | more =>
      if more.length < s.length then
        (elements? element? more).map fun (xs, rest) => (x :: xs, rest)
      else none
  | some (x, rest) =>
    match rest.dropWhile isBlank with
    | ')' :: rest => some ([x], rest)
    | _ => none
termination_by s.length

/-- The elements of a list behind its opening parenthesis. -/
def list? {α : Type} (element? : List Char → Option (α × List Char)) (s : List Char) :
    Option (List α × List Char) :=
  match s.dropWhile isBlank with
  | ')' :: rest => some ([], rest)
  | more => elements? element? more

/-! ## Texts -/

/-- A type is nested in fewer lists than this. -/
def maxDepth : Nat := 80

/-- The text behind the opening parenthesis of a list, if a list is what comes. -/
def opening? : List Char → Option (List Char)
  | '(' :: s => some s
  | 't' :: 'u' :: 'p' :: 'l' :: 'e' :: '(' :: s => some s
  | _ => none

/-- The type at the front of a text, where `depth` bounds how deep lists may be nested. -/
def read? : Nat → List Char → Option (TypeText × List Char)
  | 0, _ => none
  | depth + 1, s =>
    match opening? s with
    | some s => do
      let (types, rest) ← list? (read? depth) s
      let (sizes, rest) ← sizesFrom? none rest
      return (.list types sizes, rest)
    | none => do
      let (name, rest) ← root? s
      let (sizes, rest) ← sizesFrom? none rest
      return (.named name sizes, rest)

/-- Reads the text of a type; nothing may stand before or behind it. -/
def parse (text : String) : Option TypeText :=
  match read? maxDepth text.toList with
  | some (t, []) => some t
  | _ => none

/-! ## Resolution -/

/-- Why a text names no type. -/
inductive Fault where
  /-- The text is not well-formed. -/
  | illFormed
  /-- A number or fixed octets of a width that there is not. -/
  | invalidSize (identifier : String)
  | unknown (identifier : String)
deriving DecidableEq

/-- The text a fault is reported with; an ill-formed text is reported without one. -/
def Fault.message? : Fault → Option String
  | .illFormed => none
  | .invalidSize identifier => some ("invalid size for type: " ++ identifier)
  | .unknown identifier => some ("invalid type string: " ++ identifier)

/-- The text behind a word that another one begins with. -/
def behind? (word : String) (text : List Char) : Option (List Char) :=
  if word.toList.isPrefixOf text then some (text.drop word.length) else none

/-- The number that a text of digits spells. -/
def decimal? (digits : List Char) : Option Nat :=
  if digits ≠ [] ∧ digits.all Char.isDigit then some (Nat.ofDigitChars 10 digits 0) else none

/-- The type of a width given behind a word, or the fault that there is no such width. -/
def sized (identifier : String) (width? : Nat → Option ByteWidth) (type : ByteWidth → WordType)
    (digits : List Char) : Except Fault AbiType :=
  match (decimal? digits).bind width? with
  | some width => .ok (.word (type width))
  | none => .error (.invalidSize identifier)

/-- The type an identifier names. -/
def ofIdentifier (identifier : String) : Except Fault AbiType :=
  if identifier = "address" then .ok (.word .address)
  else if identifier = "bool" then .ok (.word .bool)
  else if identifier = "function" then .ok (.word .function)
  else if identifier = "string" then .ok .string
  else if identifier = "bytes" then .ok .bytes
  else if identifier = "uint" then .ok (.word (.uint .word))
  else if identifier = "int" then .ok (.word (.int .word))
  else
    match behind? "bytes" identifier.toList, behind? "uint" identifier.toList,
        behind? "int" identifier.toList with
    | some digits, _, _ => sized identifier ByteWidth.ofOctets? .fixedBytes digits
    | _, some digits, _ => sized identifier ByteWidth.ofBits? .uint digits
    | _, _, some digits => sized identifier ByteWidth.ofBits? .int digits
    | _, _, _ => .error (.unknown identifier)

/-- A type with sizes behind it; the first one is the innermost. -/
def wrap (t : AbiType) (sizes : List Size) : AbiType :=
  sizes.foldl
    (fun t size =>
      match size with
      | .any => .array t
      | .exactly n => .fixedArray t n)
    t

mutual

/-- The type a text names. -/
def resolve : TypeText → Except Fault AbiType
  | .named identifier sizes => do
    let t ← ofIdentifier identifier
    return wrap t sizes
  | .list types sizes => do
    let ts ← resolveAll types
    return wrap (.tuple ts) sizes

/-- The types that texts name; of several faults the first one is reported. -/
def resolveAll : List TypeText → Except Fault (List AbiType)
  | [] => .ok []
  | t :: ts => do
    let first ← resolve t
    let others ← resolveAll ts
    return first :: others

end

end TypeText
end RollupBoundary.Abi
