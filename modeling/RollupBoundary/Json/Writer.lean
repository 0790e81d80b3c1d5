import RollupBoundary.Json.Token

/-!
# Writing JSON documents

A document is written compactly: no blanks, members in order.  Inside a string only the quote, the
backslash and control characters are escaped, the latter by the short escapes where there is one.
A string without a text is written as the escape of a lone half of a surrogate pair.

The writer goes through tokens as the reader does: `tokens` spells a value, `Token.write` one token.
-/

namespace RollupBoundary.Json

/-! ## Tokens -/

/-- The characters that stand for `c` inside a string literal. -/
def escape (c : Char) : List Char :=
  if c = '"' then ['\\', '"']
  else if c = '\\' then ['\\', '\\']
  else if c = '\x08' then ['\\', 'b']
  else if c = '\x0c' then ['\\', 'f']
  else if c = '\n' then ['\\', 'n']
  else if c = '\r' then ['\\', 'r']
  else if c = '\t' then ['\\', 't']
  else if c < ' ' then
    ['\\', 'u', '0', '0', Hex.digit (c.toNat / 16), Hex.digit (c.toNat % 16)]
  else [c]

/-- A string literal. -/
def writeText : JsonText → List Char
  | some s => '"' :: s.toList.flatMap escape ++ ['"']
  | none => ['"', '\\', 'u', 'd', '8', '0', '0', '"']

/-- A signed decimal. -/
def writeInt (n : Int) : List Char :=
  (if n < 0 then ['-'] else []) ++ Nat.toDigits 10 n.natAbs

/-- A number in decimal form. -/
def writeNumber (n : JsonNumber) : List Char :=
  (if n.negative then ['-'] else []) ++ Nat.toDigits 10 n.whole ++
    (if n.fraction = [] then [] else '.' :: n.fraction.map fun d => Nat.digitChar d.val) ++
    (match n.exponent with
      | none => []
      | some e => 'e' :: writeInt e)

/-- The characters of a token. -/
def Token.write : Token → List Char
  | .openArray => ['[']
  | .closeArray => [']']
  | .openObject => ['{']
  | .closeObject => ['}']
  | .comma => [',']
  | .colon => [':']
  | .null => ['n', 'u', 'l', 'l']
  | .bool true => ['t', 'r', 'u', 'e']
  | .bool false => ['f', 'a', 'l', 's', 'e']
  | .number n => writeNumber n
  | .string s => writeText s

/-! ## Values -/

mutual

/-- The tokens that spell a value. -/
def tokens : Json → List Token
  | .null => [.null]
  | .bool b => [.bool b]
  | .number n => [.number n]
  | .string s => [.string s]
  | .array items => .openArray :: itemTokens items ++ [.closeArray]
  | .object members => .openObject :: memberTokens members ++ [.closeObject]

/-- The items of an array with the commas between them. -/
def itemTokens : List Json → List Token
  | [] => []
  | [item] => tokens item
  | item :: items => tokens item ++ .comma :: itemTokens items

/-- The members of an object with the commas between them. -/
def memberTokens : List (JsonText × Json) → List Token
  | [] => []
  | [(key, value)] => .string key :: .colon :: tokens value
  | (key, value) :: members =>
    .string key :: .colon :: tokens value ++ .comma :: memberTokens members

end

/-- The compact document of a value. -/
def render (j : Json) : String :=
  String.ofList (j.tokens.flatMap Token.write)

end RollupBoundary.Json
