import RollupBoundary.Json.Token

/-!
# Reading JSON documents

The structure of a document is read one token at a time.  Containers that are still open lie on a
stack, innermost first, so nesting of any depth is read in one pass over the tokens.  `Phase` says
which tokens may come next.  A document is a value with nothing but blanks around it: `parse` lexes
the text, takes all tokens, and asks that the outermost value is complete.
-/

namespace RollupBoundary.Json

/-- A container that is still open, with what it holds so far, last one first. -/
inductive Frame where
  | array (items : List Json)
  | object (members : List (JsonText × Json))
  /-- An object whose last key still waits for its value. -/
  | member (members : List (JsonText × Json)) (key : JsonText)

/-- What may come next. -/
inductive Phase where
  /-- A value has to come. -/
  | value
  /-- The innermost array is empty: a value or its end has to come. -/
  | firstItem
  /-- The innermost object is empty: a key or its end has to come. -/
  | firstKey
  /-- A key has to come, behind a comma. -/
  | nextKey
  /-- The colon behind a key has to come. -/
  | colon
  /-- A value is complete: a comma or the end of its container has to come. -/
  | separator
  /-- The document is complete. -/
  | done (j : Json)

/-- Open containers, innermost first, and what may come next. -/
structure State where
  stack : List Frame
  phase : Phase

namespace State

/-- Before the first token. -/
def start : State :=
  ⟨[], .value⟩

/-- The state after a complete value inside the containers of `stack`. -/
def complete (j : Json) : List Frame → Option State
  | [] => some ⟨[], .done j⟩
  | .array items :: stack => some ⟨.array (j :: items) :: stack, .separator⟩
  | .member members key :: stack => some ⟨.object ((key, j) :: members) :: stack, .separator⟩
  | .object _ :: _ => none

/-- The state after a token at a place where a value has to come. -/
def takeValue (stack : List Frame) : Token → Option State
  | .openArray => some ⟨.array [] :: stack, .firstItem⟩
  | .openObject => some ⟨.object [] :: stack, .firstKey⟩
  | .null => complete .null stack
  | .bool b => complete (.bool b) stack
  | .number n => complete (.number n) stack
  | .string s => complete (.string s) stack
  | _ => none

/-- The state after a token at a place where a key has to come. -/
def takeKey : List Frame → Token → Option State
  | .object members :: stack, .string key => some ⟨.member members key :: stack, .colon⟩
  | _, _ => none

/-- The state after the token that ends the innermost container. -/
def close : List Frame → Token → Option State
  | .array items :: stack, .closeArray => complete (.array items.reverse) stack
  | .object members :: stack, .closeObject => complete (.object members.reverse) stack
  | _, _ => none

/-- The state after a comma. -/
def next : List Frame → Option State
  | .array items :: stack => some ⟨.array items :: stack, .value⟩
  | .object members :: stack => some ⟨.object members :: stack, .nextKey⟩
  | _ => none

/-- The state after one more token, if the token may come. -/
def step (s : State) (t : Token) : Option State :=
  match s.phase with
  | .value => takeValue s.stack t
  | .firstItem => if t = .closeArray then close s.stack t else takeValue s.stack t
  | .firstKey => if t = .closeObject then close s.stack t else takeKey s.stack t
  | .nextKey => takeKey s.stack t
  | .colon => if t = .colon then some ⟨s.stack, .value⟩ else none
  | .separator => if t = .comma then next s.stack else close s.stack t
  | .done _ => none

/-- The document, if it is complete. -/
def result? (s : State) : Option Json :=
  match s.phase with
  | .done j => some j
  | _ => none

end State

/-- The value that tokens spell. -/
def ofTokens? (ts : List Token) : Option Json :=
  (ts.foldlM State.step State.start).bind State.result?

/-- The value that a document spells. -/
def parse (text : String) : Option Json :=
  (lex text.toList).bind ofTokens?

end RollupBoundary.Json
