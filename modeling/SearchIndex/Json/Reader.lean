import SearchIndex.Json.Token
import SearchIndex.Json.Value

/-!
# Reading JSON

The tokens of a text are put together by a machine that reads one token at a
time. Its stack holds the arrays and objects that are still open, innermost
first, and its `Turn` says what may come next. `Value.parse?` reads a text that
is one value and nothing else.
-/

namespace SearchIndex.Json

/-- An open array or object: what it holds so far, in reverse. An open object
also has the name of the member whose value is being read. -/
inductive Frame where
  | array (reversed : List Value)
  | object (reversed : List (Option String × Value)) (name : Option String)

/-- What may come next: a value; the first item or the end of an array; the first
member or the end of an object; a further member's name; the colon after a name;
or what follows a finished value. -/
inductive Turn where
  | value
  | item
  | member
  | name
  | colon
  | after (value : Value)

/-- The machine between two tokens. -/
structure Machine where
  stack : List Frame := []
  turn : Turn := .value

namespace Machine

/-- Goes on after a finished value. -/
def finished (stack : List Frame) (value : Value) : Machine :=
  ⟨stack, .after value⟩

/-- Reads the first token of a value. -/
def readValue (stack : List Frame) : Token → Option Machine
  | .openArray => some ⟨.array [] :: stack, .item⟩
  | .openObject => some ⟨.object [] none :: stack, .member⟩
  | .null => some (finished stack .null)
  | .bool value => some (finished stack (.bool value))
  | .integer value => some (finished stack (.integer value))
  | .real literal => some (finished stack (.real literal))
  | .string text => some (finished stack (.string text))
  | _ => none

/-- Reads the name of a member of the innermost object. -/
def readName : List Frame → Token → Option Machine
  | .object reversed _ :: stack, .string name => some ⟨.object reversed name :: stack, .colon⟩
  | _, _ => none

/-- Reads a token behind a finished value: a comma or the end of what is open. -/
def readAfter (value : Value) : List Frame → Token → Option Machine
  | .array reversed :: stack, .comma => some ⟨.array (value :: reversed) :: stack, .value⟩
  | .array reversed :: stack, .closeArray =>
    some (finished stack (.array (value :: reversed).reverse))
  | .object reversed name :: stack, .comma =>
    some ⟨.object ((name, value) :: reversed) none :: stack, .name⟩
  | .object reversed name :: stack, .closeObject =>
    some (finished stack (.object ((name, value) :: reversed).reverse))
  | _, _ => none

/-- Reads one token. -/
def read (m : Machine) (token : Token) : Option Machine :=
  match m.turn, m.stack, token with
  | .value, stack, token => readValue stack token
  | .item, .array _ :: stack, .closeArray => some (finished stack (.array []))
  | .item, stack, token => readValue stack token
  | .member, .object _ _ :: stack, .closeObject => some (finished stack (.object []))
  | .member, stack, token => readName stack token
  | .name, stack, token => readName stack token
  | .colon, stack, .colon => some ⟨stack, .value⟩
  | .colon, _, _ => none
  | .after value, stack, token => readAfter value stack token

/-- The value that was read, given that nothing is left open. -/
def value? (m : Machine) : Option Value :=
  match m.turn, m.stack with
  | .after value, [] => some value
  | _, _ => none

end Machine

/-- The value that a list of tokens stands for. -/
def Value.ofTokens? (tokens : List Token) : Option Value := do
  (← tokens.foldlM Machine.read {}).value?

/-- The value that a text writes. -/
def Value.parse? (text : List Char) : Option Value := do
  Value.ofTokens? (← tokens? text)

end SearchIndex.Json
