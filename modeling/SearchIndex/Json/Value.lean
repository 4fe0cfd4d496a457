/-!
# JSON values

A value keeps what a JSON text says and nothing about how it is laid out. Two
kinds of literal are kept apart because records treat them differently: a number
written as an integer and any other number, which no record reads; a string
that stands for a text and one that holds half of a surrogate pair, which
stands for none.
-/

namespace SearchIndex.Json

/-- A JSON value. Strings and member names are `none` when they hold half of a
surrogate pair. Members keep their order and may repeat a name. -/
inductive Value where
  | null
  | bool (value : Bool)
  | integer (value : Int)
  | real (literal : List Char)
  | string (text : Option String)
  | array (items : List Value)
  | object (members : List (Option String × Value))
  deriving Repr, Inhabited

namespace Value

/-- A string that stands for a text. -/
def text (value : String) : Value :=
  .string (some value)

/-- A natural number as an integer. -/
def nat (value : Nat) : Value :=
  .integer value

/-- An object from its members in order. -/
def record (members : List (String × Value)) : Value :=
  .object (members.map fun (name, value) => (some name, value))

/-- An optional value, absence written as `null`. -/
def option (encode : α → Value) : Option α → Value
  | none => .null
  | some a => encode a

/-- The text of a string. -/
def text? : Value → Option String
  | .string text => text
  | _ => none

/-- The value of a boolean. -/
def bool? : Value → Option Bool
  | .bool value => some value
  | _ => none

/-- The integer of a number written as one. -/
def integer? : Value → Option Int
  | .integer value => some value
  | _ => none

/-- The natural number of a number below `bound`. -/
def natBelow? (bound : Nat) : Value → Option Nat
  | .integer (.ofNat n) => if n < bound then some n else none
  | _ => none

/-- The items of an array. -/
def array? : Value → Option (List Value)
  | .array items => some items
  | _ => none

/-- The first member of an object with a given name. -/
def member? (name : String) : Value → Option Value
  | .object members => (members.find? fun m => m.1 == some name).map (·.2)
  | _ => none

/-- An optional value: `null`, or what `decode` reads. -/
def option? (decode : Value → Option α) : Value → Option (Option α)
  | .null => some none
  | value => (decode value).map some

@[simp] theorem text?_text (value : String) : (text value).text? = some value := rfl

end Value

end SearchIndex.Json
