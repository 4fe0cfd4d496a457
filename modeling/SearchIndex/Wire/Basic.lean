import SearchIndex.Failure
import SearchIndex.Json.Record

/-!
# Values on the wire

A type travels between nodes, and is kept in files, as JSON text. `Wire` gives
its JSON value in both directions; `Wire.write` and `Wire.read?` go all the way
to text.
-/

namespace SearchIndex

/-- A type with a JSON form. -/
class Wire (α : Type) where
  encode : α → Json.Value
  decode? : Json.Value → Option α

namespace Wire

/-- The JSON text of a value. -/
def write [Wire α] (a : α) : String :=
  (encode a).toText

/-- The value that a JSON text stands for. -/
def read? [Wire α] (text : String) : Option α := do
  decode? (← Json.Value.parse? text.toList)

/-- The value that a JSON text stands for, or the failure to read it. -/
def read [Wire α] (text : String) : Except Failure α :=
  match read? text with
  | some a => .ok a
  | none => .error .malformed

/-- The least integer of 32 bits. -/
def leastInt : Int := -2147483648

/-- The greatest integer of 32 bits. -/
def greatestInt : Int := 2147483647

instance : Wire String where
  encode := .text
  decode? := Json.Value.text?

instance : Wire Bool where
  encode := .bool
  decode? := Json.Value.bool?

/-- Integers travel in 32 bits. -/
instance : Wire Int where
  encode := .integer
  decode? value := do
    let n ← value.integer?
    if leastInt ≤ n ∧ n ≤ greatestInt then some n else none

/-- How many counts of 64 bits there are. -/
def countBound : Nat := 18446744073709551616

/-- Counts travel in 64 bits. -/
instance : Wire Nat where
  encode := .nat
  decode? := Json.Value.natBelow? countBound

instance [Wire α] : Wire (Option α) where
  encode := .option encode
  decode? := Json.Value.option? decode?

instance [Wire α] : Wire (List α) where
  encode items := .array (items.map encode)
  decode? value := do (← value.array?).mapM decode?

end Wire

end SearchIndex
