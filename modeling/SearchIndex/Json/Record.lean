import SearchIndex.Json.Reader
import SearchIndex.Json.Writer

/-!
# Records and variants in JSON

A record with named fields is written as an object. It is read from an object,
in which unknown members are skipped and a known one may stand only once, or
from an array of its fields in order, which may end early. `Record.slot` says
what was found for a field, and a field's reading rule says whether it may be
missing: `required` never, `nullable` in an object only, `defaulted` always.

A variant is written as its name or, with content, as an object whose only
member carries the content under the variant's name. A variant without content
may also be read from such an object around `null`.
-/

namespace SearchIndex.Json

/-- What a record holds for one field: a value, no member in an object, or
nothing because the array ended before it. -/
inductive Slot where
  | given (value : Value)
  | omitted
  | cut
  deriving Repr, Inhabited

/-- The fields of a record by name. -/
structure Record where
  slots : List (String × Slot)

namespace Record

/-- The slot of a name in an object; `none` if several members have the name. -/
def memberSlot? (members : List (Option String × Value)) (name : String) : Option Slot :=
  match members.filter fun m => m.1 == some name with
  | [] => some .omitted
  | [(_, value)] => some (.given value)
  | _ => none

/-- The slots of names in the items of an array; `none` if there are more items. -/
def itemSlots? : List String → List Value → Option (List (String × Slot))
  | [], [] => some []
  | [], _ :: _ => none
  | name :: names, [] => (itemSlots? names []).map ((name, .cut) :: ·)
  | name :: names, item :: items => (itemSlots? names items).map ((name, .given item) :: ·)

/-- Reads a record with the given field names. -/
def ofValue? (names : List String) : Value → Option Record
  | .object members => do
    if members.all (·.1.isSome) then
      let slots ← names.mapM fun name => (memberSlot? members name).map (name, ·)
      some ⟨slots⟩
    else none
  | .array items => (itemSlots? names items).map (⟨·⟩)
  | _ => none

/-- The slot of a field. -/
def slot (r : Record) (name : String) : Slot :=
  match r.slots.find? fun s => s.1 == name with
  | some (_, slot) => slot
  | none => .omitted

/-- A field that every record has. -/
def required (r : Record) (name : String) (decode : Value → Option α) : Option α :=
  match r.slot name with
  | .given value => decode value
  | _ => none

/-- A field that is `null` or missing from an object when it has no value. -/
def nullable (r : Record) (name : String) (decode : Value → Option α) : Option (Option α) :=
  match r.slot name with
  | .given value => value.option? decode
  | .omitted => some none
  | .cut => none

/-- A field that has a default when it is missing. -/
def defaulted (r : Record) (name : String) (default : α) (decode : Value → Option α) :
    Option α :=
  match r.slot name with
  | .given value => decode value
  | _ => some default

end Record

/-- A variant by name, with its content if it has any. -/
def Value.variant (name : String) (content : Value) : Value :=
  .record [(name, content)]

/-- The name of a variant and its content. -/
def Value.variant? : Value → Option (String × Option Value)
  | .string (some name) => some (name, none)
  | .object [(some name, content)] => some (name, some content)
  | _ => none

/-- The name of a variant without content. -/
def Value.unitVariant? (value : Value) : Option String :=
  match value.variant? with
  | some (name, none) => some name
  | some (name, some .null) => some name
  | _ => none

/-- The name of a variant with content, and the content. -/
def Value.newVariant? (value : Value) : Option (String × Value) :=
  match value.variant? with
  | some (name, some content) => some (name, content)
  | _ => none

end SearchIndex.Json
