import SearchIndex.Text.Hexadecimal
import SearchIndex.Text.Letters

/-!
# Node identifiers

A node is identified by a number of 128 bits. It is written as thirty-two
hexadecimal digits in five groups with hyphens between them, and read with or
without the hyphens; the form with hyphens may also stand in braces or behind
`urn:uuid:` in letters of either case.
-/

namespace SearchIndex

/-- How many numbers of 128 bits there are. -/
def NodeId.bound : Nat := 340282366920938463463374607431768211456

/-- The identifier of a node. -/
structure NodeId where
  value : Nat
  bounded : value < NodeId.bound
  deriving DecidableEq, Repr

namespace NodeId

/-- How many digits each group has. -/
def groups : List Nat := [8, 4, 4, 4, 12]

/-- Digits in groups of the given sizes, with hyphens between them. -/
def grouped : List Nat → List Char → List Char
  | [], _ => []
  | [size], digits => digits.take size
  | size :: sizes, digits => digits.take size ++ '-' :: grouped sizes (digits.drop size)

/-- The digits of groups of the given sizes with hyphens between them. -/
def ungrouped? : List Nat → List Char → Option (List Char)
  | [], text => if text.isEmpty then some [] else none
  | [size], text => if text.length = size then some text else none
  | size :: sizes, text =>
    match text.drop size with
    | '-' :: rest => (ungrouped? sizes rest).map (text.take size ++ ·)
    | _ => none

/-- An identifier in five groups of digits. -/
def text (id : NodeId) : String :=
  String.ofList (grouped groups (Text.hexDigits 32 id.value))

/-- The identifier of thirty-two digits. -/
def ofDigits? (digits : List Char) : Option NodeId :=
  if digits.length = 32 then do
    let value ← Text.hexDigitsValue? digits
    if h : value < bound then some ⟨value, h⟩ else none
  else none

/-- The identifier of five groups of digits. -/
def ofGroups? (text : List Char) : Option NodeId := do
  ofDigits? (← ungrouped? groups text)

/-- A text without the marks that may stand around the five groups. -/
def withoutMarks (text : List Char) : List Char :=
  match Text.afterWord? ['u', 'r', 'n', ':', 'u', 'u', 'i', 'd', ':'] text with
  | some rest => rest
  | none =>
    match text with
    | '\x7b' :: rest => if rest.getLast? == some '\x7d' then rest.dropLast else text
    | _ => text

/-- The identifier that a text writes. -/
def ofText? (text : String) : Option NodeId :=
  let text := text.toList
  if text.length = 32 then ofDigits? text else ofGroups? (withoutMarks text)

end NodeId

end SearchIndex
