import SearchIndex.Json.Value
import SearchIndex.Text.Hexadecimal

/-!
# Writing JSON

Values are written without any space. In strings the double quote, the
backslash and the characters below U+0020 are escaped, by a letter where there
is one and else by four hexadecimal digits; every other character stands for
itself.
-/

namespace SearchIndex.Json

/-- A character as it stands in a string. -/
def writeChar (c : Char) : List Char :=
  if c = '"' then ['\\', '"']
  else if c = '\\' then ['\\', '\\']
  else if c = '\x08' then ['\\', 'b']
  else if c = '\x0c' then ['\\', 'f']
  else if c = '\n' then ['\\', 'n']
  else if c = '\r' then ['\\', 'r']
  else if c = '\t' then ['\\', 't']
  else if c.toNat < 0x20 then '\\' :: 'u' :: Text.hexDigits 4 c.toNat
  else [c]

/-- A string. One that stands for no text is written as half of a surrogate pair. -/
def writeString : Option String → List Char
  | some text => '"' :: text.toList.flatMap writeChar ++ ['"']
  | none => ['"', '\\', 'u', 'd', '8', '0', '0', '"']

/-- An integer. -/
def writeInteger (value : Int) : List Char :=
  (if value < 0 then ['-'] else []) ++ Text.digits value.natAbs

mutual

/-- A value. -/
def Value.write : Value → List Char
  | .null => ['n', 'u', 'l', 'l']
  | .bool true => ['t', 'r', 'u', 'e']
  | .bool false => ['f', 'a', 'l', 's', 'e']
  | .integer value => writeInteger value
  | .real literal => literal
  | .string text => writeString text
  | .array [] => ['[', ']']
  | .array (item :: items) => '[' :: item.write ++ writeItems items
  | .object [] => ['\x7b', '\x7d']
  | .object ((name, value) :: members) =>
    '\x7b' :: writeString name ++ ':' :: value.write ++ writeMembers members

/-- The items of an array behind its first one, and its end. -/
def writeItems : List Value → List Char
  | [] => [']']
  | item :: items => ',' :: item.write ++ writeItems items

/-- The members of an object behind its first one, and its end. -/
def writeMembers : List (Option String × Value) → List Char
  | [] => ['\x7d']
  | (name, value) :: members =>
    ',' :: writeString name ++ ':' :: value.write ++ writeMembers members

end

/-- The text of a value. -/
def Value.toText (value : Value) : String :=
  String.ofList value.write

end SearchIndex.Json
