/-!
# Escaped text

The query language gives eighteen characters a meaning of their own. A
backslash in front of such a character makes it an ordinary one. `escape`
writes any text so that nothing in it has a meaning of its own, and
`unescape_escape` says that dropping the backslashes gives the text back.

A phrase is a text between double quotes; `phrase` escapes the double quotes
inside it and nothing else.
-/

namespace SearchIndex.Text

/-- The characters that the query language gives a meaning of their own. -/
def specialChars : List Char :=
  ['+', '-', '!', '(', ')', '\x7b', '\x7d', '[', ']', '^', '"', '~', '*', '?', ':', '\\', '&', '|']

/-- Whether a character has a meaning of its own in the query language. -/
def isSpecial (c : Char) : Bool :=
  specialChars.contains c

/-- A text with a backslash in front of each special character. -/
def escape : List Char → List Char
  | [] => []
  | c :: rest => if isSpecial c then '\\' :: c :: escape rest else c :: escape rest

/-- A text without the backslashes that make the next character an ordinary one. -/
def unescape : List Char → List Char
  | [] => []
  | '\\' :: c :: rest => c :: unescape rest
  | c :: rest => c :: unescape rest

/-- A text with a backslash in front of each double quote. -/
def escapeQuotes : List Char → List Char
  | [] => []
  | c :: rest => if c = '"' then '\\' :: '"' :: escapeQuotes rest else c :: escapeQuotes rest

/-- A text as one phrase, the double quotes inside it escaped. -/
def phrase (text : List Char) : List Char :=
  '"' :: escapeQuotes text ++ ['"']

/-- A text without the double quotes at its two ends. -/
def withoutQuotes (text : List Char) : List Char :=
  ((text.dropWhile (· == '"')).reverse.dropWhile (· == '"')).reverse

@[simp] theorem escape_nil : escape [] = [] := rfl

theorem escape_cons (c : Char) (rest : List Char) :
    escape (c :: rest) = (if isSpecial c then ['\\', c] else [c]) ++ escape rest := by
  rw [escape]
  split <;> rfl

theorem escape_append (first second : List Char) :
    escape (first ++ second) = escape first ++ escape second := by
  induction first with
  | nil => rfl
  | cons c rest ih => simp [escape_cons, ih]

@[simp] theorem escape_eq_nil_iff {text : List Char} : escape text = [] ↔ text = [] := by
  cases text with
  | nil => simp
  | cons c rest =>
    rw [escape_cons]
    split <;> simp

theorem unescape_cons_of_ne {c : Char} (h : c ≠ '\\') (rest : List Char) :
    unescape (c :: rest) = c :: unescape rest := by
  rw [unescape]
  intro _ _ hc
  exact absurd hc h

/-- Escaping loses nothing: dropping the backslashes gives the text back. -/
theorem unescape_escape (text : List Char) : unescape (escape text) = text := by
  induction text with
  | nil => rfl
  | cons c rest ih =>
    rw [escape]
    split
    · rw [unescape, ih]
    · next h =>
      rw [unescape_cons_of_ne, ih]
      rintro rfl
      exact h rfl

end SearchIndex.Text
