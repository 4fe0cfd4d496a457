import SearchIndex.Decimal.Thousandths
import SearchIndex.Term

/-!
# Clauses

A clause restricts one index field by a text. The text is either taken apart
into terms or passed on as it is; it may be searched for within a distance of
words, or fuzzily, and its weight in the ranking may be raised. `Clause.body` is
the clause in the query language without its negation; a clause that has
nothing to search for is empty.
-/

namespace SearchIndex

/-- A single-precision number that is at least zero, by its encoding. Both zeros
are kept apart in the encoding, though they are equal as numbers. -/
structure Weight where
  word : Nat
  valid : word ≤ 0x7f800000 ∨ word = 0x80000000 := by omega

namespace Weight

/-- The weight that an encoding stands for; a negative number is none, nor is
what is no number. -/
def ofWord? (word : Nat) : Option Weight :=
  if h : word ≤ 0x7f800000 ∨ word = 0x80000000 then some ⟨word, h⟩ else none

/-- A number that orders weights as numbers, the same for both zeros. -/
def rank (w : Weight) : Nat :=
  if w.word = 0x80000000 then 0 else w.word

/-- Weights are compared as numbers. -/
instance : BEq Weight where
  beq a b := a.rank == b.rank

/-- Whether a weight is more than zero. -/
def isPositive (w : Weight) : Bool :=
  0 < w.rank

/-- Whether a weight is at most one. -/
def isUnit (w : Weight) : Bool :=
  w.rank ≤ 0x3f800000

/-- A weight as a decimal. -/
def text (w : Weight) : List Char :=
  (Decimal.Format.single.decode w.word).text

theorem beq_iff {a b : Weight} : (a == b) = true ↔ a.rank = b.rank := by
  simp [BEq.beq]

end Weight

/-- A condition on one field. -/
structure Clause where
  field : String
  query : String
  tokenized : Bool := true
  fuzzy : Option Weight := none
  proximity : Option Nat := none
  boost : Option Weight := none
  negated : Bool := false

namespace Clause

/-- A clause that passes its text on as it is. -/
def verbatim (field query : String) : Clause :=
  { field, query, tokenized := false }

/-- Searches fuzzily, with the similarity of a given encoding. What is no weight
changes nothing. -/
def setFuzzy (c : Clause) (word : Nat) : Clause :=
  match Weight.ofWord? word with
  | some w => { c with fuzzy := some w }
  | none => c

/-- Raises the weight of the clause to that of a given encoding. What is no
weight changes nothing. -/
def setBoost (c : Clause) (word : Nat) : Clause :=
  match Weight.ofWord? word with
  | some w => { c with boost := some w }
  | none => c

/-- One end of a range: open if the text is blank or a star, else the escaped text. -/
def rangeEnd (bound : String) : List Char :=
  let text := Text.trim bound.toList
  if text.isEmpty || text == ['*'] then ['*'] else Text.escape text

/-- A clause for all values from one bound to another, in text order. The
bounds themselves match if the range is inclusive. -/
def range (field first last : String) (inclusive : Bool) : Clause :=
  let (opening, closing) := if inclusive then ('[', ']') else ('\x7b', '\x7d')
  let query := opening :: rangeEnd first ++ [' ', 'T', 'O', ' '] ++ rangeEnd last ++ [closing]
  verbatim field (String.ofList query)

/-- A whole value as one term or, if it has blanks inside, as one phrase. -/
def exactText (value : String) : List Char :=
  let text := Text.trim value.toList
  if text.any Text.isBlank then Text.phrase text else Text.escape text

/-- A clause for one whole value. -/
def exactly (field value : String) : Clause :=
  verbatim field (String.ofList (exactText value))

/-- Terms within a distance of words: the included ones as one phrase, then a
clause for each excluded one. -/
def nearText (distance : Nat) (terms : List Term) : List Char :=
  let included := terms.filter (!·.isExcluded)
  let excluded := terms.filter (·.isExcluded)
  let phrase :=
    if included.isEmpty then []
    else
      [('"' :: [' '].intercalate (included.map Term.phrasePart) ++ ['"', '~'])
        ++ Text.digits distance]
  [' '].intercalate (phrase ++ excluded.map (·.mandatory false))

/-- Terms and words similar to them, all of which must match. -/
def fuzzyText (similarity : Weight) (terms : List Term) : List Char :=
  let distance := if similarity.isUnit then similarity.text else []
  [' ', 'A', 'N', 'D', ' '].intercalate (terms.map (·.fuzzy distance))

/-- Terms that all must match. -/
def mandatoryText (terms : List Term) : List Char :=
  [' '].intercalate (terms.map (·.mandatory true))

/-- What the field is searched for. -/
def value (c : Clause) : List Char :=
  let query := Text.trim c.query.toList
  if c.tokenized then
    let terms := Term.ofText query
    match c.proximity, c.fuzzy with
    | some distance, _ => nearText distance terms
    | none, some similarity => fuzzyText similarity terms
    | none, none => mandatoryText terms
  else
    match c.proximity with
    | some distance =>
      if query.isEmpty then [] else Text.phrase query ++ '~' :: Text.digits distance
    | none => query

/-- The weight of the clause as it is written behind it. -/
def boostText (c : Clause) : List Char :=
  match c.boost with
  | some boost => if boost.isPositive then '^' :: boost.text else []
  | none => []

/-- The clause without its negation; nothing if the field or the value is blank. -/
def body (c : Clause) : List Char :=
  let field := Text.trim c.field.toList
  if field.isEmpty || c.value.isEmpty then []
  else field ++ ':' :: '(' :: c.value ++ ')' :: c.boostText

/-- Whether the clause has nothing to search for. -/
def isEmpty (c : Clause) : Bool :=
  c.body.isEmpty

/-- Clauses are equal if all their settings are; weights are compared as numbers. -/
instance : BEq Clause where
  beq a b := a.field == b.field && a.query == b.query && a.tokenized == b.tokenized
    && a.fuzzy == b.fuzzy && a.proximity == b.proximity && a.boost == b.boost
    && a.negated == b.negated

end Clause

end SearchIndex
