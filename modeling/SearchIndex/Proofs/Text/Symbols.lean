import SearchIndex.Proofs.Expression.Joining
import SearchIndex.Proofs.Text.Reader
import SearchIndex.Text.Blank

/-!
# The symbols in query text

Text is cut into symbols from left to right. Blank characters and parentheses end a
word, and a word is an atom unless it is one of `AND`, `OR` and `NOT`. Behind a colon
an opening parenthesis belongs to the word, as in `field:(some text)`, and so does all
that is in these parentheses, in a phrase, or behind a backslash; a `Reader` keeps
track of that. A text that stops in the middle of such a thing has no symbols.

`Reads` says that a text has the symbols of a disjunction. Since the grammar is
unambiguous there is one such disjunction at most, and the laws below say what the
disjunction is when texts are negated, joined, or put into parentheses.
-/

namespace SearchIndex

namespace Text

/-- The symbol of a word; there is none for no word at all. -/
def wordSymbols (word : List Char) : List Symbol :=
  if word = [] then []
  else if word = ['A', 'N', 'D'] then [.and]
  else if word = ['O', 'R'] then [.or]
  else if word = ['N', 'O', 'T'] then [.not]
  else [.atom word]

/-- The symbol of a character that ends a word, if it does: a blank character has none,
and an opening parenthesis behind a colon is part of the word. -/
def delimiter? (colon : Bool) (c : Char) : Option (List Symbol) :=
  if isBlank c then some []
  else if c = ')' then some [.closing]
  else if c = '(' ∧ colon = false then some [.opening]
  else none

/-- The symbols of a text behind the start of a word. The reader is the one behind that
start, and `colon` says whether it ends in a colon. -/
def scan (word : List Char) (s : Reader) (colon : Bool) : List Char → Option (List Symbol)
  | [] => if s = {} then some (wordSymbols word) else none
  | c :: text =>
    match if s = {} then delimiter? colon c else none with
    | some between => (scan [] {} false text).map (wordSymbols word ++ between ++ ·)
    | none => scan (word ++ [c]) (s.next c) (s == {} && c == ':') text

/-- The symbols of a text. -/
def symbols? (text : List Char) : Option (List Symbol) :=
  scan [] {} false text

/-- A text reads as a disjunction. -/
def Reads (text : List Char) (d : Disjunction) : Prop :=
  symbols? text = some d.symbols

/-- A text reads as one disjunction at most. -/
theorem Reads.unique {text : List Char} {d d' : Disjunction} (h : Reads text d)
    (h' : Reads text d') : d = d' :=
  Disjunction.symbols_injective (Option.some.inj (h.symm.trans h'))

/-- What ends a word also ends a text in front of it. -/
theorem scan_append_cons {word : List Char} {s : Reader} {colon : Bool} {text : List Char}
    {symbols : List Symbol} (h : scan word s colon text = some symbols) {c : Char}
    {between : List Symbol} (hc : ∀ colon, delimiter? colon c = some between)
    (rest : List Char) :
    scan word s colon (text ++ c :: rest) = (symbols? rest).map (symbols ++ between ++ ·) := by
  induction text generalizing word s colon symbols with
  | nil =>
      rw [scan] at h
      split at h
      · next fresh =>
        rw [List.nil_append, scan, if_pos fresh, hc, ← Option.some.inj h]
        rfl
      · cases h
  | cons d text ih =>
      rw [scan] at h
      rw [List.cons_append, scan]
      split
      · next front ended =>
        rw [ended] at h
        obtain ⟨tail, htail, rfl⟩ := Option.map_eq_some_iff.mp h
        rw [ih htail, Option.map_map]
        simp [Function.comp_def]
      · next carried =>
        rw [carried] at h
        exact ih h

theorem symbols?_append_blank {text : List Char} {symbols : List Symbol}
    (h : symbols? text = some symbols) (rest : List Char) :
    symbols? (text ++ ' ' :: rest) = (symbols? rest).map (symbols ++ ·) := by
  have blank : ∀ colon, delimiter? colon ' ' = some [] := fun _ => rfl
  rw [symbols?, scan_append_cons h blank]
  simp

theorem symbols?_append_closing {text : List Char} {symbols : List Symbol}
    (h : symbols? text = some symbols) :
    symbols? (text ++ [')']) = some (symbols ++ [.closing]) := by
  have closing : ∀ colon, delimiter? colon ')' = some [.closing] := fun _ => rfl
  rw [symbols?, scan_append_cons h closing]
  simp [symbols?, scan, wordSymbols]

theorem symbols?_opening (text : List Char) :
    symbols? ('(' :: text) = (symbols? text).map (.opening :: ·) := rfl

theorem symbols?_not (text : List Char) :
    symbols? (['N', 'O', 'T', ' '] ++ text) = (symbols? text).map (.not :: ·) := rfl

/-- A connective between two texts is the symbol between theirs. -/
theorem symbols?_separator (connective : Connective) {text : List Char} {symbols : List Symbol}
    (h : symbols? text = some symbols) (rest : List Char) :
    symbols? (text ++ connective.separator ++ rest) =
      (symbols? rest).map (symbols ++ connective.symbol :: ·) := by
  cases connective with
  | and =>
      have word : symbols? ('A' :: 'N' :: 'D' :: ' ' :: rest) = (symbols? rest).map (.and :: ·) := rfl
      rw [Connective.separator, List.append_assoc, List.cons_append, symbols?_append_blank h]
      simp only [List.cons_append, List.nil_append, word, Option.map_map]
      rfl
  | or =>
      have word : symbols? ('O' :: 'R' :: ' ' :: rest) = (symbols? rest).map (.or :: ·) := rfl
      rw [Connective.separator, List.append_assoc, List.cons_append, symbols?_append_blank h]
      simp only [List.cons_append, List.nil_append, word, Option.map_map]
      rfl

variable {text text' : List Char} {d d' : Disjunction}

theorem Reads.paren (h : Reads text d) :
    Reads ('(' :: text ++ [')']) (.ofOperand (.paren d)) := by
  rw [Reads, List.cons_append, symbols?_opening, symbols?_append_closing h]
  rfl

theorem Reads.not (h : Reads text d) : Reads (['N', 'O', 'T', ' '] ++ text) d.negate := by
  rw [Reads, symbols?_not, h, Disjunction.symbols_negate]
  rfl

theorem Reads.join (connective : Connective) (h : Reads text d) (h' : Reads text' d') :
    Reads (text ++ connective.separator ++ text') (d.join connective d') := by
  rw [Reads, symbols?_separator connective h, h', Disjunction.symbols_join]
  rfl

theorem Reads.joinAll (connective : Connective) {α : Type} {text : α → List Char}
    {reading : α → Disjunction} {items : List α} (nonempty : items ≠ [])
    (h : ∀ item ∈ items, Reads (text item) (reading item)) :
    Reads (connective.separator.intercalate (items.map text))
      (.joinAll connective (items.map reading)) := by
  induction items with
  | nil => exact absurd rfl nonempty
  | cons item items ih =>
      obtain ⟨here, there⟩ := List.forall_mem_cons.mp h
      cases items with
      | nil => simpa [Disjunction.joinAll] using here
      | cons next rest =>
          rw [List.map_cons, List.map_cons, List.intercalate_cons_cons]
          exact here.join connective (ih (by simp) there)

end Text

end SearchIndex
