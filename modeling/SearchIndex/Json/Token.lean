import SearchIndex.Text.Hexadecimal

/-!
# JSON tokens

A text is cut into tokens by a scanner that reads one character at a time and
keeps in its `Mode` what it has seen of an unfinished token. `tokens?` is the
whole cut; it fails on a literal that is no JSON token.
-/

namespace SearchIndex.Json

/-- A token. Strings are `none` when they hold half of a surrogate pair. -/
inductive Token where
  | openArray
  | closeArray
  | openObject
  | closeObject
  | comma
  | colon
  | null
  | bool (value : Bool)
  | integer (value : Int)
  | real (literal : List Char)
  | string (text : Option String)
  deriving DecidableEq, Repr

/-- What has been read of a string: its characters in reverse, the first half of
a surrogate pair that waits for the second, and whether all of it is a text. -/
structure Piece where
  reversed : List Char := []
  waiting : Option Nat := none
  sound : Bool := true
  deriving DecidableEq, Repr

namespace Piece

/-- What is read so far, given that no second half follows. -/
def settled (p : Piece) : Piece :=
  if p.waiting.isSome then { p with waiting := none, sound := false } else p

/-- Appends a character. -/
def push (p : Piece) (c : Char) : Piece :=
  let p := p.settled
  { p with reversed := c :: p.reversed }

/-- Appends an escaped code unit, which may be half of a surrogate pair. -/
def pushUnit (p : Piece) (unit : Nat) : Piece :=
  if 0xDC00 ≤ unit ∧ unit ≤ 0xDFFF then
    match p.waiting with
    | some first =>
      let code := 0x10000 + (first - 0xD800) * 0x400 + (unit - 0xDC00)
      { p with reversed := Char.ofNat code :: p.reversed, waiting := none }
    | none => { p with sound := false }
  else if 0xD800 ≤ unit ∧ unit ≤ 0xDBFF then
    { p.settled with waiting := some unit }
  else
    p.push (Char.ofNat unit)

/-- The text of a finished string. -/
def text? (p : Piece) : Option String :=
  if p.settled.sound then some (String.ofList p.reversed.reverse) else none

end Piece

/-- The scanner between two characters: outside any token, in a string, behind a
backslash in it, in the four digits of an escaped code unit, in a number, or in
a word. Numbers and words are kept in reverse. -/
inductive Mode where
  | between
  | string (piece : Piece)
  | escape (piece : Piece)
  | unit (piece : Piece) (digits : Nat) (value : Nat)
  | number (reversed : List Char)
  | word (reversed : List Char)
  deriving DecidableEq, Repr

/-- Whether a character may stand between tokens. -/
def isSpace (c : Char) : Bool :=
  c == ' ' || c == '\n' || c == '\t' || c == '\r'

/-- Whether a character may stand in a number. -/
def isNumeric (c : Char) : Bool :=
  Text.isDigit c || c == '-' || c == '+' || c == '.' || c == 'e' || c == 'E'

/-- Whether a character may stand in a word. -/
def isLetter (c : Char) : Bool :=
  'a' ≤ c && c ≤ 'z'

/-- Whether a text is a non-empty run of digits. -/
def isDigits (text : List Char) : Bool :=
  !text.isEmpty && text.all Text.isDigit

/-- Whether a text is a run of digits that begins with zero only if it is zero. -/
def isWhole : List Char → Bool
  | ['0'] => true
  | '0' :: _ => false
  | text => isDigits text

/-- Whether a text is an exponent: nothing, or a mark, a sign or none, and digits. -/
def isExponent : List Char → Bool
  | [] => true
  | mark :: '+' :: run => (mark == 'e' || mark == 'E') && isDigits run
  | mark :: '-' :: run => (mark == 'e' || mark == 'E') && isDigits run
  | mark :: run => (mark == 'e' || mark == 'E') && isDigits run

/-- Whether a text follows the whole part of a number: places or none, and an
exponent or none. -/
def isTail : List Char → Bool
  | '.' :: rest =>
    isDigits (rest.takeWhile Text.isDigit) && isExponent (rest.dropWhile Text.isDigit)
  | rest => isExponent rest

/-- The token of an unsigned number. -/
def unsignedToken? (negative : Bool) (text : List Char) : Option Token :=
  let whole := text.takeWhile Text.isDigit
  let rest := text.dropWhile Text.isDigit
  let literal := if negative then '-' :: text else text
  if !isWhole whole then none
  else if rest.isEmpty then
    let n := Text.valueFrom 0 whole
    if !negative then some (.integer n)
    else if n = 0 then some (.real literal)
    else some (.integer (-n))
  else if isTail rest then some (.real literal)
  else none

/-- The token of a number. A negative zero is no integer. -/
def numberToken? : List Char → Option Token
  | '-' :: text => unsignedToken? true text
  | text => unsignedToken? false text

/-- The token of a word. -/
def wordToken? : List Char → Option Token
  | ['t', 'r', 'u', 'e'] => some (.bool true)
  | ['f', 'a', 'l', 's', 'e'] => some (.bool false)
  | ['n', 'u', 'l', 'l'] => some .null
  | _ => none

/-- The token of a character that is one by itself. -/
def markToken? (c : Char) : Option Token :=
  if c = '[' then some .openArray
  else if c = ']' then some .closeArray
  else if c = '\x7b' then some .openObject
  else if c = '\x7d' then some .closeObject
  else if c = ',' then some .comma
  else if c = ':' then some .colon
  else none

/-- The character that a backslash and a letter stand for. -/
def escaped? (c : Char) : Option Char :=
  if c = '"' || c = '\\' || c = '/' then some c
  else if c = 'b' then some '\x08'
  else if c = 'f' then some '\x0c'
  else if c = 'n' then some '\n'
  else if c = 'r' then some '\r'
  else if c = 't' then some '\t'
  else none

/-- What has been read of a text: its finished tokens in reverse, and the mode
after them. -/
structure Scan where
  reversed : List Token := []
  mode : Mode := .between
  deriving DecidableEq, Repr

namespace Scan

/-- Goes on in another mode. -/
def go (s : Scan) (mode : Mode) : Scan :=
  { s with mode }

/-- Ends a token. -/
def emit (s : Scan) (token : Token) : Scan :=
  { reversed := token :: s.reversed, mode := .between }

/-- Reads a character outside any token. -/
def start (s : Scan) (c : Char) : Option Scan :=
  if isSpace c then some (s.go .between)
  else if c = '"' then some (s.go (.string {}))
  else if isNumeric c then some (s.go (.number [c]))
  else if isLetter c then some (s.go (.word [c]))
  else (markToken? c).map s.emit

/-- Reads one character. -/
def read (s : Scan) (c : Char) : Option Scan :=
  match s.mode with
  | .between => s.start c
  | .string piece =>
    if c = '"' then some (s.emit (.string piece.text?))
    else if c = '\\' then some (s.go (.escape piece))
    else if c.toNat < 0x20 then none
    else some (s.go (.string (piece.push c)))
  | .escape piece =>
    if c = 'u' then some (s.go (.unit piece 0 0))
    else (escaped? c).map fun c => s.go (.string (piece.push c))
  | .unit piece count value => do
    let value := value * 16 + (← Text.hexValue? c)
    if count = 3 then some (s.go (.string (piece.pushUnit value)))
    else some (s.go (.unit piece (count + 1) value))
  | .number reversed =>
    if isNumeric c then some (s.go (.number (c :: reversed)))
    else do (s.emit (← numberToken? reversed.reverse)).start c
  | .word reversed =>
    if isLetter c then some (s.go (.word (c :: reversed)))
    else do (s.emit (← wordToken? reversed.reverse)).start c

/-- The tokens of a text that ends here. -/
def finish (s : Scan) : Option (List Token) :=
  match s.mode with
  | .between => some s.reversed.reverse
  | .number reversed => (numberToken? reversed.reverse).map fun t => (s.emit t).reversed.reverse
  | .word reversed => (wordToken? reversed.reverse).map fun t => (s.emit t).reversed.reverse
  | _ => none

end Scan

/-- The tokens of a text. -/
def tokens? (text : List Char) : Option (List Token) := do
  (← text.foldlM Scan.read {}).finish

end SearchIndex.Json
