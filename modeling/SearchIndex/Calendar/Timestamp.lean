import SearchIndex.Calendar.Instant
import SearchIndex.Text.Blank
import SearchIndex.Text.Letters

/-!
# Timestamps

`Instant.timestamp` writes an instant by RFC 3339 in UTC, with no, three, six or
nine places of the second, whichever is the shortest exact form.
`Instant.ofTimestamp?` reads the same notation with any offset from UTC. It
allows a blank in the middle instead of `T`, blanks between the numbers of the
date and of the time, numbers without their leading zeros, a sign and more
digits on the year, and more than nine places, of which it drops the rest.
-/

namespace SearchIndex.Calendar

/-- The places of the second, in the fewest groups of three digits. -/
def fractionText (fraction : Nat) : List Char :=
  if fraction = 0 then []
  else if fraction % 1000000 = 0 then '.' :: Text.padded 3 (fraction / 1000000)
  else if fraction % 1000 = 0 then '.' :: Text.padded 6 (fraction / 1000)
  else '.' :: Text.padded 9 fraction

/-- An instant by RFC 3339, in UTC. -/
def Instant.timestamp (i : Instant) : List Char :=
  yearText i.date.year ++ '-' :: Text.padded 2 i.date.month ++ '-' :: Text.padded 2 i.date.day
    ++ 'T' :: Text.padded 2 i.hour ++ ':' :: Text.padded 2 i.minute
    ++ ':' :: Text.padded 2 i.second ++ fractionText i.fraction ++ ['Z']

/-- Reads a number of one up to `width` digits. Like every reading step, it returns
what it read and the text after it. -/
def readNumber (width : Nat) (text : List Char) : Option (Nat × List Char) :=
  let run := (text.take width).takeWhile Text.isDigit
  (Text.value? run).map (·, text.drop run.length)

/-- Reads a number of one up to `width` digits, after any blanks. -/
def readField (width : Nat) (text : List Char) : Option (Nat × List Char) :=
  readNumber width (Text.trimStart text)

/-- Reads one given character, after any blanks. -/
def readMark (mark : Char) (text : List Char) : Option (List Char) :=
  match Text.trimStart text with
  | c :: rest => if c = mark then some rest else none
  | [] => none

/-- Reads a year: a sign and any number of digits, or up to four digits. -/
def readYear (text : List Char) : Option (Int × List Char) :=
  match Text.trimStart text with
  | '-' :: rest => (readNumber rest.length rest).map fun (n, rest) => (-(n : Int), rest)
  | '+' :: rest => (readNumber rest.length rest).map fun (n, rest) => ((n : Int), rest)
  | text => (readNumber 4 text).map fun (n, rest) => ((n : Int), rest)

/-- Reads a date that names a day of the calendar. -/
def readDate (text : List Char) : Option (Date × List Char) := do
  let (year, text) ← readYear text
  let text ← readMark '-' text
  let (month, text) ← readField 2 text
  let text ← readMark '-' text
  let (day, text) ← readField 2 text
  let date : Date := ⟨year, month, day⟩
  if date.isValid then some (date, text) else none

/-- Reads the places of a second as nanoseconds; without a point they are zero. -/
def readFraction : List Char → Option (Nat × List Char)
  | '.' :: text => do
    let (n, rest) ← readNumber 9 text
    let places := text.length - rest.length
    some (n * Nat.pow 10 (9 - places), rest.dropWhile Text.isDigit)
  | text => some (0, text)

/-- Reads a time of the day as its second of the day and nanoseconds. Second
sixty is the leap second after second fifty-nine. -/
def readTime (text : List Char) : Option ((Nat × Nat) × List Char) := do
  let (hour, text) ← readField 2 text
  let text ← readMark ':' text
  let (minute, text) ← readField 2 text
  let text ← readMark ':' text
  let (second, text) ← readField 2 text
  let (nanos, text) ← readFraction text
  if hour < 24 ∧ minute < 60 ∧ second ≤ 60 then
    let whole := hour * 3600 + minute * 60 + min second 59
    some ((whole, nanos + (if second = 60 then nanosPerSecond else 0)), text)
  else none

/-- Reads two digits. -/
def readPair : List Char → Option (Nat × List Char)
  | a :: b :: rest =>
    if Text.isDigit a && Text.isDigit b then
      some (Text.digitValue a * 10 + Text.digitValue b, rest)
    else none
  | _ => none

/-- Reads hours and minutes of an offset as seconds; colons and blanks may
stand between them. -/
def readOffsetSize (text : List Char) : Option (Int × List Char) := do
  let (hours, text) ← readPair text
  let (minutes, text) ← readPair (text.dropWhile fun c => c == ':' || Text.isBlank c)
  if minutes < 60 then some (((hours * 3600 + minutes * 60 : Nat) : Int), text) else none

/-- Reads an offset from UTC in seconds: `UTC` or `Z` in either case, or a sign,
hours and minutes. -/
def readOffset (text : List Char) : Option (Int × List Char) :=
  match Text.afterWord? ['u', 't', 'c'] text with
  | some rest => some (0, rest)
  | none =>
    match text with
    | 'Z' :: rest => some (0, rest)
    | 'z' :: rest => some (0, rest)
    | '+' :: rest => readOffsetSize rest
    | '-' :: rest => (readOffsetSize rest).map fun (size, rest) => (-size, rest)
    | '\u2212' :: rest => (readOffsetSize rest).map fun (size, rest) => (-size, rest)
    | _ => none

/-- Whether a year lies in the span that timestamps are kept for. -/
def isKeptYear (year : Int) : Bool :=
  -262143 ≤ year && year ≤ 262142

/-- The instant that a timestamp writes. -/
def Instant.ofTimestamp? (text : List Char) : Option Instant := do
  let (date, text) ← readDate text
  let text ← match text with
    | 'T' :: rest => some rest
    | 't' :: rest => some rest
    | ' ' :: rest => some rest
    | _ => none
  let ((second, nanos), text) ← readTime text
  let (offset, text) ← readOffset (Text.trimStart text)
  let instant : Instant := ⟨date.dayNumber * secondsPerDay + second - offset, nanos⟩
  if (Text.trimStart text).isEmpty && -secondsPerDay < offset && offset < secondsPerDay
      && isKeptYear date.year && isKeptYear instant.date.year then
    some instant
  else none

end SearchIndex.Calendar
