/-!
# The calendar

Days are counted from 1970-01-01 in the proleptic Gregorian calendar. A cycle
of four hundred years has 146097 days, and a year that begins in March puts the
leap day at its end; `Date.ofDayNumber` and `Date.dayNumber` convert between a
day's number and its date on that layout.
-/

namespace SearchIndex.Calendar

/-- A day of the calendar. Year zero is the year before year one. -/
structure Date where
  year : Int
  month : Nat
  day : Nat
  deriving DecidableEq, Repr

/-- The number of the day 0000-03-01, from which cycles are counted. -/
def cycleStart : Int := -719468

/-- The days of a cycle of four hundred years. -/
def daysPerCycle : Int := 146097

/-- The year of a cycle that its `n`-th day lies in, years beginning in March. -/
def yearOfCycle (n : Nat) : Nat :=
  (n - n / 1460 + n / 36524 - n / 146096) / 365

/-- The days of a cycle before its `year`-th year begins. -/
def daysBeforeYear (year : Nat) : Nat :=
  365 * year + year / 4 - year / 100

/-- The days of a year before its `month`-th month begins, March being month zero. -/
def daysBeforeMonth (month : Nat) : Nat :=
  (153 * month + 2) / 5

/-- The date of a day's number. -/
def Date.ofDayNumber (number : Int) : Date :=
  let shifted := number - cycleStart
  let cycle := shifted / daysPerCycle
  let dayOfCycle := (shifted % daysPerCycle).toNat
  let yearInCycle := yearOfCycle dayOfCycle
  let dayOfYear := dayOfCycle - daysBeforeYear yearInCycle
  let marchMonth := (5 * dayOfYear + 2) / 153
  let month := if marchMonth < 10 then marchMonth + 3 else marchMonth - 9
  { year := cycle * 400 + yearInCycle + (if month ≤ 2 then 1 else 0)
    month
    day := dayOfYear - daysBeforeMonth marchMonth + 1 }

/-- The number of the day of a date. -/
def Date.dayNumber (date : Date) : Int :=
  let year := if date.month ≤ 2 then date.year - 1 else date.year
  let cycle := year / 400
  let yearInCycle := (year % 400).toNat
  let marchMonth := (date.month + 9) % 12
  cycle * daysPerCycle + (daysBeforeYear yearInCycle + daysBeforeMonth marchMonth : Nat)
    + (date.day - 1 : Nat) + cycleStart

/-- Whether a year has a leap day. -/
def isLeapYear (year : Int) : Bool :=
  year % 4 == 0 && (year % 100 != 0 || year % 400 == 0)

/-- The days of a month; a month outside 1 to 12 has none. -/
def daysInMonth (year : Int) : Nat → Nat
  | 2 => if isLeapYear year then 29 else 28
  | 4 | 6 | 9 | 11 => 30
  | 1 | 3 | 5 | 7 | 8 | 10 | 12 => 31
  | _ => 0

/-- Whether a date names a day of the calendar. -/
def Date.isValid (date : Date) : Bool :=
  1 ≤ date.day && date.day ≤ daysInMonth date.year date.month

example : Date.ofDayNumber 0 = ⟨1970, 1, 1⟩ := by decide
example : Date.ofDayNumber 19782 = ⟨2024, 2, 29⟩ := by decide
example : Date.ofDayNumber (-719529) = ⟨-1, 12, 31⟩ := by decide
example : Date.dayNumber ⟨2024, 2, 29⟩ = 19782 := by decide

end SearchIndex.Calendar
