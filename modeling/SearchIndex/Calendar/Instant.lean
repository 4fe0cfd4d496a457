import SearchIndex.Calendar.Date
import SearchIndex.Text.Numeral

/-!
# Instants

An instant is a second of the UTC time line, counted from 1970-01-01 without
leap seconds, and the nanoseconds into it. An inserted leap second is the same
second as the one before it with a billion nanoseconds more.

The index stores an instant as a stamp: year, month, day, hour and minute
without any separator.
-/

namespace SearchIndex.Calendar

/-- The nanoseconds of one second. -/
def nanosPerSecond : Nat := 1000000000

/-- The seconds of one day. -/
def secondsPerDay : Int := 86400

/-- A point of time in UTC. From `nanosPerSecond` on, `nanos` lie in a leap
second that follows the second. -/
structure Instant where
  seconds : Int
  nanos : Nat
  deriving DecidableEq, Repr

namespace Instant

/-- The first instant of 1970. -/
def epoch : Instant := ⟨0, 0⟩

/-- The date of an instant. -/
def date (i : Instant) : Date :=
  Date.ofDayNumber (i.seconds / secondsPerDay)

/-- The second of the day of an instant. -/
def secondOfDay (i : Instant) : Nat :=
  (i.seconds % secondsPerDay).toNat

/-- The hour of the day of an instant. -/
def hour (i : Instant) : Nat :=
  i.secondOfDay / 3600

/-- The minute of the hour of an instant. -/
def minute (i : Instant) : Nat :=
  i.secondOfDay / 60 % 60

/-- The second of the minute of an instant; a leap second is number sixty. -/
def second (i : Instant) : Nat :=
  i.secondOfDay % 60 + i.nanos / nanosPerSecond

/-- The nanoseconds into the second, or into the leap second, of an instant. -/
def fraction (i : Instant) : Nat :=
  i.nanos % nanosPerSecond

end Instant

/-- A year in at least four digits; outside 0 to 9999 with its sign. -/
def yearText (year : Int) : List Char :=
  let written := Text.padded 4 year.natAbs
  if year < 0 then '-' :: written
  else if 9999 < year then '+' :: written
  else written

/-- The stamp that the index stores for an instant. -/
def Instant.stamp (i : Instant) : List Char :=
  yearText i.date.year ++ Text.padded 2 i.date.month ++ Text.padded 2 i.date.day
    ++ Text.padded 2 i.hour ++ Text.padded 2 i.minute

end SearchIndex.Calendar
