import SearchIndex.Proofs.Calendar.Order
import SearchIndex.Proofs.Calendar.Reading

/-!
# Stamps are ordered as the minutes

The stamp of an instant in the years from 0 to 9999 has twelve digits. Texts of as many digits
are ordered as the numbers that they write (`Text.lt_iff_valueFrom_lt`), and the number that a
stamp writes grows with the minute of the instant. So the order of texts is the order of time,
to the minute: `Instant.stamp_lt_stamp_iff`.
-/

namespace SearchIndex

namespace Text

/-- A number of a fixed width is read on top of what stands before it. -/
theorem valueFrom_append_padded (run : List Char) {width n : Nat} (hw : 1 ≤ width)
    (fits : n < Nat.pow 10 width) :
    valueFrom 0 (run ++ padded width n) = valueFrom 0 run * 10 ^ width + n := by
  rw [valueFrom_append, valueFrom_eq, length_padded hw fits, valueFrom_padded]

end Text

namespace Calendar.Instant

variable {i other : Instant}

/-- The minute of an instant, counted from the first one of 1970. -/
def minuteNumber (i : Instant) : Int :=
  i.seconds / 60

/-- The number that a stamp writes: that of the date, and two digits each for the hour and the
minute. -/
def stampNumber (i : Instant) : Int :=
  10000 * i.date.number + 100 * i.hour + i.minute

/-- The stamp of a later minute is a larger number. -/
theorem stampNumber_lt_stampNumber_iff :
    i.stampNumber < other.stampNumber ↔ i.minuteNumber < other.minuteNumber := by
  simp only [stampNumber, minuteNumber, date, hour, minute, secondOfDay, secondsPerDay]
  rcases Int.lt_trichotomy (i.seconds / 86400) (other.seconds / 86400) with before | same | after
  · have dates := number_ofDayNumber_lt before
    omega
  · rw [same]
    omega
  · have dates := number_ofDayNumber_lt after
    omega

/-- The year of an instant has at most four digits and no sign. -/
def HasPlainYear (i : Instant) : Prop :=
  0 ≤ i.date.year ∧ i.date.year ≤ 9999

instance (i : Instant) : Decidable i.HasPlainYear :=
  inferInstanceAs (Decidable (_ ∧ _))

/-- The parts of a stamp behind the year have two digits each. -/
theorem fits (i : Instant) :
    i.date.month < 100 ∧ i.date.day < 100 ∧ i.hour < 100 ∧ i.minute < 100 := by
  obtain ⟨month, day⟩ := Date.fits_of_isValid (isValid_ofDayNumber (i.seconds / secondsPerDay))
  refine ⟨month, day, ?_, ?_⟩
  · simp only [hour, secondOfDay, secondsPerDay]
    omega
  · simp only [minute]
    omega

theorem stamp_eq (h : i.HasPlainYear) :
    i.stamp = Text.padded 4 i.date.year.natAbs ++ Text.padded 2 i.date.month ++
      Text.padded 2 i.date.day ++ Text.padded 2 i.hour ++ Text.padded 2 i.minute := by
  obtain ⟨first, last⟩ := h
  rw [stamp, yearText, if_neg (by omega), if_neg (by omega)]

/-- A stamp has twelve digits. -/
theorem length_stamp (h : i.HasPlainYear) : i.stamp.length = 12 := by
  obtain ⟨month, day, hour, minute⟩ := i.fits
  have year : i.date.year.natAbs < Nat.pow 10 4 := by
    obtain ⟨first, last⟩ := h
    simp only [Nat.pow_eq, Nat.reducePow]
    omega
  have pair : ∀ n < 100, (Text.padded 2 n).length = 2 :=
    fun n small => Text.length_padded (by decide) small
  rw [stamp_eq h, List.length_append, List.length_append, List.length_append, List.length_append,
    Text.length_padded (by decide) year, pair _ month, pair _ day, pair _ hour, pair _ minute]

theorem isDigit_of_mem_stamp (h : i.HasPlainYear) {c : Char} (hc : c ∈ i.stamp) :
    Text.isDigit c = true := by
  rw [stamp_eq h] at hc
  simp only [List.mem_append] at hc
  rcases hc with (((hc | hc) | hc) | hc) | hc <;> exact Text.isDigit_of_mem_padded hc

/-- The digits of a stamp write its number. -/
theorem valueFrom_stamp (h : i.HasPlainYear) :
    (Text.valueFrom 0 i.stamp : Int) = i.stampNumber := by
  obtain ⟨month, day, hour, minute⟩ := i.fits
  have year : (i.date.year.natAbs : Int) = i.date.year := Int.natAbs_of_nonneg h.1
  rw [stamp_eq h, Text.valueFrom_append_padded _ (by decide) minute,
    Text.valueFrom_append_padded _ (by decide) hour, Text.valueFrom_append_padded _ (by decide) day,
    Text.valueFrom_append_padded _ (by decide) month, Text.valueFrom_padded, stampNumber,
    Date.number]
  omega

/-- Stamps are ordered as texts as the minutes are in time. -/
theorem stamp_lt_stamp_iff (h : i.HasPlainYear) (h' : other.HasPlainYear) :
    i.stamp < other.stamp ↔ i.minuteNumber < other.minuteNumber := by
  rw [← stampNumber_lt_stampNumber_iff, ← valueFrom_stamp h, ← valueFrom_stamp h', Int.ofNat_lt]
  apply Text.lt_iff_valueFrom_lt
  · exact fun c => isDigit_of_mem_stamp h
  · exact fun c => isDigit_of_mem_stamp h'
  · rw [length_stamp h, length_stamp h']

theorem stamp_le_stamp_iff (h : i.HasPlainYear) (h' : other.HasPlainYear) :
    i.stamp ≤ other.stamp ↔ i.minuteNumber ≤ other.minuteNumber := by
  rw [← not_lt, stamp_lt_stamp_iff h' h, not_lt]

/-- Instants have the same stamp if and only if they lie in the same minute. -/
theorem stamp_eq_stamp_iff (h : i.HasPlainYear) (h' : other.HasPlainYear) :
    i.stamp = other.stamp ↔ i.minuteNumber = other.minuteNumber := by
  rw [le_antisymm_iff, le_antisymm_iff, stamp_le_stamp_iff h h', stamp_le_stamp_iff h' h]

end Calendar.Instant

end SearchIndex
