import Mathlib.Order.Monotone.Defs
import Mathlib.Data.Int.SuccPred
import SearchIndex.Proofs.Calendar.Timestamp

/-!
# Dates are ordered as their days

The months are counted on from the March of year zero, so that the one with the leap day is the
last one of its year. A month begins when the month before it has had its days
(`monthStart_add_daysInMonth`), and a day is found from its month and its place in it. Hence
valid dates are ordered as their days are, and a date read as one number, the year first, grows
with the day: `Date.number_lt_number_iff`.
-/

namespace SearchIndex.Calendar

/-- The number of the first day of a year that begins in March. -/
def yearStart (year : Int) : Int :=
  365 * year + year / 4 - year / 100 + year / 400 + cycleStart

/-- The number of the first day of a month. Month zero is the March of year zero. -/
def monthStart (month : Int) : Int :=
  yearStart (month / 12) + daysBeforeMonth (month % 12).toNat

/-- The place of a date's month among all months. -/
def Date.monthNumber (date : Date) : Int :=
  12 * date.year + date.month - 3

theorem yearStart_eq (year : Int) : yearStart year =
    year / 400 * daysPerCycle + daysBeforeYear (year % 400).toNat + cycleStart := by
  unfold yearStart daysPerCycle daysBeforeYear
  omega

theorem isLeapYear_iff {year : Int} : isLeapYear year = true ↔
    year % 4 = 0 ∧ (year % 100 ≠ 0 ∨ year % 400 = 0) := by
  simp [isLeapYear]

/-- A year whose February has a leap day is one day longer. -/
theorem yearStart_add_one (year : Int) :
    yearStart (year + 1) = yearStart year + 365 + (if isLeapYear (year + 1) then 1 else 0) := by
  by_cases leap : isLeapYear (year + 1) = true
  case pos =>
    rw [if_pos leap]
    have rule := isLeapYear_iff.mp leap
    unfold yearStart
    omega
  case neg =>
    rw [if_neg leap]
    have rule := mt isLeapYear_iff.mpr leap
    unfold yearStart
    omega

/-- Every month but February has its days whatever the year is. -/
theorem daysBeforeMonth_add_daysInMonth (year : Int) {month : Nat} (first : 1 ≤ month)
    (last : month ≤ 12) (other : month ≠ 2) :
    daysBeforeMonth ((month + 9) % 12) + daysInMonth year month =
      daysBeforeMonth ((month + 9) % 12 + 1) := by
  interval_cases month <;> first | contradiction | rfl

/-- A month begins when the one before it has had its days. -/
theorem monthStart_add_daysInMonth (year : Int) {month : Nat} (first : 1 ≤ month)
    (last : month ≤ 12) :
    monthStart (12 * year + month - 3) + daysInMonth year month =
      monthStart (12 * year + month - 3 + 1) := by
  by_cases february : month = 2
  case pos =>
    subst february
    have here : (12 * year + (2 : Nat) - 3) / 12 = year - 1 ∧
      (12 * year + (2 : Nat) - 3) % 12 = 11 := by omega
    have next : (12 * year + (2 : Nat) - 3 + 1) / 12 = year ∧
      (12 * year + (2 : Nat) - 3 + 1) % 12 = 0 := by omega
    have longer := yearStart_add_one (year - 1)
    rw [Int.sub_add_cancel] at longer
    rw [monthStart, monthStart, here.1, here.2, next.1, next.2, longer]
    cases leap : isLeapYear year <;> simp [daysInMonth, daysBeforeMonth, leap] <;> omega
  case neg =>
    have length := daysBeforeMonth_add_daysInMonth year first last february
    have place : ((12 * year + month - 3) % 12).toNat = (month + 9) % 12 := by omega
    have nextPlace : ((12 * year + month - 3 + 1) % 12).toNat = (month + 9) % 12 + 1 := by omega
    have sameYear : (12 * year + month - 3 + 1) / 12 = (12 * year + month - 3) / 12 := by omega
    rw [monthStart, monthStart, sameYear, place, nextPlace, ← length]
    omega

/-- A day is found from its month and its place in it. -/
theorem Date.dayNumber_eq {date : Date} (first : 1 ≤ date.month) (last : date.month ≤ 12)
    (day : 1 ≤ date.day) : date.dayNumber = monthStart date.monthNumber + date.day - 1 := by
  have march : date.monthNumber % 12 = ((date.month + 9) % 12 : Nat) := by
    rw [monthNumber]
    omega
  have year : date.monthNumber / 12 = if date.month ≤ 2 then date.year - 1 else date.year := by
    rw [monthNumber]
    split <;> omega
  rw [monthStart, yearStart_eq, march, year]
  simp only [dayNumber, Int.toNat_natCast]
  omega

/-- No month begins before an earlier one. -/
theorem monthStart_le {month later : Int} (h : month ≤ later) :
    monthStart month ≤ monthStart later := by
  refine monotone_int_of_le_succ ?_ h
  intro month
  have first : 1 ≤ ((month + 2) % 12 + 1).toNat := by omega
  have start := monthStart_add_daysInMonth ((month + 2) / 12) first (by omega)
  have same : 12 * ((month + 2) / 12) + (((month + 2) % 12 + 1).toNat : Int) - 3 = month := by omega
  rw [same] at start
  omega

namespace Date

/-- A date as one number: the year, and two digits each for the month and the day. -/
def number (date : Date) : Int :=
  10000 * date.year + 100 * date.month + date.day

variable {date other : Date}

theorem bounds_of_isValid (h : date.isValid = true) :
    1 ≤ date.month ∧ date.month ≤ 12 ∧ 1 ≤ date.day ∧ date.day ≤ daysInMonth date.year date.month ∧
      daysInMonth date.year date.month ≤ 31 := by
  obtain ⟨most, none⟩ := daysInMonth_spec date.year date.month
  have zero : daysInMonth date.year 0 = 0 := rfl
  simp only [isValid, Bool.and_eq_true, decide_eq_true_eq] at h
  refine ⟨?_, by omega, h.1, h.2, most⟩
  by_contra below
  have first : date.month = 0 := by omega
  rw [first, zero] at h
  omega

/-- A date with the smaller number is an earlier day. -/
theorem dayNumber_lt_of_number_lt (valid : date.isValid = true) (valid' : other.isValid = true)
    (h : date.number < other.number) : date.dayNumber < other.dayNumber := by
  obtain ⟨first, last, day, within, most⟩ := bounds_of_isValid valid
  obtain ⟨first', last', day', within', most'⟩ := bounds_of_isValid valid'
  rw [dayNumber_eq first last day, dayNumber_eq first' last' day']
  have order : date.monthNumber < other.monthNumber ∨
      date.monthNumber = other.monthNumber ∧ date.day < other.day := by
    simp only [number] at h
    simp only [monthNumber]
    omega
  rcases order with earlier | ⟨same, earlier⟩
  · have full : monthStart date.monthNumber + daysInMonth date.year date.month =
        monthStart (date.monthNumber + 1) := monthStart_add_daysInMonth date.year first last
    have later := monthStart_le (Int.add_one_le_of_lt earlier)
    omega
  · rw [same]
    omega

theorem eq_of_number_eq (valid : date.isValid = true) (valid' : other.isValid = true)
    (h : date.number = other.number) : date = other := by
  obtain ⟨_, last, _, within, most⟩ := bounds_of_isValid valid
  obtain ⟨_, last', _, within', most'⟩ := bounds_of_isValid valid'
  simp only [number] at h
  obtain ⟨year, month, day⟩ := date
  obtain ⟨year', month', day'⟩ := other
  simp only [mk.injEq] at *
  omega

/-- Dates are ordered by their numbers as their days are. -/
theorem number_lt_number_iff (valid : date.isValid = true) (valid' : other.isValid = true) :
    date.number < other.number ↔ date.dayNumber < other.dayNumber := by
  refine ⟨dayNumber_lt_of_number_lt valid valid', fun earlier => ?_⟩
  rcases Int.lt_trichotomy date.number other.number with before | same | after
  · exact before
  · rw [eq_of_number_eq valid valid' same] at earlier
    exact absurd earlier (Int.lt_irrefl _)
  · have later := dayNumber_lt_of_number_lt valid' valid after
    omega

end Date

/-- The date of a later day is a larger number. -/
theorem number_ofDayNumber_lt {day later : Int} (h : day < later) :
    (Date.ofDayNumber day).number < (Date.ofDayNumber later).number := by
  rwa [Date.number_lt_number_iff (isValid_ofDayNumber day) (isValid_ofDayNumber later),
    dayNumber_ofDayNumber, dayNumber_ofDayNumber]

end SearchIndex.Calendar
