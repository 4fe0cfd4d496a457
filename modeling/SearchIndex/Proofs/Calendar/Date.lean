import Mathlib.Tactic.IntervalCases
import SearchIndex.Calendar.Date

/-!
# Days and their dates

Every day has a valid date, and its number reads off the date. A cycle of four hundred
years that begin in March has its only irregularities at the end of its fourth, hundredth
and four hundredth years, which is where a leap day stands.
-/

namespace SearchIndex.Calendar

/-- The place of a day in a cycle: the century, the group of four years in it, the year of
the group, and the day of the year. Only the last year of a group has a day number 365, but
the last one of a century only in the last century. -/
structure CycleDay where
  century : Nat
  group : Nat
  year : Nat
  day : Nat
  century_le : century ≤ 3
  group_le : group ≤ 24
  year_le : year ≤ 3
  day_le : day ≤ 365
  leap : day = 365 → year = 3 ∧ (group = 24 → century = 3)

namespace CycleDay

/-- The number of the day in the cycle. -/
def number (p : CycleDay) : Nat :=
  36524 * p.century + 1461 * p.group + 365 * p.year + p.day

/-- The year of the cycle. -/
def yearNumber (p : CycleDay) : Nat :=
  100 * p.century + 4 * p.group + p.year

theorem exists_number_eq {n : Nat} (h : n < 146097) : ∃ p : CycleDay, p.number = n := by
  let century := min (n / 36524) 3
  let ofCentury := n - 36524 * century
  let group := ofCentury / 1461
  let year := min (ofCentury % 1461 / 365) 3
  let day := ofCentury % 1461 - 365 * year
  refine ⟨⟨century, group, year, day, ?_, ?_, ?_, ?_, ?_⟩, ?_⟩ <;>
    simp only [number, century, ofCentury, group, year, day] <;> omega

theorem number_lt (p : CycleDay) : p.number < 146097 := by
  obtain ⟨century, group, year, day, hc, hg, hy, hd, leap⟩ := p
  simp only [number]
  omega

theorem yearNumber_lt (p : CycleDay) : p.yearNumber < 400 := by
  have := p.century_le
  have := p.group_le
  have := p.year_le
  rw [yearNumber]
  omega

/-- The days that are counted for the groups of four years; the last day of some years is
counted one early. -/
theorem number_div_group (p : CycleDay) : ∃ early, p.number / 1460 =
      25 * p.century + p.group + early ∧ early ≤ p.day ∧ p.day ≤ early + 364 := by
  obtain ⟨century, group, year, day, hc, hg, hy, hd, leap⟩ := p
  simp only [number]
  refine ⟨(24 * century + group + 365 * year + day) / 1460, ?_, ?_, ?_⟩
  · rw [← Nat.mul_add_div (by decide)]
    congr 1
    omega
  · omega
  · omega

/-- The last day of the cycle counts for a further century, and for a further cycle. -/
theorem number_div_century (p : CycleDay) :
    p.number / 36524 = p.century + p.number / 146096 := by
  obtain ⟨century, group, year, day, hc, hg, hy, hd, leap⟩ := p
  have rest : 1461 * group + 365 * year + day < 36524 ∨
      1461 * group + 365 * year + day = 36524 ∧ century = 3 := by omega
  have split : 36524 * century + 1461 * group + 365 * year + day =
      36524 * century + (1461 * group + 365 * year + day) := by omega
  simp only [number]
  rw [split]
  generalize 1461 * group + 365 * year + day = days at rest
  clear leap split
  omega

theorem yearOfCycle_number (p : CycleDay) : yearOfCycle p.number = p.yearNumber := by
  obtain ⟨early, groups, hearly, hday⟩ := p.number_div_group
  have centuries := p.number_div_century
  have counted : p.number - p.number / 1460 + p.number / 36524 - p.number / 146096 =
      365 * p.yearNumber + (p.day - early) := by
    rw [groups, centuries, number, yearNumber]
    omega
  rw [yearOfCycle, counted]
  omega

theorem daysBeforeYear_yearNumber (p : CycleDay) :
    daysBeforeYear p.yearNumber = 36524 * p.century + 1461 * p.group + 365 * p.year := by
  obtain ⟨century, group, year, day, hc, hg, hy, hd, leap⟩ := p
  simp only [yearNumber, daysBeforeYear]
  omega

end CycleDay

/-- The months of a year that begins in March, by their number, are found from its days. -/
theorem month_spec {day : Nat} (h : day ≤ 365) :
    (5 * day + 2) / 153 ≤ 11 ∧ daysBeforeMonth ((5 * day + 2) / 153) ≤ day ∧
      day < daysBeforeMonth ((5 * day + 2) / 153 + 1) := by
  unfold daysBeforeMonth
  omega

/-- The date of a day, from its place in its cycle. -/
theorem ofDayNumber_eq (cycle : Int) (p : CycleDay) :
    Date.ofDayNumber (cycle * daysPerCycle + p.number + cycleStart) =
      let marchMonth := (5 * p.day + 2) / 153
      let month := if marchMonth < 10 then marchMonth + 3 else marchMonth - 9
      { year := cycle * 400 + p.yearNumber + (if month ≤ 2 then 1 else 0)
        month
        day := p.day - daysBeforeMonth marchMonth + 1 } := by
  have bound := p.number_lt
  have cycles : (cycle * daysPerCycle + p.number + cycleStart - cycleStart) / daysPerCycle =
      cycle := by
    unfold daysPerCycle
    omega
  have rest : ((cycle * daysPerCycle + p.number + cycleStart - cycleStart) % daysPerCycle).toNat =
      p.number := by
    unfold daysPerCycle
    omega
  have day : p.number - daysBeforeYear p.yearNumber = p.day := by
    rw [p.daysBeforeYear_yearNumber, CycleDay.number, Nat.add_sub_cancel_left]
  simp only [Date.ofDayNumber, cycles, rest, p.yearOfCycle_number, day]

theorem exists_ofDayNumber_eq (number : Int) : ∃ (cycle : Int) (p : CycleDay),
    number = cycle * daysPerCycle + p.number + cycleStart := by
  have bound : ((number - cycleStart) % daysPerCycle).toNat < 146097 := by
    unfold daysPerCycle
    omega
  obtain ⟨p, hp⟩ := CycleDay.exists_number_eq bound
  refine ⟨(number - cycleStart) / daysPerCycle, p, ?_⟩
  rw [hp]
  unfold daysPerCycle
  omega

/-- The number of a day reads off its date. -/
theorem dayNumber_ofDayNumber (number : Int) : (Date.ofDayNumber number).dayNumber = number := by
  obtain ⟨cycle, p, rfl⟩ := exists_ofDayNumber_eq number
  obtain ⟨bound, starts, -⟩ := month_spec p.day_le
  have years := p.yearNumber_lt
  have numbers : p.number = daysBeforeYear p.yearNumber + p.day := by
    rw [p.daysBeforeYear_yearNumber, CycleDay.number]
  rw [ofDayNumber_eq, numbers]
  generalize (5 * p.day + 2) / 153 = marchMonth at *
  simp only [Date.dayNumber]
  by_cases early : marchMonth < 10
  case pos =>
    have month : (marchMonth + 3 + 9) % 12 = marchMonth := by omega
    have late : ¬marchMonth + 3 ≤ 2 := by omega
    have cycles : (cycle * 400 + p.yearNumber + 0) / 400 = cycle := by omega
    have rest : ((cycle * 400 + p.yearNumber + 0) % 400).toNat = p.yearNumber := by omega
    simp only [if_pos early, if_neg late, month, cycles, rest]
    omega
  case neg =>
    have month : (marchMonth - 9 + 9) % 12 = marchMonth := by omega
    have late : marchMonth - 9 ≤ 2 := by omega
    have cycles : (cycle * 400 + p.yearNumber + 1 - 1) / 400 = cycle := by omega
    have rest : ((cycle * 400 + p.yearNumber + 1 - 1) % 400).toNat = p.yearNumber := by omega
    simp only [if_neg early, if_pos late, month, cycles, rest]
    omega

/-- February has a leap day when its last day in a year that begins in March is the last
one of such a year. -/
theorem isLeapYear_of_day {p : CycleDay} (h : p.day = 365) (cycle : Int) :
    isLeapYear (cycle * 400 + p.yearNumber + 1) = true := by
  obtain ⟨century, group, year, day, hc, hg, hy, hd, leap⟩ := p
  obtain ⟨rfl, last⟩ := leap h
  have fourth : (cycle * 400 + (100 * century + 4 * group + 3 : Nat) + 1) % 4 = 0 := by omega
  have hundredth : (cycle * 400 + (100 * century + 4 * group + 3 : Nat) + 1) % 100 ≠ 0 ∨
      (cycle * 400 + (100 * century + 4 * group + 3 : Nat) + 1) % 400 = 0 := by omega
  simp only [CycleDay.yearNumber]
  generalize cycle * 400 + (100 * century + 4 * group + 3 : Nat) + 1 = year at *
  simpa [isLeapYear, fourth] using hundredth

/-- The months from March to January have their days whatever the year is. -/
theorem daysBeforeMonth_succ_le (year : Int) {marchMonth : Nat} (h : marchMonth ≤ 10) :
    daysBeforeMonth (marchMonth + 1) ≤ daysBeforeMonth marchMonth +
      daysInMonth year (if marchMonth < 10 then marchMonth + 3 else marchMonth - 9) := by
  interval_cases marchMonth <;> exact Nat.le_refl _

/-- Every day has a valid date. -/
theorem isValid_ofDayNumber (number : Int) : (Date.ofDayNumber number).isValid = true := by
  obtain ⟨cycle, p, rfl⟩ := exists_ofDayNumber_eq number
  obtain ⟨bound, starts, ends⟩ := month_spec p.day_le
  have last := p.day_le
  rw [ofDayNumber_eq]
  generalize hm : (5 * p.day + 2) / 153 = marchMonth at *
  simp only [Date.isValid, Bool.and_eq_true, decide_eq_true_eq]
  refine ⟨by omega, ?_⟩
  by_cases february : marchMonth = 11
  case neg =>
    generalize cycle * 400 + _ + _ = year
    have before : marchMonth ≤ 10 := by omega
    have length := daysBeforeMonth_succ_le year before
    omega
  case pos =>
    subst february
    have starts : daysBeforeMonth 11 = 337 := rfl
    simp only [daysInMonth, starts]
    by_cases leap : p.day = 365
    case pos => simp [isLeapYear_of_day leap cycle, leap]
    case neg =>
      simp only [Nat.reduceLT, Nat.reduceSub, Nat.reduceLeDiff, if_true, if_false]
      split <;> omega

end SearchIndex.Calendar
