import SearchIndex.Calendar.Timestamp
import SearchIndex.Proofs.Calendar.Date

/-!
# Timestamps read back

A timestamp is read back as the instant that it was written for, if timestamps are kept
for its year at all: `Instant.ofTimestamp?_timestamp`. Each part of a timestamp is read
with whatever stands behind it, which ends the part because it is no digit or because the
part has its full width.
-/

namespace SearchIndex

namespace Text

theorem length_digits_le {width n : Nat} (hw : 1 ≤ width) (h : n < Nat.pow 10 width) :
    (digits n).length ≤ width := by
  induction width generalizing n with
  | zero => exact absurd hw (by decide)
  | succ width ih =>
      by_cases small : n < 10
      case pos => rw [digits_of_lt small]; exact Nat.le_add_left 1 width
      case neg =>
        have more : 1 ≤ width := by
          by_contra none
          have zero : width = 0 := by omega
          subst zero
          exact small h
        have tens : n / 10 < Nat.pow 10 width :=
          Nat.div_lt_of_lt_mul (Nat.lt_of_lt_of_eq h Nat.pow_succ')
        rw [digits_of_ge (by omega), List.length_append]
        exact Nat.succ_le_succ (ih more tens)

/-- A number that fits has exactly the width it is filled up to. -/
theorem length_padded {width n : Nat} (hw : 1 ≤ width) (h : n < Nat.pow 10 width) :
    (padded width n).length = width := by
  have := length_digits_le hw h
  rw [padded, List.length_append, List.length_replicate]
  omega

theorem padded_ne_nil (width n : Nat) : padded width n ≠ [] := by
  simp [padded, digits_ne_nil]

theorem isDigit_of_mem_padded {width n : Nat} {c : Char} (h : c ∈ padded width n) :
    isDigit c = true := by
  rcases List.mem_append.mp h with zero | digit
  · rw [(List.mem_replicate.mp zero).2]
    rfl
  · exact isDigit_of_mem_digits digit

theorem valueFrom_padded (width n : Nat) : valueFrom 0 (padded width n) = n := by
  have zeros (k : Nat) : valueFrom 0 (List.replicate k '0') = 0 := by
    induction k with
    | zero => rfl
    | succ k ih => exact ih
  rw [padded, valueFrom_append, zeros, valueFrom_digits]

theorem not_isBlank_of_isDigit {c : Char} (h : isDigit c = true) : isBlank c = false := by
  have lower : 48 ≤ c.toNat := of_decide_eq_true (Bool.and_eq_true_iff.mp h).1
  have upper : c.toNat ≤ 57 := of_decide_eq_true (Bool.and_eq_true_iff.mp h).2
  rw [isBlank, List.any_eq_false]
  intro range hr inside
  simp only [blankRanges, List.mem_cons, List.not_mem_nil, or_false] at hr
  simp only [Bool.and_eq_true, decide_eq_true_eq] at inside
  rcases hr with rfl | rfl | rfl | rfl | rfl | rfl | rfl | rfl | rfl | rfl <;>
    simp at inside <;> omega

theorem exists_padded_eq_cons (width n : Nat) :
    ∃ c cs, padded width n = c :: cs ∧ isDigit c = true := by
  obtain ⟨c, cs, written⟩ := List.exists_cons_of_ne_nil (padded_ne_nil width n)
  exact ⟨c, cs, written, isDigit_of_mem_padded (written ▸ List.mem_cons_self)⟩

/-- A text that begins with a digit has no blank to begin with. -/
theorem trimStart_padded (width n : Nat) (rest : List Char) :
    trimStart (padded width n ++ rest) = padded width n ++ rest := by
  obtain ⟨c, cs, written, digit⟩ := exists_padded_eq_cons width n
  rw [written, trimStart, List.cons_append, List.dropWhile_cons_of_neg]
  simp [not_isBlank_of_isDigit digit]

end Text

namespace Calendar

theorem daysInMonth_spec (year : Int) (month : Nat) :
    daysInMonth year month ≤ 31 ∧ (12 < month → daysInMonth year month = 0) := by
  unfold daysInMonth
  split
  · split <;> omega
  all_goals omega

/-- The month and the day of a valid date have two digits. -/
theorem Date.fits_of_isValid {date : Date} (h : date.isValid = true) :
    date.month < 100 ∧ date.day < 100 := by
  obtain ⟨most, none⟩ := daysInMonth_spec date.year date.month
  simp only [isValid, Bool.and_eq_true, decide_eq_true_eq] at h
  omega

/-- A text ends whatever run of digits stands before it. -/
def EndsRun (rest : List Char) : Prop :=
  ∀ c ∈ rest.head?, Text.isDigit c = false

/-- A run of digits is read, if it is full or ended by what follows. -/
theorem readNumber_append {width : Nat} {run rest : List Char} (some : run ≠ [])
    (digits : ∀ c ∈ run, Text.isDigit c = true) (fits : run.length ≤ width)
    (ends : run.length = width ∨ EndsRun rest) :
    readNumber width (run ++ rest) = .some (Text.valueFrom 0 run, rest) := by
  have none : (rest.take (width - run.length)).takeWhile Text.isDigit = [] := by
    rcases ends with full | ends
    · rw [full, Nat.sub_self, List.take_zero, List.takeWhile_nil]
    · cases rest with
      | nil => rw [List.take_nil, List.takeWhile_nil]
      | cons c rest =>
          have other := ends c rfl
          cases width - run.length <;> simp [other]
  have taken : ((run ++ rest).take width).takeWhile Text.isDigit = run := by
    rw [List.take_append, List.take_of_length_le fits, List.takeWhile_append_of_pos digits, none,
      List.append_nil]
  have value : Text.value? run = Text.valueFrom 0 run :=
    if_pos ⟨some, List.all_eq_true.mpr digits⟩
  rw [readNumber]
  simp only [taken, value, List.drop_left, Option.map_some]

/-- A number of a given width is read, if it fits. -/
theorem readNumber_padded {width n : Nat} (hw : 1 ≤ width) (fits : n < Nat.pow 10 width)
    (rest : List Char) : readNumber width (Text.padded width n ++ rest) = some (n, rest) := by
  have full := Text.length_padded hw fits
  rw [readNumber_append (Text.padded_ne_nil _ _) (fun _ => Text.isDigit_of_mem_padded)
    (Nat.le_of_eq full) (.inl full), Text.valueFrom_padded]

theorem readField_padded {n : Nat} (fits : n < 100) (rest : List Char) :
    readField 2 (Text.padded 2 n ++ rest) = some (n, rest) := by
  rw [readField, Text.trimStart_padded, readNumber_padded (by decide) fits]

/-- The digits of a number behind a sign are read, however many they are. -/
theorem readNumber_signed (width n : Nat) {rest : List Char} (ends : EndsRun rest) :
    readNumber (Text.padded width n ++ rest).length (Text.padded width n ++ rest) =
      some (n, rest) := by
  rw [readNumber_append (Text.padded_ne_nil _ _) (fun _ => Text.isDigit_of_mem_padded)
    (by simp) (.inr ends), Text.valueFrom_padded]

/-- A year is read back. -/
theorem readYear_yearText (year : Int) {rest : List Char} (ends : EndsRun rest) :
    readYear (yearText year ++ rest) = some (year, rest) := by
  rw [yearText]
  by_cases before : year < 0
  case pos =>
    have trimmed : Text.trimStart ('-' :: (Text.padded 4 year.natAbs ++ rest)) =
        '-' :: (Text.padded 4 year.natAbs ++ rest) := rfl
    simp only [if_pos before, List.cons_append, readYear, trimmed,
      readNumber_signed 4 _ ends, Option.map_some]
    congr
    omega
  by_cases after : 9999 < year
  case pos =>
    have trimmed : Text.trimStart ('+' :: (Text.padded 4 year.natAbs ++ rest)) =
        '+' :: (Text.padded 4 year.natAbs ++ rest) := rfl
    simp only [if_neg before, if_pos after, List.cons_append, readYear, trimmed,
      readNumber_signed 4 _ ends, Option.map_some]
    congr
    omega
  case neg =>
    have read : readNumber 4 (Text.padded 4 year.natAbs ++ rest) = some (year.natAbs, rest) :=
      readNumber_padded (by decide) (by simp; omega) rest
    simp only [if_neg before, if_neg after, readYear, Text.trimStart_padded]
    obtain ⟨c, cs, written, digit⟩ := Text.exists_padded_eq_cons 4 year.natAbs
    split
    · next sign =>
      rw [written] at sign
      obtain rfl := (List.cons.inj sign).1
      exact absurd digit (by decide)
    · next sign =>
      rw [written] at sign
      obtain rfl := (List.cons.inj sign).1
      exact absurd digit (by decide)
    · rw [read, Option.map_some]
      congr
      omega

@[simp] theorem readMark_cons {mark : Char} (h : Text.isBlank mark = false) (rest : List Char) :
    readMark mark (mark :: rest) = some rest := by
  rw [readMark, Text.trimStart, List.dropWhile_cons_of_neg (by simp [h])]
  exact if_pos rfl

theorem endsRun_cons {c : Char} (h : Text.isDigit c = false) (rest : List Char) :
    EndsRun (c :: rest) := by
  intro c' hc
  obtain rfl := Option.some.inj hc
  exact h

/-- The date of a day is read back. -/
theorem readDate_written (number : Int) (rest : List Char) :
    let date := Date.ofDayNumber number
    readDate (yearText date.year ++ '-' :: (Text.padded 2 date.month ++
      '-' :: (Text.padded 2 date.day ++ rest))) = some (date, rest) := by
  intro date
  have valid : date.isValid = true := isValid_ofDayNumber number
  obtain ⟨month, day⟩ := date.fits_of_isValid valid
  have dash : Text.isDigit '-' = false := by decide
  have blank : Text.isBlank '-' = false := by decide
  simp only [readDate, readYear_yearText _ (endsRun_cons dash _), readMark_cons blank,
    readField_padded month, readField_padded day, Option.bind_eq_bind, Option.bind_some]
  exact if_pos valid

/-- The places of a second are read back. -/
theorem readFraction_fractionText {fraction : Nat} (h : fraction < nanosPerSecond) :
    readFraction (fractionText fraction ++ ['Z']) = some (fraction, ['Z']) := by
  have places {width n : Nat} (hw : 1 ≤ width ∧ width ≤ 9) (fits : n < Nat.pow 10 width) :
      readFraction ('.' :: (Text.padded width n ++ ['Z'])) =
        some (n * Nat.pow 10 (9 - width), ['Z']) := by
    have full := Text.length_padded hw.1 fits
    have run : readNumber 9 (Text.padded width n ++ ['Z']) = some (n, ['Z']) := by
      rw [readNumber_append (Text.padded_ne_nil _ _) (fun _ => Text.isDigit_of_mem_padded)
        (by omega) (.inr (endsRun_cons (by decide) [])), Text.valueFrom_padded]
    simp only [readFraction, run, Option.bind_eq_bind, Option.bind_some, List.length_append, full,
      List.length_singleton, Nat.add_sub_cancel]
    rfl
  unfold nanosPerSecond at h
  rw [fractionText]
  split
  · next none => rw [none]; rfl
  split
  · next millis =>
    rw [List.cons_append, places (by decide) (by simp; omega)]
    congr
    simp
    omega
  split
  · next micros =>
    rw [List.cons_append, places (by decide) (by simp; omega)]
    congr
    simp
    omega
  · rw [List.cons_append, places (by decide) (by simp; omega)]
    simp

/-- An instant that timestamps are kept for: its year is one of those, and its nanoseconds
lie in its second, or else in a leap second, which only follows the last one of a minute. -/
structure Instant.IsKept (i : Instant) : Prop where
  year : isKeptYear i.date.year = true
  nanos : i.nanos < nanosPerSecond ∨ i.nanos < 2 * nanosPerSecond ∧ i.seconds % 60 = 59

namespace Instant

/-- The second of the minute, and the nanoseconds into it, tell the second of the day and
the nanoseconds of an instant. -/
theorem IsKept.second_spec {i : Instant} (kept : i.IsKept) :
    i.second ≤ 60 ∧ i.hour * 3600 + i.minute * 60 + min i.second 59 = i.secondOfDay ∧
      i.fraction + (if i.second = 60 then nanosPerSecond else 0) = i.nanos := by
  have parts : i.hour * 3600 + i.minute * 60 + i.secondOfDay % 60 = i.secondOfDay := by
    unfold hour minute
    omega
  by_cases leap : i.nanos < nanosPerSecond
  case pos =>
    have second : i.second = i.secondOfDay % 60 := by
      rw [Instant.second, Nat.div_eq_of_lt leap, Nat.add_zero]
    rw [second, fraction, Nat.mod_eq_of_lt leap, if_neg (by omega)]
    omega
  case neg =>
    obtain ⟨below, last⟩ := kept.nanos.resolve_left leap
    have last : i.secondOfDay % 60 = 59 := by
      unfold secondOfDay secondsPerDay
      omega
    have second : i.second = 60 := by
      unfold Instant.second nanosPerSecond at *
      omega
    have fraction : i.fraction + nanosPerSecond = i.nanos := by
      unfold Instant.fraction nanosPerSecond at *
      omega
    rw [second, if_pos rfl, fraction]
    omega

end Instant

/-- The time of the day of an instant is read back. -/
theorem readTime_written {i : Instant} (kept : i.IsKept) :
    readTime (Text.padded 2 i.hour ++ ':' :: (Text.padded 2 i.minute ++
      ':' :: (Text.padded 2 i.second ++ (fractionText i.fraction ++ ['Z'])))) =
      some ((i.secondOfDay, i.nanos), ['Z']) := by
  have blank : Text.isBlank ':' = false := by decide
  have hour : i.hour < 24 := by
    unfold Instant.hour Instant.secondOfDay secondsPerDay
    omega
  have minute : i.minute < 60 := Nat.mod_lt _ (by decide)
  have fraction : i.fraction < nanosPerSecond := Nat.mod_lt _ (by decide)
  obtain ⟨second, whole, nanos⟩ := kept.second_spec
  simp only [readTime, readMark_cons blank, readField_padded (Nat.lt_trans hour (by decide)),
    readField_padded (Nat.lt_trans minute (by decide)),
    readField_padded (Nat.lt_of_le_of_lt second (by decide)), readFraction_fractionText fraction,
    Option.bind_eq_bind, Option.bind_some]
  rw [if_pos ⟨hour, minute, second⟩, whole, nanos]

/-- A timestamp is read back. -/
theorem Instant.ofTimestamp?_timestamp {i : Instant} (kept : i.IsKept) :
    Instant.ofTimestamp? i.timestamp = some i := by
  have text : i.timestamp = yearText i.date.year ++ '-' :: (Text.padded 2 i.date.month ++
      '-' :: (Text.padded 2 i.date.day ++ ('T' :: (Text.padded 2 i.hour ++
        ':' :: (Text.padded 2 i.minute ++ ':' :: (Text.padded 2 i.second ++
          (fractionText i.fraction ++ ['Z']))))))) := by
    simp [timestamp]
  have seconds : i.date.dayNumber * secondsPerDay + i.secondOfDay - 0 = i.seconds := by
    rw [date, dayNumber_ofDayNumber]
    unfold secondOfDay secondsPerDay
    omega
  have offset : readOffset (Text.trimStart ['Z']) = some (0, []) := rfl
  have day : readDate i.timestamp = some (i.date, 'T' :: (Text.padded 2 i.hour ++
      ':' :: (Text.padded 2 i.minute ++ ':' :: (Text.padded 2 i.second ++
        (fractionText i.fraction ++ ['Z']))))) := by
    rw [text]
    exact readDate_written _ _
  simp only [ofTimestamp?, day, Option.bind_eq_bind, Option.bind_some, readTime_written kept,
    offset, seconds]
  rw [kept.year]
  rfl

end Calendar

end SearchIndex
