import SearchIndex.Proofs.Calendar.Timestamp
import SearchIndex.Proofs.Text.Digits

/-!
# What timestamps are read as

Timestamps are read in more forms than the one in which they are written: with an offset
from UTC, with fewer digits, with more places of the second. Whatever the form is, the
instant that comes of it is one that timestamps are kept for, so that it can be written
and read again: `Instant.isKept_of_ofTimestamp?`. Offsets are whole minutes, and therefore
a leap second still follows the last second of a minute in UTC.
-/

namespace SearchIndex

namespace Calendar

/-- A number that is read has no more places than the run of digits that is used up for it. -/
theorem exists_run_of_readNumber {width n : Nat} {text rest : List Char}
    (h : readNumber width text = some (n, rest)) :
    ∃ run, text = run ++ rest ∧ run.length ≤ width ∧ n < Nat.pow 10 run.length := by
  obtain ⟨value, hvalue, heq⟩ := Option.map_eq_some_iff.mp h
  obtain ⟨rfl, rfl⟩ := Prod.mk.inj heq
  have part : (text.take width).takeWhile Text.isDigit <+: text :=
    (List.takeWhile_prefix _).trans (List.take_prefix _ _)
  refine ⟨_, (List.prefix_iff_eq_append.mp part).symm, ?_, ?_⟩
  · exact (List.takeWhile_prefix _).length_le.trans (List.length_take_le _ _)
  · rw [Text.value?] at hvalue
    split at hvalue
    · next digits =>
      obtain rfl := Option.some.inj hvalue
      have below := Text.valueFrom_lt (List.all_eq_true.mp digits.2) 0
      rwa [Nat.zero_add, Nat.one_mul] at below
    · cases hvalue

/-- The places of a second are less than a second. -/
theorem readFraction_lt {text rest : List Char} {nanos : Nat}
    (h : readFraction text = some (nanos, rest)) : nanos < nanosPerSecond := by
  unfold readFraction at h
  split at h
  · next text =>
    obtain ⟨⟨n, rest'⟩, read, heq⟩ := Option.bind_eq_some_iff.mp h
    obtain ⟨rfl, -⟩ := Prod.mk.inj (Option.some.inj heq)
    obtain ⟨run, rfl, short, below⟩ := exists_run_of_readNumber read
    have places : (run ++ rest').length - rest'.length = run.length := by simp
    rw [places]
    calc n * Nat.pow 10 (9 - run.length)
        < Nat.pow 10 run.length * Nat.pow 10 (9 - run.length) :=
          Nat.mul_lt_mul_of_pos_right below (Nat.pow_pos (by decide))
      _ = Nat.pow 10 (run.length + (9 - run.length)) := (Nat.pow_add ..).symm
      _ = nanosPerSecond := by rw [Nat.add_sub_cancel' short]; rfl
  · obtain ⟨rfl, -⟩ := Prod.mk.inj (Option.some.inj h)
    decide

/-- The nanoseconds of a time lie in its second, or in a leap second at the end of its minute. -/
theorem readTime_spec {text rest : List Char} {second nanos : Nat}
    (h : readTime text = some ((second, nanos), rest)) :
    nanos < nanosPerSecond ∨ nanos < 2 * nanosPerSecond ∧ second % 60 = 59 := by
  simp only [readTime, Option.bind_eq_bind, Option.bind_eq_some_iff] at h
  obtain ⟨⟨hour, _⟩, -, _, -, ⟨minute, _⟩, -, _, -, ⟨last, _⟩, -, ⟨fraction, _⟩, read, h⟩ := h
  have below := readFraction_lt read
  split at h
  · obtain ⟨here, -⟩ := Prod.mk.inj (Option.some.inj h)
    obtain ⟨rfl, rfl⟩ := Prod.mk.inj here
    by_cases leap : last = 60
    · subst leap
      rw [if_pos rfl]
      exact .inr ⟨by omega, by omega⟩
    · rw [if_neg leap]
      exact .inl below
  · cases h

theorem readOffsetSize_mod {text rest : List Char} {offset : Int}
    (h : readOffsetSize text = some (offset, rest)) : offset % 60 = 0 := by
  simp only [readOffsetSize, Option.bind_eq_bind, Option.bind_eq_some_iff] at h
  obtain ⟨⟨hours, _⟩, -, ⟨minutes, _⟩, -, h⟩ := h
  split at h
  · obtain ⟨rfl, -⟩ := Prod.mk.inj (Option.some.inj h)
    omega
  · cases h

/-- An offset from UTC is a number of whole minutes. -/
theorem readOffset_mod {text rest : List Char} {offset : Int}
    (h : readOffset text = some (offset, rest)) : offset % 60 = 0 := by
  have opposite {text : List Char}
      (h : (readOffsetSize text).map (fun read => (-read.1, read.2)) = some (offset, rest)) :
      offset % 60 = 0 := by
    obtain ⟨⟨size, _⟩, read, heq⟩ := Option.map_eq_some_iff.mp h
    obtain ⟨rfl, -⟩ := Prod.mk.inj heq
    have whole := readOffsetSize_mod read
    omega
  have zero {rest' : List Char} (h : some ((0 : Int), rest') = some (offset, rest)) :
      offset % 60 = 0 := by
    obtain ⟨rfl, -⟩ := Prod.mk.inj (Option.some.inj h)
    rfl
  unfold readOffset at h
  split at h
  · exact zero h
  · split at h
    · exact zero h
    · exact zero h
    · exact readOffsetSize_mod h
    · exact opposite h
    · exact opposite h
    · cases h

/-- An instant that is put together from what is read is kept, if its year is. -/
theorem isKept_of_read {text text' rest rest' : List Char} {second nanos : Nat} {offset : Int}
    (time : readTime text = some ((second, nanos), rest))
    (shift : readOffset text' = some (offset, rest')) (day : Int)
    (year : isKeptYear (Instant.date ⟨day * secondsPerDay + second - offset, nanos⟩).year = true) :
    Instant.IsKept ⟨day * secondsPerDay + second - offset, nanos⟩ := by
  refine ⟨year, (readTime_spec time).imp_right ?_⟩
  rintro ⟨below, last⟩
  have whole := readOffset_mod shift
  refine ⟨below, ?_⟩
  show (day * 86400 + second - offset) % 60 = 59
  omega

/-- Timestamps are kept for the years that have four digits. -/
theorem Instant.isKept_of_year {i : Instant} (first : 0 ≤ i.date.year) (last : i.date.year ≤ 9999)
    (nanos : i.nanos < nanosPerSecond) : i.IsKept := by
  refine ⟨?_, .inl nanos⟩
  simp only [isKeptYear, Bool.and_eq_true, decide_eq_true_eq]
  omega

/-- Timestamps are kept for every instant that is read from one. -/
theorem Instant.isKept_of_ofTimestamp? {text : List Char} {i : Instant}
    (h : ofTimestamp? text = some i) : i.IsKept := by
  simp only [ofTimestamp?, Option.bind_eq_bind] at h
  obtain ⟨⟨date, _⟩, -, h⟩ := Option.bind_eq_some_iff.mp h
  split at h
  case h_4 => cases h
  -- Whatever stands between the date and the time, the rest is the same.
  all_goals
    simp only [Option.bind_some, Option.bind_eq_some_iff] at h
    obtain ⟨_, time, _, shift, h⟩ := h
    split at h
    case isFalse => cases h
    case isTrue conditions =>
      obtain rfl := Option.some.inj h
      exact isKept_of_read time shift date.dayNumber (Bool.and_eq_true_iff.mp conditions).2

end Calendar

end SearchIndex
