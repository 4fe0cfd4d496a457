import Mathlib.Algebra.Field.Rat
import Mathlib.Algebra.Order.Field.Basic
import Mathlib.Algebra.Order.Ring.Rat
import Mathlib.Order.WithBot
import Mathlib.Tactic.Linarith
import Mathlib.Tactic.NormNum
import SearchIndex.Clause

/-!
# Weights are numbers

A weight is kept as the encoding of a number in single precision. `Datum.number?` is the number
that a datum stands for, infinities included, and nothing for what is no number; data are
compared by it. An encoding is a weight if and only if it is at least zero in that sense
(`isSome_ofWord?_iff`), and weights are ordered by their ranks as the numbers are
(`rank_le_rank_iff`), so that they are equal if and only if the numbers are.

The numbers from zero on are whole multiples of the smallest one of them. `units` counts that,
and it grows with the encoding.
-/

namespace SearchIndex

namespace Decimal

/-- A fraction as one of the numbers among which there are also two infinities. -/
def ofRat (q : ℚ) : WithBot (WithTop ℚ) := (q : WithTop ℚ)

theorem ofRat_le_ofRat {q q' : ℚ} : ofRat q ≤ ofRat q' ↔ q ≤ q' := by
  rw [ofRat, ofRat, WithBot.coe_le_coe, WithTop.coe_le_coe]

namespace Datum

/-- The number that a datum stands for, if there is one. Both zeros stand for the same. -/
def number? : Datum → Option (WithBot (WithTop ℚ))
  | .nan => none
  | .infinite negative => some (if negative then ⊥ else ⊤)
  | .finite negative significand exponent =>
    some (ofRat ((if negative then -1 else 1) * significand * 2 ^ exponent))

/-- Data are compared as numbers; what is no number is not at most anything. -/
def AtMost (d other : Datum) : Prop :=
  ∃ x ∈ d.number?, ∃ y ∈ other.number?, x ≤ y

/-- Data are equal if they are the same number; what is no number is equal to nothing. -/
def Equals (d other : Datum) : Prop :=
  ∃ x ∈ d.number?, x ∈ other.number?

/-- The zero without a sign. -/
def zero : Datum := .finite false 0 0

end Datum

/-- The smallest number above zero. -/
def leastNumber : ℚ := 2 ^ (-149 : ℤ)

theorem leastNumber_pos : 0 < leastNumber :=
  zpow_pos (by norm_num) _

/-- How many times the smallest number above zero is in the number with a given encoding. -/
def units (word : Nat) : Nat :=
  if word / 8388608 = 0 then word % 8388608
  else (8388608 + word % 8388608) * 2 ^ (word / 8388608 - 1)

theorem units_eq {quotient rest : Nat} (small : rest < 8388608) :
    units (8388608 * quotient + rest) =
      if quotient = 0 then rest else (8388608 + rest) * 2 ^ (quotient - 1) := by
  have parts : (8388608 * quotient + rest) / 8388608 = quotient ∧
      (8388608 * quotient + rest) % 8388608 = rest := by omega
  rw [units, parts.1, parts.2]

/-- The next encoding has more units, also where the exponent changes. -/
theorem units_lt_succ (word : Nat) : units word < units (word + 1) := by
  obtain ⟨quotient, rest, small, rfl⟩ : ∃ quotient rest, rest < 8388608 ∧
      word = 8388608 * quotient + rest :=
    ⟨word / 8388608, word % 8388608, by omega, by omega⟩
  by_cases last : rest + 1 = 8388608
  case neg =>
    have inside : rest + 1 < 8388608 := by omega
    rw [units_eq small, Nat.add_assoc, units_eq inside]
    cases quotient with
    | zero => simp
    | succ exponent =>
        have positive : 0 < 2 ^ exponent := Nat.two_pow_pos exponent
        simp only [Nat.add_sub_cancel, Nat.succ_ne_zero, if_false]
        exact Nat.mul_lt_mul_of_pos_right (by omega) positive
  case pos =>
    have next : 8388608 * quotient + rest + 1 = 8388608 * (quotient + 1) + 0 := by omega
    rw [next, units_eq small, units_eq (by decide)]
    cases quotient with
    | zero => simpa using small
    | succ exponent =>
        have positive : 0 < 2 ^ exponent := Nat.two_pow_pos exponent
        have doubled : (8388608 + 0) * 2 ^ (exponent + 1) = (8388608 + 8388608) * 2 ^ exponent := by
          rw [Nat.pow_succ]
          omega
        simp only [Nat.add_sub_cancel, Nat.succ_ne_zero, if_false, doubled]
        exact Nat.mul_lt_mul_of_pos_right (by omega) positive

theorem units_strictMono : StrictMono units :=
  strictMono_nat_of_lt_succ units_lt_succ

/-- The encodings in single precision, with the sign apart. -/
theorem decode_single (negative : Bool) {word : Nat} (h : word < 0x80000000) :
    Format.single.decode (word + 0x80000000 * negative.toNat) =
      if word / 8388608 = 255 then if word % 8388608 = 0 then .infinite negative else .nan
      else if word / 8388608 = 0 then .finite negative (word % 8388608) (-149)
      else .finite negative (8388608 + word % 8388608) (-149 + ((word / 8388608 : Nat) - 1)) := by
  have fraction : (word + 0x80000000 * negative.toNat) % 8388608 = word % 8388608 := by omega
  have exponent : (word + 0x80000000 * negative.toNat) / 8388608 % 256 = word / 8388608 := by
    omega
  have sign : ((word + 0x80000000 * negative.toNat) / 0x80000000 % 2 == 1) = negative := by
    have digit : (word + 0x80000000 * negative.toNat) / 0x80000000 % 2 = negative.toNat := by
      cases negative with
      | false => simp only [Bool.toNat_false]; omega
      | true => simp only [Bool.toNat_true]; omega
    rw [digit]
    cases negative <;> rfl
  have widths : twoTo Format.single.fractionBits = 8388608 ∧
      twoTo Format.single.exponentBits = 256 ∧
      twoTo (Format.single.fractionBits + Format.single.exponentBits) = 0x80000000 ∧
      Format.single.leastExponent = -149 := by decide
  simp only [Format.decode, widths, fraction, exponent, sign, Nat.reduceEqDiff]

/-- A finite encoding stands for its units, with its sign. -/
theorem number?_decode_single (negative : Bool) {word : Nat} (h : word < 0x7f800000) :
    (Format.single.decode (word + 0x80000000 * negative.toNat)).number? =
      some (ofRat ((if negative then -1 else 1) * units word * leastNumber)) := by
  have finite : word / 8388608 ≠ 255 := by omega
  rw [decode_single negative (by omega), if_neg finite]
  by_cases subnormal : word / 8388608 = 0
  case pos =>
    rw [if_pos subnormal, units, if_pos subnormal]
    rfl
  case neg =>
    rw [if_neg subnormal, units, if_neg subnormal, Datum.number?]
    have power : (2 : ℚ) ^ (-149 + ((word / 8388608 : Nat) - 1) : ℤ) =
        2 ^ (word / 8388608 - 1) * leastNumber := by
      rw [add_comm, zpow_add₀ (by norm_num), leastNumber]
      congr 1
      rw [← zpow_natCast]
      congr 1
      omega
    rw [power]
    push_cast
    simp only [mul_assoc]

theorem number?_decode_single_infinite (negative : Bool) :
    (Format.single.decode (0x7f800000 + 0x80000000 * negative.toNat)).number? =
      some (if negative then ⊥ else ⊤) := by
  rw [decode_single negative (by decide)]
  rfl

/-- Above the infinity of a sign, there are no numbers. -/
theorem number?_decode_single_nan (negative : Bool) {word : Nat} (h : 0x7f800000 < word)
    (h' : word < 0x80000000) :
    (Format.single.decode (word + 0x80000000 * negative.toNat)).number? = none := by
  have exponent : word / 8388608 = 255 := by omega
  have fraction : word % 8388608 ≠ 0 := by omega
  rw [decode_single negative h', if_pos exponent, if_neg fraction, Datum.number?]

end Decimal

open Decimal (Datum Format ofRat ofRat_le_ofRat leastNumber leastNumber_pos units units_strictMono)

namespace Weight

/-- The datum that a weight is. -/
def datum (w : Weight) : Datum :=
  Format.single.decode w.word

/-- The number with a given rank. -/
def rankNumber (rank : Nat) : WithBot (WithTop ℚ) :=
  if rank < 0x7f800000 then ofRat (units rank * leastNumber) else ⊤

theorem rank_le (w : Weight) : w.rank ≤ 0x7f800000 := by
  have valid := w.valid
  rw [rank]
  split <;> omega

theorem number?_datum (w : Weight) : w.datum.number? = some (rankNumber w.rank) := by
  rw [datum, rank, rankNumber]
  by_cases negative : w.word = 0x80000000
  case pos =>
    have written : w.word = 0 + 0x80000000 * Bool.toNat true := negative
    rw [if_pos negative, if_pos (by decide), written,
      Decimal.number?_decode_single true (by decide)]
    simp [units]
  case neg =>
    have positive : w.word ≤ 0x7f800000 := w.valid.resolve_right negative
    have written : w.word = w.word + 0x80000000 * Bool.toNat false := rfl
    rw [if_neg negative]
    by_cases finite : w.word < 0x7f800000
    case pos =>
      rw [if_pos finite, written, Decimal.number?_decode_single false finite]
      simp
    case neg =>
      have infinite : w.word = 0x7f800000 := by omega
      rw [if_neg finite, infinite]
      exact Decimal.number?_decode_single_infinite false

/-- Numbers are ordered as their ranks. -/
theorem rankNumber_le_iff {rank rank' : Nat} (h : rank ≤ 0x7f800000) (h' : rank' ≤ 0x7f800000) :
    rankNumber rank ≤ rankNumber rank' ↔ rank ≤ rank' := by
  rw [rankNumber, rankNumber]
  by_cases finite : rank < 0x7f800000 <;> by_cases finite' : rank' < 0x7f800000
  · rw [if_pos finite, if_pos finite', ofRat_le_ofRat, mul_le_mul_iff_left₀ leastNumber_pos, Nat.cast_le,
      units_strictMono.le_iff_le]
  · rw [if_pos finite, if_neg finite']
    simp only [le_top, true_iff]
    omega
  · rw [if_neg finite, if_pos finite']
    have apart : ¬(⊤ : WithBot (WithTop ℚ)) ≤ ofRat (units rank' * leastNumber) := by
      rw [top_le_iff, ofRat]
      exact WithBot.coe_injective.ne (WithTop.coe_ne_top)
    simp only [apart, false_iff]
    omega
  · rw [if_neg finite, if_neg finite']
    simp only [le_refl, true_iff]
    omega

/-- Weights are ordered by their ranks as the numbers are that they stand for. -/
theorem rank_le_rank_iff {a b : Weight} : a.rank ≤ b.rank ↔ a.datum.AtMost b.datum := by
  rw [← rankNumber_le_iff a.rank_le b.rank_le, Datum.AtMost, number?_datum, number?_datum]
  simp

/-- Weights are equal if and only if they stand for the same number. -/
theorem beq_iff_equals {a b : Weight} : (a == b) = true ↔ a.datum.Equals b.datum := by
  have same : a.rank = b.rank ↔ rankNumber a.rank = rankNumber b.rank := by
    rw [le_antisymm_iff, le_antisymm_iff, rankNumber_le_iff a.rank_le b.rank_le,
      rankNumber_le_iff b.rank_le a.rank_le]
  rw [beq_iff, same, Datum.Equals, number?_datum, number?_datum]
  simp [eq_comm]

/-- A weight is at least zero, and so it is a number. -/
theorem zero_atMost_datum (w : Weight) : Datum.zero.AtMost w.datum := by
  have zero : Datum.zero.number? = some (rankNumber 0) := by
    rw [rankNumber, if_pos (by decide)]
    simp [Datum.zero, Datum.number?, units]
  rw [Datum.AtMost, zero, number?_datum]
  refine ⟨_, rfl, _, rfl, ?_⟩
  rw [rankNumber_le_iff (Nat.zero_le _) w.rank_le]
  exact Nat.zero_le _

/-- What is not the encoding of a weight is the encoding of a number below zero, or of none. -/
theorem not_zero_atMost_decode {word : Nat} (h : word < 2 ^ 32) (above : 0x7f800000 < word)
    (ne : word ≠ 0x80000000) : ¬Datum.zero.AtMost (Format.single.decode word) := by
  rintro ⟨x, zero, y, number, le⟩
  obtain rfl : ofRat 0 = x := by simpa [Datum.zero, Datum.number?] using zero
  by_cases positive : word < 0x80000000
  case pos =>
    have missing := Decimal.number?_decode_single_nan false above positive
    rw [Bool.toNat_false, Nat.mul_zero, Nat.add_zero] at missing
    rw [missing] at number
    cases number
  case neg =>
    obtain ⟨magnitude, rfl⟩ : ∃ magnitude, word = magnitude + 0x80000000 * Bool.toNat true :=
      ⟨word - 0x80000000, by simp only [Bool.toNat_true]; omega⟩
    simp only [Bool.toNat_true] at h ne
    rcases Nat.lt_trichotomy magnitude 0x7f800000 with finite | rfl | beyond
    · rw [Decimal.number?_decode_single true finite] at number
      obtain rfl := Option.some.inj number
      have some : 0 < units magnitude := units_strictMono (show 0 < magnitude by omega)
      have below := mul_pos (Nat.cast_pos.mpr some) leastNumber_pos
      rw [ofRat_le_ofRat] at le
      simp only [if_true] at le
      linarith
    · rw [Decimal.number?_decode_single_infinite] at number
      obtain rfl := Option.some.inj number
      simp [ofRat] at le
    · rw [Decimal.number?_decode_single_nan true beyond (by omega)] at number
      cases number

/-- An encoding is a weight if and only if it is the encoding of a number that is at least
zero. -/
theorem isSome_ofWord?_iff {word : Nat} (h : word < 2 ^ 32) :
    (ofWord? word).isSome = true ↔ Datum.zero.AtMost (Format.single.decode word) := by
  rw [ofWord?]
  by_cases valid : word ≤ 0x7f800000 ∨ word = 0x80000000
  case pos =>
    rw [dif_pos valid]
    exact ⟨fun _ => zero_atMost_datum ⟨word, valid⟩, fun _ => rfl⟩
  case neg =>
    rw [dif_neg valid]
    have apart := not_zero_atMost_decode h (by omega) (fun same => valid (.inr same))
    exact ⟨nofun, fun number => absurd number apart⟩

end Weight

end SearchIndex
