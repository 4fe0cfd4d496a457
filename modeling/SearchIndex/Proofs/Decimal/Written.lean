import SearchIndex.Proofs.Decimal.Numeral
import SearchIndex.Proofs.Decimal.Rounding

/-!
# What is written for a number

A number is written as the canonical decimal of its thousandths: `Datum.isWrittenAs_text`. So
nothing but the rounding is lost, and two numbers have the same text if and only if they have the
same thousandths, with the same sign. For weights, which are the numbers in queries, the decimal
is within half a thousandth of the number: `Weight.exists_read?_text`.
-/

namespace SearchIndex

namespace Decimal

namespace Datum

/-- A datum is a number below zero. Neither zero is one, nor is what is no number. -/
def IsBelowZero (d : Datum) : Prop :=
  ∃ x ∈ d.number?, x < ofRat 0

theorem isNegative_iff {d : Datum} : d.isNegative = true ↔ d.IsBelowZero := by
  cases d with
  | nan => simp [isNegative, IsBelowZero, number?]
  | infinite negative => cases negative <;> simp [isNegative, IsBelowZero, number?, ofRat]
  | finite negative significand exponent =>
      have scale : (0 : ℚ) < 2 ^ exponent := zpow_pos (by norm_num) exponent
      have order : ∀ x : ℚ, ofRat x < ofRat 0 ↔ x < 0 := fun x => by
        rw [← not_le, ofRat_le_ofRat, not_le]
      have zero : significand = 0 ∨ 0 < (significand : ℚ) :=
        (Nat.eq_zero_or_pos significand).imp_right fun some => by exact_mod_cast some
      simp only [isNegative, IsBelowZero, number?, Option.mem_def, Option.some.injEq,
        exists_eq_left', order]
      rcases zero with rfl | positive
      · simp
      · have size := mul_pos positive scale
        have some : significand ≠ 0 := by
          rintro rfl
          simp at positive
        cases negative with
        | false =>
            simp only [Bool.false_and, Bool.false_eq_true, if_false, one_mul, false_iff, not_lt]
            exact size.le
        | true => simpa [some] using size

instance : DecidablePred IsBelowZero :=
  fun _ => decidable_of_iff _ isNegative_iff

/-- The thousandths of a datum with its sign. -/
def signedThousandths (d : Datum) : ℤ :=
  if d.IsBelowZero then -d.thousandths else d.thousandths

/-- The decimal of a datum. -/
def numeral (d : Datum) : Numeral :=
  .ofCount d.isNegative d.thousandths

theorem text_numeral (d : Datum) : d.numeral.text = d.text := rfl

theorem negative_numeral (d : Datum) :
    d.numeral.negative = true ↔ d.IsBelowZero ∧ d.thousandths ≠ 0 := by
  rw [← isNegative_iff, numeral, Numeral.ofCount, Bool.and_eq_true, bne_iff_ne]

theorem number_numeral (d : Datum) : d.numeral.number = d.signedThousandths / 1000 := by
  rw [numeral, Numeral.number_ofCount, signedThousandths]
  by_cases below : d.IsBelowZero
  · simp [below, isNegative_iff.mpr below]
  · simp [below, mt isNegative_iff.mp below]

theorem isCanonical_numeral (d : Datum) : d.numeral.IsCanonical :=
  Numeral.isCanonical_ofCount _ _

/-- What is written for a datum reads back as its thousandths. -/
theorem read?_text (d : Datum) : read? d.text = some (d.signedThousandths / 1000 : ℚ) := by
  rw [← text_numeral, read?, Numeral.ofText?_text d.isCanonical_numeral.toIsProper,
    Option.map_some, number_numeral]

/-- Data have the same text if and only if they have the same thousandths, with the same sign. -/
theorem text_eq_text_iff {d other : Datum} :
    d.text = other.text ↔ d.signedThousandths = other.signedThousandths := by
  constructor
  · intro same
    have numbers := Option.some.inj (d.read?_text.symm.trans (same ▸ other.read?_text))
    rw [div_left_inj' (by norm_num)] at numbers
    exact_mod_cast numbers
  · intro same
    have numbers : d.numeral.number = other.numeral.number := by
      rw [number_numeral, number_numeral, same]
    rw [← text_numeral, d.isCanonical_numeral.eq_of_number_eq other.isCanonical_numeral numbers,
      text_numeral]

/-- A text is what is written for a datum. -/
structure IsWrittenAs (d : Datum) (text : List Char) : Prop where
  /-- The thousandths are those of the magnitude, rounded and capped. -/
  counts : d.Counts d.thousandths ∧ d.thousandths ≤ largestCount
  /-- There is a sign if the number is below zero and has any thousandths, then the whole number
  without leading zeros, a point, and one to three places without trailing zeros. -/
  canonical : ∃ x : Numeral, x.text = text ∧ x.IsCanonical ∧
    (x.negative = true ↔ d.IsBelowZero ∧ d.thousandths ≠ 0) ∧
    Text.value? x.whole = some (d.thousandths / 1000) ∧
    1 ≤ x.fraction.length ∧ x.fraction.length ≤ 3
  /-- The text reads back as exactly that many thousandths. -/
  number : read? text = some (d.signedThousandths / 1000 : ℚ)
  /-- No other canonical decimal does. -/
  unique : ∀ x : Numeral, x.IsCanonical → x.number = d.signedThousandths / 1000 → x.text = text

/-- A number is written as the canonical decimal of its thousandths, and two numbers are written
as the same text if and only if they have the same thousandths, with the same sign. -/
theorem isWrittenAs_text (d : Datum) :
    d.IsWrittenAs d.text ∧
    ∀ other : Datum, d.text = other.text ↔ d.signedThousandths = other.signedThousandths := by
  have parts : d.numeral.IsCanonical := d.isCanonical_numeral
  refine ⟨⟨⟨d.counts_thousandths, d.thousandths_le⟩, ?_, d.read?_text, ?_⟩,
    fun other => text_eq_text_iff⟩
  · exact ⟨d.numeral, rfl, parts, d.negative_numeral, Text.value?_digits _,
      List.length_pos_iff.mpr parts.fraction_ne_nil, length_places_le _⟩
  · intro x canonical same
    rw [canonical.eq_of_number_eq parts (same.trans d.number_numeral.symm), text_numeral]

example : (Format.double.decode 0x4000666666666666).text = ['2', '.', '0', '5'] := by
  decide +kernel

end Datum

end Decimal

namespace Weight

open Decimal (Datum ofRat ofRat_le_ofRat largestCount)

/-- The text of a weight reads back as the weight, to the nearest thousandth. -/
theorem exists_read?_text {w : Weight} {x : ℚ} (number : w.datum.number? = some (ofRat x))
    (kept : 1000 * x < largestCount) :
    ∃ r, Decimal.read? w.text = some r ∧ |r - x| ≤ 1 / 2000 := by
  have nonneg : 0 ≤ x := by
    obtain ⟨zero, hzero, y, hy, le⟩ := w.zero_atMost_datum
    obtain rfl : ofRat 0 = zero := by simpa [Datum.zero, Datum.number?] using hzero
    obtain rfl : ofRat x = y := Option.some.inj (number.symm.trans hy)
    exact ofRat_le_ofRat.mp le
  have positive : ¬w.datum.IsBelowZero := by
    rintro ⟨y, hy, below⟩
    obtain rfl : ofRat x = y := Option.some.inj (number.symm.trans hy)
    exact absurd (ofRat_le_ofRat.mpr nonneg) below.not_ge
  have count : w.datum.thousandths = ⌊1000 * x + 1 / 2⌋₊ := by
    rw [thousandths_eq number, min_eq_left]
    rw [← Nat.lt_succ_iff, Nat.floor_lt (by positivity)]
    push_cast
    linarith
  have lower : (w.datum.thousandths : ℚ) ≤ 1000 * x + 1 / 2 := by
    rw [count]
    exact Nat.floor_le (by positivity)
  have upper : 1000 * x + 1 / 2 < w.datum.thousandths + 1 := by
    rw [count]
    exact Nat.lt_floor_add_one _
  refine ⟨_, w.datum.read?_text, ?_⟩
  rw [Datum.signedThousandths, if_neg positive, Int.cast_natCast, abs_le]
  constructor <;> linarith

end Weight

end SearchIndex
