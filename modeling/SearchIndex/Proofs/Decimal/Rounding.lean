import Mathlib.Algebra.Order.Archimedean.Basic
import Mathlib.Algebra.Order.Floor.Ring
import Mathlib.Algebra.Order.Floor.Semifield
import Mathlib.Data.Nat.Log
import Mathlib.Data.Rat.Floor
import SearchIndex.Proofs.Decimal.Order

/-!
# Thousandths are the nearest ones

A magnitude is multiplied by a thousand as doubles are multiplied, which gives the nearest number
that fits into a double, and of two such numbers the one whose last bit is zero
(`isNearest_product`). That product is rounded to a whole number with halves up and capped:
`Datum.counts_thousandths`. Nothing is lost in the product for weights, since they have fewer
bits, so their thousandths are the nearest ones: `Weight.thousandths_eq`.
-/

namespace SearchIndex

namespace Decimal

/-! ### Numbers that fit into a double -/

/-- A number that fits into the significant bits of a double, whatever its exponent is. -/
def FitsDouble (q : ℚ) : Prop :=
  ∃ (m : ℕ) (e : ℤ), m ≤ 2 ^ precision ∧ q = m * 2 ^ e

/-- A number that uses all of the significant bits of a double, of which the last one is zero. -/
def EndsEven (q : ℚ) : Prop :=
  ∃ (m : ℕ) (e : ℤ), 2 ^ (precision - 1) ≤ m ∧ m ≤ 2 ^ precision ∧ Even m ∧ q = m * 2 ^ e

/-- The number nearest to another one among those that fit into a double. If two of them are as
near, it is the one whose last bit is zero. -/
structure IsNearest (x p : ℚ) : Prop where
  fits : FitsDouble p
  nearest : ∀ q, FitsDouble q → |p - x| ≤ |q - x|
  even : ∀ q, FitsDouble q → |q - x| = |p - x| → q = p ∨ EndsEven p

/-- A number that fits is nearest to itself. -/
theorem FitsDouble.isNearest {x : ℚ} (fits : FitsDouble x) : IsNearest x x where
  fits := fits
  nearest q _ := by simp
  even q _ same := by
    rw [sub_self, abs_zero, abs_eq_zero, sub_eq_zero] at same
    exact .inl same

theorem shiftToEven_zero (n : ℕ) : shiftToEven n 0 = n := by
  simp [shiftToEven, twoTo, Nat.mod_one]

/-- How far a number is from a multiple of a unit. -/
def gap (n unit m : ℕ) : ℕ :=
  ((m * unit : ℕ) - n : ℤ).natAbs

/-- The nearest multiple is one of those around a number: the last one up to it, at the distance of
the rest, and the next one. -/
theorem gap_spec {unit rest : ℕ} (small : rest < unit) (quotient m : ℕ) :
    (m ≤ quotient → rest ≤ gap (quotient * unit + rest) unit m ∧
      (gap (quotient * unit + rest) unit m = rest ↔ m = quotient)) ∧
    (quotient < m → unit - rest ≤ gap (quotient * unit + rest) unit m ∧
      (gap (quotient * unit + rest) unit m = unit - rest ↔ m = quotient + 1)) := by
  unfold gap
  constructor
  · intro le
    obtain ⟨less, rfl⟩ := Nat.exists_eq_add_of_le le
    have parts : (m + less) * unit = m * unit + less * unit := Nat.add_mul m less unit
    have none : less * unit = 0 ↔ less = 0 := by
      rw [Nat.mul_eq_zero]
      omega
    omega
  · intro lt
    obtain ⟨more, rfl⟩ := Nat.exists_eq_add_of_le (Nat.succ_le_of_lt lt)
    have parts : (quotient + 1 + more) * unit = quotient * unit + unit + more * unit := by
      rw [Nat.add_mul, Nat.add_mul, Nat.one_mul]
    have none : more * unit = 0 ↔ more = 0 := by
      rw [Nat.mul_eq_zero]
      omega
    rw [Nat.succ_eq_add_one, parts]
    omega

/-- A quotient is rounded to the nearer one of the whole numbers around it, and to the even one
if both are as near. -/
theorem shiftToEven_cases (n shift : ℕ) :
    (2 * (n % 2 ^ shift) < 2 ^ shift ∧ shiftToEven n shift = n / 2 ^ shift) ∨
    (2 ^ shift < 2 * (n % 2 ^ shift) ∧ shiftToEven n shift = n / 2 ^ shift + 1) ∨
    (2 * (n % 2 ^ shift) = 2 ^ shift ∧ Even (shiftToEven n shift) ∧
      (shiftToEven n shift = n / 2 ^ shift ∨ shiftToEven n shift = n / 2 ^ shift + 1)) := by
  have rounded : shiftToEven n shift =
      if 2 * (n % 2 ^ shift) < 2 ^ shift then n / 2 ^ shift
      else if 2 ^ shift < 2 * (n % 2 ^ shift) then n / 2 ^ shift + 1
      else n / 2 ^ shift + n / 2 ^ shift % 2 := rfl
  rw [rounded]
  by_cases down : 2 * (n % 2 ^ shift) < 2 ^ shift
  case pos => exact .inl ⟨down, if_pos down⟩
  case neg =>
    rw [if_neg down]
    by_cases up : 2 ^ shift < 2 * (n % 2 ^ shift)
    case pos => exact .inr (.inl ⟨up, if_pos up⟩)
    case neg =>
      rw [if_neg up, Nat.even_iff]
      omega

theorem shiftToEven_mem (n shift : ℕ) :
    n / 2 ^ shift ≤ shiftToEven n shift ∧ shiftToEven n shift ≤ n / 2 ^ shift + 1 := by
  rcases shiftToEven_cases n shift with ⟨-, rounded⟩ | ⟨-, rounded⟩ | ⟨-, -, rounded | rounded⟩ <;>
    omega

/-- No multiple is nearer than the one that a quotient is rounded to; if another one is as near,
that one is even. -/
theorem gap_shiftToEven (n shift m : ℕ) :
    gap n (2 ^ shift) (shiftToEven n shift) ≤ gap n (2 ^ shift) m ∧
    (gap n (2 ^ shift) m = gap n (2 ^ shift) (shiftToEven n shift) →
      m = shiftToEven n shift ∨ Even (shiftToEven n shift)) := by
  have small : n % 2 ^ shift < 2 ^ shift := Nat.mod_lt n (Nat.two_pow_pos shift)
  have parts : n / 2 ^ shift * 2 ^ shift + n % 2 ^ shift = n := Nat.div_add_mod' n (2 ^ shift)
  obtain ⟨below, above⟩ := gap_spec small (n / 2 ^ shift) m
  obtain ⟨low, high⟩ := gap_spec small (n / 2 ^ shift) (shiftToEven n shift)
  rw [parts] at below above low high
  rcases shiftToEven_cases n shift with ⟨down, rounded⟩ | ⟨up, rounded⟩ | ⟨half, even, rounded⟩
  · have own := ((low rounded.le).2).mpr rounded
    by_cases le : m ≤ n / 2 ^ shift
    · have := below le
      omega
    · have := above (by omega)
      omega
  · have own := ((high (by omega)).2).mpr rounded
    by_cases le : m ≤ n / 2 ^ shift
    · have := below le
      omega
    · have := above (by omega)
      omega
  · refine ⟨?_, fun _ => .inr even⟩
    have own : gap n (2 ^ shift) (shiftToEven n shift) = n % 2 ^ shift := by
      rcases rounded with rounded | rounded
      · exact ((low rounded.le).2).mpr rounded
      · rw [((high (by omega)).2).mpr rounded]
        omega
    by_cases le : m ≤ n / 2 ^ shift
    · have := below le
      omega
    · have := above (by omega)
      omega

/-! ### The product -/

/-- The product of a magnitude with a thousand, in double precision. -/
def product (significand : ℕ) (exponent : ℤ) : ℚ :=
  shiftToEven (significand * 1000) (excessBits (significand * 1000)) *
    2 ^ (exponent + excessBits (significand * 1000))

/-- The distances of multiples, in the scale of the exponent. -/
theorem abs_sub_eq (n shift m : ℕ) (exponent : ℤ) :
    |(m * 2 ^ (exponent + shift) : ℚ) - n * 2 ^ exponent| =
      gap n (2 ^ shift) m * 2 ^ exponent := by
  have scale : (0 : ℚ) < 2 ^ exponent := zpow_pos (by norm_num) exponent
  rw [zpow_add₀ (by norm_num), zpow_natCast, mul_comm ((2 : ℚ) ^ exponent), ← mul_assoc,
    ← sub_mul, abs_mul, abs_of_pos scale, gap, Nat.cast_natAbs]
  push_cast
  rfl

/-- A number with more significant bits than a double has is cut to as many. -/
theorem bounds_of_excess {n : ℕ} (excess : excessBits n ≠ 0) :
    2 ^ (precision - 1) ≤ n / 2 ^ excessBits n ∧ n / 2 ^ excessBits n < 2 ^ precision := by
  have positive : n ≠ 0 := by
    rintro rfl
    exact excess rfl
  have bits : n.log2 = 52 + excessBits n := by
    simp only [excessBits, precision, if_neg positive] at excess ⊢
    omega
  constructor
  · rw [Nat.le_div_iff_mul_le (Nat.two_pow_pos _), precision, ← Nat.pow_add]
    calc 2 ^ (53 - 1 + excessBits n) = 2 ^ n.log2 := by rw [bits]
      _ ≤ n := Nat.log2_self_le positive
  · rw [Nat.div_lt_iff_lt_mul (Nat.two_pow_pos _), precision, ← Nat.pow_add]
    calc n < 2 ^ (n.log2 + 1) := Nat.lt_log2_self
      _ = 2 ^ (53 + excessBits n) := by
          rw [bits]
          congr 1
          omega

theorem le_of_no_excess {n : ℕ} (none : excessBits n = 0) : n ≤ 2 ^ precision := by
  by_cases zero : n = 0
  case pos => simp [zero]
  case neg =>
    have few : n.log2 + 1 ≤ precision := by
      simp only [excessBits, if_neg zero] at none
      omega
    calc n ≤ 2 ^ (n.log2 + 1) := Nat.lt_log2_self.le
      _ ≤ 2 ^ precision := Nat.pow_le_pow_right (by decide) few

/-- Below a large number, those that fit into a double are no nearer than the multiples of the
last bit that it keeps. -/
theorem exists_multiple {q x : ℚ} {last : ℤ} (fits : FitsDouble q)
    (large : 2 ^ (precision - 1) * 2 ^ last ≤ x) :
    ∃ m : ℕ, |m * 2 ^ last - x| ≤ |q - x| ∧ (|q - x| = |m * 2 ^ last - x| → q = m * 2 ^ last) := by
  obtain ⟨m, exponent, bounded, rfl⟩ := fits
  by_cases coarse : last ≤ exponent
  case pos =>
    obtain ⟨more, rfl⟩ := Int.le.dest coarse
    refine ⟨m * 2 ^ more, ?_⟩
    have same : (m : ℚ) * 2 ^ (last + more) = (m * 2 ^ more : ℕ) * 2 ^ last := by
      rw [zpow_add₀ (by norm_num), zpow_natCast]
      push_cast
      ring
    rw [same]
    exact ⟨le_rfl, fun _ => rfl⟩
  case neg =>
    refine ⟨2 ^ (precision - 1), ?_⟩
    have small : (m : ℚ) * 2 ^ exponent ≤ 2 ^ (precision - 1) * 2 ^ last := by
      have fine : (2 : ℚ) ^ exponent ≤ 2 ^ (last - 1) := zpow_le_zpow_right₀ (by norm_num) (by omega)
      have half : (2 : ℚ) ^ last = 2 * 2 ^ (last - 1) := by
        rw [← zpow_one_add₀ (by norm_num)]
        congr 1
        ring
      have top : (m : ℚ) ≤ 2 ^ precision := by exact_mod_cast bounded
      calc (m : ℚ) * 2 ^ exponent
          ≤ 2 ^ precision * 2 ^ (last - 1) :=
            mul_le_mul top fine (zpow_nonneg (by norm_num) _) (by norm_num)
        _ = 2 ^ (precision - 1) * 2 ^ last := by
            rw [half, precision]
            ring
    push_cast
    rw [abs_of_nonpos (by linarith), abs_of_nonpos (by linarith)]
    constructor
    · linarith
    · intro same
      linarith

/-- The product is the nearest number that fits into a double. -/
theorem isNearest_product (significand : ℕ) (exponent : ℤ) :
    IsNearest ((significand * 1000 : ℕ) * 2 ^ exponent) (product significand exponent) := by
  unfold product
  generalize significand * 1000 = n
  by_cases excess : excessBits n = 0
  case pos =>
    have fits : FitsDouble (n * 2 ^ exponent) := ⟨n, exponent, le_of_no_excess excess, rfl⟩
    rw [excess, shiftToEven_zero, Nat.cast_zero, add_zero]
    exact fits.isNearest
  case neg =>
    obtain ⟨lower, upper⟩ := bounds_of_excess excess
    obtain ⟨above, below⟩ := shiftToEven_mem n (excessBits n)
    have scale : (0 : ℚ) < 2 ^ exponent := zpow_pos (by norm_num) exponent
    have large : (2 : ℚ) ^ (precision - 1) * 2 ^ (exponent + excessBits n) ≤ n * 2 ^ exponent := by
      have bits : 2 ^ (precision - 1) * 2 ^ excessBits n ≤ n :=
        (Nat.le_div_iff_mul_le (Nat.two_pow_pos _)).mp lower
      rw [zpow_add₀ (by norm_num), zpow_natCast, mul_comm ((2 : ℚ) ^ exponent), ← mul_assoc]
      exact mul_le_mul_of_nonneg_right (by exact_mod_cast bits) scale.le
    have least : ∀ m : ℕ, _ := fun m => gap_shiftToEven n (excessBits n) m
    refine ⟨⟨_, _, below.trans upper, rfl⟩, fun q fits => ?_, fun q fits same => ?_⟩
    · obtain ⟨m, nearer, -⟩ := exists_multiple fits large
      refine le_trans ?_ nearer
      rw [abs_sub_eq, abs_sub_eq, mul_le_mul_iff_left₀ scale, Nat.cast_le]
      exact (least m).1
    · obtain ⟨m, nearer, equal⟩ := exists_multiple fits large
      have tie : gap n (2 ^ excessBits n) m =
          gap n (2 ^ excessBits n) (shiftToEven n (excessBits n)) := by
        apply le_antisymm _ (least m).1
        rw [same, abs_sub_eq, abs_sub_eq, mul_le_mul_iff_left₀ scale, Nat.cast_le] at nearer
        exact nearer
      have own : q = m * 2 ^ (exponent + excessBits n) := by
        apply equal
        rw [same, abs_sub_eq, abs_sub_eq, tie]
      rcases (least m).2 tie with rounded | even
      · exact .inl (by rw [own, rounded])
      · exact .inr ⟨_, _, lower.trans above, below.trans upper, even, rfl⟩

/-! ### The count -/

/-- Halves are rounded up. -/
theorem roundHalfUp_eq (n : ℕ) (exponent : ℤ) :
    roundHalfUp n exponent = ⌊(n : ℚ) * 2 ^ exponent + 1 / 2⌋₊ := by
  rw [roundHalfUp]
  by_cases whole : 0 ≤ exponent
  case pos =>
    obtain ⟨e, rfl⟩ := Int.eq_ofNat_of_zero_le whole
    have cast : (n : ℚ) * 2 ^ (e : ℤ) = (n * 2 ^ e : ℕ) := by
      rw [zpow_natCast]
      push_cast
      rfl
    have floor : ⌊((n * 2 ^ e : ℕ) : ℚ) + 1 / 2⌋₊ = n * 2 ^ e := by
      rw [Nat.floor_eq_iff (by positivity)]
      constructor <;> linarith
    rw [if_pos whole, cast, floor, Int.toNat_natCast]
    rfl
  case neg =>
    obtain ⟨e, rfl⟩ : ∃ e : ℕ, exponent = -e := ⟨(-exponent).toNat, by omega⟩
    have cast : (n : ℚ) * 2 ^ (-(e : ℤ)) + 1 / 2 =
        ((2 * n + 2 ^ e : ℕ) : ℚ) / ((2 ^ (e + 1) : ℕ) : ℚ) := by
      rw [zpow_neg, zpow_natCast]
      push_cast
      field_simp
      ring
    rw [if_neg whole, cast, Nat.floor_div_eq_div, neg_neg, Int.toNat_natCast]
    rfl

theorem scaledCount_eq (significand : ℕ) (exponent : ℤ) :
    scaledCount significand exponent = ⌊product significand exponent + 1 / 2⌋₊ :=
  roundHalfUp_eq _ _

/-- A count of thousandths that a datum has: those nearest to its magnitude, halves up, as far as
a thousand times the magnitude fits into a double; and no more than are kept. -/
inductive Datum.Counts : Datum → ℕ → Prop where
  | nan : Counts .nan 0
  | infinite (negative : Bool) : Counts (.infinite negative) largestCount
  | finite (negative : Bool) {significand : ℕ} {exponent : ℤ} {p : ℚ}
      (nearest : IsNearest ((significand * 1000 : ℕ) * 2 ^ exponent) p) :
      Counts (.finite negative significand exponent) (min ⌊p + 1 / 2⌋₊ largestCount)

theorem Datum.counts_thousandths (d : Datum) : d.Counts d.thousandths := by
  cases d with
  | nan => exact .nan
  | infinite negative => exact .infinite negative
  | finite negative significand exponent =>
      rw [thousandths, scaledCount_eq]
      exact .finite negative (isNearest_product significand exponent)

theorem Datum.thousandths_le (d : Datum) : d.thousandths ≤ largestCount := by
  cases d with
  | nan => exact Nat.zero_le _
  | infinite negative => exact le_rfl
  | finite negative significand exponent => exact min_le_right _ _

/-- Nothing is lost in the product of a number with few bits. -/
theorem Datum.thousandths_finite {negative : Bool} {significand : ℕ} {exponent : ℤ}
    (few : significand * 1000 < 2 ^ precision) :
    (finite negative significand exponent).thousandths =
      min ⌊1000 * (significand * 2 ^ exponent : ℚ) + 1 / 2⌋₊ largestCount := by
  have none : excessBits (significand * 1000) = 0 := by
    by_contra excess
    have large := (bounds_of_excess excess).1
    have cut : significand * 1000 / 2 ^ excessBits (significand * 1000) ≤
        significand * 1000 / 2 :=
      Nat.div_le_div_left (Nat.le_self_pow excess 2) (by decide)
    simp only [precision] at few large
    omega
  have whole : product significand exponent = 1000 * (significand * 2 ^ exponent) := by
    rw [product, none, shiftToEven_zero, Nat.cast_zero, add_zero]
    push_cast
    ring
  rw [thousandths, scaledCount_eq, whole]

end Decimal

namespace Weight

open Decimal (Datum ofRat largestCount)

/-- A weight is infinite, or a number from zero on with at most 24 bits. -/
theorem datum_cases (w : Weight) :
    (∃ negative significand exponent, w.datum = .finite negative significand exponent ∧
      significand < 2 ^ 24 ∧ (negative = true → significand = 0)) ∨ w.datum = .infinite false := by
  have magnitude : w.word % 0x80000000 < 0x80000000 := Nat.mod_lt _ (by decide)
  have decoded := Decimal.decode_single (decide (w.word = 0x80000000)) magnitude
  have word : w.word % 0x80000000 + 0x80000000 * (decide (w.word = 0x80000000)).toNat = w.word := by
    by_cases zero : w.word = 0x80000000
    · simp [zero]
    · have small : w.word ≤ 0x7f800000 := w.valid.resolve_right zero
      simp only [zero, decide_false, Bool.toNat_false]
      omega
  rw [word] at decoded
  rw [datum, decoded]
  by_cases zero : w.word = 0x80000000
  case pos => exact .inl ⟨true, 0, -149, by simp [zero], by decide, fun _ => rfl⟩
  case neg =>
    have small : w.word ≤ 0x7f800000 := w.valid.resolve_right zero
    rw [Nat.mod_eq_of_lt (show w.word < 0x80000000 by omega)]
    split
    case isTrue last =>
      have infinite : w.word % 8388608 = 0 := by omega
      exact .inr (by simp [infinite, zero])
    case isFalse finite =>
      left
      split
      · exact ⟨_, _, _, rfl, by omega, by simp [zero]⟩
      · exact ⟨_, _, _, rfl, by omega, by simp [zero]⟩

/-- The thousandths of a weight are those nearest to the number that it is. -/
theorem thousandths_eq {w : Weight} {x : ℚ} (number : w.datum.number? = some (ofRat x)) :
    w.datum.thousandths = min ⌊1000 * x + 1 / 2⌋₊ largestCount := by
  rcases w.datum_cases with ⟨negative, significand, exponent, datum, few, zero⟩ | infinite
  · have size : significand * 1000 < 2 ^ Decimal.precision := by
      rw [Decimal.precision]
      omega
    rw [datum] at number ⊢
    rw [Datum.thousandths_finite size]
    have same : (if negative then -1 else 1) * (significand : ℚ) * 2 ^ exponent = x :=
      WithTop.coe_injective (WithBot.coe_injective (Option.some.inj number))
    rw [← same]
    cases negative with
    | false => simp
    | true => simp [zero rfl]
  · rw [infinite] at number
    have none : (⊤ : WithTop ℚ) = x := WithBot.coe_injective (Option.some.inj number)
    exact absurd none (WithTop.top_ne_coe)

end Weight

end SearchIndex
