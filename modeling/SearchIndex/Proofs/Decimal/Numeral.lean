import Mathlib.Algebra.Field.Rat
import Mathlib.Algebra.Order.Field.Basic
import Mathlib.Algebra.Order.Ring.Rat
import Mathlib.Data.List.TakeWhile
import Mathlib.Tactic.FieldSimp
import Mathlib.Tactic.Linarith
import Mathlib.Tactic.NormNum
import Mathlib.Tactic.Positivity
import SearchIndex.Decimal.Thousandths
import SearchIndex.Proofs.Text.Digits

/-!
# Decimals

A decimal is a run of digits, a point and another run of digits, behind a minus sign or none;
`read?` is the number that it stands for. Most numbers have many decimals, as zeros may be added
at both ends. Only one of them is canonical: `Numeral.IsCanonical.eq_of_number_eq`.

A count of thousandths is written as a canonical decimal, and reads back as that many
thousandths: `isCanonical_ofCount`, `read?_text`.
-/

namespace SearchIndex.Decimal

/-- A decimal in its parts: whether there is a sign, the digits before the point, and those
behind it. -/
structure Numeral where
  negative : Bool
  whole : List Char
  fraction : List Char

namespace Numeral

variable {x y : Numeral}

/-- A decimal as a text. -/
def text (x : Numeral) : List Char :=
  (if x.negative then ['-'] else []) ++ x.whole ++ '.' :: x.fraction

/-- The number that a decimal stands for, its sign aside. -/
def magnitude (x : Numeral) : ℚ :=
  Text.valueFrom 0 x.whole + Text.valueFrom 0 x.fraction / 10 ^ x.fraction.length

/-- The number that a decimal stands for. -/
def number (x : Numeral) : ℚ :=
  if x.negative then -x.magnitude else x.magnitude

/-- There are digits on both sides of the point, and nothing else. -/
structure IsProper (x : Numeral) : Prop where
  whole : ∀ c ∈ x.whole, Text.isDigit c = true
  fraction : ∀ c ∈ x.fraction, Text.isDigit c = true
  whole_ne_nil : x.whole ≠ []
  fraction_ne_nil : x.fraction ≠ []

/-- Nothing in a decimal can be left out: no zero at its beginning unless that is all of the
whole part, none at its end unless that is all of the places, and no sign of zero. -/
structure IsCanonical (x : Numeral) : Prop extends x.IsProper where
  leading : Text.NoLeadingZero x.whole
  trailing : x.fraction.getLast? = some '0' → x.fraction = ['0']
  sign : x.negative = true → x.number ≠ 0

/-- The parts of a text behind its sign. -/
def ofUnsigned? (negative : Bool) (text : List Char) : Option Numeral := do
  let whole := text.takeWhile Text.isDigit
  match text.dropWhile Text.isDigit with
  | '.' :: fraction =>
    if whole ≠ [] ∧ fraction ≠ [] ∧ fraction.all Text.isDigit then some ⟨negative, whole, fraction⟩
    else none
  | _ => none

/-- The parts of a decimal. -/
def ofText? : List Char → Option Numeral
  | '-' :: text => ofUnsigned? true text
  | text => ofUnsigned? false text

end Numeral

/-- The number that a decimal stands for, given as a text. -/
def read? (text : List Char) : Option ℚ :=
  (Numeral.ofText? text).map Numeral.number

namespace Numeral

variable {x y : Numeral}

/-! ### One canonical decimal for each number -/

theorem fraction_lt_one (h : x.IsProper) :
    (Text.valueFrom 0 x.fraction : ℚ) / 10 ^ x.fraction.length < 1 := by
  rw [div_lt_one (by positivity)]
  exact_mod_cast Text.valueFrom_zero_lt h.fraction

theorem magnitude_nonneg (x : Numeral) : 0 ≤ x.magnitude := by
  rw [magnitude]
  positivity

/-- The sign of a canonical decimal is that of its number. -/
theorem IsCanonical.negative_iff (h : x.IsCanonical) : x.negative = true ↔ x.number < 0 := by
  have nonneg := x.magnitude_nonneg
  constructor
  · intro negative
    apply lt_of_le_of_ne _ (h.sign negative)
    rw [number, if_pos negative]
    linarith
  · intro below
    by_contra positive
    rw [number, if_neg positive] at below
    linarith

/-- The digits before the point and those behind it are numbers of their own. -/
theorem parts_eq_of_magnitude_eq (h : x.IsProper) (h' : y.IsProper)
    (same : x.magnitude = y.magnitude) :
    Text.valueFrom 0 x.whole = Text.valueFrom 0 y.whole ∧
      Text.valueFrom 0 x.fraction * 10 ^ y.fraction.length =
        Text.valueFrom 0 y.fraction * 10 ^ x.fraction.length := by
  have small := fraction_lt_one h
  have small' := fraction_lt_one h'
  have nonneg : (0 : ℚ) ≤ Text.valueFrom 0 x.fraction / 10 ^ x.fraction.length := by positivity
  have nonneg' : (0 : ℚ) ≤ Text.valueFrom 0 y.fraction / 10 ^ y.fraction.length := by positivity
  rw [magnitude, magnitude] at same
  have whole : Text.valueFrom 0 x.whole = Text.valueFrom 0 y.whole := by
    have above : (Text.valueFrom 0 x.whole : ℚ) < Text.valueFrom 0 y.whole + 1 := by linarith
    have below : (Text.valueFrom 0 y.whole : ℚ) < Text.valueFrom 0 x.whole + 1 := by linarith
    norm_cast at above below
    omega
  rw [whole, add_right_inj, div_eq_div_iff (by positivity) (by positivity)] at same
  exact ⟨whole, by exact_mod_cast same⟩

/-- A fraction that can be written with fewer places ends in a zero. -/
theorem getLast?_eq_zero {fraction fewer : List Char}
    (digits : ∀ c ∈ fraction, Text.isDigit c = true) (less : fewer.length < fraction.length)
    (same : Text.valueFrom 0 fewer * 10 ^ fraction.length =
      Text.valueFrom 0 fraction * 10 ^ fewer.length) : fraction.getLast? = some '0' := by
  obtain ⟨front, last, rfl⟩ : ∃ front last, fraction = front ++ [last] :=
    ⟨_, _, (List.dropLast_append_getLast (List.ne_nil_of_length_pos (by omega))).symm⟩
  rw [List.length_append, List.length_singleton, Nat.lt_succ_iff] at less
  obtain ⟨more, length⟩ := Nat.exists_eq_add_of_le less
  have value : Text.valueFrom 0 (front ++ [last]) =
      Text.valueFrom 0 front * 10 + Text.digitValue last := by
    rw [Text.valueFrom_append]
    rfl
  have multiple : Text.valueFrom 0 fewer * 10 ^ more * 10 =
      Text.valueFrom 0 front * 10 + Text.digitValue last := by
    rw [value, List.length_append, List.length_singleton, length] at same
    have unit : 0 < 10 ^ fewer.length := Nat.pow_pos (by decide)
    apply Nat.eq_of_mul_eq_mul_right unit
    rw [← same]
    ring
  have digit : Text.isDigit last = true := digits last (by simp)
  have small : Text.digitValue last < 10 := by
    have single : ∀ c ∈ [last], Text.isDigit c = true := by simpa using digit
    simpa [Text.valueFrom] using Text.valueFrom_zero_lt single
  have zero : last = '0' := by
    rw [← Text.digitValue_inj digit (by decide)]
    have none : Text.digitValue '0' = 0 := by decide
    omega
  rw [List.getLast?_concat, zero]

theorem IsCanonical.length_le (h : x.IsCanonical) (h' : y.IsCanonical)
    (same : Text.valueFrom 0 x.fraction * 10 ^ y.fraction.length =
      Text.valueFrom 0 y.fraction * 10 ^ x.fraction.length) :
    y.fraction.length ≤ x.fraction.length := by
  by_contra longer
  have single := h'.trailing (getLast?_eq_zero h'.fraction (by omega) same)
  have some : 0 < x.fraction.length := List.length_pos_iff.mpr h.fraction_ne_nil
  rw [single, List.length_singleton] at longer
  omega

/-- A number has only one canonical decimal. -/
theorem IsCanonical.eq_of_number_eq (h : x.IsCanonical) (h' : y.IsCanonical)
    (same : x.number = y.number) : x = y := by
  have negative : x.negative = y.negative := by
    rw [Bool.eq_iff_iff, h.negative_iff, h'.negative_iff, same]
  have magnitude : x.magnitude = y.magnitude := by
    rw [number, number, negative] at same
    cases sign : y.negative with
    | false => simpa [sign] using same
    | true => simpa [sign] using same
  obtain ⟨wholes, fractions⟩ := parts_eq_of_magnitude_eq h.toIsProper h'.toIsProper magnitude
  have whole : x.whole = y.whole := by
    rw [Text.eq_digits_of_noLeadingZero h.whole h.whole_ne_nil h.leading, wholes,
      ← Text.eq_digits_of_noLeadingZero h'.whole h'.whole_ne_nil h'.leading]
  have length : x.fraction.length = y.fraction.length :=
    le_antisymm (h'.length_le h fractions.symm) (h.length_le h' fractions)
  have fraction : x.fraction = y.fraction := by
    apply Text.eq_of_valueFrom_eq h.fraction h'.fraction length
    rw [length] at fractions
    exact Nat.eq_of_mul_eq_mul_right (Nat.pow_pos (by decide)) fractions
  cases x
  cases y
  simp_all

/-! ### Decimals as texts -/

theorem ofUnsigned?_append (negative : Bool) {whole fraction : List Char}
    (h : (Numeral.mk negative whole fraction).IsProper) :
    ofUnsigned? negative (whole ++ '.' :: fraction) = some ⟨negative, whole, fraction⟩ := by
  have point : Text.isDigit '.' = false := by decide
  have front : (whole ++ '.' :: fraction).takeWhile Text.isDigit = whole := by
    rw [List.takeWhile_append_of_pos h.whole, List.takeWhile_cons_of_neg (by simp [point]),
      List.append_nil]
  have back : (whole ++ '.' :: fraction).dropWhile Text.isDigit = '.' :: fraction := by
    rw [List.dropWhile_append_of_pos h.whole, List.dropWhile_cons_of_neg (by simp [point])]
  have all : fraction.all Text.isDigit = true := List.all_eq_true.mpr h.fraction
  rw [ofUnsigned?, front, back]
  exact if_pos ⟨h.whole_ne_nil, h.fraction_ne_nil, all⟩

/-- A decimal that is written as a text reads back. -/
theorem ofText?_text (h : x.IsProper) : ofText? x.text = some x := by
  obtain ⟨negative, whole, fraction⟩ := x
  cases negative with
  | true => exact ofUnsigned?_append true h
  | false =>
      obtain ⟨c, rest, rfl⟩ := List.exists_cons_of_ne_nil h.whole_ne_nil
      have digit : Text.isDigit c = true := h.whole c List.mem_cons_self
      have unsigned : c ≠ '-' := by
        rintro rfl
        exact absurd digit (by decide)
      have read := ofUnsigned?_append false h
      unfold ofText?
      split
      · next eq => exact absurd (List.cons.inj eq).1 unsigned
      · exact read

/-! ### Counts of thousandths -/

/-- The decimal of a signed count of thousandths. -/
def ofCount (negative : Bool) (n : Nat) : Numeral :=
  ⟨negative && n != 0, Text.digits (n / 1000), places (n % 1000)⟩

theorem text_ofCount (negative : Bool) (n : Nat) :
    (ofCount negative n).text = Decimal.text negative n := rfl

end Numeral

theorem digitChar_eq_zero_iff {d : Nat} (h : d < 10) : Text.digitChar d = '0' ↔ d = 0 := by
  constructor
  · intro zero
    rw [← Text.digitValue_digitChar h, zero]
    rfl
  · rintro rfl
    rfl

/-- The last place is zero only if it is the only one. -/
theorem places_eq_of_getLast?_eq_zero {n : Nat} (h : (places n).getLast? = some '0') :
    places n = ['0'] := by
  have digit : ∀ m, Text.digitChar (m % 10) = '0' ↔ m % 10 = 0 :=
    fun m => digitChar_eq_zero_iff (Nat.mod_lt m (by decide))
  unfold places at h ⊢
  by_cases last : n % 10 ≠ 0
  · rw [if_pos last] at h
    simp [digit, last] at h
  · rw [if_neg last] at h ⊢
    by_cases hundredths : n / 10 % 10 ≠ 0
    · rw [if_pos hundredths] at h
      simp [digit, hundredths] at h
    · rw [if_neg hundredths] at h ⊢
      simpa using h

/-- The places of a count below one thousand stand for that many thousandths. -/
theorem valueFrom_places {n : Nat} (h : n < 1000) :
    Text.valueFrom 0 (places n) * 1000 = n * 10 ^ (places n).length := by
  have digit : ∀ m, Text.digitValue (Text.digitChar (m % 10)) = m % 10 :=
    fun m => Text.digitValue_digitChar (Nat.mod_lt m (by decide))
  unfold places
  split
  · simp only [Text.valueFrom, List.foldl_cons, List.foldl_nil, digit, List.length_cons,
      List.length_nil, Nat.reduceAdd, Nat.reducePow]
    omega
  · split
    · simp only [Text.valueFrom, List.foldl_cons, List.foldl_nil, digit, List.length_cons,
        List.length_nil, Nat.reduceAdd, Nat.reducePow]
      omega
    · simp only [Text.valueFrom, List.foldl_cons, List.foldl_nil, digit, List.length_cons,
        List.length_nil, Nat.reduceAdd, Nat.reducePow]
      omega

namespace Numeral

theorem isProper_ofCount (negative : Bool) (n : Nat) : (ofCount negative n).IsProper where
  whole _ := Text.isDigit_of_mem_digits
  fraction _ := isDigit_of_mem_places
  whole_ne_nil := Text.digits_ne_nil _
  fraction_ne_nil := places_ne_nil _

theorem magnitude_ofCount (negative : Bool) (n : Nat) :
    (ofCount negative n).magnitude = n / 1000 := by
  have fraction : (Text.valueFrom 0 (places (n % 1000)) : ℚ) / 10 ^ (places (n % 1000)).length =
      (n % 1000 : Nat) / 1000 := by
    rw [div_eq_div_iff (by positivity) (by positivity)]
    exact_mod_cast valueFrom_places (Nat.mod_lt n (by decide))
  have parts : (n : ℚ) = 1000 * (n / 1000 : Nat) + (n % 1000 : Nat) := by
    exact_mod_cast (Nat.div_add_mod n 1000).symm
  simp only [magnitude, ofCount, Text.valueFrom_digits, fraction]
  linarith

theorem number_ofCount (negative : Bool) (n : Nat) :
    (ofCount negative n).number = (if negative then -(n : ℚ) else n) / 1000 := by
  rw [number, magnitude_ofCount, ofCount]
  by_cases zero : n = 0
  case pos => simp [zero]
  case neg =>
    cases negative with
    | false => rfl
    | true => simp [zero, neg_div]

/-- A count of thousandths is written as a canonical decimal. -/
theorem isCanonical_ofCount (negative : Bool) (n : Nat) : (ofCount negative n).IsCanonical where
  toIsProper := isProper_ofCount negative n
  leading := Text.noLeadingZero_digits _
  trailing := places_eq_of_getLast?_eq_zero
  sign signed := by
    have several : n ≠ 0 := by
      rintro rfl
      simp [ofCount] at signed
    have magnitude : (ofCount negative n).magnitude ≠ 0 := by
      rw [magnitude_ofCount]
      positivity
    rw [number, if_pos signed]
    exact neg_ne_zero.mpr magnitude

end Numeral

end SearchIndex.Decimal
