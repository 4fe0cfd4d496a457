import SearchIndex.Decimal.Binary
import SearchIndex.Text.Numeral

/-!
# Decimals in thousandths

Weights are written as decimals with one to three places. The magnitude is
multiplied by a thousand in double precision, rounded to a whole number with
halves away from zero, and capped at the largest 64-bit count; `Datum.thousandths`
is that count. `text` writes a signed count: no leading zeros, no trailing
zeros after the first place, and no sign on zero.
-/

namespace SearchIndex.Decimal

/-- The significant bits of a double. -/
def precision : Nat := 53

/-- The largest count of thousandths that is kept. -/
def largestCount : Nat := 18446744073709551615

/-- A quotient by a power of two, halves to the even neighbour. -/
def shiftToEven (n shift : Nat) : Nat :=
  let quotient := n / twoTo shift
  let rest := n % twoTo shift
  if 2 * rest < twoTo shift then quotient
  else if twoTo shift < 2 * rest then quotient + 1
  else quotient + quotient % 2

/-- How many bits of `n` lie below the significant bits of a double. -/
def excessBits (n : Nat) : Nat :=
  if n = 0 then 0 else n.log2 + 1 - precision

/-- `n * 2 ^ exponent` rounded to a whole number, halves away from zero. -/
def roundHalfUp (n : Nat) (exponent : Int) : Nat :=
  if 0 ≤ exponent then n * twoTo exponent.toNat
  else (2 * n + twoTo (-exponent).toNat) / twoTo ((-exponent).toNat + 1)

/-- The thousandths in `significand * 2 ^ exponent`: a product in double
precision, then the nearest whole number. -/
def scaledCount (significand : Nat) (exponent : Int) : Nat :=
  let product := significand * 1000
  let shift := excessBits product
  roundHalfUp (shiftToEven product shift) (exponent + shift)

/-- The thousandths in the magnitude of a datum. -/
def Datum.thousandths : Datum → Nat
  | .nan => 0
  | .infinite _ => largestCount
  | .finite _ significand exponent => min (scaledCount significand exponent) largestCount

/-- The places of a count of thousandths below one thousand: three, less the
trailing zeros, but at least one. -/
def places (n : Nat) : List Char :=
  let tenths := Text.digitChar (n / 100 % 10)
  let hundredths := Text.digitChar (n / 10 % 10)
  let last := Text.digitChar (n % 10)
  if n % 10 ≠ 0 then [tenths, hundredths, last]
  else if n / 10 % 10 ≠ 0 then [tenths, hundredths]
  else [tenths]

/-- A signed count of thousandths as a decimal. -/
def text (negative : Bool) (n : Nat) : List Char :=
  (if negative && n != 0 then ['-'] else []) ++ Text.digits (n / 1000) ++ '.' :: places (n % 1000)

/-- A datum as a decimal, exact to the nearest thousandth. -/
def Datum.text (d : Datum) : List Char :=
  Decimal.text d.isNegative d.thousandths

theorem places_ne_nil (n : Nat) : places n ≠ [] := by
  unfold places
  split
  · simp
  · split <;> simp

theorem length_places_le (n : Nat) : (places n).length ≤ 3 := by
  unfold places
  split
  · simp
  · split <;> simp

theorem isDigit_of_mem_places {n : Nat} {c : Char} (h : c ∈ places n) : Text.isDigit c = true := by
  have digit : ∀ m, Text.isDigit (Text.digitChar (m % 10)) = true := fun m =>
    Text.isDigit_digitChar (Nat.mod_lt m (by omega))
  rw [places] at h
  split at h
  · simp only [List.mem_cons, List.not_mem_nil, or_false] at h
    rcases h with rfl | rfl | rfl <;> exact digit _
  · split at h
    · simp only [List.mem_cons, List.not_mem_nil, or_false] at h
      rcases h with rfl | rfl <;> exact digit _
    · rw [List.mem_singleton.mp h]
      exact digit _

end SearchIndex.Decimal
