import SearchIndex.Text.Numeral

/-!
# Hexadecimal numerals

Digits are written in lower case and read in either case. `hexDigits` writes a
number in a fixed width, and `hexDigitsValue?_hexDigits` says that a number that
fits the width reads back.
-/

namespace SearchIndex.Text

/-- A hexadecimal digit below sixteen, in lower case. -/
def hexDigit (d : Nat) : Char :=
  if d < 10 then digitChar d else Char.ofNat ('a'.toNat + (d - 10))

/-- The value of a hexadecimal digit. -/
def hexValue? (c : Char) : Option Nat :=
  if isDigit c then some (digitValue c)
  else if 'a' ≤ c && c ≤ 'f' then some (c.toNat - 'a'.toNat + 10)
  else if 'A' ≤ c && c ≤ 'F' then some (c.toNat - 'A'.toNat + 10)
  else none

/-- The lowest `width` hexadecimal digits of a number. -/
def hexDigits : Nat → Nat → List Char
  | 0, _ => []
  | width + 1, n => hexDigits width (n / 16) ++ [hexDigit (n % 16)]

/-- The number that a run of hexadecimal digits writes, on top of what was read
before it. -/
def hexDigitsFrom? (start : Nat) (run : List Char) : Option Nat :=
  run.foldlM (fun n c => (hexValue? c).map (n * 16 + ·)) start

/-- The number that a run of hexadecimal digits writes. -/
def hexDigitsValue? (run : List Char) : Option Nat :=
  hexDigitsFrom? 0 run

theorem hexValue?_hexDigit {d : Nat} (h : d < 16) : hexValue? (hexDigit d) = some d := by
  have : ∀ k : Fin 16, hexValue? (hexDigit k) = some k.val := by decide
  exact this ⟨d, h⟩

@[simp] theorem length_hexDigits (width n : Nat) : (hexDigits width n).length = width := by
  induction width generalizing n with
  | zero => rfl
  | succ width ih => simp [hexDigits, ih]

theorem hexDigitsValue?_hexDigits {width n : Nat} (h : n < Nat.pow 16 width) :
    hexDigitsValue? (hexDigits width n) = some n := by
  induction width generalizing n with
  | zero =>
    have : n = 0 := Nat.lt_one_iff.mp h
    simp [hexDigits, hexDigitsValue?, hexDigitsFrom?, this]
  | succ width ih =>
    have hdiv : n / 16 < Nat.pow 16 width :=
      Nat.div_lt_of_lt_mul (Nat.lt_of_lt_of_eq h Nat.pow_succ')
    have hlast : hexValue? (hexDigit (n % 16)) = some (n % 16) := hexValue?_hexDigit (by omega)
    have hn : n / 16 * 16 + n % 16 = n := by omega
    have hfirst := ih hdiv
    unfold hexDigitsValue? hexDigitsFrom? at hfirst ⊢
    rw [hexDigits, List.foldlM_append, hfirst]
    simp [hlast, hn]

end SearchIndex.Text
