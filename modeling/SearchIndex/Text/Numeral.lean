/-!
# Decimal numerals

`digits` writes a natural number in decimal without leading zeros, `padded`
fills it up with zeros to a fixed width, and `value?` reads a run of decimal
digits of any length. `value?_digits` says that a written number reads back.
-/

namespace SearchIndex.Text

/-- The character of a decimal digit; the argument is below ten. -/
def digitChar (d : Nat) : Char :=
  Char.ofNat ('0'.toNat + d)

/-- Whether a character is an ASCII decimal digit. -/
def isDigit (c : Char) : Bool :=
  '0'.toNat ≤ c.toNat && c.toNat ≤ '9'.toNat

/-- The number that an ASCII decimal digit stands for. -/
def digitValue (c : Char) : Nat :=
  c.toNat - '0'.toNat

/-- A natural number in decimal, without leading zeros. -/
def digits (n : Nat) : List Char :=
  if n < 10 then [digitChar n] else digits (n / 10) ++ [digitChar (n % 10)]

/-- A natural number in decimal, with leading zeros up to `width` digits. -/
def padded (width n : Nat) : List Char :=
  let written := digits n
  List.replicate (width - written.length) '0' ++ written

/-- The number that a run of digits writes, on top of what was read before it. -/
def valueFrom (start : Nat) (run : List Char) : Nat :=
  run.foldl (fun n c => n * 10 + digitValue c) start

/-- The number that a non-empty run of decimal digits writes. -/
def value? (run : List Char) : Option Nat :=
  if run ≠ [] ∧ run.all isDigit then some (valueFrom 0 run) else none

theorem isDigit_digitChar {d : Nat} (h : d < 10) : isDigit (digitChar d) = true := by
  have : ∀ k : Fin 10, isDigit (digitChar k) = true := by decide
  exact this ⟨d, h⟩

theorem digitValue_digitChar {d : Nat} (h : d < 10) : digitValue (digitChar d) = d := by
  have : ∀ k : Fin 10, digitValue (digitChar k) = k := by decide
  exact this ⟨d, h⟩

theorem digits_of_lt {n : Nat} (h : n < 10) : digits n = [digitChar n] := by
  rw [digits, if_pos h]

theorem digits_of_ge {n : Nat} (h : 10 ≤ n) :
    digits n = digits (n / 10) ++ [digitChar (n % 10)] := by
  rw [digits, if_neg (by omega)]

theorem digits_ne_nil (n : Nat) : digits n ≠ [] := by
  rw [digits]
  split <;> simp

theorem isDigit_of_mem_digits {n : Nat} {c : Char} (h : c ∈ digits n) : isDigit c = true := by
  induction n using Nat.strongRecOn with
  | ind n ih =>
    by_cases hn : n < 10
    · rw [digits_of_lt hn] at h
      rw [List.mem_singleton.mp h]
      exact isDigit_digitChar hn
    · rw [digits_of_ge (by omega)] at h
      rcases List.mem_append.mp h with h | h
      · exact ih (n / 10) (by omega) h
      · rw [List.mem_singleton.mp h]
        exact isDigit_digitChar (by omega)

theorem valueFrom_append (start : Nat) (first second : List Char) :
    valueFrom start (first ++ second) = valueFrom (valueFrom start first) second := by
  simp [valueFrom]

theorem valueFrom_digits (n : Nat) : valueFrom 0 (digits n) = n := by
  induction n using Nat.strongRecOn with
  | ind n ih =>
    by_cases hn : n < 10
    · rw [digits_of_lt hn]
      simp [valueFrom, digitValue_digitChar hn]
    · rw [digits_of_ge (by omega), valueFrom_append, ih (n / 10) (by omega)]
      have hd : n % 10 < 10 := by omega
      simp only [valueFrom, List.foldl_cons, List.foldl_nil, digitValue_digitChar hd]
      omega

/-- A written number reads back. -/
theorem value?_digits (n : Nat) : value? (digits n) = some n := by
  have hall : (digits n).all isDigit = true :=
    List.all_eq_true.mpr fun _ hc => isDigit_of_mem_digits hc
  rw [value?, if_pos ⟨digits_ne_nil n, hall⟩, valueFrom_digits]

end SearchIndex.Text
