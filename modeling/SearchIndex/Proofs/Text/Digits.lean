import Mathlib.Data.Char
import Mathlib.Data.List.Lex
import Mathlib.Order.Basic
import Mathlib.Tactic.Ring
import SearchIndex.Text.Numeral

/-!
# Runs of digits

A run of digits writes a number, which has no more places than the run has digits. Runs of as
many digits are ordered as their numbers (`lt_iff_valueFrom_lt`), so that such a run is known
from its number. Among all runs a number has only one without leading zeros, and `digits` writes
it: `eq_digits_of_noLeadingZero`.
-/

namespace SearchIndex.Text

/-- A run of digits writes a number of no more places than it has digits. -/
theorem valueFrom_lt {run : List Char} (digits : ∀ c ∈ run, isDigit c = true) (start : Nat) :
    valueFrom start run < (start + 1) * Nat.pow 10 run.length := by
  induction run generalizing start with
  | nil => simp [valueFrom]
  | cons c run ih =>
      rw [List.forall_mem_cons] at digits
      have nine : digitValue c ≤ 9 := by
        have upper : c.toNat ≤ 57 := of_decide_eq_true (Bool.and_eq_true_iff.mp digits.1).2
        exact Nat.sub_le_of_le_add upper
      calc valueFrom start (c :: run)
          = valueFrom (start * 10 + digitValue c) run := rfl
        _ < (start * 10 + digitValue c + 1) * Nat.pow 10 run.length := ih digits.2 _
        _ ≤ (start + 1) * 10 * Nat.pow 10 run.length := Nat.mul_le_mul_right _ (by omega)
        _ = (start + 1) * Nat.pow 10 (run.length + 1) := by
            rw [Nat.mul_assoc, Nat.mul_comm 10]
            rfl

theorem valueFrom_zero_lt {run : List Char} (digits : ∀ c ∈ run, isDigit c = true) :
    valueFrom 0 run < 10 ^ run.length := by
  simpa using valueFrom_lt digits 0

/-- What was read before a run of digits is moved by as many places as there are in it. -/
theorem valueFrom_eq (start : Nat) (run : List Char) :
    valueFrom start run = start * 10 ^ run.length + valueFrom 0 run := by
  induction run generalizing start with
  | nil => simp [valueFrom]
  | cons c run ih =>
      have step : ∀ start, valueFrom start (c :: run) = valueFrom (start * 10 + digitValue c) run :=
        fun _ => rfl
      rw [step, step, ih, ih (0 * 10 + digitValue c), List.length_cons, Nat.pow_succ]
      ring

theorem valueFrom_cons (c : Char) (run : List Char) :
    valueFrom 0 (c :: run) = digitValue c * 10 ^ run.length + valueFrom 0 run := by
  have step : valueFrom 0 (c :: run) = valueFrom (0 * 10 + digitValue c) run := rfl
  rw [step, valueFrom_eq, Nat.zero_mul, Nat.zero_add]

/-- The code point of a digit tells what it stands for. -/
theorem toNat_of_isDigit {c : Char} (h : isDigit c = true) : c.toNat = 48 + digitValue c := by
  have lower : 48 ≤ c.toNat := of_decide_eq_true (Bool.and_eq_true_iff.mp h).1
  simp only [digitValue, Char.reduceToNat]
  omega

/-- Digits are ordered as what they stand for. -/
theorem lt_iff_digitValue_lt {c d : Char} (digit : isDigit c = true) (digit' : isDigit d = true) :
    c < d ↔ digitValue c < digitValue d := by
  have order : c < d ↔ c.toNat < d.toNat := Iff.rfl
  rw [order, toNat_of_isDigit digit, toNat_of_isDigit digit', Nat.add_lt_add_iff_left]

theorem digitValue_inj {c d : Char} (digit : isDigit c = true) (digit' : isDigit d = true) :
    digitValue c = digitValue d ↔ c = d := by
  rw [← Char.toNat_inj, toNat_of_isDigit digit, toNat_of_isDigit digit', Nat.add_left_cancel_iff]

/-- A number is found from its first digit and from the rest in the order of these. -/
theorem mul_add_lt_mul_add_iff {first first' rest rest' unit : Nat} (small : rest < unit)
    (small' : rest' < unit) :
    first * unit + rest < first' * unit + rest' ↔
      first < first' ∨ first = first' ∧ rest < rest' := by
  rcases Nat.lt_trichotomy first first' with less | rfl | more
  · have step : (first + 1) * unit ≤ first' * unit := Nat.mul_le_mul_right unit less
    rw [Nat.add_mul] at step
    omega
  · omega
  · have step : (first' + 1) * unit ≤ first * unit := Nat.mul_le_mul_right unit more
    rw [Nat.add_mul] at step
    omega

/-- Texts of as many digits are ordered as the numbers that they write. -/
theorem lt_iff_valueFrom_lt {run other : List Char} (digits : ∀ c ∈ run, isDigit c = true)
    (digits' : ∀ c ∈ other, isDigit c = true) (same : run.length = other.length) :
    run < other ↔ valueFrom 0 run < valueFrom 0 other := by
  induction run generalizing other with
  | nil =>
      rw [List.length_eq_zero_iff.mp same.symm]
      simp
  | cons c run ih =>
      cases other with
      | nil => cases same
      | cons d other =>
          have same : run.length = other.length := Nat.succ.inj same
          rw [List.forall_mem_cons] at digits digits'
          have small : valueFrom 0 run < 10 ^ other.length := same ▸ valueFrom_zero_lt digits.2
          have small' : valueFrom 0 other < 10 ^ other.length := valueFrom_zero_lt digits'.2
          rw [List.cons_lt_cons_iff, ih digits.2 digits'.2 same, valueFrom_cons, valueFrom_cons,
            same, mul_add_lt_mul_add_iff small small', lt_iff_digitValue_lt digits.1 digits'.1,
            digitValue_inj digits.1 digits'.1]

/-- Texts of as many digits are the same if they write the same number. -/
theorem eq_of_valueFrom_eq {run other : List Char} (digits : ∀ c ∈ run, isDigit c = true)
    (digits' : ∀ c ∈ other, isDigit c = true) (length : run.length = other.length)
    (value : valueFrom 0 run = valueFrom 0 other) : run = other := by
  apply le_antisymm
  · rw [← not_lt, lt_iff_valueFrom_lt digits' digits length.symm, value]
    exact lt_irrefl _
  · rw [← not_lt, lt_iff_valueFrom_lt digits digits' length, value]
    exact lt_irrefl _

/-! ### Leading zeros -/

/-- A number other than zero is written without a leading zero. -/
theorem head_digits_ne_zero {n : Nat} (h : n ≠ 0) {cs : List Char} : digits n ≠ '0' :: cs := by
  induction n using Nat.strongRecOn generalizing cs with
  | ind n ih =>
      by_cases small : n < 10
      case pos =>
        have digit : ∀ k : Fin 10, k.val ≠ 0 → digitChar k ≠ '0' := by decide
        rw [digits_of_lt small]
        exact fun eq => digit ⟨n, small⟩ h (List.cons.inj eq).1
      case neg =>
        rw [digits_of_ge (by omega)]
        intro eq
        cases tens : digits (n / 10) with
        | nil => exact digits_ne_nil _ tens
        | cons c cs =>
            rw [tens, List.cons_append] at eq
            obtain rfl := (List.cons.inj eq).1
            exact ih (n / 10) (by omega) (by omega) tens

/-- A run of digits begins with a zero only if it is a single zero. -/
def NoLeadingZero (run : List Char) : Prop :=
  run.head? = some '0' → run = ['0']

theorem noLeadingZero_digits (n : Nat) : NoLeadingZero (digits n) := by
  intro zero
  by_cases none : n = 0
  case pos =>
    rw [none, digits_of_lt (by decide)]
    rfl
  case neg =>
    obtain ⟨cs, written⟩ := List.head?_eq_some_iff.mp zero
    exact absurd written (head_digits_ne_zero none)

/-- A longer run without leading zeros writes a larger number. -/
theorem valueFrom_lt_of_length_lt {run other : List Char}
    (digits : ∀ c ∈ run, isDigit c = true) (digits' : ∀ c ∈ other, isDigit c = true)
    (nonempty : run ≠ []) (leading : NoLeadingZero other) (longer : run.length < other.length) :
    valueFrom 0 run < valueFrom 0 other := by
  cases other with
  | nil => cases longer
  | cons d rest =>
      have several : rest ≠ [] := by
        rintro rfl
        exact nonempty (List.length_eq_zero_iff.mp (Nat.lt_one_iff.mp longer))
      have first : d ≠ '0' := by
        rintro rfl
        exact several (List.cons.inj (leading rfl)).2
      have positive : 1 ≤ digitValue d := by
        have zero : isDigit '0' = true := by decide
        have apart := mt (digitValue_inj (digits' d List.mem_cons_self) zero).mp first
        exact Nat.pos_of_ne_zero apart
      calc valueFrom 0 run
          < 10 ^ run.length := valueFrom_zero_lt digits
        _ ≤ 10 ^ rest.length := Nat.pow_le_pow_right (by decide) (Nat.lt_succ_iff.mp longer)
        _ ≤ digitValue d * 10 ^ rest.length := Nat.le_mul_of_pos_left _ positive
        _ ≤ valueFrom 0 (d :: rest) := by
            rw [valueFrom_cons]
            exact Nat.le_add_right _ _

/-- A run of digits without leading zeros is the one that is written for its number. -/
theorem eq_digits_of_noLeadingZero {run : List Char} (digits : ∀ c ∈ run, isDigit c = true)
    (nonempty : run ≠ []) (leading : NoLeadingZero run) :
    run = Text.digits (valueFrom 0 run) := by
  have value : valueFrom 0 (Text.digits (valueFrom 0 run)) = valueFrom 0 run := valueFrom_digits _
  have written : ∀ c ∈ Text.digits (valueFrom 0 run), isDigit c = true :=
    fun _ => isDigit_of_mem_digits
  rcases Nat.lt_trichotomy run.length (Text.digits (valueFrom 0 run)).length with
    shorter | same | longer
  · have less := valueFrom_lt_of_length_lt digits written nonempty (noLeadingZero_digits _) shorter
    omega
  · exact eq_of_valueFrom_eq digits written same value.symm
  · have less := valueFrom_lt_of_length_lt written digits (digits_ne_nil _) leading longer
    omega

end SearchIndex.Text
