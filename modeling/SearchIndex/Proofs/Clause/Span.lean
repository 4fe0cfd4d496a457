import SearchIndex.Condition
import SearchIndex.Proofs.Calendar.Stamp
import SearchIndex.Proofs.Clause.Range

/-!
# Spans of time are spans of text

A condition on a span of time is a range of stamps. A stamp has nothing in it that would have to
be escaped, so the range has the stamps themselves for its bounds, and a star for an open end.
Since stamps are ordered as the minutes are, the values between the bounds as texts are those of
the instants between them, to the minute: `compile_inSpan`.
-/

namespace SearchIndex

namespace Text

theorem isSpecial_of_isDigit {c : Char} (h : isDigit c = true) : isSpecial c = false := by
  have none : specialChars.any isDigit = false := by decide
  have other : ∀ d ∈ specialChars, isDigit d = false := fun d hd =>
    Bool.eq_false_iff.mpr (List.any_eq_false.mp none d hd)
  by_contra special
  have member : c ∈ specialChars := List.contains_iff_mem.mp (Bool.not_eq_false _ ▸ special)
  rw [other c member] at h
  cases h

/-- There is nothing to escape in a run of digits. -/
theorem escape_digits {run : List Char} (h : ∀ c ∈ run, isDigit c = true) : escape run = run := by
  induction run with
  | nil => rfl
  | cons c run ih =>
      obtain ⟨here, there⟩ := List.forall_mem_cons.mp h
      rw [escape, ih there]
      exact if_neg (Bool.eq_false_iff.mp (isSpecial_of_isDigit here))

/-- A run of digits is a bound as it is. -/
theorem bound?_digits {run : List Char} (nonempty : run ≠ [])
    (h : ∀ c ∈ run, isDigit c = true) : bound? (String.ofList run) = some run := by
  have trimmed : trim run = run := trim_eq_self
    (fun c hc => not_isBlank_of_isDigit (h c (List.mem_of_mem_head? hc)))
    (fun c hc => not_isBlank_of_isDigit (h c (List.mem_of_mem_getLast? hc)))
  have closed : run ≠ ['*'] := by
    rintro rfl
    exact absurd (h '*' (List.mem_singleton_self _)) (by decide)
  simp [bound?, trimmed, nonempty, closed]

end Text

/-- A value lies between two bounds, each of which may be open. The bounds themselves belong to
the values between them if these are to be inclusive. -/
def Between {α : Type} [LT α] [LE α] (inclusive : Bool) (first last : Option α) (value : α) :
    Prop :=
  (∀ bound ∈ first, if inclusive then bound ≤ value else bound < value) ∧
    ∀ bound ∈ last, if inclusive then value ≤ bound else value < bound

namespace FieldNames

open Calendar (Instant)
open Text (rangeText)

/-- An end of a span as it is written: its stamp, or a star if it is open. -/
def endText (bound : Option Instant) : List Char :=
  (bound.map Instant.stamp).getD ['*']

theorem boundText_spanEnd {bound : Option Instant} (plain : ∀ i ∈ bound, i.HasPlainYear) :
    Text.boundText (Text.bound? (spanEnd bound)) = endText bound := by
  cases bound with
  | none => rfl
  | some i =>
      have plain : i.HasPlainYear := plain i rfl
      have digits : ∀ c ∈ i.stamp, Text.isDigit c = true :=
        fun c => Instant.isDigit_of_mem_stamp plain
      have nonempty : i.stamp ≠ [] := by
        apply List.ne_nil_of_length_pos
        rw [Instant.length_stamp plain]
        decide
      rw [spanEnd, Text.bound?_digits nonempty digits]
      exact Text.escape_digits digits

/-- The stamp of an instant lies between two stamps if and only if its minute lies between their
minutes. -/
theorem between_stamp_iff {first last : Option Instant} (plain : ∀ i ∈ first, i.HasPlainYear)
    (plain' : ∀ i ∈ last, i.HasPlainYear) (inclusive : Bool) {i : Instant} (h : i.HasPlainYear) :
    Between inclusive (first.map Instant.stamp) (last.map Instant.stamp) i.stamp ↔
      Between inclusive (first.map Instant.minuteNumber) (last.map Instant.minuteNumber)
        i.minuteNumber := by
  rw [Between, Between]
  apply and_congr
  · cases first with
    | none => simp
    | some bound =>
        have plain : bound.HasPlainYear := plain bound rfl
        cases inclusive with
        | true => simpa using Instant.stamp_le_stamp_iff plain h
        | false => simpa using Instant.stamp_lt_stamp_iff plain h
  · cases last with
    | none => simp
    | some bound =>
        have plain : bound.HasPlainYear := plain' bound rfl
        cases inclusive with
        | true => simpa using Instant.stamp_le_stamp_iff h plain
        | false => simpa using Instant.stamp_lt_stamp_iff h plain

/-- A condition on a span of time in the years from 0 to 9999 is written as the field with the
range of the stamps of its ends in parentheses, an open end being a star. Stamps have twelve
digits; they are ordered as texts as the minutes are in time, and equal if and only if the
minutes are. So the stamps in the range are those of the instants in the span, to the minute. -/
theorem compile_inSpan {field : String} (filled : Text.isBlankText field = false)
    {first last : Option Instant} (plain : ∀ i ∈ first, i.HasPlainYear)
    (plain' : ∀ i ∈ last, i.HasPlainYear) (inclusive : Bool) :
    (Restriction.clause (inSpan field first last inclusive)).compile =
      String.ofList (Text.trim field.toList ++ ':' :: '(' ::
        rangeText inclusive (endText first) (endText last) ++ [')']) ∧
    (∀ i : Instant, i.HasPlainYear →
      i.stamp.length = 12 ∧ ∀ c ∈ i.stamp, Text.isDigit c = true) ∧
    (∀ a b : Instant, a.HasPlainYear → b.HasPlainYear →
      (a.stamp ≤ b.stamp ↔ a.minuteNumber ≤ b.minuteNumber) ∧
      (a.stamp = b.stamp ↔ a.minuteNumber = b.minuteNumber)) ∧
    ∀ i : Instant, i.HasPlainYear →
      (Between inclusive (first.map Instant.stamp) (last.map Instant.stamp) i.stamp ↔
        Between inclusive (first.map Instant.minuteNumber) (last.map Instant.minuteNumber)
          i.minuteNumber) := by
  refine ⟨?_, fun i h => ⟨Instant.length_stamp h, fun c => Instant.isDigit_of_mem_stamp h⟩,
    fun a b h h' => ⟨Instant.stamp_le_stamp_iff h h', Instant.stamp_eq_stamp_iff h h'⟩,
    fun i h => between_stamp_iff plain plain' inclusive h⟩
  rw [inSpan, Clause.compile_range filled, boundText_spanEnd plain, boundText_spanEnd plain']

theorem compile_inSpan_leapDay :
    let first : Instant := ⟨1709251199, 0⟩
    let last : Instant := ⟨1709251200, 0⟩
    let inside : Instant := ⟨1709251259, 999999999⟩
    (Restriction.clause (inSpan " date" (some first) (some last) true)).compile =
        "date:([202402292359 TO 202403010000])" ∧
      first.stamp ≤ last.stamp ∧ first.stamp ≠ last.stamp ∧ inside.stamp = last.stamp ∧
      Between true (some first.stamp) (some last.stamp) inside.stamp ∧
      ¬Between false (some first.stamp) (some last.stamp) inside.stamp ∧
      (Restriction.clause (inSpan " date" none (some last) true)).compile =
        "date:([* TO 202403010000])" := by
  intro first last inside
  have filled : Text.isBlankText " date" = false := by decide
  have plainFirst : first.HasPlainYear := by decide
  have plainLast : last.HasPlainYear := by decide
  have plainInside : inside.HasPlainYear := by decide
  have plain : ∀ i ∈ some first, i.HasPlainYear := by
    rintro _ ⟨⟩
    exact plainFirst
  have plain' : ∀ i ∈ some last, i.HasPlainYear := by
    rintro _ ⟨⟩
    exact plainLast
  obtain ⟨text, -, order, between⟩ := compile_inSpan filled plain plain' true
  obtain ⟨-, -, -, outside⟩ := compile_inSpan filled plain plain' false
  have unbounded : ∀ i ∈ (none : Option Instant), i.HasPlainYear := by
    rintro _ ⟨⟩
  obtain ⟨openText, -⟩ := compile_inSpan filled unbounded plain' true
  refine ⟨by rw [text]; decide +kernel, (order first last plainFirst plainLast).1.mpr (by decide),
    mt (order first last plainFirst plainLast).2.mp (by decide),
    (order inside last plainInside plainLast).2.mpr (by decide),
    (between inside plainInside).mpr ⟨?_, ?_⟩, mt (outside inside plainInside).mp ?_,
    by rw [openText]; decide +kernel⟩
  · rintro _ ⟨⟩
    decide
  · rintro _ ⟨⟩
    decide
  · rintro ⟨-, before⟩
    exact absurd (before last.minuteNumber rfl) (by decide)

end FieldNames

end SearchIndex
