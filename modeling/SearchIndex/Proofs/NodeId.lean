import Mathlib.Algebra.GroupWithZero.Nat
import SearchIndex.NodeId

/-!
# Node identifiers read back

An identifier is written with hyphens between its groups of digits and without any mark
around them, and it is read back from that form: `NodeId.ofText?_text`.
-/

namespace SearchIndex

namespace Text

/-- The digits of a number in hexadecimal are digits of numbers below sixteen. -/
theorem exists_hexDigit_of_mem {width n : Nat} {c : Char} (h : c ∈ hexDigits width n) :
    ∃ d : Fin 16, c = hexDigit d := by
  induction width generalizing n with
  | zero => cases h
  | succ width ih =>
      rcases List.mem_append.mp h with front | last
      · exact ih front
      · exact ⟨⟨n % 16, Nat.mod_lt n (by decide)⟩, List.mem_singleton.mp last⟩

end Text

namespace NodeId

/-- Groups of digits are read back as the digits. -/
theorem ungrouped?_grouped {sizes : List Nat} {digits : List Char} (some : sizes ≠ [])
    (h : digits.length = sizes.sum) : ungrouped? sizes (grouped sizes digits) = .some digits := by
  induction sizes, digits using grouped.induct with
  | case1 => exact absurd rfl some
  | case2 size digits =>
      have all : digits.length = size := by simpa using h
      simp [grouped, ungrouped?, all, List.take_of_length_le (Nat.le_of_eq all)]
  | case3 size sizes digits more ih =>
      have several : sizes ≠ [] := fun none => more none
      rw [List.sum_cons] at h
      have rest := ih several (by rw [List.length_drop, h, Nat.add_sub_cancel_left])
      have front : (digits.take size).length = size := by
        rw [List.length_take, h]
        omega
      rw [grouped.eq_3 _ _ _ more, ungrouped?.eq_3 _ _ _ more, List.drop_left' front,
        List.take_left' front]
      simp [rest]

/-- A text that begins with a hexadecimal digit has no mark in front. -/
theorem withoutMarks_cons (d : Fin 16) (rest : List Char) :
    withoutMarks (Text.hexDigit d :: rest) = Text.hexDigit d :: rest := by
  have letter : ∀ d : Fin 16, (Text.hexDigit d).toLower ≠ 'u' := by decide
  have brace : ∀ d : Fin 16, Text.hexDigit d ≠ '\x7b' := by decide
  have urn : Text.afterWord? ['u', 'r', 'n', ':', 'u', 'u', 'i', 'd', ':']
      (Text.hexDigit d :: rest) = none := by
    rw [Text.afterWord?, Text.sameLetters, if_neg]
    simp [letter d]
  simp only [withoutMarks, urn]
  split
  · next rest' same =>
    exact absurd (List.cons.inj same).1 (brace d)
  · rfl

/-- An identifier is read back from its text. -/
theorem ofText?_text (id : NodeId) : ofText? id.text = some id := by
  have full : (Text.hexDigits 32 id.value).length = 32 := Text.length_hexDigits 32 id.value
  have fits : bound = Nat.pow 16 32 := by decide
  have value : Text.hexDigitsValue? (Text.hexDigits 32 id.value) = some id.value :=
    Text.hexDigitsValue?_hexDigits (fits ▸ id.bounded)
  have read : ofDigits? (Text.hexDigits 32 id.value) = some id := by
    simp [ofDigits?, value, id.bounded]
  have long : (grouped groups (Text.hexDigits 32 id.value)).length = 36 := by
    simp [grouped, groups]
  have plain : withoutMarks (grouped groups (Text.hexDigits 32 id.value)) =
      grouped groups (Text.hexDigits 32 id.value) := by
    obtain ⟨c, cs, digits⟩ := List.exists_cons_of_length_eq_add_one full
    obtain ⟨d, rfl⟩ := Text.exists_hexDigit_of_mem (digits ▸ List.mem_cons_self)
    rw [digits]
    exact withoutMarks_cons d _
  rw [ofText?, text, String.toList_ofList, if_neg (by rw [long]; decide), plain, ofGroups?,
    ungrouped?_grouped (by decide) full, Option.bind_eq_bind, Option.bind_some, read]

end NodeId

end SearchIndex
