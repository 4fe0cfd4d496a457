import SearchIndex.Clause

/-!
# Clauses for whole values

A clause is empty if its field or what it searches for is blank. For a clause
that searches for one whole value the latter means that the value is blank:
neither escaping nor quoting makes a blank text of one that is not.
-/

namespace SearchIndex

namespace Text

theorem mem_escape {c : Char} {text : List Char} (h : c ∈ text) : c ∈ escape text := by
  induction text with
  | nil => cases h
  | cons d rest ih =>
      rw [escape_cons]
      rcases List.mem_cons.mp h with rfl | h
      · exact List.mem_append_left _ (by split <;> simp)
      · exact List.mem_append_right _ (ih h)

/-- The last character that is left of a trimmed text is not blank. -/
theorem exists_mem_trim {text : List Char} (h : trim text ≠ []) :
    ∃ c ∈ trim text, isBlank c = false := by
  have kept : (trimStart text).reverse.dropWhile isBlank ≠ [] := by
    intro none
    exact h (List.reverse_eq_nil_iff.mpr none)
  exact ⟨_, List.mem_reverse.mpr (List.head_mem kept), List.head_dropWhile_not isBlank kept⟩

/-- A text with a character that is not blank is not blank. -/
theorem isBlankText_eq_false {text : String} {c : Char} (hc : c ∈ text.toList)
    (h : isBlank c = false) : isBlankText text = false := by
  rw [isBlankText, List.all_eq_false]
  exact ⟨c, hc, by simp [h]⟩

end Text

namespace Clause

theorem isEmpty_eq (c : Clause) : c.isEmpty = (Text.isBlankText c.field || c.value.isEmpty) := by
  rw [isEmpty, body, Text.isEmpty_trim]
  split
  · next h => simp [h]
  · next h =>
      rw [Bool.eq_false_iff.mpr h]
      simp

theorem isEmpty_verbatim (field query : String) :
    (verbatim field query).isEmpty = (Text.isBlankText field || Text.isBlankText query) := by
  rw [isEmpty_eq, ← Text.isEmpty_trim query]
  rfl

/-- The text of a whole value is blank only if the value is. -/
theorem isBlankText_exactText (value : String) :
    Text.isBlankText (String.ofList (exactText value)) = Text.isBlankText value := by
  cases blank : Text.isBlankText value with
  | true =>
      have empty : Text.trim value.toList = [] := Text.isBlankText_iff.mp blank
      simp [exactText, empty, Text.isBlankText]
  | false =>
      have filled : Text.trim value.toList ≠ [] := by
        intro empty
        rw [Text.isBlankText_iff.mpr empty] at blank
        cases blank
      obtain ⟨c, hc, hb⟩ := Text.exists_mem_trim filled
      rw [exactText]
      split
      · exact Text.isBlankText_eq_false (c := '"') (by simp [Text.phrase]) (by decide)
      · exact Text.isBlankText_eq_false (by simpa using Text.mem_escape hc) hb

/-- A clause for a whole value is empty only if the field or the value is blank. -/
theorem isEmpty_exactly (field value : String) :
    (exactly field value).isEmpty = (Text.isBlankText field || Text.isBlankText value) := by
  rw [exactly, isEmpty_verbatim, isBlankText_exactText]

end Clause

end SearchIndex
