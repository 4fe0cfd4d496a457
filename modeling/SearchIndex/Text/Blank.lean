/-!
# Blank characters

Words are separated by the characters with the Unicode property `White_Space`,
and every text that is compared with "nothing" is trimmed of them first.
`isBlank` decides the property, `trim` removes blank characters from both ends
of a text, and `trim_eq_nil_iff` says that a text is trimmed to nothing exactly
when it holds blank characters only.
-/

namespace SearchIndex.Text

/-- The code points with the property `White_Space`, as closed ranges. -/
def blankRanges : List (Nat × Nat) :=
  [(0x09, 0x0D), (0x20, 0x20), (0x85, 0x85), (0xA0, 0xA0), (0x1680, 0x1680),
    (0x2000, 0x200A), (0x2028, 0x2029), (0x202F, 0x202F), (0x205F, 0x205F), (0x3000, 0x3000)]

/-- Whether a character has the property `White_Space`. -/
def isBlank (c : Char) : Bool :=
  blankRanges.any fun (first, last) => first ≤ c.toNat && c.toNat ≤ last

/-- A text without the blank characters at its start. -/
def trimStart (text : List Char) : List Char :=
  text.dropWhile isBlank

/-- A text without the blank characters at its end. -/
def trimEnd (text : List Char) : List Char :=
  (trimStart text.reverse).reverse

/-- A text without the blank characters at its two ends. -/
def trim (text : List Char) : List Char :=
  trimEnd (trimStart text)

/-- A stored text without the blank characters at its two ends. -/
def trimmed (text : String) : String :=
  String.ofList (trim text.toList)

/-- Whether nothing is left of a stored text once it is trimmed. -/
def isBlankText (text : String) : Bool :=
  text.toList.all isBlank

theorem trimStart_eq_nil_iff {text : List Char} :
    trimStart text = [] ↔ ∀ c ∈ text, isBlank c = true := by
  induction text with
  | nil => simp [trimStart]
  | cons c cs ih =>
    cases h : isBlank c <;> simp_all [trimStart]

theorem trimEnd_eq_nil_iff {text : List Char} :
    trimEnd text = [] ↔ ∀ c ∈ text, isBlank c = true := by
  simp [trimEnd, trimStart_eq_nil_iff]

theorem trim_eq_nil_iff {text : List Char} :
    trim text = [] ↔ ∀ c ∈ text, isBlank c = true := by
  rw [trim, trimEnd_eq_nil_iff]
  constructor
  · intro h
    induction text with
    | nil => simp
    | cons c cs ih =>
      cases hc : isBlank c
      · simp [trimStart, hc] at h
      · simp only [trimStart, List.dropWhile_cons, hc, if_true] at h
        exact List.forall_mem_cons.mpr ⟨hc, ih h⟩
  · intro h c hc
    exact h c ((List.dropWhile_sublist _).subset hc)

theorem isBlankText_iff {text : String} :
    isBlankText text = true ↔ trim text.toList = [] := by
  simp [isBlankText, trim_eq_nil_iff]

theorem isEmpty_trim (text : String) : (trim text.toList).isEmpty = isBlankText text := by
  rw [Bool.eq_iff_iff, List.isEmpty_iff, isBlankText_iff]

end SearchIndex.Text
