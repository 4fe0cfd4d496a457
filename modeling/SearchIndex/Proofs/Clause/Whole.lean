import SearchIndex.Condition
import SearchIndex.Proofs.Clause.Containment
import SearchIndex.Proofs.Restriction.Group

/-!
# Whole values are read back

A clause for a whole value has the value between its parentheses, as one term or, if the
value has blanks inside, as one phrase. `Text.Denotes` says that a text is a complete term
or a complete phrase, and which value it stands for.

A term stands for the value that it was made of, unless that is one of the words for
connectives. A phrase has its double quotes escaped and nothing else, so it stands for the
value that it was made of if and only if that has no backslash.
-/

namespace SearchIndex

namespace Text

/-- The words that are no terms, since they join or negate. -/
def keywords : List (List Char) :=
  [['A', 'N', 'D'], ['O', 'R'], ['N', 'O', 'T']]

/-- Whether each character of a text is allowed by itself or has a backslash in front. -/
def isLiteral (allowed : Char → Bool) : List Char → Bool
  | [] => true
  | '\\' :: _ :: text => isLiteral allowed text
  | c :: text => allowed c && isLiteral allowed text

/-- Whether a character may stand in a term by itself. -/
def isTermPart (c : Char) : Bool :=
  !isSpecial c && !isBlank c

/-- Whether a character may stand in a phrase by itself. -/
def isPhrasePart (c : Char) : Bool :=
  c != '"' && c != '\\'

/-- A text is one complete term or one complete phrase. It stands for what is left without
the double quotes around a phrase and without the backslashes that make the next character
an ordinary one. -/
inductive Denotes : List Char → List Char → Prop where
  | term {text : List Char} (nonempty : text ≠ []) (word : text ∉ keywords)
      (literal : isLiteral isTermPart text = true) : Denotes text (unescape text)
  | phrase {inner : List Char} (literal : isLiteral isPhrasePart inner = true) :
      Denotes ('"' :: inner ++ ['"']) (unescape inner)

theorem isLiteral_cons_of_ne {allowed : Char → Bool} {c : Char} (h : c ≠ '\\') (text : List Char) :
    isLiteral allowed (c :: text) = (allowed c && isLiteral allowed text) := by
  rw [isLiteral]
  intro _ _ hc
  exact absurd hc h

/-- A text that starts with a double quote is no term. -/
theorem isLiteral_term_quote (text : List Char) : isLiteral isTermPart ('"' :: text) = false := by
  rw [isLiteral_cons_of_ne (by decide), show isTermPart '"' = false by decide, Bool.false_and]

theorem isLiteral_escape {text : List Char} (h : ∀ c ∈ text, isBlank c = false) :
    isLiteral isTermPart (escape text) = true := by
  induction text with
  | nil => rfl
  | cons c text ih =>
      obtain ⟨here, there⟩ := List.forall_mem_cons.mp h
      cases special : isSpecial c with
      | true =>
          rw [escape, special, if_pos rfl, isLiteral]
          exact ih there
      | false =>
          have ordinary : c ≠ '\\' := by
            rintro rfl
            cases special
          rw [escape, special, if_neg Bool.false_ne_true, isLiteral_cons_of_ne ordinary, ih there]
          simp [isTermPart, special, here]

/-- Escaped text is a keyword only if the text is. -/
theorem escape_mem_keywords_iff {text : List Char} : escape text ∈ keywords ↔ text ∈ keywords := by
  have plain : ∀ word ∈ keywords, unescape word = word ∧ escape word = word := by decide
  constructor
  · intro h
    rw [← unescape_escape text, (plain _ h).1]
    exact h
  · intro h
    rw [(plain _ h).2]
    exact h

/-- A text without blanks is denoted by its escaped form, unless it is a keyword. -/
theorem denotes_escape_iff {text : List Char} (filled : text ≠ [])
    (h : ∀ c ∈ text, isBlank c = false) : Denotes (escape text) text ↔ text ∉ keywords := by
  constructor
  · intro denotes
    generalize written : escape text = escaped at denotes
    cases denotes with
    | term _ word _ =>
        rw [← written] at word
        exact mt escape_mem_keywords_iff.mpr word
    | phrase _ =>
        have literal := isLiteral_escape h
        rw [written, List.cons_append, isLiteral_term_quote] at literal
        cases literal
  · intro word
    have term := Denotes.term (mt escape_eq_nil_iff.mp filled)
      (mt escape_mem_keywords_iff.mp word) (isLiteral_escape h)
    rwa [unescape_escape] at term

theorem Denotes.isLiteral {text value : List Char} (h : Denotes text value) :
    Text.isLiteral isTermPart text = true ∨
      Text.isLiteral isPhrasePart text.tail.dropLast = true := by
  cases h with
  | term _ _ literal => exact .inl literal
  | phrase literal => exact .inr (by simpa using literal)

/-- A text stands for one value at most. -/
theorem Denotes.unique {text value other : List Char} (h : Denotes text value)
    (h' : Denotes text other) : value = other := by
  cases h with
  | term _ _ literal =>
      generalize same : text = text' at h'
      cases h' with
      | term _ _ _ => rfl
      | phrase _ =>
          rw [same, List.cons_append, isLiteral_term_quote] at literal
          cases literal
  | @phrase inner _ =>
      generalize same : '"' :: inner ++ ['"'] = text' at h'
      cases h' with
      | term _ _ literal =>
          rw [← same, List.cons_append, isLiteral_term_quote] at literal
          cases literal
      | phrase _ => rw [List.append_cancel_right (List.cons.inj same).2]

theorem isLiteral_escapeQuotes {text : List Char} (h : '\\' ∉ text) :
    isLiteral isPhrasePart (escapeQuotes text) = true ∧ unescape (escapeQuotes text) = text := by
  induction text with
  | nil => exact ⟨rfl, rfl⟩
  | cons c text ih =>
      rw [List.mem_cons, not_or] at h
      obtain ⟨literal, back⟩ := ih h.2
      by_cases quote : c = '"'
      · rw [escapeQuotes, if_pos quote, isLiteral, unescape, back, quote]
        exact ⟨literal, rfl⟩
      · have ordinary : isPhrasePart c = true := by simp [isPhrasePart, quote, Ne.symm h.1]
        rw [escapeQuotes, if_neg quote, isLiteral_cons_of_ne (Ne.symm h.1),
          unescape_cons_of_ne (Ne.symm h.1), back, literal, ordinary]
        exact ⟨rfl, rfl⟩

/-- Dropping backslashes takes away those that were put in front of the double quotes. -/
theorem length_unescape_escapeQuotes_le (text : List Char) :
    (unescape (escapeQuotes text)).length ≤ text.length := by
  induction text using unescape.induct with
  | case1 => exact Nat.le_refl 0
  | case2 c rest ih =>
      by_cases quote : c = '"'
      · simp [escapeQuotes, unescape, quote, ih]
      · simp [escapeQuotes, unescape, quote]
        omega
  | case3 c rest single ih =>
      by_cases quote : c = '"'
      · simp [escapeQuotes, unescape, quote, ih]
      · by_cases backslash : c = '\\'
        · cases rest with
          | nil => simp [escapeQuotes, unescape, quote]
          | cons d rest => exact absurd rfl (single d rest backslash)
        · simp [escapeQuotes, unescape_cons_of_ne backslash, quote, ih]

/-- If a phrase is complete and its text is read back, the text has no backslash: one in
front of a double quote ends the phrase, and so does one at the end, and any other one is
dropped. -/
theorem not_mem_of_unescape_escapeQuotes {text : List Char}
    (literal : isLiteral isPhrasePart (escapeQuotes text) = true)
    (back : unescape (escapeQuotes text) = text) : '\\' ∉ text := by
  induction text using unescape.induct with
  | case1 => exact List.not_mem_nil
  | case2 c rest _ =>
      exfalso
      by_cases quote : c = '"'
      · simp [escapeQuotes, isLiteral, isPhrasePart, quote] at literal
      · have written : escapeQuotes ('\\' :: c :: rest) = '\\' :: c :: escapeQuotes rest := by
          simp [escapeQuotes, quote]
        rw [written, unescape] at back
        -- The backslash is dropped, and nothing behind it can make up for that.
        have shorter := length_unescape_escapeQuotes_le rest
        rw [(List.cons.inj back).2, List.length_cons] at shorter
        omega
  | case3 c rest single ih =>
      have ordinary : c ≠ '\\' := by
        rintro rfl
        cases rest with
        | nil => simp [escapeQuotes, isLiteral, isPhrasePart] at literal
        | cons d rest => exact single d rest rfl rfl
      have tail : isLiteral isPhrasePart (escapeQuotes rest) = true ∧
          unescape (escapeQuotes rest) = rest := by
        by_cases quote : c = '"'
        · rw [escapeQuotes, if_pos quote, unescape] at back
          rw [escapeQuotes, if_pos quote, isLiteral] at literal
          exact ⟨literal, (List.cons.inj back).2⟩
        · rw [escapeQuotes, if_neg quote, unescape_cons_of_ne ordinary] at back
          rw [escapeQuotes, if_neg quote, isLiteral_cons_of_ne ordinary,
            Bool.and_eq_true] at literal
          exact ⟨literal.2, (List.cons.inj back).2⟩
      rw [List.mem_cons, not_or]
      exact ⟨Ne.symm ordinary, ih tail.1 tail.2⟩

/-- A text is denoted by the phrase that is made of it if and only if it has no backslash. -/
theorem denotes_phrase_iff {text : List Char} : Denotes (phrase text) text ↔ '\\' ∉ text := by
  constructor
  · intro denotes
    generalize written : phrase text = whole at denotes
    generalize same : text = value at denotes
    cases denotes with
    | term _ _ literal =>
        rw [← written, phrase, List.cons_append, isLiteral_term_quote] at literal
        cases literal
    | phrase literal =>
        have inner := List.append_cancel_right (List.cons.inj written).2
        rw [← inner] at literal same ⊢
        rw [← same]
        exact not_mem_of_unescape_escapeQuotes literal same.symm
  · intro h
    obtain ⟨literal, back⟩ := isLiteral_escapeQuotes h
    have quoted := Denotes.phrase literal
    rwa [back] at quoted

/-- Nothing is trimmed off a text that has no blank characters at its ends. -/
theorem trim_eq_self {text : List Char} (first : ∀ c ∈ text.head?, isBlank c = false)
    (last : ∀ c ∈ text.getLast?, isBlank c = false) : trim text = text := by
  have kept : ∀ text : List Char, (∀ c ∈ text.head?, isBlank c = false) →
      trimStart text = text := by
    intro text h
    cases text with
    | nil => rfl
    | cons c text => exact List.dropWhile_cons_of_neg (by simp [h c rfl])
  rw [trim, kept text first, trimEnd, kept _ (by rwa [List.head?_reverse]), List.reverse_reverse]

/-- Escaped text has the characters of the text and backslashes. -/
theorem mem_of_mem_escape {c : Char} {text : List Char} (h : c ∈ escape text) :
    c = '\\' ∨ c ∈ text := by
  induction text with
  | nil => cases h
  | cons d rest ih =>
      rw [escape_cons] at h
      rcases List.mem_append.mp h with h | h
      · split at h
        · rcases List.mem_cons.mp h with h | h
          · exact .inl h
          · exact .inr (List.mem_cons.mpr (.inl (List.mem_singleton.mp h)))
        · exact .inr (List.mem_cons.mpr (.inl (List.mem_singleton.mp h)))
      · exact (ih h).imp_right (List.mem_cons_of_mem d)

end Text

namespace Clause

variable {field value : String}

/-- Nothing is trimmed off the text of a whole value. -/
theorem trim_exactText (value : String) : Text.trim (exactText value) = exactText value := by
  have quote : Text.isBlank '"' = false := by decide
  rw [exactText]
  split
  · refine Text.trim_eq_self (by simp [Text.phrase, quote]) fun c hc => ?_
    rw [Text.phrase, List.getLast?_concat] at hc
    rw [← Option.some.inj hc, quote]
  · next filled =>
    rw [Bool.not_eq_true, List.any_eq_false] at filled
    have escaped : ∀ c ∈ Text.escape (Text.trim value.toList), Text.isBlank c = false := by
      intro c hc
      rcases Text.mem_of_mem_escape hc with rfl | hc
      · decide
      · exact Bool.eq_false_iff.mpr (filled c hc)
    exact Text.trim_eq_self (fun c hc => escaped c (List.mem_of_mem_head? hc))
      (fun c hc => escaped c (List.mem_of_mem_getLast? hc))

/-- The text of a whole value denotes the value, unless that is a phrase with a backslash
or a word that is a keyword. -/
theorem denotes_exactText_iff (filled : Text.isBlankText value = false) :
    Text.Denotes (exactText value) (Text.trim value.toList) ↔
      if (Text.trim value.toList).any Text.isBlank then '\\' ∉ Text.trim value.toList
      else Text.trim value.toList ∉ Text.keywords := by
  rw [exactText]
  split
  · exact Text.denotes_phrase_iff
  · next single =>
    rw [Bool.not_eq_true, List.any_eq_false] at single
    refine Text.denotes_escape_iff ?_ fun c hc => Bool.eq_false_iff.mpr (single c hc)
    intro empty
    rw [Text.isBlankText_iff.mpr empty] at filled
    cases filled

/-- A clause for a whole value is written as the field with the value in parentheses. -/
theorem compile_exactly (hfield : Text.isBlankText field = false)
    (hvalue : Text.isBlankText value = false) :
    (Restriction.clause (.exactly field value)).compile =
      String.ofList (Text.trim field.toList ++ ':' :: '(' :: exactText value ++ [')']) := by
  have filled : (exactly field value).isEmpty = false := by
    rw [isEmpty_exactly, hfield, hvalue]
    rfl
  have text : (exactly field value).value = exactText value := by
    have query : (exactly field value).value =
        Text.trim (String.ofList (exactText value)).toList := rfl
    rw [query, String.toList_ofList, trim_exactText]
  rw [Restriction.compile_clause filled, body_eq filled, text]
  rfl

theorem compile_of_isEmpty {c : Clause} (h : c.isEmpty = true) :
    (Restriction.clause c).compile = "" := by
  simp [Restriction.compile, Restriction.compiled, Compiled.ofClause, Compiled.text, h]

end Clause

/-- A restriction asks for a value in a field: its text is the field with one term or one
phrase in parentheses, and that denotes the value. Blank characters at the ends of either
play no part. -/
def Restriction.AsksFor (r : Restriction) (field value : String) : Prop :=
  ∃ text, r.compile = String.ofList (Text.trim field.toList ++ ':' :: '(' :: text ++ [')']) ∧
    Text.Denotes text (Text.trim value.toList)

namespace Clause

theorem asksFor_exactly (field value : String) :
    (Restriction.clause (.exactly field value)).AsksFor field value ↔
      Text.isBlankText field = false ∧ Text.isBlankText value = false ∧
        if (Text.trim value.toList).any Text.isBlank then '\\' ∉ Text.trim value.toList
        else Text.trim value.toList ∉ Text.keywords := by
  cases empty : (exactly field value).isEmpty with
  | true =>
      have blank := isEmpty_exactly field value
      rw [empty] at blank
      constructor
      · rintro ⟨text, written, -⟩
        rw [compile_of_isEmpty empty] at written
        have := congrArg String.toList written
        simp at this
      · rintro ⟨hfield, hvalue, -⟩
        rw [hfield, hvalue] at blank
        cases blank
  | false =>
      rw [isEmpty_exactly, Bool.or_eq_false_iff] at empty
      obtain ⟨hfield, hvalue⟩ := empty
      rw [hfield, hvalue, Restriction.AsksFor, compile_exactly hfield hvalue,
        ← denotes_exactText_iff hvalue]
      constructor
      · rintro ⟨text, same, denotes⟩
        have inner : exactText value = text := by
          simpa using congrArg String.toList same
        rw [inner]
        exact ⟨rfl, rfl, denotes⟩
      · rintro ⟨-, -, denotes⟩
        exact ⟨_, rfl, denotes⟩

end Clause

/-- A restriction asks for one value at most. -/
theorem Restriction.AsksFor.unique {r : Restriction} {field value other : String}
    (h : r.AsksFor field value) (h' : r.AsksFor field other) :
    Text.trim value.toList = Text.trim other.toList := by
  obtain ⟨text, written, denotes⟩ := h
  obtain ⟨text', written', denotes'⟩ := h'
  have same : text = text' := by
    simpa using congrArg String.toList (written.symm.trans written')
  rw [← same] at denotes'
  exact denotes.unique denotes'

namespace FieldNames

/-- A group for some values has clauses for them as members. -/
theorem exists_value_of_mem {field : String} {values : List String} {connective : Connective}
    {r : Restriction} (h : r ∈ (withValues field values connective).members) :
    ∃ value ∈ values, r = .clause (.exactly field value) := by
  rw [withValues, Group.ofMembers, Group.members_addAll, List.nil_append] at h
  have given := (List.mem_filter.mp ((Restriction.distinct_sublist _ _).mem h)).1
  obtain ⟨value, hvalue, rfl⟩ := List.mem_map.mp given
  exact ⟨value, hvalue, rfl⟩

theorem eq_of_mem_isDocument {names : FieldNames} {document : DocumentRef} {r : Restriction}
    (h : r ∈ (names.isDocument document).members) :
    r = .clause (.exactly names.fullName document.fullName) ∨
      ∃ language ∈ document.language, r = .clause (.exactly names.language language) := by
  rw [isDocument, Group.ofMembers, Group.members_addAll, List.nil_append] at h
  have given := (List.mem_filter.mp ((Restriction.distinct_sublist _ _).mem h)).1
  rcases List.mem_cons.mp given with rfl | given
  · exact .inl rfl
  · obtain ⟨language, pinned, rfl⟩ := List.mem_map.mp given
    exact .inr ⟨language, Option.mem_toList.mp pinned, rfl⟩

/-- A clause for a whole value asks for the value that it was made of, if the value is not
blank and has no backslash besides blanks, and is no keyword. -/
theorem asksFor_exactly_iff (names : FieldNames) :
    (∀ field value, (Restriction.clause (.exactly field value)).AsksFor field value ↔
      Text.isBlankText field = false ∧ Text.isBlankText value = false ∧
        if (Text.trim value.toList).any Text.isBlank then '\\' ∉ Text.trim value.toList
        else Text.trim value.toList ∉ Text.keywords) ∧
    (∀ (r : Restriction) field value other, r.AsksFor field value → r.AsksFor field other →
      Text.trim value.toList = Text.trim other.toList) ∧
    (∀ value, [names.inPartition value, names.ofType value, names.inSpace value,
        names.inLanguage value, names.withFilename value] =
      [names.partition, names.docType, names.space, names.language, names.filename].map
        (Clause.exactly · value)) ∧
    (∀ field values connective, ∀ r ∈ (withValues field values connective).members,
      ∃ value ∈ values, r = .clause (.exactly field value)) ∧
    (∀ document, ∀ r ∈ (names.isDocument document).members,
      r = .clause (.exactly names.fullName document.fullName) ∨
        ∃ language ∈ document.language, r = .clause (.exactly names.language language)) :=
  ⟨Clause.asksFor_exactly, fun _ _ _ _ h h' => h.unique h', fun _ => rfl,
    fun _ _ _ _ h => exists_value_of_mem h, fun _ _ h => eq_of_mem_isDocument h⟩

theorem asksFor_exactly_iff_quotedWord :
    let words : Restriction := .clause (.exactly "web" " My \"Space\"")
    let group := withValues "web" ["a:b", " My \"Space\""] .or
    words ∈ group.members ∧ words.compile = "web:(\"My \\\"Space\\\"\")" ∧
      words.AsksFor "web" " My \"Space\"" ∧ words.AsksFor "web" "My \"Space\"" ∧
      (∃ value ∈ ["a:b", " My \"Space\""], words = .clause (.exactly "web" value)) ∧
      Text.trim " My \"Space\"".toList = Text.trim "My \"Space\"".toList ∧
      ∀ r ∈ (isDocument {} { partition := "a", space := "b", name := "c" }).members,
        r = .clause (.exactly "fullname" "b.c") := by
  intro words group
  have asks : words.AsksFor "web" " My \"Space\"" :=
    ((asksFor_exactly_iff {}).1 "web" " My \"Space\"").mpr (by decide)
  have trimmed : words.AsksFor "web" "My \"Space\"" := asks
  have members : group.members = [.clause (.exactly "web" "a:b"), words] := rfl
  have member : words ∈ group.members := by
    rw [members]
    exact List.mem_cons_of_mem _ List.mem_cons_self
  refine ⟨member, ?_, asks, trimmed, ?_, ?_, ?_⟩
  · rw [Clause.compile_exactly (by decide) (by decide)]
    decide
  · exact (asksFor_exactly_iff {}).2.2.2.1 "web" _ .or words member
  · exact (asksFor_exactly_iff {}).2.1 words "web" _ _ asks trimmed
  · intro r hr
    rcases (asksFor_exactly_iff {}).2.2.2.2 _ r hr with same | ⟨_, none, _⟩
    · exact same
    · cases none

/-- The phrase for a value that has a blank and ends in a backslash does not end. The one
for a value with a backslash further in front stands for another value. -/
theorem not_asksFor_backslashBesideBlank :
    (∀ c ∈ "web".toList, Text.isSpecial c = false) ∧ Text.isBlankText "a b\\" = false ∧
      (Restriction.clause (.exactly "web" "a b\\")).compile = "web:(\"a b\\\")" ∧
      (∀ value, ¬(Restriction.clause (.exactly "web" "a b\\")).AsksFor "web" value) ∧
      (Restriction.clause (.exactly "web" "a \\b")).AsksFor "web" "a b" := by
  have written : ∀ value, Text.isBlankText value = false →
      (Restriction.clause (.exactly "web" value)).compile =
        String.ofList (Text.trim "web".toList ++ ':' :: '(' :: Clause.exactText value ++ [')']) :=
    fun value filled => Clause.compile_exactly (by decide) filled
  have ordinary : ∀ c ∈ ['w', 'e', 'b'], Text.isSpecial c = false := by
    simp only [List.forall_mem_cons]
    exact ⟨rfl, rfl, rfl, nofun⟩
  refine ⟨ordinary, by decide, ?_, ?_, ?_⟩
  · rw [written _ (by decide)]
    decide
  · rintro value ⟨text, same, denotes⟩
    rw [written _ (by decide)] at same
    have inner : Clause.exactText "a b\\" = text := by
      simpa using congrArg String.toList same
    rw [← inner] at denotes
    rcases denotes.isLiteral with literal | literal <;> revert literal <;> decide
  · exact ⟨_, written _ (by decide), .phrase (by decide)⟩

end FieldNames

end SearchIndex
