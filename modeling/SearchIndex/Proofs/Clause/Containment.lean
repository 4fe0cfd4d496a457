import Mathlib.Data.List.Permutation
import SearchIndex.Proofs.Clause.Exact
import SearchIndex.Proofs.Restriction.Forms
import SearchIndex.Proofs.Term
import SearchIndex.Proofs.Text.Phrase

/-!
# Free text stays in its field

A clause is written as a field with its value in parentheses. The value of a clause
that takes its text apart mirrors its phrases: escaped terms, signs, wildcards and
the numbers behind them have no effect on a reader, so only what the user put in
double quotes has. Hence the value stays within its parentheses if and only if the
phrases alone would.

The phrases are taken over as they stand, so a phrase that ends in a backslash loses
its closing quote. One such phrase is enough to lose the closing parenthesis, and
`encloses_compile` says what holds of all other clauses.
-/

namespace SearchIndex

open Reader

namespace Text

theorem mem_of_mem_trim {c : Char} {text : List Char} (h : c ∈ trim text) : c ∈ text := by
  have front : c ∈ (trimStart text).reverse :=
    (List.dropWhile_sublist _).subset (List.mem_reverse.mp h)
  exact (List.dropWhile_sublist _).subset (List.mem_reverse.mp front)

theorem isPlain_of_isDigit {c : Char} (h : isDigit c = true) : isPlain c = true := by
  rw [isPlain]
  simp only [Bool.and_eq_true, bne_iff_ne]
  refine ⟨⟨⟨?_, ?_⟩, ?_⟩, ?_⟩ <;>
    · rintro rfl
      exact absurd h (by decide)

theorem isPlain_of_mem_digits {n : Nat} {c : Char} (h : c ∈ digits n) : isPlain c = true :=
  isPlain_of_isDigit (isDigit_of_mem_digits h)

end Text

namespace Decimal

/-- A decimal has digits, one point and a sign at most. -/
theorem of_mem_text {negative : Bool} {n : Nat} {c : Char} (h : c ∈ text negative n) :
    c = '-' ∨ c = '.' ∨ Text.isDigit c = true := by
  rw [text] at h
  rcases List.mem_append.mp h with h | h
  · rcases List.mem_append.mp h with h | h
    · split at h
      · exact .inl (List.mem_singleton.mp h)
      · cases h
    · exact .inr (.inr (Text.isDigit_of_mem_digits h))
  · rcases List.mem_cons.mp h with rfl | h
    · exact .inr (.inl rfl)
    · exact .inr (.inr (isDigit_of_mem_places h))

theorem isPlain_of_mem_text {negative : Bool} {n : Nat} {c : Char} (h : c ∈ text negative n) :
    isPlain c = true := by
  rcases of_mem_text h with rfl | rfl | h
  · decide
  · decide
  · exact Text.isPlain_of_isDigit h

end Decimal

namespace Term

/-- The phrase that a quoted term is written as; a plain term is none. -/
def phrases (t : Term) : List (List Char) :=
  if t.quoted then [t.phrasePart] else []

namespace Shaped

variable {t : Term}

theorem mirrors_body (h : t.Shaped) : Mirrors t.body t.phrases := by
  cases quoted : t.quoted with
  | true =>
      obtain ⟨-, body, -⟩ := h.quoted quoted
      rw [phrases, quoted, body]
      simpa using mirrors_quoted [t.phrasePart]
  | false =>
      obtain ⟨⟨stem, body⟩, -⟩ := h.plain quoted
      rw [phrases, quoted, body]
      exact mirrors_escape stem

theorem isPlain_wildcard (h : t.Shaped) : ∀ c ∈ t.wildcard, isPlain c = true := by
  cases quoted : t.quoted with
  | true =>
      obtain ⟨none, -, -⟩ := h.quoted quoted
      rw [none]
      exact List.forall_mem_nil _
  | false =>
      intro c hc
      have star := (h.plain quoted).2 c hc
      simp only [isWildcard, Bool.or_eq_true, beq_iff_eq] at star
      rcases star with rfl | rfl <;> decide

theorem mirrors_mandatory (h : t.Shaped) (widen : Bool) :
    Mirrors (t.mandatory widen) t.phrases := by
  have sign : isPlain (t.sign.getD .required).char = true := by
    cases t.sign.getD .required <;> decide
  have wildcard : ∀ c ∈ (if !t.wildcard.isEmpty then t.wildcard
      else if widen && !t.quoted then ['*'] else []), isPlain c = true := by
    split
    · exact h.isPlain_wildcard
    · split <;> exact List.all_eq_true.mp rfl
  have joined := h.mirrors_body.append (mirrors_of_isPlain wildcard)
  rw [List.append_nil] at joined
  exact joined.cons sign

theorem mirrors_fuzzy (h : t.Shaped) {distance : List Char}
    (hd : ∀ c ∈ distance, isPlain c = true) : Mirrors (t.fuzzy distance) t.phrases := by
  have negation : ∀ c ∈ (if t.isExcluded then ['N', 'O', 'T', ' '] else []), isPlain c = true := by
    split <;> exact List.all_eq_true.mp rfl
  have body := h.mirrors_body
  have positive : Mirrors (if t.quoted then t.body else '(' :: t.body ++ ['*', ' ', 'O', 'R', ' '] ++
      t.body ++ '~' :: distance ++ [')']) t.phrases := by
    cases quoted : t.quoted with
    | true => exact body
    | false =>
        rw [show t.phrases = [] by rw [phrases, quoted]; rfl] at body ⊢
        have plain : ∀ c ∈ ['*', ' ', 'O', 'R', ' '], isPlain c = true := List.all_eq_true.mp rfl
        have wide := body.append (mirrors_of_isPlain plain)
        have similar := mirrors_of_isPlain (List.forall_mem_cons.mpr ⟨(by decide : isPlain '~'), hd⟩)
        have both := ((wide.append body).append similar).paren
        simpa using both
  exact (mirrors_of_isPlain negation).append positive

/-- What a term contributes to a longer phrase. -/
theorem quiet_phrasePart (h : t.Shaped) : Quiet t.phrasePart := by
  cases quoted : t.quoted with
  | true => exact quiet_of_not_mem (h.quoted quoted).2.2
  | false =>
      obtain ⟨⟨stem, body⟩, -⟩ := h.plain quoted
      rw [phrasePart, quoted, body]
      exact quiet_escape stem

theorem isLoose_phrasePart (h : t.Shaped) (plain : t.quoted = false) :
    isLoose t.phrasePart = false := by
  obtain ⟨⟨stem, body⟩, -⟩ := h.plain plain
  rw [phrasePart, plain, body]
  exact isLoose_escape stem

theorem quiet_phrases (h : t.Shaped) : ∀ phrase ∈ t.phrases, Quiet phrase := by
  intro phrase hp
  rw [phrases] at hp
  split at hp
  · rw [List.mem_singleton.mp hp]
    exact h.quiet_phrasePart
  · cases hp

end Shaped

end Term

namespace Clause

variable {c : Clause}

/-- The terms of a clause. -/
def terms (c : Clause) : List Term :=
  Term.ofText (Text.trim c.query.toList)

theorem shaped_terms : ∀ t ∈ c.terms, t.Shaped :=
  fun _ ht => Term.shaped_of_mem_ofText ht

/-- The phrases that the value of a clause is written with: the terms of a phrase that is
searched for within a distance form a single one. -/
def phrases (c : Clause) : List (List Char) :=
  let query := Text.trim c.query.toList
  let terms := c.terms
  let included := terms.filter (!·.isExcluded)
  let excluded := terms.filter (·.isExcluded)
  if c.tokenized then
    if c.proximity.isSome then
      (if included.isEmpty then [] else [[' '].intercalate (included.map Term.phrasePart)])
        ++ excluded.flatMap Term.phrases
    else terms.flatMap Term.phrases
  else if query.isEmpty then [] else [Text.escapeQuotes query]

/-- Text behind a phrase that is the distance of its words. -/
theorem isPlain_distance (distance : Nat) : ∀ c ∈ '~' :: Text.digits distance, isPlain c = true :=
  List.forall_mem_cons.mpr ⟨by decide, fun _ hc => Text.isPlain_of_mem_digits hc⟩

theorem mirrors_nearText (distance : Nat) {terms : List Term} (h : ∀ t ∈ terms, t.Shaped) :
    Mirrors (nearText distance terms)
      ((if (terms.filter (!·.isExcluded)).isEmpty then []
        else [[' '].intercalate ((terms.filter (!·.isExcluded)).map Term.phrasePart)])
      ++ (terms.filter (·.isExcluded)).flatMap Term.phrases) := by
  have excluded : ∀ t ∈ terms.filter (·.isExcluded), Mirrors (t.mandatory false) t.phrases :=
    fun t ht => (h t (List.mem_filter.mp ht).1).mirrors_mandatory false
  have blank : ∀ c ∈ [' '], isPlain c = true := List.all_eq_true.mp rfl
  rw [nearText]
  generalize terms.filter (!·.isExcluded) = included
  generalize terms.filter (·.isExcluded) = rest at excluded ⊢
  split
  · simpa using mirrors_intercalate blank excluded
  · -- The long phrase and the excluded terms are written next to each other.
    let parts := ('"' :: [' '].intercalate (included.map Term.phrasePart) ++ ['"', '~'] ++
        Text.digits distance, [[' '].intercalate (included.map Term.phrasePart)]) ::
      rest.map fun t => (t.mandatory false, t.phrases)
    have phrase := (mirrors_quoted [[' '].intercalate (included.map Term.phrasePart)]).append
      (mirrors_of_isPlain (isPlain_distance distance))
    have all : ∀ part ∈ parts, Mirrors part.1 part.2 := by
      refine List.forall_mem_cons.mpr ⟨by simpa using phrase, fun part hp => ?_⟩
      obtain ⟨t, ht, rfl⟩ := List.mem_map.mp hp
      exact excluded t ht
    have joined := mirrors_intercalate blank all
    simpa [parts, Function.comp_def, List.flatMap_map] using joined

/-- The value of a clause and its phrases have the same effect on a reader. -/
theorem mirrors_value (h : c.tokenized = true ∨ c.proximity.isSome = true) :
    Mirrors c.value c.phrases := by
  have conjunction : ∀ c ∈ [' ', 'A', 'N', 'D', ' '], isPlain c = true := List.all_eq_true.mp rfl
  have blank : ∀ c ∈ [' '], isPlain c = true := List.all_eq_true.mp rfl
  cases tokenized : c.tokenized with
  | true =>
      cases proximity : c.proximity with
      | some distance =>
          simp only [value, phrases, tokenized, proximity, if_true, Option.isSome_some]
          exact mirrors_nearText distance shaped_terms
      | none =>
          cases fuzzy : c.fuzzy with
          | some similarity =>
              have distance : ∀ c ∈ (if similarity.isUnit then similarity.text else []),
                  isPlain c = true := by
                split
                · exact fun _ hc => Decimal.isPlain_of_mem_text hc
                · exact List.forall_mem_nil _
              simp only [value, phrases, tokenized, proximity, fuzzy, if_true]
              exact mirrors_intercalate conjunction fun t ht => (shaped_terms t ht).mirrors_fuzzy distance
          | none =>
              simp only [value, phrases, tokenized, proximity, fuzzy, if_true]
              exact mirrors_intercalate blank fun t ht => (shaped_terms t ht).mirrors_mandatory true
  | false =>
      obtain ⟨distance, proximity⟩ := Option.isSome_iff_exists.mp (h.resolve_left (by simp [tokenized]))
      have phrase := (mirrors_quoted [Text.escapeQuotes (Text.trim c.query.toList)]).append
        (mirrors_of_isPlain (isPlain_distance distance))
      simp only [value, phrases, tokenized, proximity, Bool.false_eq_true, if_false]
      split
      · exact mirrors_nil
      · simpa [Text.phrase] using phrase

/-- No phrase of a clause that takes its text apart has a double quote that counts. -/
theorem quiet_phrases (h : c.tokenized = true) : ∀ phrase ∈ c.phrases, Quiet phrase := by
  have each : ∀ terms : List Term, terms ⊆ c.terms →
      ∀ phrase ∈ terms.flatMap Term.phrases, Quiet phrase := by
    intro terms hsub phrase hp
    obtain ⟨t, ht, hp⟩ := List.mem_flatMap.mp hp
    exact (shaped_terms t (hsub ht)).quiet_phrases phrase hp
  intro phrase hp
  simp only [phrases, h, if_true] at hp
  split at hp
  · rcases List.mem_append.mp hp with hp | hp
    · split at hp
      · cases hp
      · rw [List.mem_singleton.mp hp]
        apply quiet_intercalate
        intro part hpart
        obtain ⟨t, ht, rfl⟩ := List.mem_map.mp hpart
        exact (shaped_terms t (List.mem_filter.mp ht).1).quiet_phrasePart
    · exact each _ (fun t ht => (List.mem_filter.mp ht).1) phrase hp
  · exact each _ (List.Subset.refl _) phrase hp

/-- A clause has a loose phrase only if one of its quoted terms is loose. -/
theorem closed_phrases (h : c.tokenized = true)
    (closed : ∀ t ∈ c.terms, t.quoted = true → isLoose t.phrasePart = false) :
    ∀ phrase ∈ c.phrases, isLoose phrase = false := by
  have part : ∀ t ∈ c.terms, isLoose t.phrasePart = false := by
    intro t ht
    cases quoted : t.quoted with
    | true => exact closed t ht quoted
    | false => exact (shaped_terms t ht).isLoose_phrasePart quoted
  have each : ∀ terms : List Term, terms ⊆ c.terms →
      ∀ phrase ∈ terms.flatMap Term.phrases, isLoose phrase = false := by
    intro terms hsub phrase hp
    obtain ⟨t, ht, hp⟩ := List.mem_flatMap.mp hp
    rw [Term.phrases] at hp
    split at hp
    · rw [List.mem_singleton.mp hp]
      exact part t (hsub ht)
    · cases hp
  intro phrase hp
  simp only [phrases, h, if_true] at hp
  split at hp
  · rcases List.mem_append.mp hp with hp | hp
    · split at hp
      · cases hp
      · rw [List.mem_singleton.mp hp]
        apply isLoose_intercalate
        intro text htext
        obtain ⟨t, ht, rfl⟩ := List.mem_map.mp htext
        exact part t (List.mem_filter.mp ht).1
    · exact each _ (fun t ht => (List.mem_filter.mp ht).1) phrase hp
  · exact each _ (List.Subset.refl _) phrase hp

theorem isPlain_boostText : ∀ ch ∈ c.boostText, isPlain ch = true := by
  rw [boostText]
  split
  · split
    · exact List.forall_mem_cons.mpr ⟨by decide, fun _ hc => Decimal.isPlain_of_mem_text hc⟩
    · exact List.forall_mem_nil _
  · exact List.forall_mem_nil _

/-- What a clause writes in front of the parentheses around its value. -/
def opening (c : Clause) : List Char :=
  (if c.negated then ['N', 'O', 'T', ' '] else []) ++ Text.trim c.field.toList ++ [':']

theorem isPlain_opening (h : ∀ ch ∈ c.field.toList, Text.isSpecial ch = false) :
    ∀ ch ∈ c.opening, isPlain ch = true := by
  have negation : ∀ ch ∈ (if c.negated then ['N', 'O', 'T', ' '] else []), isPlain ch = true := by
    split <;> exact List.all_eq_true.mp rfl
  intro ch hch
  rw [opening] at hch
  rcases List.mem_append.mp hch with hch | hch
  · rcases List.mem_append.mp hch with hch | hch
    · exact negation ch hch
    · exact isPlain_of_not_isSpecial (h ch (Text.mem_of_mem_trim hch))
  · rw [List.mem_singleton.mp hch]
    decide

theorem body_eq (h : c.isEmpty = false) :
    c.body = Text.trim c.field.toList ++ ':' :: '(' :: c.value ++ ')' :: c.boostText := by
  rw [isEmpty, body] at h
  rw [body]
  split
  · next blank => simp [blank] at h
  · rfl

/-- A clause that is not empty is written as its value in parentheses. -/
theorem compile_eq (h : (Restriction.clause c).compile ≠ "") :
    (Restriction.clause c).compile =
      String.ofList (c.opening ++ '(' :: c.value ++ ')' :: c.boostText) := by
  have filled : c.isEmpty = false := by
    rw [Bool.eq_false_iff]
    intro empty
    exact h (by simp [Restriction.compile, Restriction.compiled, Compiled.ofClause, Compiled.text,
      empty])
  rw [Restriction.compile_clause filled, body_eq filled, opening]
  simp only [List.append_assoc, List.cons_append, List.nil_append]

/-- A clause that takes its text apart, or searches for it within a distance, keeps the
text within its parentheses exactly as far as the phrases in it do. In particular it
does if no quoted term ends in a backslash that counts, and it does not if that holds of
an odd number of phrases. -/
theorem encloses_compile (hfield : ∀ ch ∈ c.field.toList, Text.isSpecial ch = false)
    (hmode : c.tokenized = true ∨ c.proximity.isSome = true)
    (hne : (Restriction.clause c).compile ≠ "") :
    (Restriction.clause c).compile =
        String.ofList (c.opening ++ '(' :: c.value ++ ')' :: c.boostText) ∧
      (c.tokenized = true →
        (Encloses c.opening c.value c.boostText ↔ Encloses [] (quoted c.phrases) [])) ∧
      (c.tokenized = true → (∀ t ∈ c.terms, t.quoted = true → isLoose t.phrasePart = false) →
        Encloses c.opening c.value c.boostText) ∧
      (c.tokenized = true → c.phrases.countP isLoose % 2 = 1 →
        ¬Encloses c.opening c.value c.boostText) ∧
      (c.tokenized = false →
        (∀ front, front ++ ['"'] <+: Text.trim c.query.toList → isLoose front = false) →
        isLoose (Text.trim c.query.toList) = false →
        Encloses c.opening c.value c.boostText) := by
  have same : Encloses c.opening c.value c.boostText ↔ Encloses [] (quoted c.phrases) [] :=
    encloses_iff (isPlain_opening hfield) isPlain_boostText (mirrors_value hmode)
  refine ⟨compile_eq hne, fun _ => same, fun h closed => ?_, fun h odd => ?_, fun h quotes last => ?_⟩
  · exact same.mpr (encloses_quoted_of_closed (quiet_phrases h) (closed_phrases h closed))
  · rw [same]
    exact not_encloses_quoted_of_odd (quiet_phrases h) odd
  · rw [same, phrases, h]
    simp only [Bool.false_eq_true, if_false]
    split
    · exact encloses_quoted_of_closed (List.forall_mem_nil _) (List.forall_mem_nil _)
    · apply encloses_quoted_of_closed
      · exact List.forall_mem_singleton.mpr (quiet_escapeQuotes quotes)
      · exact List.forall_mem_singleton.mpr (by rw [isLoose_escapeQuotes, last])

/-- A search for text with parentheses in and out of double quotes. -/
def parenthesised : Clause :=
  { field := "f", query := "a) \"b (\"" }

theorem encloses_compile_parenthesised :
    (Restriction.clause parenthesised).compile = "f:(+a\\)* +\"b (\")" ∧
      Encloses parenthesised.opening parenthesised.value parenthesised.boostText := by
  have value : parenthesised.value =
      ['+', 'a', '\\', ')', '*', ' ', '+', '"', 'b', ' ', '(', '"'] := by
    cbv
  have nonempty : parenthesised.isEmpty = false := by
    rw [isEmpty_eq, value]
    decide
  have text : (Restriction.clause parenthesised).compile = "f:(+a\\)* +\"b (\")" := by
    rw [Restriction.compile_clause nonempty, body_eq nonempty, value]
    decide
  have terms : parenthesised.terms =
      [{ body := ['a', '\\', ')'] }, { body := ['"', 'b', ' ', '(', '"'], quoted := true }] := by
    cbv
  have filled : (Restriction.clause parenthesised).compile ≠ "" := by
    rw [text]
    decide
  have field : ∀ ch ∈ parenthesised.field.toList, Text.isSpecial ch = false := by
    intro ch hch
    obtain rfl : ch = 'f' := List.mem_singleton.mp hch
    rfl
  refine ⟨text, (encloses_compile field (.inl rfl) filled).2.2.1 rfl ?_⟩
  rw [terms]
  decide

/-- A search for a phrase that ends in a backslash. -/
def trailingBackslash : Clause :=
  { field := "f", query := "\"a\\\"" }

/-- The closing quote of the phrase is lost, and the phrase is open at the end. -/
theorem not_encloses_trailingBackslash :
    (∀ ch ∈ trailingBackslash.field.toList, Text.isSpecial ch = false) ∧
      trailingBackslash.tokenized = true ∧
      (Restriction.clause trailingBackslash).compile = "f:(+\"a\\\")" ∧
      (({} : Reader).read (Restriction.clause trailingBackslash).compile.toList).inPhrase = true ∧
      ¬Encloses trailingBackslash.opening trailingBackslash.value trailingBackslash.boostText := by
  have value : trailingBackslash.value = ['+', '"', 'a', '\\', '"'] := by cbv
  have nonempty : trailingBackslash.isEmpty = false := by
    rw [isEmpty_eq, value]
    decide
  have text : (Restriction.clause trailingBackslash).compile = "f:(+\"a\\\")" := by
    rw [Restriction.compile_clause nonempty, body_eq nonempty, value]
    decide
  have field : ∀ ch ∈ trailingBackslash.field.toList, Text.isSpecial ch = false := by
    intro ch hch
    obtain rfl : ch = 'f' := List.mem_singleton.mp hch
    rfl
  refine ⟨field, rfl, text, ?_, fun enclosed => ?_⟩
  · rw [text]
    decide
  · have closed := enclosed.closed
    rw [value] at closed
    revert closed
    decide

end Clause

end SearchIndex
