import SearchIndex.Proofs.Clause.Whole
import SearchIndex.Proofs.Term.Spans

/-!
# Spans and their terms say the same

No character of a text but blanks is lost when it is cut into spans, and nothing of a span is
lost in its term (`Describes`): a quoted span is kept as it is, and any other one is its sign,
the text that the body of the term was escaped from, and the wildcards at its end. The terms of
a text are those of its spans, each of them by itself.
-/

namespace SearchIndex

namespace Term

/-- The spans of a text hold all of its characters that are not blank. -/
theorem Splits.filter_flatten {text : List Char} {found : List (List Char)} (h : Splits text found) :
    found.flatten.filter (!Text.isBlank ·) = text.filter (!Text.isBlank ·) := by
  induction h with
  | nil => rfl
  | blank blank _ ih => rw [List.filter_cons_of_neg (by simp [blank]), ih]
  | quoted _ _ _ ih => rw [List.flatten_cons, List.filter_append, ih, ← List.filter_append]
  | run _ _ _ _ _ ih => rw [List.flatten_cons, List.filter_append, ih, ← List.filter_append]

/-- A term says all that its span does. A quoted span is kept as it is; any other one is the
sign, the text that the body was escaped from and the wildcards behind it. -/
structure Describes (t : Term) (span : List Char) : Prop where
  sign : t.sign = leadingSign span
  quoted_iff : t.quoted = true ↔ ∃ sign inner, '"' ∉ inner ∧ span = quotedText sign inner
  ofQuoted : t.quoted = true → span = signText t.sign ++ t.body ∧ t.wildcard = [] ∧
    ∃ inner, '"' ∉ inner ∧ t.body = '"' :: inner ++ ['"']
  ofPlain : t.quoted = false → span = signText t.sign ++ Text.unescape t.body ++ t.wildcard ∧
    (∀ c ∈ t.wildcard, isWildcard c = true) ∧
    Text.unescape t.body ≠ [] ∧ (∀ c ∈ (Text.unescape t.body).getLast?, isWildcard c = false) ∧
    Text.isLiteral Text.isTermPart t.body = true

/-- The term of a span that is cut out says all that the span does. -/
theorem Found.describes {span : List Char} (h : Found span) {t : Term} (ht : ofSpan? span = some t) :
    t.Describes span := by
  cases h with
  | @quoted sign inner hinner =>
      rw [ofSpan?_quotedText sign hinner, Option.ite_none_left_eq_some] at ht
      obtain ⟨-, ht⟩ := ht
      obtain rfl := Option.some.inj ht
      refine ⟨(leadingSign_quotedText sign inner).symm, ⟨fun _ => ⟨sign, inner, hinner, rfl⟩,
        fun _ => rfl⟩, fun _ => ?_, fun plain => (by cases plain)⟩
      exact ⟨List.append_assoc _ _ _, rfl, inner, hinner, rfl⟩
  | run nonempty inside plain =>
      rw [ofSpan?_run plain, Option.ite_none_left_eq_some] at ht
      obtain ⟨kept, ht⟩ := ht
      obtain rfl := Option.some.inj ht
      have stem : (unsigned span).rdropWhile isWildcard ≠ [] := by
        rw [ne_eq, List.rdropWhile_eq_nil_iff, ← List.all_eq_true]
        simpa using kept
      have filled : ∀ c ∈ (unsigned span).rdropWhile isWildcard, Text.isBlank c = false := by
        intro c hc
        apply inside
        rw [← signText_append_unsigned span]
        exact List.mem_append_right _ ((List.rdropWhile_prefix _ _).subset hc)
      refine ⟨rfl, ⟨fun quoted => (by cases quoted), ?_⟩, fun quoted => (by cases quoted),
        fun _ => ?_⟩
      · rintro ⟨sign, inner, hinner, rfl⟩
        exact absurd ⟨sign, inner, [], hinner, (List.append_nil _).symm⟩ plain
      · simp only [Text.unescape_escape]
        refine ⟨?_, fun c hc => List.mem_rtakeWhile_imp hc, stem, ?_, Text.isLiteral_escape filled⟩
        · rw [List.append_assoc, List.rdropWhile_append_rtakeWhile, signText_append_unsigned]
        · intro c hc
          have last := List.rdropWhile_last_not isWildcard _ stem
          rw [Option.mem_def, List.getLast?_eq_some_getLast stem, Option.some.injEq] at hc
          simpa [hc] using last

/-- The terms of a text are those of its spans, each by itself. -/
theorem ofText_eq_flatMap (text : List Char) : ofText text = (spans text).flatMap ofText := by
  have each : ∀ found : List (List Char), (∀ span ∈ found, Found span) →
      found.filterMap ofSpan? = found.flatMap ofText := by
    intro found h
    induction found with
    | nil => rfl
    | cons span found ih =>
        obtain ⟨here, there⟩ := List.forall_mem_cons.mp h
        rw [List.flatMap_cons, here.ofText_eq, ← ih there, List.filterMap_cons]
        cases ofSpan? span <;> rfl
  exact each _ fun _ => found_of_mem_spans

/-- A text is cut into spans in the one way there is, and no character but blanks is lost.
Each span by itself has the term that it has in the text. A span of bare syntax has none, and
the term of any other one says all that the span does. -/
theorem describes_spans (text : List Char) :
    (∀ found, Splits text found ↔ found = spans text) ∧
    (spans text).flatten.filter (!Text.isBlank ·) = text.filter (!Text.isBlank ·) ∧
    ofText text = (spans text).flatMap ofText ∧
    ∀ span ∈ spans text,
      (ofText span = [] ↔ IsBare span) ∧
      (¬IsBare span → ∃ t : Term, ofText span = [t] ∧ t.Describes span) := by
  refine ⟨fun _ => splits_iff, (splits_spans text).filter_flatten, ofText_eq_flatMap text, ?_⟩
  intro span mem
  have found := found_of_mem_spans mem
  rw [found.ofText_eq, ← found.ofSpan?_eq_none_iff]
  cases term : ofSpan? span with
  | none => simp
  | some t => exact ⟨by simp, fun _ => ⟨t, rfl, found.describes term⟩⟩

/-- Text with quotes in and around words, with signs, wildcards and bare syntax. -/
def mixedText : List Char :=
  "x\"a b\" -\"c d\"e +a:b*? \"\" +*".toList

theorem describes_spans_mixedText :
    spans mixedText = ["x\"a".toList, "b\"".toList, "-\"c d\"".toList, "e".toList,
      "+a:b*?".toList, "\"\"".toList, "+*".toList] ∧
    (∃ t : Term, ofText "-\"c d\"".toList = [t] ∧ t.Describes "-\"c d\"".toList) ∧
    ∃ t : Term, ofText "+a:b*?".toList = [t] ∧ t.Describes "+a:b*?".toList := by
  obtain ⟨cuts, -, -, each⟩ := describes_spans mixedText
  have found : spans mixedText = ["x\"a".toList, "b\"".toList, "-\"c d\"".toList, "e".toList,
      "+a:b*?".toList, "\"\"".toList, "+*".toList] := by
    cbv
  rw [found] at each
  have quoted := each "-\"c d\"".toList (by decide)
  have plain := each "+a:b*?".toList (by decide)
  have quotedTerms : ofText "-\"c d\"".toList ≠ [] := by
    cbv
    intro none
    cases none
  have plainTerms : ofText "+a:b*?".toList ≠ [] := by
    cbv
    intro none
    cases none
  exact ⟨found, quoted.2 (mt quoted.1.mpr quotedTerms), plain.2 (mt plain.1.mpr plainTerms)⟩

end Term

end SearchIndex
