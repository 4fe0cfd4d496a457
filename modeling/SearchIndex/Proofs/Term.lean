import SearchIndex.Proofs.Term.Spans

/-!
# The shape of terms

A term is a quoted one exactly if its span is: a run of characters that are not
blank begins and ends with a double quote only if it is a quoted span. So the body
of a quoted term has two double quotes, one at each end, and the body of any other
term is escaped text in front of a run of wildcards.
-/

namespace SearchIndex

namespace Term

/-- What the term of a span looks like. -/
structure Shaped (t : Term) : Prop where
  quoted : t.quoted = true →
    t.wildcard = [] ∧ t.body = '"' :: t.phrasePart ++ ['"'] ∧ '"' ∉ t.phrasePart
  plain : t.quoted = false →
    (∃ stem, t.body = Text.escape stem) ∧ ∀ c ∈ t.wildcard, isWildcard c = true

/-- The term of a span that is cut out has the shape of a quoted or of a plain one. -/
theorem Found.shaped {span : List Char} (h : Found span) {t : Term} (ht : ofSpan? span = some t) :
    t.Shaped := by
  cases h with
  | @quoted sign inner hinner =>
      rw [ofSpan?_quotedText sign hinner, Option.ite_none_left_eq_some] at ht
      obtain ⟨-, ht⟩ := ht
      obtain rfl := Option.some.inj ht
      have part : Text.withoutQuotes ('"' :: inner ++ ['"']) = inner :=
        Text.withoutQuotes_quoted hinner
      refine ⟨fun _ => ⟨rfl, ?_, ?_⟩, nofun⟩
      · simp only [phrasePart, if_true, part]
      · simp only [phrasePart, if_true, part]
        exact hinner
  | run _ _ plain =>
      rw [ofSpan?_run plain, Option.ite_none_left_eq_some] at ht
      obtain ⟨-, ht⟩ := ht
      obtain rfl := Option.some.inj ht
      exact ⟨nofun, fun _ => ⟨⟨_, rfl⟩, fun c hc => List.mem_rtakeWhile_imp hc⟩⟩

/-- Every term of a text has the shape of a quoted or of a plain one. -/
theorem shaped_of_mem_ofText {text : List Char} {t : Term} (h : t ∈ ofText text) : t.Shaped := by
  obtain ⟨span, hspan, ht⟩ := List.mem_filterMap.mp h
  exact (found_of_mem_spans hspan).shaped ht

end Term

end SearchIndex
