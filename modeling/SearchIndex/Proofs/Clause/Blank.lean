import SearchIndex.Proofs.Clause.Exact
import SearchIndex.Proofs.Term

/-!
# Clauses that search for nothing

A clause has nothing to search for if its field or its text is blank, or if it takes its text
apart and every span of it is bare syntax. In all other cases something is written between its
parentheses: each term is written as something in each of the ways there are, and so are
several terms that are joined. The distances and weights of a clause play no part in that.
-/

namespace SearchIndex

/-- Joined texts that all say something are nothing only if there are none of them. -/
theorem Text.intercalate_eq_nil_iff {separator : List Char} {parts : List (List Char)}
    (h : ∀ part ∈ parts, part ≠ []) : separator.intercalate parts = [] ↔ parts = [] := by
  match parts with
  | [] => simp
  | [part] => simpa using h part List.mem_cons_self
  | part :: other :: rest =>
      have first := h part List.mem_cons_self
      simp [List.intercalate_cons_cons, first]

namespace Term

theorem mandatory_ne_nil (t : Term) (widen : Bool) : t.mandatory widen ≠ [] := by
  simp [mandatory]

theorem fuzzy_ne_nil {t : Term} (h : t.Shaped) (distance : List Char) : t.fuzzy distance ≠ [] := by
  cases quoted : t.quoted with
  | true =>
      obtain ⟨-, body, -⟩ := h.quoted quoted
      simp [fuzzy, quoted, body]
  | false => simp [fuzzy, quoted]

/-- A text has no terms if and only if all of its spans are bare syntax. -/
theorem ofText_eq_nil_iff {text : List Char} :
    ofText text = [] ↔ ∀ span ∈ spans text, IsBare span := by
  rw [ofText, List.filterMap_eq_nil_iff]
  constructor
  · intro none span mem
    exact (found_of_mem_spans mem).ofSpan?_eq_none_iff.mp (none span mem)
  · intro bare span mem
    exact ofSpan?_of_isBare (bare span mem)

end Term

namespace Clause

theorem mandatoryText_eq_nil_iff {terms : List Term} : mandatoryText terms = [] ↔ terms = [] := by
  have parts : ∀ part ∈ terms.map (·.mandatory true), part ≠ [] :=
    List.forall_mem_map.mpr fun t _ => t.mandatory_ne_nil true
  rw [mandatoryText, Text.intercalate_eq_nil_iff parts, List.map_eq_nil_iff]

theorem fuzzyText_eq_nil_iff {similarity : Weight} {terms : List Term} (h : ∀ t ∈ terms, t.Shaped) :
    fuzzyText similarity terms = [] ↔ terms = [] := by
  have parts : ∀ distance, ∀ part ∈ terms.map (·.fuzzy distance), part ≠ [] :=
    fun distance => List.forall_mem_map.mpr fun t ht => Term.fuzzy_ne_nil (h t ht) distance
  rw [fuzzyText, Text.intercalate_eq_nil_iff (parts _), List.map_eq_nil_iff]

/-- Every term is written within a distance of words: in the phrase or behind it. -/
theorem nearText_eq_nil_iff {distance : Nat} {terms : List Term} :
    nearText distance terms = [] ↔ terms = [] := by
  constructor
  · intro nothing
    rw [nearText, Text.intercalate_eq_nil_iff, List.append_eq_nil_iff, List.map_eq_nil_iff] at nothing
    · obtain ⟨phrase, excluded⟩ := nothing
      rw [ite_eq_left_iff] at phrase
      have included : terms.filter (!·.isExcluded) = [] := by simpa using phrase
      rw [List.filter_eq_nil_iff] at included excluded
      apply List.eq_nil_iff_forall_not_mem.mpr
      intro t ht
      have here := included t ht
      have there := excluded t ht
      simp only [Bool.not_eq_true', Bool.not_eq_false] at here
      exact there here
    · intro part mem
      rcases List.mem_append.mp mem with mem | mem
      · split at mem
        · cases mem
        · simp [List.mem_singleton.mp mem]
      · obtain ⟨t, -, rfl⟩ := List.mem_map.mp mem
        exact t.mandatory_ne_nil false
  · rintro rfl
    rfl

/-- A clause searches for nothing if its text is blank, or if it takes the text apart and
nothing but syntax is in it. -/
theorem value_eq_nil_iff (c : Clause) :
    c.value = [] ↔ (∀ ch ∈ c.query.toList, Text.isBlank ch = true) ∨
      c.tokenized = true ∧ ∀ span ∈ Term.spans c.query.toList, Term.IsBare span := by
  rw [← Text.trim_eq_nil_iff, ← Term.ofText_eq_nil_iff]
  cases tokenized : c.tokenized with
  | true =>
      have shaped : ∀ t ∈ Term.ofText c.query.toList, t.Shaped :=
        fun _ => Term.shaped_of_mem_ofText
      have apart : c.value = [] ↔ Term.ofText c.query.toList = [] := by
        rw [value, tokenized, if_pos rfl, Term.ofText_trim]
        cases c.proximity with
        | some distance => exact nearText_eq_nil_iff
        | none =>
            cases c.fuzzy with
            | some similarity => exact fuzzyText_eq_nil_iff shaped
            | none => exact mandatoryText_eq_nil_iff
      have blank : Text.trim c.query.toList = [] → Term.ofText c.query.toList = [] := by
        intro blank
        rw [← Term.ofText_trim, blank, Term.ofText, Term.spans]
        rfl
      rw [apart]
      exact ⟨fun none => .inr ⟨rfl, none⟩, fun h => h.elim blank (·.2)⟩
  | false =>
      have whole : c.value = [] ↔ Text.trim c.query.toList = [] := by
        rw [value, tokenized, if_neg Bool.false_ne_true]
        cases c.proximity with
        | some distance => simp [Text.phrase]
        | none => rfl
      rw [whole]
      exact ⟨.inl, fun h => h.elim id fun apart => absurd apart.1 Bool.false_ne_true⟩

/-- The clause has nothing to search for. -/
def IsBlank (c : Clause) : Prop :=
  (∀ ch ∈ c.field.toList, Text.isBlank ch = true) ∨
  (∀ ch ∈ c.query.toList, Text.isBlank ch = true) ∨
  c.tokenized = true ∧ ∀ span ∈ Term.spans c.query.toList, Term.IsBare span

theorem isEmpty_iff (c : Clause) : c.isEmpty = true ↔ c.IsBlank := by
  rw [isEmpty_eq, Bool.or_eq_true, Text.isBlankText_iff, Text.trim_eq_nil_iff, List.isEmpty_iff,
    value_eq_nil_iff]
  rfl

end Clause

end SearchIndex
