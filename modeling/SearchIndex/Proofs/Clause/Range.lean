import SearchIndex.Proofs.Clause.Bound

/-!
# Ranges are read back

A clause for a range has the text of the range between its parentheses. What was said of such
texts therefore holds of clauses: `compile_range_eq_iff` says which ranges have the same text,
and which of them are read as what they were made of. `compile_range_eq_movedWord` has two ranges
that cannot be told from each other.
-/

namespace SearchIndex

namespace Clause

open Text (bound? boundText rangeText between delimiters)

theorem rangeEnd_eq (bound : String) : rangeEnd bound = boundText (bound? bound) := by
  simp only [rangeEnd, bound?]
  split <;> rfl

/-- What a range searches for is the text of the range. -/
theorem value_range (field first last : String) (inclusive : Bool) :
    (range field first last inclusive).value =
      rangeText inclusive (boundText (bound? first)) (boundText (bound? last)) := by
  have query : (range field first last inclusive).value = Text.trim
      (rangeText inclusive (boundText (bound? first)) (boundText (bound? last))) := by
    rw [← rangeEnd_eq, ← rangeEnd_eq]
    cases inclusive <;>
      simp [range, verbatim, value, rangeText, delimiters, between]
  rw [query]
  apply Text.trim_eq_self
  · cases inclusive <;> simp [rangeText, delimiters] <;> decide
  · intro c hc
    rw [rangeText, List.getLast?_concat] at hc
    obtain rfl := Option.some.inj hc
    cases inclusive <;> decide

theorem isEmpty_range (field first last : String) (inclusive : Bool) :
    (range field first last inclusive).isEmpty = Text.isBlankText field := by
  rw [isEmpty_eq, value_range]
  exact Bool.or_false _

/-- A range is written as the field with the text of the range in parentheses. -/
theorem compile_range {field : String} (filled : Text.isBlankText field = false)
    (first last : String) (inclusive : Bool) :
    (Restriction.clause (.range field first last inclusive)).compile =
      String.ofList (Text.trim field.toList ++ ':' :: '(' ::
        rangeText inclusive (boundText (bound? first)) (boundText (bound? last)) ++ [')']) := by
  have nonempty : (range field first last inclusive).isEmpty = false := by
    rw [isEmpty_range, filled]
  rw [Restriction.compile_clause nonempty, body_eq nonempty, value_range]
  rfl

theorem compile_range_eq_empty_iff {field first last : String} {inclusive : Bool} :
    (Restriction.clause (.range field first last inclusive)).compile = "" ↔
      Text.isBlankText field = true := by
  cases blank : Text.isBlankText field with
  | true => simp [compile_of_isEmpty, isEmpty_range, blank]
  | false => simp [compile_range blank]

end Clause

/-- A restriction asks for a range of values in a field: its text is the field with one range in
parentheses. Blank characters at the ends of the field play no part. -/
def Restriction.AsksForRange (r : Restriction) (field : String) (inclusive : Bool)
    (lower upper : Option (List Char)) : Prop :=
  ∃ text, r.compile = String.ofList (Text.trim field.toList ++ ':' :: '(' :: text ++ [')']) ∧
    Text.DenotesRange text inclusive lower upper

namespace Clause

open Text (bound? boundText rangeText IsSingle Recut)

theorem asksForRange_iff {field : String} (filled : Text.isBlankText field = false)
    {first last : String} {inclusive inclusive' : Bool} {lower upper : Option (List Char)} :
    (Restriction.clause (.range field first last inclusive)).AsksForRange field inclusive'
        lower upper ↔
      Text.DenotesRange (rangeText inclusive (boundText (bound? first)) (boundText (bound? last)))
        inclusive' lower upper := by
  rw [Restriction.AsksForRange, compile_range filled]
  constructor
  · rintro ⟨text, same, denotes⟩
    have inner :
        rangeText inclusive (boundText (bound? first)) (boundText (bound? last)) = text := by
      simpa using congrArg String.toList same
    rwa [inner]
  · exact fun denotes => ⟨_, rfl, denotes⟩

/-- A range with no field has no text. The text of any other one tells whether its ends belong
to it, and both bounds as well, unless one of them has the word between the bounds inside: other
bounds have the same text if and only if the one pair is taken for the other. The text is read
as the range that it was made of if and only if each bound is open, or has no blank inside and
is not that word; and as no other range. -/
theorem compile_range_eq_iff (field first last : String) (inclusive : Bool) :
    ((Restriction.clause (.range field first last inclusive)).compile = "" ↔
      Text.isBlankText field = true) ∧
    ((Restriction.clause (.range field first last inclusive)).compile ≠ "" →
      (∀ first' last' inclusive',
        (Restriction.clause (.range field first last inclusive)).compile =
            (Restriction.clause (.range field first' last' inclusive')).compile ↔
          inclusive = inclusive' ∧ (bound? first = bound? first' ∧ bound? last = bound? last' ∨
            Recut (bound? first) (bound? last) (bound? first') (bound? last') ∨
            Recut (bound? first') (bound? last') (bound? first) (bound? last))) ∧
      ((Restriction.clause (.range field first last inclusive)).AsksForRange field inclusive
          (bound? first) (bound? last) ↔ IsSingle (bound? first) ∧ IsSingle (bound? last)) ∧
      (∀ inclusive₁ lower₁ upper₁ inclusive₂ lower₂ upper₂,
        (Restriction.clause (.range field first last inclusive)).AsksForRange field inclusive₁
          lower₁ upper₁ →
        (Restriction.clause (.range field first last inclusive)).AsksForRange field inclusive₂
          lower₂ upper₂ →
        inclusive₁ = inclusive₂ ∧ lower₁ = lower₂ ∧ upper₁ = upper₂)) := by
  refine ⟨compile_range_eq_empty_iff, fun said => ?_⟩
  have filled : Text.isBlankText field = false :=
    Bool.eq_false_iff.mpr (mt compile_range_eq_empty_iff.mpr said)
  refine ⟨fun first' last' inclusive' => ?_, ?_, ?_⟩
  · rw [compile_range filled, compile_range filled, ← Text.rangeText_boundText_inj]
    constructor
    · intro same
      simpa using congrArg String.toList same
    · intro same
      rw [same]
  · rw [asksForRange_iff filled]
    exact Text.denotesRange_rangeText_iff inclusive Text.ne_nil_of_mem_bound?
      Text.ne_nil_of_mem_bound?
  · intro _ _ _ _ _ _ asks asks'
    exact ((asksForRange_iff filled).mp asks).unique ((asksForRange_iff filled).mp asks')

theorem compile_range_eq_iff_openBound :
    (Restriction.clause (.range " size " "a:b " " *" true)).compile = "size:([a\\:b TO *])" ∧
      (Restriction.clause (.range " size " "a:b" "" true)).compile = "size:([a\\:b TO *])" ∧
      (Restriction.clause (.range " size " "a:b " " *" true)).AsksForRange " size " true
        (some ['a', ':', 'b']) none ∧
      (Restriction.clause (.range " size " "TO a" "b" true)).compile =
        (Restriction.clause (.range " size " "TO a" " b" true)).compile ∧
      ¬(Restriction.clause (.range " size " "TO a" "b" true)).AsksForRange " size " true
        (some ['T', 'O', ' ', 'a']) (some ['b']) := by
  have text : (Restriction.clause (.range " size " "a:b " " *" true)).compile =
      "size:([a\\:b TO *])" := by
    rw [compile_range (by decide)]
    decide
  have said : ∀ first last, (Restriction.clause (.range " size " first last true)).compile ≠ "" :=
    fun first last => mt (compile_range_eq_iff " size " first last true).1.mp (by decide)
  obtain ⟨same, reads, -⟩ := (compile_range_eq_iff " size " "a:b " " *" true).2 (said _ _)
  obtain ⟨sameWord, readsWord, -⟩ := (compile_range_eq_iff " size " "TO a" "b" true).2 (said _ _)
  refine ⟨text, ?_, reads.mpr ⟨?_, nofun⟩, ?_, ?_⟩
  · rw [← text]
    exact ((same "a:b" "" true).mpr ⟨rfl, .inl (by decide)⟩).symm
  · rintro _ ⟨⟩
    have filled : ['a', ':', 'b'].any Text.isBlank = false := by decide
    exact ⟨fun c hc => Bool.eq_false_iff.mpr (List.any_eq_false.mp filled c hc), by decide⟩
  · exact (sameWord "TO a" " b" true).mpr ⟨rfl, .inl (by decide)⟩
  · intro asks
    have single := (readsWord.mp asks).1 ['T', 'O', ' ', 'a'] rfl
    exact absurd (single.1 ' ' (by decide)) (by decide)

/-- With the word between the bounds inside one of them, two ranges with different bounds have
one text, and that is read as no range at all. -/
theorem compile_range_eq_movedWord :
    (Restriction.clause (.range "f" "a TO b" "c" true)).compile = "f:([a TO b TO c])" ∧
      (Restriction.clause (.range "f" "a" "b TO c" true)).compile = "f:([a TO b TO c])" ∧
      bound? "a TO b" ≠ bound? "a" ∧ bound? "c" ≠ bound? "b TO c" ∧
      Recut (bound? "a") (bound? "b TO c") (bound? "a TO b") (bound? "c") ∧
      ∀ inclusive lower upper, ¬(Restriction.clause (.range "f" "a TO b" "c" true)).AsksForRange "f"
        inclusive lower upper := by
  have single : ∀ c, Text.isTermPart c = true → c ≠ '\\' → Text.DenotesBound [c] (some [c]) := by
    intro c allowed ne
    have literal : Text.isLiteral Text.isTermPart [c] = true := by
      rw [Text.isLiteral_cons_of_ne ne, allowed]
      rfl
    have term := Text.DenotesBound.term (by simp) (by simp) literal
    rwa [Text.unescape_cons_of_ne ne] at term
  refine ⟨?_, ?_, by decide, by decide, .overlaps ⟨['b', ' '], rfl, rfl⟩, ?_⟩
  · rw [compile_range (by decide)]
    decide
  · rw [compile_range (by decide)]
    decide
  · intro inclusive lower upper asks
    have denotes := (asksForRange_iff (by decide)).mp asks
    have bounds : boundText (bound? "a TO b") = ['a', ' ', 'T', 'O', ' ', 'b'] ∧
        boundText (bound? "c") = ['c'] := by decide
    rw [bounds.1, bounds.2] at denotes
    generalize written : rangeText true _ _ = text at denotes
    cases denotes with
    | @bounds first last _ _ _ here there =>
        have texts : ['a'] ++ ' ' :: ['T', 'O', ' ', 'b', ' ', 'T', 'O', ' ', 'c'] =
            first ++ ' ' :: ('T' :: 'O' :: ' ' :: last) := by
          simpa [Text.between] using (Text.rangeText_inj.mp written).2
        obtain ⟨-, behind⟩ := (single 'a' (by decide) (by decide)).unique here texts
        have rest : ['b'] ++ ' ' :: ['T', 'O', ' ', 'c', ' '] = last ++ ' ' :: [] := by
          simp only [List.cons.injEq, true_and] at behind
          rw [← behind]
          rfl
        obtain ⟨-, none⟩ := (single 'b' (by decide) (by decide)).unique there rest
        cases none

end Clause

end SearchIndex
