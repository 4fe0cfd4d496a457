import SearchIndex.Proofs.Clause.Atom
import SearchIndex.Proofs.Expression.Distinct
import SearchIndex.Proofs.Restriction.Same
import SearchIndex.Proofs.ScopedQuery

/-!
# Raw texts that hold several operands

A raw text is written as it is, and in parentheses only if it is negated. That is
right if it stands alone, among operands that are joined by `OR`, or behind a
negation. If it is joined to others by `AND` and holds an `OR` itself, it comes apart:
a part of it is then enough for the whole text, also for the text of a query, which
such a raw text takes out of its scope.

`Carries` says this of a text: it can be read in one way, which has the intended truth
value if none of the exposed atoms comes apart. If one does and all atoms are
different, it has another truth value for some truth values of the atoms.
-/

namespace SearchIndex

/-- A text with a given form has an intended truth value exactly as far as the exposed
atoms of the form do not come apart. -/
def Carries (meaning : List Char → Disjunction) (text : String) (form : Option Expression)
    (leaves : List (List Char)) (value : (List Char → Bool) → Bool) : Prop :=
  ∃ e d, form = some e ∧ (∀ d', Text.Reads text.toList d' ↔ d' = d) ∧
    (e.Separate meaning → ∀ truth, d.holds truth = value truth) ∧
    (leaves.Nodup → ¬e.Separate meaning → ∃ truth, d.holds truth ≠ value truth)

namespace Restriction

/-- The texts in a restriction can be read: that of a clause is one atom, and each of
them reads as the disjunction that is given for it. -/
structure Readable (meaning : List Char → Disjunction) (r : Restriction) : Prop where
  clause : ∀ text, r.IsClauseText text → Text.symbols? text = some [.atom text]
  reads : ∀ text ∈ r.atoms, Text.Reads text (meaning text)

/-- The atoms that the text of a restriction has in the end. -/
def leaves (meaning : List Char → Disjunction) (r : Restriction) : List (List Char) :=
  r.atoms.flatMap fun text => (meaning text).atoms

variable {meaning : List Char → Disjunction} {r : Restriction}

theorem IsClauseText.mem_atoms {text : List Char} (h : r.IsClauseText text) : text ∈ r.atoms := by
  induction r using memberInduction with
  | clause c =>
      obtain ⟨c', hc, rfl⟩ := h
      rw [List.mem_singleton.mp hc]
      exact List.mem_singleton.mpr rfl
  | raw query negated =>
      obtain ⟨c, hc, -⟩ := h
      cases hc
  | group connective members negated ih =>
      obtain ⟨c, hc, rfl⟩ := h
      rw [clauses_group] at hc
      obtain ⟨m, hm, hc⟩ := List.mem_flatMap.mp hc
      rw [atoms_group]
      exact List.mem_flatMap.mpr ⟨m, hm, ih m hm ⟨c, hc, rfl⟩⟩

theorem Readable.atom (h : r.Readable meaning) (text : List Char) (single : r.IsClauseText text) :
    meaning text = .ofOperand (.atom text) := by
  have own : Text.Reads text (.ofOperand (.atom text)) := h.clause text single
  exact (h.reads text single.mem_atoms).unique own

/-- The clauses of a restriction are atoms if their fields are words and their values stay
within their parentheses. -/
theorem Readable.of_encloses
    (clauses : ∀ c ∈ r.clauses, c.isEmpty = false ∧
      (∀ ch ∈ Text.trim c.field.toList, Text.isWordPart ch = true) ∧ Reader.Encloses [] c.value [])
    (reads : ∀ text ∈ r.atoms, Text.Reads text (meaning text)) : r.Readable meaning := by
  refine ⟨?_, reads⟩
  rintro text ⟨c, hc, rfl⟩
  obtain ⟨nonempty, field, enclosed⟩ := clauses c hc
  exact Clause.symbols?_body nonempty field enclosed

/-- The text of a form is read as its formula. -/
theorem carries_form (full : Full r) (nonempty : r.isEmpty = false) (readable : r.Readable meaning)
    (negated : Bool) :
    Carries meaning (r.compileWith negated) (r.form negated) (r.leaves meaning)
      fun truth => r.holdsWith (fun text => (meaning text).holds truth) negated := by
  obtain ⟨e, hform, hatoms, hbracketed, hvalue⟩ := full.says_form nonempty negated
  have text : (r.compileWith negated).toList = e.render := by
    rw [compileWith, hform, Compiled.text, String.toList_ofList]
  have reads : Text.Reads e.render (e.formula meaning) :=
    e.reads_render hbracketed (by rw [hatoms]; exact readable.reads)
  have leaves : e.leaves meaning = r.leaves meaning := by
    rw [Expression.leaves, hatoms, Restriction.leaves]
  refine ⟨e, e.formula meaning, hform, fun d => ?_, fun separate truth => ?_, fun distinct apart => ?_⟩
  · rw [text]
    constructor
    · exact fun h => h.unique reads
    · rintro rfl
      exact reads
  · rw [Expression.holds_formula hbracketed readable.atom separate, hvalue]
  · obtain ⟨truth, differs⟩ := Expression.exists_ne_of_not_separate readable.atom hbracketed
      (by rwa [leaves]) apart
    exact ⟨truth, by rwa [← hvalue]⟩

end Restriction

namespace ScopedQuery

open Restriction (Built Full full_group_iff holds)

variable {partition : String} {names : FieldNames} {q : ScopedQuery}

/-- The restrictions that come with a change. -/
def Change.restrictions : Change → List Restriction
  | .withTypes _ => []
  | .add r => [r]
  | .addAll rs => rs
  | .remove _ => []

/-- The groups of a query can be built. -/
structure BuiltParts (q : ScopedQuery) : Prop where
  types : Built q.types.toRestriction
  restrictions : Built q.restrictions.toRestriction

theorem BuiltParts.change (h : BuiltParts q) {c : Change} (hc : ∀ r ∈ c.restrictions, Built r) :
    BuiltParts (q.change c) := by
  cases c with
  | withTypes docTypes =>
      refine ⟨Group.built_addAll (fun r hr => ?_) h.types, h.restrictions⟩
      obtain ⟨t, -, rfl⟩ := List.mem_map.mp hr
      exact .clause _
  | add r => exact ⟨h.types, .add h.restrictions (hc r (List.mem_singleton.mpr rfl))⟩
  | addAll rs => exact ⟨h.types, Group.built_addAll hc h.restrictions⟩
  | remove r => exact ⟨h.types, .remove r h.restrictions⟩

/-- What a query asks for: its scope, one of its types if it has some, and all of its
restrictions. -/
def parts (q : ScopedQuery) : List Restriction :=
  .clause q.scope :: (if q.types.isEmpty then [] else [q.types.toRestriction])
    ++ q.restrictions.members

theorem members_root_sublist (h : Keeps partition names q) (hs : q.isScoped = true) :
    q.root.members.Sublist q.parts := by
  rw [members_root h hs, parts, List.cons_append]
  exact .cons_cons _ (Restriction.distinct_sublist _ _)

theorem full_root (h : Keeps partition names q) (hs : q.isScoped = true) (built : BuiltParts q) :
    Full q.root.toRestriction := by
  have nonempty : ∀ m ∈ q.root.members, m.isEmpty = false :=
    Group.nonempty_members_addAll (List.forall_mem_nil _) _
  refine full_group_iff.mpr fun m hm => ⟨nonempty m hm, ?_⟩
  have part := (members_root_sublist h hs).subset hm
  rw [parts, List.cons_append] at part
  rcases List.mem_cons.mp part with rfl | part
  · exact .clause _
  · rcases List.mem_append.mp part with part | part
    · split at part
      · cases part
      · rw [List.mem_singleton.mp part]
        exact built.types.full
    · exact (full_group_iff.mp built.restrictions.full m part).2

/-- What a query leaves out of its text makes no difference to what it asks for. -/
theorem holds_root (h : Keeps partition names q) (hs : q.isScoped = true)
    (truth : List Char → Bool) :
    q.root.toRestriction.holds truth = q.parts.all (holds truth) := by
  have plain : q.root.negated = false := Group.negated_addAll _ _
  have connective : q.root.connective = .and := Group.connective_addAll _ _
  rw [Group.toRestriction, Restriction.holds_group, plain, connective, members_root h hs,
    Bool.bne_false, Connective.holds, List.all_map, Function.id_comp, conjuncts,
    ← List.singleton_append, Restriction.all_holds_distinct, parts]
  rfl

theorem carries_compile {meaning : List Char → Disjunction} (h : Keeps partition names q)
    (hs : q.isScoped = true) (built : BuiltParts q)
    (readable : q.root.toRestriction.Readable meaning) :
    Carries meaning q.compile (q.root.toRestriction.form false)
      (q.root.toRestriction.leaves meaning)
      fun truth => q.parts.all (holds fun text => (meaning text).holds truth) := by
  have plain : q.root.toRestriction.isNegated = false := Group.negated_addAll _ _
  have text : q.compile = q.root.toRestriction.compileWith false := by
    rw [compile, if_pos hs, Group.compile, ← Restriction.compileWith_isNegated, plain]
  have nonempty : q.root.toRestriction.isEmpty = false := by
    rw [Group.toRestriction, Restriction.isEmpty_group, members_root h hs, List.all_cons]
    have scope : (Restriction.clause q.scope).isEmpty = false := by simpa [isScoped] using hs
    rw [scope, Bool.false_and]
  have carried := Restriction.carries_form (full_root h hs built) nonempty readable false
  simp only [← holds_root h hs, Restriction.holds, plain]
  rw [text]
  exact carried

end ScopedQuery

namespace Restriction

/-- The text of a restriction that can be built, and that of a query that such
restrictions were added to, is read in one way. If no raw text with an `OR` is joined by
`AND` without parentheses, it has the truth value of the restriction or of the query,
where a raw text has the truth value of what it reads as. Otherwise it does not, at
least if all atoms are different. -/
theorem carries_compileWith (meaning : List Char → Disjunction) :
    (∀ (r : Restriction) (negated : Bool), Built r → r.isEmpty = false → r.Readable meaning →
      Carries meaning (r.compileWith negated) (r.form negated) (r.leaves meaning)
        fun truth => r.holdsWith (fun text => (meaning text).holds truth) negated) ∧
    ∀ (partition : String) (names : FieldNames) (steps : List ScopedQuery.Step),
      (∀ s ∈ steps, ∀ c ∈ s.changes, ∀ r ∈ c.restrictions, Built r) →
      ∀ q ∈ ScopedQuery.run partition names steps, q.isScoped = true →
      q.root.toRestriction.Readable meaning →
      Carries meaning q.compile (q.root.toRestriction.form false)
        (q.root.toRestriction.leaves meaning)
        fun truth => q.parts.all (holds fun text => (meaning text).holds truth) := by
  refine ⟨fun r negated built nonempty readable =>
    carries_form built.full nonempty readable negated, ?_⟩
  intro partition names steps supplied q hq hs readable
  have built : q.BuiltParts := by
    refine ScopedQuery.forall_mem_run (P := ScopedQuery.BuiltParts) ⟨.empty _, .empty _⟩ ?_ q hq
    exact fun s hs c hc q h => h.change (supplied s hs c hc)
  exact ScopedQuery.carries_compile (ScopedQuery.keeps_run hq) hs built readable

/-- What a raw text with two operands reads as; other texts are atoms. -/
def eitherReading (text : List Char) : Disjunction :=
  if text = ['a', ' ', 'O', 'R', ' ', 'b'] then
    .or (.single (.atom ['a'])) (.ofOperand (.atom ['b']))
  else .ofOperand (.atom text)

/-- A raw text with two operands next to a clause. -/
def rawBesideClause (negated : Bool) : Group :=
  .ofMembers .and [.raw "a OR b" negated, .clause (.verbatim "c" "d")] false

theorem built_rawBesideClause (negated : Bool) : Built (rawBesideClause negated).toRestriction := by
  refine Group.built_addAll ?_ (.setNegated false (.empty .and))
  exact List.forall_mem_cons.mpr ⟨.raw _ _, List.forall_mem_singleton.mpr (.clause _)⟩

theorem readable_rawBesideClause (negated : Bool) :
    (rawBesideClause negated).toRestriction.Readable eitherReading := by
  have atoms : (rawBesideClause negated).toRestriction.atoms =
      [['a', ' ', 'O', 'R', ' ', 'b'], ['c', ':', '(', 'd', ')']] := by
    cases negated <;> rfl
  have clauses : (rawBesideClause negated).toRestriction.clauses = [.verbatim "c" "d"] := by
    cases negated <;> rfl
  have enclosed : Reader.Encloses [] (Clause.verbatim "c" "d").value [] :=
    Reader.encloses_of_isPlain (List.all_eq_true.mp rfl)
  apply Readable.of_encloses
  · rw [clauses]
    exact List.forall_mem_singleton.mpr ⟨rfl, List.all_eq_true.mp rfl, enclosed⟩
  · rw [atoms]
    exact List.forall_mem_cons.mpr ⟨rfl, List.forall_mem_singleton.mpr rfl⟩

/-- A query with a raw text that has two operands. -/
def queryWithRaw (negated : Bool) : ScopedQuery :=
  (ScopedQuery.ofPartition "main" {}).add (.raw "a OR b" negated)

/-- How that query is made. -/
def addRaw (negated : Bool) : List ScopedQuery.Step :=
  [.change 0 (.add (.raw "a OR b" negated))]

theorem root_queryWithRaw (negated : Bool) : (queryWithRaw negated).root.toRestriction =
    .group .and [.clause (.exactly "wiki" "main"), .raw "a OR b" negated] false := by
  cases negated <;> rfl

theorem readable_queryWithRaw (negated : Bool) :
    (queryWithRaw negated).root.toRestriction.Readable eitherReading := by
  have enclosed : Reader.Encloses [] (Clause.exactly "wiki" "main").value [] :=
    Reader.encloses_of_isPlain (List.all_eq_true.mp rfl)
  rw [root_queryWithRaw]
  apply Readable.of_encloses
  · exact List.forall_mem_singleton.mpr ⟨rfl, List.all_eq_true.mp rfl, enclosed⟩
  · exact List.forall_mem_cons.mpr ⟨rfl, List.forall_mem_singleton.mpr rfl⟩

theorem carries_compileWith_rawBesideClause :
    ((rawBesideClause true).toRestriction.compileWith false = "(NOT (a OR b) AND c:(d))" ∧
      ∃ d, Text.Reads "(NOT (a OR b) AND c:(d))".toList d ∧ ∀ truth, d.holds truth =
        (rawBesideClause true).toRestriction.holds fun text => (eitherReading text).holds truth) ∧
    ∃ q ∈ ScopedQuery.run "main" {} (addRaw true),
      q.compile = "(wiki:(main) AND NOT (a OR b))" ∧
      ∃ d, Text.Reads q.compile.toList d ∧ ∀ truth, d.holds truth =
        q.parts.all (holds fun text => (eitherReading text).holds truth) := by
  constructor
  · have compiled : (rawBesideClause true).toRestriction.compileWith false =
        "(NOT (a OR b) AND c:(d))" := by decide
    have form : (rawBesideClause true).toRestriction.form false = some (.paren (.join .and
        [.not (.paren (.atom ['a', ' ', 'O', 'R', ' ', 'b'])), .atom ['c', ':', '(', 'd', ')']])) :=
      rfl
    obtain ⟨e, d, hform, reads, same, -⟩ := (carries_compileWith eitherReading).1 _ false
      (built_rawBesideClause true) (by decide) (readable_rawBesideClause true)
    obtain rfl := Option.some.inj (hform.symm.trans form)
    rw [compiled] at reads
    refine ⟨compiled, d, (reads d).mpr rfl, same ?_⟩
    intro text htext
    obtain rfl : text = ['c', ':', '(', 'd', ')'] := List.mem_singleton.mp htext
    rfl
  · have supplied : ∀ s ∈ addRaw true, ∀ c ∈ s.changes, ∀ r ∈ c.restrictions, Built r := by
      intro s hs c hc r hr
      obtain rfl := List.mem_singleton.mp hs
      obtain rfl := List.mem_singleton.mp hc
      rw [List.mem_singleton.mp hr]
      exact .raw _ _
    have mem : queryWithRaw true ∈ ScopedQuery.run "main" {} (addRaw true) :=
      List.mem_singleton.mpr rfl
    have form : (queryWithRaw true).root.toRestriction.form false = some (.paren (.join .and
        [.atom "wiki:(main)".toList, .not (.paren (.atom ['a', ' ', 'O', 'R', ' ', 'b']))])) := by
      rw [root_queryWithRaw]
      rfl
    obtain ⟨e, d, hform, reads, same, -⟩ := (carries_compileWith eitherReading).2 "main" {}
      (addRaw true) supplied _ mem (by decide) (readable_queryWithRaw true)
    obtain rfl := Option.some.inj (hform.symm.trans form)
    refine ⟨queryWithRaw true, mem, by decide, d, (reads d).mpr rfl, same ?_⟩
    intro text htext
    obtain rfl : text = "wiki:(main)".toList := List.mem_singleton.mp htext
    rfl

/-- Without the negation there are no parentheses: one operand of the raw text is enough
for the whole group, and for a query in spite of its scope. -/
theorem exists_ne_rawBesideClause :
    (Built (rawBesideClause false).toRestriction ∧
      (rawBesideClause false).toRestriction.Readable eitherReading ∧
      (rawBesideClause false).toRestriction.compile = "(a OR b AND c:(d))" ∧
      ∃ d, Text.Reads "(a OR b AND c:(d))".toList d ∧ d.holds (· == ['a']) = true ∧
        (rawBesideClause false).toRestriction.holds
          (fun text => (eitherReading text).holds (· == ['a'])) = false) ∧
    ∃ q ∈ ScopedQuery.run "main" {} (addRaw false), q.compile = "(wiki:(main) AND a OR b)" ∧
      ∃ d, Text.Reads q.compile.toList d ∧ d.holds (· == ['b']) = true ∧
        (Restriction.clause q.scope).holds
          (fun text => (eitherReading text).holds (· == ['b'])) = false := by
  constructor
  · refine ⟨built_rawBesideClause false, readable_rawBesideClause false, by decide, ?_⟩
    exact ⟨.ofOperand (.paren (.or (.single (.atom ['a']))
      (.single (.and (.atom ['b']) (.single (.atom ['c', ':', '(', 'd', ')'])))))), rfl, rfl, rfl⟩
  · refine ⟨queryWithRaw false, List.mem_singleton.mpr rfl, by decide, ?_⟩
    exact ⟨.ofOperand (.paren (.or (.and (.atom "wiki:(main)".toList) (.single (.atom ['a'])))
      (.ofOperand (.atom ['b'])))), rfl, rfl, rfl⟩

end Restriction

end SearchIndex
