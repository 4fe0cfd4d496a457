import SearchIndex.Proofs.Restriction.Built
import SearchIndex.Restriction.Meaning

/-!
# Compiling keeps the meaning

Turning a group round moves negations through a tree from the inside out, so the
expression that a restriction compiles to looks different from the restriction.
It still has the same atoms in the same order, and the same truth value whatever
the truth values of the atoms are. Its lists are all in parentheses, and each of
its negations is in front of a clause or of parentheses, so that its text can be
read in one way only.

The invariant is `Sound`: it says of each of the four forms which truth value it
has, and for the bare form also how that depends on whether the own form counts
as a negation, since a group around the restriction decides by that.
-/

namespace SearchIndex

namespace Expression

mutual

/-- The atoms of an expression, from left to right. -/
def atoms : Expression → List (List Char)
  | .atom text => [text]
  | .paren inner => inner.atoms
  | .not operand => operand.atoms
  | .join _ operands => atomsAll operands

/-- The atoms of some expressions, from left to right. -/
def atomsAll : List Expression → List (List Char)
  | [] => []
  | e :: es => e.atoms ++ atomsAll es

end

theorem atomsAll_eq_flatMap (es : List Expression) : atomsAll es = es.flatMap atoms := by
  induction es with
  | nil => rfl
  | cons e es ih => rw [atomsAll, ih, List.flatMap_cons]

@[simp] theorem atoms_join (connective : Connective) (operands : List Expression) :
    (Expression.join connective operands).atoms = operands.flatMap atoms := by
  rw [atoms, atomsAll_eq_flatMap]

@[simp] theorem holds_join (truth : List Char → Bool) (connective : Connective)
    (operands : List Expression) :
    (Expression.join connective operands).holds truth =
      connective.holds (operands.map (holds truth)) := by
  rw [holds, holdsAll_eq_map]

/-- Every list has at least two operands and stands in parentheses of its own, and
every negation is in front of parentheses or of an atom that is a single
condition. -/
inductive Bracketed (single : List Char → Prop) : Expression → Prop where
  | atom (text : List Char) : Bracketed single (.atom text)
  | paren {inner : Expression} : Bracketed single inner → Bracketed single (.paren inner)
  | list (connective : Connective) {operands : List Expression} : 2 ≤ operands.length →
      (∀ e ∈ operands, Bracketed single e) → Bracketed single (.paren (.join connective operands))
  | notAtom {text : List Char} : single text → Bracketed single (.not (.atom text))
  | notParen {inner : Expression} :
      Bracketed single (.paren inner) → Bracketed single (.not (.paren inner))

theorem Bracketed.mono {single single' : List Char → Prop} (weaker : ∀ t, single t → single' t)
    {e : Expression} (h : Bracketed single e) : Bracketed single' e := by
  induction h with
  | atom text => exact .atom text
  | paren _ ih => exact .paren ih
  | list connective several _ ih => exact .list connective several ih
  | notAtom h => exact .notAtom (weaker _ h)
  | notParen _ ih => exact .notParen ih

end Expression

@[simp] theorem Connective.holds_singleton (c : Connective) (value : Bool) :
    c.holds [value] = value := by
  cases c <;> simp [Connective.holds]

namespace Restriction

mutual

/-- The atoms of a restriction, from left to right: the texts of its clauses
without their negations, and its raw texts. -/
def atoms : Restriction → List (List Char)
  | .clause c => [c.body]
  | .raw query _ => [Text.trim query.toList]
  | .group _ members _ => atomsAll members

/-- The atoms of some restrictions, from left to right. -/
def atomsAll : List Restriction → List (List Char)
  | [] => []
  | r :: rs => r.atoms ++ atomsAll rs

end

mutual

/-- The clauses in a restriction, from left to right. -/
def clauses : Restriction → List Clause
  | .clause c => [c]
  | .raw _ _ => []
  | .group _ members _ => clausesAll members

/-- The clauses in some restrictions, from left to right. -/
def clausesAll : List Restriction → List Clause
  | [] => []
  | r :: rs => r.clauses ++ clausesAll rs

end

theorem atomsAll_eq_flatMap (rs : List Restriction) : atomsAll rs = rs.flatMap atoms := by
  induction rs with
  | nil => rfl
  | cons r rs ih => rw [atomsAll, ih, List.flatMap_cons]

theorem clausesAll_eq_flatMap (rs : List Restriction) : clausesAll rs = rs.flatMap clauses := by
  induction rs with
  | nil => rfl
  | cons r rs ih => rw [clausesAll, ih, List.flatMap_cons]

@[simp] theorem atoms_group (connective : Connective) (members : List Restriction)
    (negated : Bool) :
    (Restriction.group connective members negated).atoms = members.flatMap atoms := by
  rw [atoms, atomsAll_eq_flatMap]

@[simp] theorem clauses_group (connective : Connective) (members : List Restriction)
    (negated : Bool) :
    (Restriction.group connective members negated).clauses = members.flatMap clauses := by
  rw [clauses, clausesAll_eq_flatMap]

@[simp] theorem holdsWith_group (truth : List Char → Bool) (connective : Connective)
    (members : List Restriction) (negated negated' : Bool) :
    (Restriction.group connective members negated).holdsWith truth negated' =
      (connective.holds (members.map (holds truth)) != negated') := by
  rw [holdsWith, holdsUnsigned, holdsMembers_eq_map]

@[simp] theorem holds_group (truth : List Char → Bool) (connective : Connective)
    (members : List Restriction) (negated : Bool) :
    (Restriction.group connective members negated).holds truth =
      (connective.holds (members.map (holds truth)) != negated) :=
  holdsWith_group truth connective members negated negated

/-- Whether a text is that of one of the restriction's clauses. -/
def IsClauseText (r : Restriction) (text : List Char) : Prop :=
  ∃ c ∈ r.clauses, c.body = text

theorem isClauseText_group {connective : Connective} {members : List Restriction} {negated : Bool}
    {r : Restriction} (hr : r ∈ members) {text : List Char} (h : r.IsClauseText text) :
    (Restriction.group connective members negated).IsClauseText text := by
  obtain ⟨c, hc, rfl⟩ := h
  exact ⟨c, by rw [clauses_group]; exact List.mem_flatMap.mpr ⟨r, hr, hc⟩, rfl⟩

/-- A form of a restriction: an expression in parentheses with the atoms of the
restriction and with the given truth value. -/
def Says (r : Restriction) (form : Option Expression) (value : (List Char → Bool) → Bool) : Prop :=
  ∃ e, form = some e ∧ e.atoms = r.atoms ∧ e.Bracketed r.IsClauseText ∧
    ∀ truth, e.holds truth = value truth

/-- The truth values of the four forms. The bare form is what the own form is the
negation of, if it counts as one, and otherwise the own form. -/
structure Sound (r : Restriction) : Prop where
  positive : r.Says r.compiled.positive fun truth => r.holdsWith truth false
  negative : r.Says r.compiled.negative fun truth => r.holdsWith truth true
  own : r.Says r.compiled.own fun truth => r.holds truth
  bare : r.Says r.compiled.bare fun truth => r.holds truth != r.compiled.isNegation

theorem Says.congr {r : Restriction} {form : Option Expression}
    {value value' : (List Char → Bool) → Bool} (h : r.Says form value)
    (equal : ∀ truth, value truth = value' truth) : r.Says form value' := by
  obtain ⟨e, hform, hatoms, hbracketed, hvalue⟩ := h
  exact ⟨e, hform, hatoms, hbracketed, fun truth => (hvalue truth).trans (equal truth)⟩

/-- Operands for the members of a group, one for each, in their order. -/
structure Stand (members : List Restriction) (operands : List Expression)
    (value : Restriction → (List Char → Bool) → Bool) : Prop where
  length : operands.length = members.length
  atoms : operands.flatMap Expression.atoms = members.flatMap Restriction.atoms
  bracketed : ∀ e ∈ operands, ∃ r ∈ members, e.Bracketed r.IsClauseText
  values : ∀ truth, operands.map (Expression.holds truth) = members.map (value · truth)

/-- If a form of each member is there, these forms stand for the members. -/
theorem stand_filterMap {members : List Restriction} {form : Compiled → Option Expression}
    {value : Restriction → (List Char → Bool) → Bool}
    (said : ∀ r ∈ members, r.Says (form r.compiled) (value r)) :
    Stand members ((members.map compiled).filterMap form) value := by
  induction members with
  | nil => exact ⟨rfl, rfl, by simp, fun _ => rfl⟩
  | cons r rs ih =>
      obtain ⟨here, there⟩ := List.forall_mem_cons.mp said
      obtain ⟨e, hform, hatoms, hbracketed, hvalue⟩ := here
      obtain ⟨length, atoms, bracketed, values⟩ := ih there
      rw [List.map_cons, List.filterMap_cons_some hform]
      refine ⟨by rw [List.length_cons, List.length_cons, length],
        by rw [List.flatMap_cons, List.flatMap_cons, hatoms, atoms], ?_, ?_⟩
      · intro e' he'
        rcases List.mem_cons.mp he' with rfl | he'
        · exact ⟨r, List.mem_cons_self, hbracketed⟩
        · obtain ⟨r', hr', h⟩ := bracketed e' he'
          exact ⟨r', List.mem_cons_of_mem r hr', h⟩
      · intro truth
        rw [List.map_cons, List.map_cons, hvalue, values]

/-- Operands that stand for the members of a group are joined to a form of it. -/
theorem says_close {members : List Restriction} {operands : List Expression}
    {value : Restriction → (List Char → Bool) → Bool} (stand : Stand members operands value)
    (nonempty : members ≠ []) (connective connective' : Connective) (negated negated' : Bool) :
    (Restriction.group connective members negated).Says
      (Compiled.close connective' operands negated')
      fun truth => connective'.holds (members.map (value · truth)) != negated' := by
  have bracketed : ∀ e ∈ operands,
      e.Bracketed (Restriction.group connective members negated).IsClauseText := by
    intro e he
    obtain ⟨r, hr, h⟩ := stand.bracketed e he
    exact h.mono fun _ => isClauseText_group hr
  have atoms : operands.flatMap Expression.atoms =
      (Restriction.group connective members negated).atoms := by
    rw [stand.atoms, atoms_group]
  have values := stand.values
  simp only [← values]
  match operands, negated' with
  | [], _ => exact absurd (List.length_eq_zero_iff.mp stand.length.symm) nonempty
  | [e], false =>
      exact ⟨e, rfl, by simpa using atoms, bracketed e List.mem_cons_self, by simp⟩
  | [e], true =>
      refine ⟨.not (.paren e), rfl, by simpa [Expression.atoms] using atoms,
        .notParen (.paren (bracketed e List.mem_cons_self)), ?_⟩
      simp [Expression.holds]
  | e :: e' :: es, false =>
      refine ⟨.paren (.join connective' (e :: e' :: es)), rfl, ?_,
        .list connective' (by simp) bracketed, ?_⟩
      · rw [Expression.atoms, Expression.atoms_join, atoms]
      · intro truth
        rw [Expression.holds, Expression.holds_join]
        exact (Bool.bne_false _).symm
  | e :: e' :: es, true =>
      refine ⟨.not (.paren (.join connective' (e :: e' :: es))), rfl, ?_,
        .notParen (.list connective' (by simp) bracketed), ?_⟩
      · rw [Expression.atoms, Expression.atoms, Expression.atoms_join, atoms]
      · intro truth
        rw [Expression.holds, Expression.holds, Expression.holds_join]
        exact (Bool.bne_true _).symm

theorem sound_clause (c : Clause) (nonempty : c.isEmpty = false) : Sound (.clause c) := by
  have single : (Restriction.clause c).IsClauseText c.body := ⟨c, List.mem_singleton.mpr rfl, rfl⟩
  have positive : (Restriction.clause c).Says (some (.atom c.body)) fun truth => truth c.body :=
    ⟨_, rfl, rfl, .atom _, fun _ => rfl⟩
  have negative : (Restriction.clause c).Says (some (.not (.atom c.body)))
      fun truth => !truth c.body :=
    ⟨_, rfl, rfl, .notAtom single, fun _ => rfl⟩
  cases negated : c.negated <;>
    constructor <;>
    simpa [compiled, Compiled.ofClause, nonempty, negated, holds, holdsWith, holdsUnsigned,
      isNegated]

theorem sound_raw (query : String) (negated : Bool) (nonempty : Text.isBlankText query = false) :
    Sound (.raw query negated) := by
  have filled := (Text.isEmpty_trim query).trans nonempty
  have positive : (Restriction.raw query negated).Says (some (.atom (Text.trim query.toList)))
      fun truth => truth (Text.trim query.toList) :=
    ⟨_, rfl, rfl, .atom _, fun _ => rfl⟩
  have negative : (Restriction.raw query negated).Says
      (some (.not (.paren (.atom (Text.trim query.toList)))))
      fun truth => !truth (Text.trim query.toList) :=
    ⟨_, rfl, rfl, .notParen (.paren (.atom _)), fun _ => rfl⟩
  cases negated <;>
    constructor <;>
    simpa [compiled, Compiled.ofRaw, filled, holds, holdsWith, holdsUnsigned, isNegated]

/-- The operands that a group joins stand for its members: with their own values,
or with the opposite ones if the group is turned round. -/
theorem stand_operands {members : List Restriction} (sound : ∀ r ∈ members, r.Sound) :
    Stand members (Compiled.operands (members.map compiled)) fun r truth =>
      r.holds truth != Compiled.turnsRound (members.map compiled) := by
  cases turned : Compiled.turnsRound (members.map compiled) with
  | false =>
      simp only [Compiled.operands, turned, Bool.bne_false]
      exact stand_filterMap fun r hr => (sound r hr).own
  | true =>
      have negations : ∀ r ∈ members, r.compiled.isNegation = true := by
        simp only [Compiled.turnsRound, Bool.and_eq_true, List.all_map, List.all_eq_true] at turned
        exact turned.2
      simp only [Compiled.operands, turned, if_true]
      refine stand_filterMap fun r hr => (sound r hr).bare.congr fun truth => ?_
      rw [negations r hr]

/-- The form of a group with a given negation has the truth value of the group
with that negation, whether the group is turned round for it or not. -/
theorem says_groupForm {members : List Restriction} (sound : ∀ r ∈ members, r.Sound)
    (nonempty : members ≠ []) (connective : Connective) (negated negated' : Bool) :
    (Restriction.group connective members negated).Says
      (Compiled.groupForm connective (members.map compiled) negated')
      fun truth => (Restriction.group connective members negated).holdsWith truth negated' := by
  have stand := stand_operands sound
  apply (says_close stand nonempty connective _ negated _).congr
  intro truth
  rw [holdsWith_group]
  cases Compiled.turnsRound (members.map compiled) with
  | false => simp only [Bool.bne_false, Bool.false_eq_true, if_false]
  | true =>
      have opposite := connective.holds_flip (members.map (holds truth))
      rw [List.map_map] at opposite
      simp only [Bool.bne_true, if_true]
      rw [show (fun r : Restriction => !r.holds truth) = ((!·) ∘ holds truth) from rfl, opposite]
      cases connective.holds (members.map (holds truth)) <;> cases negated' <;> rfl

/-- The forms of a group are sound if those of its members are. -/
theorem sound_group {members : List Restriction} (sound : ∀ r ∈ members, r.Sound)
    (nonempty : members ≠ []) (connective : Connective) (negated : Bool) :
    Sound (.group connective members negated) := by
  have form := says_groupForm sound nonempty connective negated
  have formed := compiled_group connective members negated
  have bare : (Restriction.group connective members negated).Says
      (Compiled.groupBare connective (members.map compiled) negated) fun truth =>
        (Restriction.group connective members negated).holds truth !=
          Compiled.groupIsNegation (members.map compiled) negated := by
    match members, negated with
    | [], _ => exact absurd rfl nonempty
    | [only], false =>
        -- The group is its only member: also what that says without its negation.
        obtain ⟨e, hform, hatoms, hbracketed, hvalue⟩ :=
          (sound only (List.mem_singleton.mpr rfl)).bare
        refine ⟨e, hform, by simpa using hatoms, hbracketed.mono fun _ => isClauseText_group
          (List.mem_singleton.mpr rfl), fun truth => ?_⟩
        rw [hvalue]
        simp [Compiled.groupIsNegation]
    | [only], true =>
        apply (form false).congr
        intro truth
        rw [holdsWith_group, holds_group]
        simp [Compiled.groupIsNegation]
    | first :: second :: rest, negated =>
        apply (form _).congr
        intro truth
        rw [holdsWith_group, holds_group]
        simp only [Compiled.groupIsNegation, List.map_cons]
        generalize Compiled.turnsRound _ = turned
        generalize connective.holds _ = value
        cases value <;> cases negated <;> cases turned <;> rfl
  constructor
  · rw [formed]; exact form false
  · rw [formed]; exact form true
  · rw [formed]; exact form negated
  · rw [formed]; exact bare

/-- All four forms of a restriction that can be built have the truth values that
they are to have. -/
theorem Full.sound {r : Restriction} (full : Full r) (nonempty : r.isEmpty = false) : Sound r := by
  induction full with
  | clause c => exact sound_clause c nonempty
  | raw query negated => exact sound_raw query negated nonempty
  | group connective negated members_nonempty _ ih =>
      refine sound_group (fun r hr => ih r hr (members_nonempty r hr)) ?_ connective negated
      rintro rfl
      simp at nonempty

/-- The form of a restriction with a given negation, if it is not empty. -/
theorem Full.says_form {r : Restriction} (full : Full r) (nonempty : r.isEmpty = false) (negated : Bool) :
    r.Says (r.form negated) fun truth => r.holdsWith truth negated := by
  have sound := full.sound nonempty
  cases negated with
  | false => exact sound.positive
  | true => exact sound.negative

/-- The text of a restriction that can be built is that of an expression in
parentheses which has the atoms of the restriction and, for all truth values of
these, the truth value of the restriction. -/
theorem exists_expression_compileWith {r : Restriction} (built : Built r)
    (nonempty : r.isEmpty = false) (negated : Bool) :
    ∃ e : Expression, r.compileWith negated = String.ofList e.render ∧
      e.atoms = r.atoms ∧ e.Bracketed r.IsClauseText ∧
      ∀ truth, e.holds truth = r.holdsWith truth negated := by
  obtain ⟨e, hform, rest⟩ := built.full.says_form nonempty negated
  exact ⟨e, by rw [compileWith, hform, Compiled.text], rest⟩

/-- Negations at three depths: two of them meet in the inner group, which is turned
round for that, and then so is the outer one. -/
def nestedNegations : Group :=
  let inner := Group.ofMembers .and
    [.clause { Clause.verbatim "a" "1" with negated := true }, .raw "b OR c" true] false
  .ofMembers .or
    [inner.toRestriction, .clause { Clause.verbatim "d" "4" with negated := true }] true

theorem built_nestedNegations : Built nestedNegations.toRestriction := by
  refine Group.built_addAll ?_ (.setNegated true (.empty .or))
  refine List.forall_mem_cons.mpr ⟨Group.built_addAll ?_ (.empty .and), ?_⟩
  · exact List.forall_mem_cons.mpr ⟨.clause _, List.forall_mem_singleton.mpr (.raw _ _)⟩
  · exact List.forall_mem_singleton.mpr (.clause _)

theorem exists_expression_nestedNegations :
    Built nestedNegations.toRestriction ∧ nestedNegations.toRestriction.isEmpty = false ∧
    nestedNegations.toRestriction.compileWith true = "((a:(1) OR b OR c) AND d:(4))" ∧
    ∃ e : Expression, nestedNegations.toRestriction.compileWith true = String.ofList e.render ∧
      e.atoms = nestedNegations.toRestriction.atoms ∧
      e.Bracketed nestedNegations.toRestriction.IsClauseText ∧
      ∀ truth, e.holds truth = nestedNegations.toRestriction.holdsWith truth true :=
  ⟨built_nestedNegations, by decide, by decide,
    exists_expression_compileWith built_nestedNegations (by decide) true⟩

end Restriction

end SearchIndex
