import Mathlib.Tactic.ByContra
import SearchIndex.Proofs.Restriction.Group
import SearchIndex.Proofs.Restriction.Meaning

/-!
# Lists of negations

A list whose operands are all negations has no meaning in the query language. Turning
groups round is to keep such lists out of compiled texts, and mostly it does: what a group
that is not turned round joins is not all negated, and a group that is turned round joins
what its members are the negations of. But that may be a negation itself, if the member is
a negated group around a single negation (`DoublyNegated`). So a compiled text is `Normal`,
without any list of negations, unless some group has several members and all of them are
doubly negated (`Tangled`); and in that case it never is.
-/

namespace SearchIndex

namespace Expression

/-- No list in the expression consists of negations only. -/
inductive Normal : Expression → Prop where
  | atom (text : List Char) : Normal (.atom text)
  | paren {inner : Expression} : Normal inner → Normal (.paren inner)
  | not {operand : Expression} : Normal operand → Normal (.not operand)
  | join (connective : Connective) {operands : List Expression} :
      (∃ e ∈ operands, e.isNot = false) → (∀ e ∈ operands, Normal e) →
      Normal (.join connective operands)

@[simp] theorem normal_atom (text : List Char) : Normal (.atom text) :=
  .atom text

@[simp] theorem normal_paren_iff {inner : Expression} : Normal (.paren inner) ↔ Normal inner := by
  constructor
  · rintro (_ | h)
    exact h
  · exact .paren

@[simp] theorem normal_not_iff {operand : Expression} :
    Normal (.not operand) ↔ Normal operand := by
  constructor
  · intro h
    cases h with
    | not h => exact h
  · exact .not

@[simp] theorem normal_join_iff {connective : Connective} {operands : List Expression} :
    Normal (.join connective operands) ↔
      (∃ e ∈ operands, e.isNot = false) ∧ ∀ e ∈ operands, Normal e := by
  constructor
  · intro h
    cases h with
    | join _ some all => exact ⟨some, all⟩
  · rintro ⟨some, all⟩
    exact .join connective some all

end Expression

open Expression (Normal)

namespace Compiled

variable {connective : Connective} {operands : List Expression} {negated : Bool} {e : Expression}

/-- Operands that are joined are normal if each of them is and, where there are several,
one of them is no negation. -/
theorem normal_close_iff (h : close connective operands negated = some e) :
    e.Normal ↔
      (2 ≤ operands.length → ∃ e ∈ operands, e.isNot = false) ∧ ∀ e ∈ operands, e.Normal := by
  match operands, negated with
  | [], _ => cases h
  | [only], false =>
      obtain rfl := Option.some.inj h
      simp
  | [only], true =>
      obtain rfl := Option.some.inj h
      simp
  | first :: second :: rest, false =>
      obtain rfl := Option.some.inj h
      simp
  | first :: second :: rest, true =>
      obtain rfl := Option.some.inj h
      simp

/-- Several operands are joined to a negation exactly if a negation is asked for. -/
theorem isNot_close (several : 2 ≤ operands.length)
    (h : close connective operands negated = some e) : e.isNot = negated := by
  match operands, negated with
  | first :: second :: rest, false =>
      obtain rfl := Option.some.inj h
      rfl
  | first :: second :: rest, true =>
      obtain rfl := Option.some.inj h
      rfl

end Compiled

namespace Restriction

/-- A restriction that is the negation of a negation: a negated group whose only member is a
negation itself, or a group whose only member is such a group. -/
inductive DoublyNegated : Restriction → Prop where
  | negated (connective : Connective) {only : Restriction} :
      only.compilesNegated = true → DoublyNegated (.group connective [only] true)
  | inside (connective : Connective) {only : Restriction} :
      DoublyNegated only → DoublyNegated (.group connective [only] false)

/-- Some group in the restriction has several members, all of them doubly negated. -/
inductive Tangled : Restriction → Prop where
  | here (connective : Connective) {members : List Restriction} (negated : Bool) :
      2 ≤ members.length → (∀ r ∈ members, DoublyNegated r) →
      Tangled (.group connective members negated)
  | inside (connective : Connective) {members : List Restriction} (negated : Bool)
      {r : Restriction} : r ∈ members → Tangled r → Tangled (.group connective members negated)

theorem not_tangled_group_iff {connective : Connective} {members : List Restriction}
    {negated : Bool} : ¬Tangled (.group connective members negated) ↔
      (2 ≤ members.length → ∃ r ∈ members, ¬r.DoublyNegated) ∧ ∀ r ∈ members, ¬r.Tangled := by
  constructor
  · intro h
    refine ⟨fun several => ?_, fun r hr tangled => h (.inside connective negated hr tangled)⟩
    by_contra none
    refine h (.here connective negated several fun r hr => ?_)
    by_contra single
    exact none ⟨r, hr, single⟩
  · rintro ⟨some, all⟩ tangled
    cases tangled with
    | here _ _ several doubly =>
        obtain ⟨r, hr, single⟩ := some several
        exact single (doubly r hr)
    | inside _ _ hr tangled => exact all _ hr tangled

/-- What is doubly negated is a negation. -/
theorem DoublyNegated.compilesNegated {r : Restriction} (h : DoublyNegated r) :
    r.compilesNegated = true := by
  induction h with
  | negated connective _ =>
      rw [Restriction.compilesNegated, compiled_group]
      rfl
  | inside connective _ ih =>
      rw [Restriction.compilesNegated] at ih
      rw [Restriction.compilesNegated, compiled_group]
      simpa [Compiled.ofGroup, Compiled.groupIsNegation] using ih

/-- Where negations stand in the forms of a restriction. -/
structure Arranged (r : Restriction) : Prop where
  positive : ∀ e, r.compiled.positive = some e → (e.Normal ↔ ¬r.Tangled)
  negative : ∀ e, r.compiled.negative = some e → (e.Normal ↔ ¬r.Tangled)
  own : ∀ e, r.compiled.own = some e → e.isNot = r.compilesNegated ∧ (e.Normal ↔ ¬r.Tangled)
  bare : ∀ e, r.compiled.bare = some e →
    (e.isNot = true ↔ r.DoublyNegated) ∧ (e.Normal ↔ ¬r.Tangled)

/-- The operand that a group has for a member: what the member is the negation of, if the
group is turned round, and else the member as it is. -/
theorem mem_operands_iff {members : List Restriction} {e : Expression} :
    e ∈ Compiled.operands (members.map compiled) ↔ ∃ r ∈ members,
      (if Compiled.turnsRound (members.map compiled) then r.compiled.bare
        else r.compiled.own) = some e := by
  rw [Compiled.operands, List.filterMap_map, List.mem_filterMap]
  rfl

/-- What a restriction that is not empty is the negation of. -/
theorem exists_bare {r : Restriction} (nonempty : r.isEmpty = false) :
    ∃ e, r.compiled.bare = some e := by
  have present := (present_compiled r).bare
  rw [nonempty] at present
  exact Option.isSome_iff_exists.mp present

/-- Members of a group that are not empty and whose negations are known. -/
structure Members (members : List Restriction) : Prop where
  full : ∀ r ∈ members, Full r
  nonempty : ∀ r ∈ members, r.isEmpty = false
  arranged : ∀ r ∈ members, Arranged r

namespace Members

variable {members : List Restriction}

/-- Every member has an operand, which is normal exactly if the member is not tangled. -/
theorem exists_operand (h : Members members) {r : Restriction} (hr : r ∈ members) :
    ∃ e, (if Compiled.turnsRound (members.map compiled) then r.compiled.bare
      else r.compiled.own) = some e ∧ (e.Normal ↔ ¬r.Tangled) := by
  split
  · obtain ⟨e, form⟩ := exists_bare (h.nonempty r hr)
    exact ⟨e, form, ((h.arranged r hr).bare e form).2⟩
  · obtain ⟨e, form, -⟩ := exists_own (h.nonempty r hr)
    exact ⟨e, form, ((h.arranged r hr).own e form).2⟩

theorem length_operands (h : Members members) :
    (Compiled.operands (members.map compiled)).length = members.length :=
  (stand_operands fun r hr => (h.full r hr).sound (h.nonempty r hr)).length

theorem forall_normal_iff (h : Members members) :
    (∀ e ∈ Compiled.operands (members.map compiled), e.Normal) ↔ ∀ r ∈ members, ¬r.Tangled := by
  constructor
  · intro all r hr
    obtain ⟨e, form, normal⟩ := h.exists_operand hr
    exact normal.mp (all e (mem_operands_iff.mpr ⟨r, hr, form⟩))
  · intro all e he
    obtain ⟨r, hr, form⟩ := mem_operands_iff.mp he
    obtain ⟨e', form', normal⟩ := h.exists_operand hr
    obtain rfl := Option.some.inj (form.symm.trans form')
    exact normal.mpr (all r hr)

/-- Of several operands one is no negation, unless all members are doubly negated. -/
theorem exists_isNot_eq_false_iff (h : Members members) (several : 2 ≤ members.length) :
    (∃ e ∈ Compiled.operands (members.map compiled), e.isNot = false) ↔
      ∃ r ∈ members, ¬r.DoublyNegated := by
  simp only [mem_operands_iff]
  cases turned : Compiled.turnsRound (members.map compiled) with
  | true =>
      constructor
      · rintro ⟨e, ⟨r, hr, form⟩, single⟩
        refine ⟨r, hr, fun doubly => ?_⟩
        rw [((h.arranged r hr).bare e form).1.mpr doubly] at single
        cases single
      · rintro ⟨r, hr, single⟩
        obtain ⟨e, form⟩ := exists_bare (h.nonempty r hr)
        have doubly := ((h.arranged r hr).bare e form).1
        exact ⟨e, ⟨r, hr, form⟩, Bool.eq_false_iff.mpr (mt doubly.mp single)⟩
  | false =>
      -- One member is no negation at all, so both sides are true.
      obtain ⟨r, hr, positive⟩ : ∃ r ∈ members, r.compilesNegated = false := by
        simpa [Compiled.turnsRound, Nat.lt_of_succ_le several, compilesNegated] using turned
      obtain ⟨e, form, -⟩ := exists_own (h.nonempty r hr)
      have isNot := ((h.arranged r hr).own e form).1
      refine iff_of_true ⟨e, ⟨r, hr, form⟩, isNot.trans positive⟩ ⟨r, hr, fun doubly => ?_⟩
      rw [doubly.compilesNegated] at positive
      cases positive

/-- A form of a group is normal if and only if the group is not tangled. -/
theorem normal_groupForm_iff (h : Members members) {connective : Connective}
    {negated negated' : Bool} {e : Expression}
    (form : Compiled.groupForm connective (members.map compiled) negated' = some e) :
    e.Normal ↔ ¬(Restriction.group connective members negated).Tangled := by
  rw [Compiled.normal_close_iff form, not_tangled_group_iff, h.length_operands,
    h.forall_normal_iff]
  exact and_congr_left fun _ => imp_congr_right h.exists_isNot_eq_false_iff

end Members

theorem arranged_clause (c : Clause) : Arranged (.clause c) := by
  have single : ¬(Restriction.clause c).DoublyNegated := nofun
  have untangled : ¬(Restriction.clause c).Tangled := nofun
  cases empty : c.isEmpty <;> cases negated : c.negated <;> constructor <;>
    simp [compiled, Compiled.ofClause, compilesNegated, empty, negated, single, untangled,
      Expression.isNot]

theorem arranged_raw (query : String) (negated : Bool) : Arranged (.raw query negated) := by
  have single : ¬(Restriction.raw query negated).DoublyNegated := nofun
  have untangled : ¬(Restriction.raw query negated).Tangled := nofun
  cases empty : (Text.trim query.toList).isEmpty <;> cases negated <;> constructor <;>
    simp [compiled, Compiled.ofRaw, compilesNegated, empty, single, untangled, Expression.isNot]

/-- The own form of a group is a negation exactly if it counts as one. -/
theorem isNot_groupForm {members : List Restriction} (h : Members members)
    {connective : Connective} {negated : Bool} {e : Expression}
    (form : Compiled.groupForm connective (members.map compiled) negated = some e) :
    e.isNot = Compiled.groupIsNegation (members.map compiled) negated := by
  match members with
  | [] => cases form
  | [only] =>
      obtain ⟨own, hown, -⟩ := exists_own (h.nonempty only (List.mem_singleton.mpr rfl))
      have isNot := ((h.arranged only (List.mem_singleton.mpr rfl)).own own hown).1
      rw [List.map_singleton, groupForm_singleton hown] at form
      obtain rfl := Option.some.inj form
      cases negated with
      | true => rfl
      | false => exact isNot
  | first :: second :: rest =>
      exact Compiled.isNot_close (by rw [h.length_operands]; simp) form

/-- What a group is the negation of is a negation again exactly if the group is doubly
negated. -/
theorem isNot_groupBare_iff {members : List Restriction} (h : Members members)
    {connective : Connective} {negated : Bool} {e : Expression}
    (form : Compiled.groupBare connective (members.map compiled) negated = some e) :
    e.isNot = true ↔ (Restriction.group connective members negated).DoublyNegated := by
  match members, negated with
  | [], _ => cases form
  | [only], true =>
      obtain ⟨own, hown, -⟩ := exists_own (h.nonempty only (List.mem_singleton.mpr rfl))
      have isNot := ((h.arranged only (List.mem_singleton.mpr rfl)).own own hown).1
      obtain rfl := Option.some.inj ((groupForm_singleton hown connective false).symm.trans form)
      rw [if_neg Bool.false_ne_true, isNot]
      constructor
      · exact .negated connective
      · rintro (⟨_, twice⟩ | _)
        exact twice
  | [only], false =>
      have doubly := ((h.arranged only (List.mem_singleton.mpr rfl)).bare e form).1
      rw [doubly]
      constructor
      · exact .inside connective
      · rintro (_ | ⟨_, twice⟩)
        exact twice
  | first :: second :: rest, negated =>
      have plain : e.isNot = false := by
        rw [Compiled.isNot_close (by rw [h.length_operands]; simp) form, bne_self_eq_false]
      rw [plain]
      exact iff_of_false Bool.false_ne_true nofun

/-- What a group is the negation of is normal exactly if the group is not tangled. -/
theorem normal_groupBare_iff {members : List Restriction} (h : Members members)
    {connective : Connective} {negated : Bool} {e : Expression}
    (form : Compiled.groupBare connective (members.map compiled) negated = some e) :
    e.Normal ↔ ¬(Restriction.group connective members negated).Tangled := by
  match members, negated with
  | [], _ => cases form
  | [only], true => exact h.normal_groupForm_iff form
  | [only], false =>
      rw [((h.arranged only (List.mem_singleton.mpr rfl)).bare e form).2, not_tangled_group_iff]
      simp
  | first :: second :: rest, negated => exact h.normal_groupForm_iff form

theorem arranged_group {members : List Restriction} (h : Members members)
    (connective : Connective) (negated : Bool) : Arranged (.group connective members negated) := by
  have formed := compiled_group connective members negated
  constructor <;> rw [formed]
  case positive => exact fun e form => h.normal_groupForm_iff form
  case negative => exact fun e form => h.normal_groupForm_iff form
  case own =>
    intro e form
    rw [compilesNegated, formed]
    exact ⟨isNot_groupForm h form, h.normal_groupForm_iff form⟩
  case bare =>
    intro e form
    exact ⟨isNot_groupBare_iff h form, normal_groupBare_iff h form⟩

/-- Where negations stand in the forms of a restriction that can be built. -/
theorem Full.arranged {r : Restriction} (full : Full r) : Arranged r := by
  induction full with
  | clause c => exact arranged_clause c
  | raw query negated => exact arranged_raw query negated
  | group connective negated nonempty full ih =>
      exact arranged_group ⟨full, nonempty, ih⟩ connective negated

/-- The text of a restriction that can be built has a list of negations exactly if the
restriction is tangled: some group in it has several members and all of them are doubly
negated. All other lists have an operand that is no negation. -/
theorem normal_form_iff {r : Restriction} (built : Built r) (nonempty : r.isEmpty = false)
    (negated : Bool) :
    ∃ e : Expression, r.form negated = some e ∧ r.compileWith negated = String.ofList e.render ∧
      e.atoms = r.atoms ∧ e.Bracketed r.IsClauseText ∧ (e.Normal ↔ ¬r.Tangled) := by
  obtain ⟨e, form, atoms, bracketed, -⟩ := built.full.says_form nonempty negated
  refine ⟨e, form, by rw [compileWith, form, Compiled.text], atoms, bracketed, ?_⟩
  have arranged := built.full.arranged
  cases negated with
  | false => exact arranged.positive e form
  | true => exact arranged.negative e form

/-- A negated group whose only member is a negated clause. -/
def negatedTwice (field query : String) : Group :=
  .ofMembers .and [.clause { Clause.verbatim field query with negated := true }] true

/-- Two such groups in one. -/
def negatedTwicePair : Group :=
  .ofMembers .and [(negatedTwice "a" "1").toRestriction, (negatedTwice "b" "2").toRestriction] false

theorem built_negatedTwicePair : Built negatedTwicePair.toRestriction := by
  have twice (field query : String) : Built (negatedTwice field query).toRestriction :=
    Group.built_addAll (List.forall_mem_singleton.mpr (.clause _)) (.setNegated true (.empty .and))
  refine Group.built_addAll ?_ (.empty .and)
  exact List.forall_mem_cons.mpr ⟨twice "a" "1", List.forall_mem_singleton.mpr (twice "b" "2")⟩

theorem normal_form_iff_negatedTwicePair :
    Built negatedTwicePair.toRestriction ∧ negatedTwicePair.toRestriction.isEmpty = false ∧
    negatedTwicePair.toRestriction.Tangled ∧
    ∃ e : Expression, negatedTwicePair.toRestriction.form true = some e ∧
      negatedTwicePair.toRestriction.compileWith true = String.ofList e.render ∧
      e.atoms = negatedTwicePair.toRestriction.atoms ∧
      e.Bracketed negatedTwicePair.toRestriction.IsClauseText ∧
      (e.Normal ↔ ¬negatedTwicePair.toRestriction.Tangled) := by
  refine ⟨built_negatedTwicePair, by decide, ?_,
    normal_form_iff built_negatedTwicePair (by decide) true⟩
  refine .here .and false (by decide) ?_
  exact List.forall_mem_cons.mpr
    ⟨.negated .and rfl, List.forall_mem_singleton.mpr (.negated .and rfl)⟩

/-- Turning a group of doubly negated members round leaves a list of negations. -/
theorem not_normal_negatedTwicePair :
    negatedTwicePair.toRestriction.compile = "NOT (NOT a:(1) OR NOT b:(2))" ∧
    ¬∀ r : Restriction, Built r → r.isEmpty = false →
      ∀ e, r.form r.isNegated = some e → e.Normal := by
  have form : negatedTwicePair.toRestriction.form false =
      some (.not (.paren (.join .or [.not (.atom (Clause.verbatim "a" "1").body),
        .not (.atom (Clause.verbatim "b" "2").body)]))) := rfl
  refine ⟨by decide, fun all => ?_⟩
  have normal := all _ built_negatedTwicePair (by decide) _ form
  simp [Expression.isNot] at normal

end Restriction

end SearchIndex
