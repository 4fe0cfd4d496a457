import SearchIndex.Restriction.Compiled

/-!
# Which restrictions have a form

An empty restriction has no form at all and compiles to the empty text, whatever
is asked for; a restriction that is not empty has all of its forms. Neither its
negations nor the way in which groups are turned round play a part in that.

A restriction holds lists of restrictions, so `memberInduction` is the induction
that the proofs about it use: what holds of all members of a group is to be
shown of the group.
-/

namespace SearchIndex

namespace Restriction

/-- Induction over a restriction. The case of a group may use the statement for
every member. -/
@[elab_as_elim]
theorem memberInduction {motive : Restriction → Prop}
    (clause : ∀ c, motive (.clause c))
    (raw : ∀ query negated, motive (.raw query negated))
    (group : ∀ connective members negated, (∀ r ∈ members, motive r) →
      motive (.group connective members negated)) :
    ∀ r, motive r
  | .clause c => clause c
  | .raw query negated => raw query negated
  | .group connective members negated =>
      group connective members negated fun r _ => memberInduction clause raw group r
termination_by r => sizeOf r
decreasing_by
  have := List.sizeOf_lt_of_mem ‹_ ∈ members›
  simp only [Restriction.group.sizeOf_spec]
  omega

@[simp] theorem isEmpty_clause (c : Clause) : (Restriction.clause c).isEmpty = c.isEmpty := rfl

@[simp] theorem isEmpty_raw (query : String) (negated : Bool) :
    (Restriction.raw query negated).isEmpty = Text.isBlankText query := rfl

@[simp] theorem isEmpty_group (connective : Connective) (members : List Restriction)
    (negated : Bool) :
    (Restriction.group connective members negated).isEmpty = members.all isEmpty := by
  rw [isEmpty, allEmpty_eq_all]

@[simp] theorem compiled_group (connective : Connective) (members : List Restriction)
    (negated : Bool) :
    (Restriction.group connective members negated).compiled =
      .ofGroup connective (members.map compiled) negated := by
  rw [compiled, compiledMembers_eq_map]

end Restriction

namespace Compiled

/-- The forms are all there, or none of them is. -/
structure Present (m : Compiled) (present : Bool) : Prop where
  positive : m.positive.isSome = present
  negative : m.negative.isSome = present
  own : m.own.isSome = present
  bare : m.bare.isSome = present

/-- Operands have a common form unless there are none. -/
theorem isSome_close (connective : Connective) (operands : List Expression) (negated : Bool) :
    (close connective operands negated).isSome = !operands.isEmpty := by
  match operands, negated with
  | [], _ => rfl
  | [_], false => rfl
  | [_], true => rfl
  | _ :: _ :: _, false => rfl
  | _ :: _ :: _, true => rfl

/-- A group has operands if and only if one of its members has forms. -/
theorem isEmpty_operands {α : Type} {forms : α → Compiled} {present : α → Bool} {members : List α}
    (h : ∀ m ∈ members, (forms m).Present (present m)) :
    (!(operands (members.map forms)).isEmpty) = members.any present := by
  have chosen : ∀ turned : Bool, (!((members.map forms).filterMap fun m =>
      if turned then m.bare else m.own).isEmpty) = members.any present := by
    intro turned
    induction members with
    | nil => rfl
    | cons m ms ih =>
        obtain ⟨here, there⟩ := List.forall_mem_cons.mp h
        have form : (if turned then (forms m).bare else (forms m).own).isSome = present m := by
          cases turned
          · exact here.own
          · exact here.bare
        rw [List.map_cons, List.filterMap_cons, List.any_cons, ← ih there, ← form]
        cases (if turned then (forms m).bare else (forms m).own) <;> simp
  exact chosen (turnsRound (members.map forms))

theorem present_ofClause (c : Clause) : (ofClause c).Present (!c.isEmpty) := by
  cases empty : c.isEmpty <;> cases negated : c.negated <;>
    constructor <;> simp [ofClause, empty, negated]

theorem present_ofRaw (query : String) (negated : Bool) :
    (ofRaw query negated).Present (!Text.isBlankText query) := by
  rw [← Text.isEmpty_trim]
  cases empty : (Text.trim query.toList).isEmpty <;> cases negated <;>
    constructor <;> simp [ofRaw, empty]

/-- A group has its forms if and only if one of its members has them. -/
theorem present_ofGroup {α : Type} {forms : α → Compiled} {present : α → Bool} {members : List α}
    (h : ∀ m ∈ members, (forms m).Present (present m)) (connective : Connective) (negated : Bool) :
    (ofGroup connective (members.map forms) negated).Present (members.any present) := by
  have form : ∀ negated', (groupForm connective (members.map forms) negated').isSome =
      members.any present := by
    intro negated'
    rw [groupForm, isSome_close, isEmpty_operands h]
  refine ⟨form false, form true, form negated, ?_⟩
  show (groupBare connective (members.map forms) negated).isSome = members.any present
  match members, negated with
  | [], negated => exact form _
  | [only], false =>
      have := (h only (List.mem_singleton.mpr rfl)).bare
      simpa [groupBare] using this
  | [_], true => exact form _
  | _ :: _ :: _, negated => exact form _

end Compiled

namespace Restriction

/-- A restriction has all of its forms if it is not empty, and none if it is. -/
theorem present_compiled (r : Restriction) : r.compiled.Present (!r.isEmpty) := by
  induction r using memberInduction with
  | clause c => exact Compiled.present_ofClause c
  | raw query negated => exact Compiled.present_ofRaw query negated
  | group connective members negated ih =>
      have some_present : (members.any fun r => !r.isEmpty) = !members.all isEmpty := by
        simp [List.not_all_eq_any_not]
      rw [compiled_group, isEmpty_group, ← some_present]
      exact Compiled.present_ofGroup ih connective negated

/-- The texts of a clause: its body, with a negation in front or without, unless it is empty. -/
theorem compileWith_clause (c : Clause) (negated : Bool) :
    (Restriction.clause c).compileWith negated =
      if c.isEmpty then ""
      else String.ofList ((if negated then ['N', 'O', 'T', ' '] else []) ++ c.body) := by
  cases empty : c.isEmpty <;> cases negated <;>
    simp [compileWith, form, compiled, Compiled.ofClause, Compiled.text, Expression.render, empty]

/-- The text of a clause that is not empty: its body, with its negation in front. -/
theorem compile_clause {c : Clause} (h : c.isEmpty = false) :
    (Restriction.clause c).compile =
      String.ofList ((if c.negated then ['N', 'O', 'T', ' '] else []) ++ c.body) := by
  have own := compileWith_clause c c.negated
  rw [h, if_neg Bool.false_ne_true] at own
  exact (compileWith_isNegated _).symm.trans own

end Restriction

end SearchIndex
