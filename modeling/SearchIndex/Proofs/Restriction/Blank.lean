import SearchIndex.Proofs.Clause.Blank
import SearchIndex.Proofs.Restriction.Forms

/-!
# Restrictions that say nothing

A restriction is empty if and only if all clauses and all raw texts in it are blank, however
deep the groups are nested. Emptiness and text are made by different recursions: a group is
empty if its members are, while its text is put together from the texts of its members, with
their negations or without. Still each of its texts is the empty one if and only if the
restriction is empty. An empty restriction has no forms, and a form that is there is written
as something (`Compiled.Worded`).
-/

namespace SearchIndex

namespace Compiled

/-- Every form that is there is written as something. -/
structure Worded (m : Compiled) : Prop where
  positive : ∀ e ∈ m.positive, e.render ≠ []
  negative : ∀ e ∈ m.negative, e.render ≠ []
  own : ∀ e ∈ m.own, e.render ≠ []
  bare : ∀ e ∈ m.bare, e.render ≠ []

theorem render_not_ne_nil (e : Expression) : (Expression.not e).render ≠ [] := by
  simp [Expression.render]

theorem worded_close {connective : Connective} {operands : List Expression}
    (h : ∀ e ∈ operands, e.render ≠ []) (negated : Bool) :
    ∀ e ∈ close connective operands negated, e.render ≠ [] := by
  intro e he
  match operands, negated, he with
  | [operand], false, he =>
      obtain rfl := Option.some.inj he
      exact h operand List.mem_cons_self
  | [_], true, he =>
      obtain rfl := Option.some.inj he
      exact render_not_ne_nil _
  | _ :: _ :: _, false, he =>
      obtain rfl := Option.some.inj he
      simp [Expression.render]
  | _ :: _ :: _, true, he =>
      obtain rfl := Option.some.inj he
      exact render_not_ne_nil _

/-- What is no group has two forms at most, and its negation is written around the other one. -/
theorem worded_of_positive {m : Compiled} (positive : ∀ e ∈ m.positive, e.render ≠ [])
    (inner : Expression → Expression) (negative : m.negative = m.positive.map fun e => .not (inner e))
    (negated : Bool) (own : m.own = if negated then m.negative else m.positive)
    (bare : m.bare = m.positive) : m.Worded := by
  have turned : ∀ e ∈ m.negative, e.render ≠ [] := by
    rw [negative]
    intro e he
    obtain ⟨operand, -, rfl⟩ := Option.map_eq_some_iff.mp he
    exact render_not_ne_nil (inner operand)
  refine ⟨positive, turned, ?_, ?_⟩
  · rw [own]
    split
    · exact turned
    · exact positive
  · rwa [bare]

theorem worded_ofClause (c : Clause) : (ofClause c).Worded := by
  have positive : ∀ e ∈ (ofClause c).positive, e.render ≠ [] := by
    intro e he
    simp only [ofClause, Option.mem_def, Option.ite_none_left_eq_some, Option.some.injEq] at he
    obtain ⟨filled, rfl⟩ := he
    simpa [Clause.isEmpty, Expression.render] using filled
  exact worded_of_positive positive id rfl c.negated rfl rfl

theorem worded_ofRaw (query : String) (negated : Bool) : (ofRaw query negated).Worded := by
  have positive : ∀ e ∈ (ofRaw query negated).positive, e.render ≠ [] := by
    intro e he
    simp only [ofRaw, Option.mem_def, Option.ite_none_left_eq_some, Option.some.injEq] at he
    obtain ⟨filled, rfl⟩ := he
    simpa [Expression.render] using filled
  exact worded_of_positive positive .paren rfl negated rfl rfl

theorem worded_groupForm {members : List Compiled} (h : ∀ m ∈ members, m.Worded)
    (connective : Connective) (negated : Bool) :
    ∀ e ∈ groupForm connective members negated, e.render ≠ [] := by
  apply worded_close
  intro e he
  obtain ⟨m, hm, he⟩ := List.mem_filterMap.mp he
  split at he
  · exact (h m hm).bare e he
  · exact (h m hm).own e he

theorem worded_ofGroup {members : List Compiled} (h : ∀ m ∈ members, m.Worded)
    (connective : Connective) (negated : Bool) : (ofGroup connective members negated).Worded := by
  have form := worded_groupForm h connective
  refine ⟨form false, form true, form negated, ?_⟩
  show ∀ e ∈ groupBare connective members negated, e.render ≠ []
  match members, negated with
  | [], _ => exact form _
  | [only], false => exact (h only List.mem_cons_self).bare
  | [_], true => exact form _
  | _ :: _ :: _, _ => exact form _

/-- A form that is written as something has the empty text only if it is not there. -/
theorem text_eq_empty_iff {form : Option Expression} {empty : Bool}
    (worded : ∀ e ∈ form, e.render ≠ []) (h : form.isSome = !empty) :
    text form = "" ↔ empty = true := by
  cases form with
  | none =>
      have : empty = true := by simpa using h
      exact ⟨fun _ => this, fun _ => rfl⟩
  | some e =>
      have there : empty = false := by simpa using h
      have filled : e.render ≠ [] := worded e rfl
      rw [text, there, ← String.toList_inj, String.toList_ofList]
      exact iff_of_false filled Bool.false_ne_true

end Compiled

namespace Restriction

theorem worded_compiled (r : Restriction) : r.compiled.Worded := by
  induction r using memberInduction with
  | clause c => exact Compiled.worded_ofClause c
  | raw query negated => exact Compiled.worded_ofRaw query negated
  | group connective members negated ih =>
      rw [compiled_group]
      exact Compiled.worded_ofGroup (List.forall_mem_map.mpr ih) connective negated

theorem compileWith_eq_empty_iff (r : Restriction) (negated : Bool) :
    r.compileWith negated = "" ↔ r.isEmpty = true := by
  have present := present_compiled r
  have worded := worded_compiled r
  rw [compileWith, form]
  cases negated with
  | false => exact Compiled.text_eq_empty_iff worded.positive present.positive
  | true => exact Compiled.text_eq_empty_iff worded.negative present.negative

theorem compile_eq_empty_iff (r : Restriction) : r.compile = "" ↔ r.isEmpty = true :=
  Compiled.text_eq_empty_iff (worded_compiled r).own (present_compiled r).own

theorem compileBare_eq_empty_iff (r : Restriction) : r.compileBare = "" ↔ r.isEmpty = true :=
  Compiled.text_eq_empty_iff (worded_compiled r).bare (present_compiled r).bare

/-- A restriction occurs in another one: it is that one, or it occurs in one of its members. -/
inductive Within (part : Restriction) : Restriction → Prop where
  | self : Within part part
  | member (connective : Connective) {members : List Restriction} (negated : Bool)
      {m : Restriction} : m ∈ members → Within part m → Within part (.group connective members negated)

/-- Every clause and every raw text in a restriction is blank. -/
structure IsBlank (r : Restriction) : Prop where
  clauses : ∀ c : Clause, Within (.clause c) r → c.IsBlank
  raws : ∀ query negated, Within (.raw query negated) r →
    ∀ ch ∈ query.toList, Text.isBlank ch = true

theorem isBlank_clause_iff {c : Clause} : (Restriction.clause c).IsBlank ↔ c.IsBlank := by
  constructor
  · intro h
    exact h.clauses c .self
  · intro h
    refine ⟨?_, ?_⟩
    · rintro d ⟨⟩
      exact h
    · rintro query negated ⟨⟩

theorem isBlank_raw_iff {query : String} {negated : Bool} :
    (Restriction.raw query negated).IsBlank ↔ ∀ ch ∈ query.toList, Text.isBlank ch = true := by
  constructor
  · intro h
    exact h.raws query negated .self
  · intro h
    refine ⟨?_, ?_⟩
    · rintro c ⟨⟩
    · rintro query' negated' ⟨⟩
      exact h

theorem isBlank_group_iff {connective : Connective} {members : List Restriction} {negated : Bool} :
    (Restriction.group connective members negated).IsBlank ↔ ∀ m ∈ members, m.IsBlank := by
  constructor
  · intro h m hm
    exact ⟨fun c hc => h.clauses c (.member connective negated hm hc),
      fun query n hr => h.raws query n (.member connective negated hm hr)⟩
  · intro h
    refine ⟨?_, ?_⟩
    · rintro c (_ | ⟨_, _, hm, within⟩)
      exact (h _ hm).clauses c within
    · rintro query n (_ | ⟨_, _, hm, within⟩)
      exact (h _ hm).raws query n within

/-- Nothing in a restriction says anything if and only if every part of it is blank. -/
theorem isEmpty_iff_isBlank (r : Restriction) : r.isEmpty = true ↔ r.IsBlank := by
  induction r using memberInduction with
  | clause c => rw [isEmpty_clause, isBlank_clause_iff, c.isEmpty_iff]
  | raw query negated =>
      rw [isEmpty_raw, isBlank_raw_iff, Text.isBlankText_iff, Text.trim_eq_nil_iff]
  | group connective members negated ih =>
      rw [isEmpty_group, isBlank_group_iff, List.all_eq_true]
      constructor
      · intro all m hm
        exact (ih m hm).mp (all m hm)
      · intro all m hm
        exact (ih m hm).mpr (all m hm)

/-- Each text of a restriction is the empty one if and only if the restriction is empty, and
that is so if and only if every clause and every raw text in it is blank. How a clause searches,
what it weighs and whether it is negated do not matter to that. -/
theorem texts_eq_empty_iff :
    (∀ r : Restriction,
      (∀ negated, r.compileWith negated = "" ↔ r.isEmpty = true) ∧
      (r.compileBare = "" ↔ r.isEmpty = true) ∧
      (r.compile = "" ↔ r.isEmpty = true) ∧
      (r.isEmpty = true ↔ r.IsBlank)) ∧
    ∀ (c : Clause) (fuzzy : Option Weight) (proximity : Option Nat) (boost : Option Weight)
      (negated : Bool),
      (Restriction.clause { c with fuzzy, proximity, boost, negated }).isEmpty =
        (Restriction.clause c).isEmpty := by
  constructor
  · intro r
    exact ⟨r.compileWith_eq_empty_iff, r.compileBare_eq_empty_iff, r.compile_eq_empty_iff,
      isEmpty_iff_isBlank r⟩
  · intro c fuzzy proximity boost negated
    rw [Bool.eq_iff_iff, isEmpty_clause, isEmpty_clause, Clause.isEmpty_iff, Clause.isEmpty_iff]
    rfl

end Restriction

end SearchIndex
