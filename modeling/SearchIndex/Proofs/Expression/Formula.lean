import SearchIndex.Proofs.Restriction.Meaning
import SearchIndex.Proofs.Text.Symbols

/-!
# Expressions as they are read

The atoms of an expression are texts that it does not look into, and such a text may
itself be a disjunction. `formula` is what the text of an expression reads as, given
what its atoms read as. It need not have the truth value of the expression: an atom
that is joined by `AND` without parentheses of its own is `exposed`, and if there is
an `OR` in it, it comes apart. If no exposed atom is one of these, the truth value is
that of the expression (`holds_formula`).
-/

namespace SearchIndex

namespace Expression

variable (meaning : List Char → Disjunction)

mutual

/-- What the text of an expression reads as, given what its atoms read as. -/
def formula : Expression → Disjunction
  | .atom text => meaning text
  | .paren inner => .ofOperand (.paren inner.formula)
  | .not operand => operand.formula.negate
  | .join connective operands => .joinAll connective (formulas operands)

/-- What the texts of some expressions read as. -/
def formulas : List Expression → List Disjunction
  | [] => []
  | e :: es => e.formula :: formulas es

end

theorem formulas_eq_map (es : List Expression) : formulas meaning es = es.map (formula meaning) := by
  induction es with
  | nil => rfl
  | cons e es ih => rw [formulas, ih, List.map_cons]

/-- The text of an atom that is not in parentheses. -/
def bare? : Expression → Option (List Char)
  | .atom text => some text
  | _ => none

mutual

/-- The atoms that are joined to others by `AND` without parentheses. -/
def exposed : Expression → List (List Char)
  | .atom _ => []
  | .paren inner => inner.exposed
  | .not operand => operand.exposed
  | .join .and operands => operands.filterMap bare? ++ exposedAll operands
  | .join .or operands => exposedAll operands

/-- The atoms in some expressions that are joined by `AND` without parentheses. -/
def exposedAll : List Expression → List (List Char)
  | [] => []
  | e :: es => e.exposed ++ exposedAll es

end

theorem exposedAll_eq_flatMap (es : List Expression) : exposedAll es = es.flatMap exposed := by
  induction es with
  | nil => rfl
  | cons e es ih => rw [exposedAll, ih, List.flatMap_cons]

theorem mem_exposed_join {connective : Connective} {operands : List Expression}
    {text : List Char} :
    text ∈ (Expression.join connective operands).exposed ↔
      (connective = .and ∧ Expression.atom text ∈ operands) ∨ ∃ e ∈ operands, text ∈ e.exposed := by
  have bare : text ∈ operands.filterMap bare? ↔ Expression.atom text ∈ operands := by
    rw [List.mem_filterMap]
    constructor
    · rintro ⟨e, he, hb⟩
      cases e with
      | atom _ =>
          rw [Option.some.inj hb] at he
          exact he
      | paren _ | not _ | join _ _ => cases hb
    · exact fun h => ⟨_, h, rfl⟩
  cases connective with
  | and => rw [exposed, List.mem_append, bare, exposedAll_eq_flatMap, List.mem_flatMap]; simp
  | or => rw [exposed, exposedAll_eq_flatMap, List.mem_flatMap]; simp

/-- None of the exposed atoms has an `OR` in it outside of parentheses. -/
def Separate (e : Expression) : Prop :=
  ∀ text ∈ e.exposed, (meaning text).isSingle = true

variable {meaning} {single : List Char → Prop}

/-- The text of an expression reads as its formula. -/
theorem reads_render {e : Expression} (h : e.Bracketed single)
    (atoms : ∀ text ∈ e.atoms, Text.Reads text (meaning text)) :
    Text.Reads e.render (e.formula meaning) := by
  induction h with
  | atom text => exact atoms text (List.mem_singleton.mpr rfl)
  | paren _ ih => exact (ih atoms).paren
  | @list connective operands several _ ih =>
      have read : ∀ e ∈ operands, Text.Reads e.render (e.formula meaning) := by
        intro e he
        refine ih e he fun text htext => atoms text ?_
        rw [Expression.atoms, atoms_join]
        exact List.mem_flatMap.mpr ⟨e, he, htext⟩
      have nonempty : operands ≠ [] := by
        rintro rfl
        simp at several
      rw [render, render, renderAll_eq_map, formula, formula, formulas_eq_map]
      exact (Text.Reads.joinAll connective nonempty read).paren
  | notAtom _ => exact (atoms _ (List.mem_singleton.mpr rfl)).not
  | notParen _ ih => exact (ih atoms).not

/-- Only an atom can have an `OR` outside of parentheses. -/
theorem isSingle_formula {e : Expression} (h : e.Bracketed single)
    (atom : ∀ text, single text → meaning text = .ofOperand (.atom text))
    (bare : ∀ text, e = .atom text → (meaning text).isSingle = true) :
    (e.formula meaning).isSingle = true := by
  cases h with
  | atom text => exact bare text rfl
  | paren _ => rfl
  | list _ _ _ => rfl
  | notAtom h =>
      rw [formula, formula, atom _ h]
      rfl
  | notParen _ => rfl

theorem isSingle_of_mem_map {operands : List Expression}
    (bracketed : ∀ e ∈ operands, e.Bracketed single)
    (atom : ∀ text, single text → meaning text = .ofOperand (.atom text))
    (bare : ∀ text, Expression.atom text ∈ operands → (meaning text).isSingle = true) :
    ∀ d ∈ operands.map (formula meaning), d.isSingle = true := by
  intro d hd
  obtain ⟨e, he, rfl⟩ := List.mem_map.mp hd
  exact isSingle_formula (bracketed e he) atom fun text htext => bare text (htext ▸ he)

/-- The text of an expression has the truth value of the expression if its exposed atoms
do not come apart. -/
theorem holds_formula {e : Expression} (h : e.Bracketed single)
    (atom : ∀ text, single text → meaning text = .ofOperand (.atom text))
    (separate : e.Separate meaning) (truth : List Char → Bool) :
    (e.formula meaning).holds truth = e.holds fun text => (meaning text).holds truth := by
  induction h with
  | atom text => rfl
  | paren _ ih => exact ih separate
  | @list connective operands several bracketed ih =>
      have nonempty : operands.map (formula meaning) ≠ [] := by
        intro none
        rw [List.map_eq_nil_iff.mp none] at several
        simp at several
      have closed : connective = .and → ∀ d ∈ operands.map (formula meaning), d.isSingle = true := by
        rintro rfl
        apply isSingle_of_mem_map bracketed atom
        intro text mem
        exact separate text (mem_exposed_join.mpr (.inl ⟨rfl, mem⟩))
      have values : operands.map (fun e => (e.formula meaning).holds truth) =
          operands.map (holds fun text => (meaning text).holds truth) :=
        List.map_congr_left fun e he => ih e he fun text htext =>
          separate text (mem_exposed_join.mpr (.inr ⟨e, he, htext⟩))
      rw [formula, formula, formulas_eq_map, holds, holds_join, Disjunction.holds_ofOperand,
        Operand.holds, Disjunction.holds_joinAll truth connective nonempty closed, List.map_map,
        ← values]
      rfl
  | notAtom h =>
      rw [formula, formula, atom _ h, holds, holds, atom _ h]
      rfl
  | notParen _ ih =>
      rw [holds, ← ih separate]
      rfl

end Expression

end SearchIndex
