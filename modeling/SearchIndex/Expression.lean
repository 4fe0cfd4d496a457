/-!
# Boolean expressions

The query language combines texts with `AND`, `OR`, `NOT` and parentheses. An
`Expression` is such a combination as it is written, parentheses included; its
atoms are texts that are not looked into. `render` writes it, and `holds` is its
truth value given those of its atoms.
-/

namespace SearchIndex

/-- How several operands are joined. -/
inductive Connective where
  | and
  | or
  deriving DecidableEq, Repr

namespace Connective

/-- The other connective. -/
def flip : Connective → Connective
  | .and => .or
  | .or => .and

/-- The connective between two operands. -/
def separator : Connective → List Char
  | .and => [' ', 'A', 'N', 'D', ' ']
  | .or => [' ', 'O', 'R', ' ']

/-- The truth value of operands that are joined. -/
def holds : Connective → List Bool → Bool
  | .and, values => values.all id
  | .or, values => values.any id

/-- Negating all operands and exchanging the connective negates the whole. -/
theorem holds_flip (c : Connective) (values : List Bool) :
    c.flip.holds (values.map (!·)) = !c.holds values := by
  cases c with
  | and => simp [flip, holds, List.not_all_eq_any_not]
  | or => simp [flip, holds, List.not_any_eq_all_not]

end Connective

/-- An expression as it is written. -/
inductive Expression where
  | atom (text : List Char)
  | paren (inner : Expression)
  | not (operand : Expression)
  | join (connective : Connective) (operands : List Expression)

namespace Expression

mutual

/-- The text of an expression. -/
def render : Expression → List Char
  | .atom text => text
  | .paren inner => '(' :: inner.render ++ [')']
  | .not operand => ['N', 'O', 'T', ' '] ++ operand.render
  | .join connective operands => connective.separator.intercalate (renderAll operands)

/-- The texts of some expressions. -/
def renderAll : List Expression → List (List Char)
  | [] => []
  | e :: es => e.render :: renderAll es

end

mutual

/-- The truth value of an expression, given those of its atoms. -/
def holds (truth : List Char → Bool) : Expression → Bool
  | .atom text => truth text
  | .paren inner => inner.holds truth
  | .not operand => !operand.holds truth
  | .join connective operands => connective.holds (holdsAll truth operands)

/-- The truth values of some expressions. -/
def holdsAll (truth : List Char → Bool) : List Expression → List Bool
  | [] => []
  | e :: es => e.holds truth :: holdsAll truth es

end

/-- Whether an expression is written with a negation in front. -/
def isNot : Expression → Bool
  | .not _ => true
  | _ => false

theorem renderAll_eq_map (es : List Expression) : renderAll es = es.map render := by
  induction es with
  | nil => rfl
  | cons e es ih => rw [renderAll, ih, List.map_cons]

theorem holdsAll_eq_map (truth : List Char → Bool) (es : List Expression) :
    holdsAll truth es = es.map (holds truth) := by
  induction es with
  | nil => rfl
  | cons e es ih => rw [holdsAll, ih, List.map_cons]

end Expression

end SearchIndex
