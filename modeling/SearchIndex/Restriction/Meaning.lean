import SearchIndex.Restriction.Compiled

/-!
# The meaning of restrictions

A restriction is true or false once its atoms are: the texts of its clauses
without their negations, and its raw texts. Compiling keeps that meaning; the
compiled form only moves negations.
-/

namespace SearchIndex.Restriction

mutual

/-- The truth value of a restriction without its own negation. -/
def holdsUnsigned (truth : List Char → Bool) : Restriction → Bool
  | .clause c => truth c.body
  | .raw query _ => truth (Text.trim query.toList)
  | .group connective members _ => connective.holds (holdsMembers truth members)

/-- The truth values of some restrictions, each with its own negation. -/
def holdsMembers (truth : List Char → Bool) : List Restriction → List Bool
  | [] => []
  | r :: rs => (holdsUnsigned truth r != r.isNegated) :: holdsMembers truth rs

end

/-- The truth value of a restriction with the negation given here instead of its
own. -/
def holdsWith (truth : List Char → Bool) (r : Restriction) (negated : Bool) : Bool :=
  r.holdsUnsigned truth != negated

/-- The truth value of a restriction. -/
def holds (truth : List Char → Bool) (r : Restriction) : Bool :=
  r.holdsWith truth r.isNegated

theorem holdsMembers_eq_map (truth : List Char → Bool) (rs : List Restriction) :
    holdsMembers truth rs = rs.map (holds truth) := by
  induction rs with
  | nil => rfl
  | cons r rs ih => rw [holdsMembers, ih]; rfl

end SearchIndex.Restriction
