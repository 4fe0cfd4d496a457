import SearchIndex.Clause
import SearchIndex.Expression

/-!
# Restrictions

A restriction is a clause, a raw text already in the query language, or a group
of restrictions joined by one connective; each of them may be negated. Two
restrictions are the same if they are built alike and their clauses are equal.
-/

namespace SearchIndex

/-- A condition on the entities that a search finds. -/
inductive Restriction where
  | clause (clause : Clause)
  | raw (query : String) (negated : Bool)
  | group (connective : Connective) (members : List Restriction) (negated : Bool)

namespace Restriction

/-- Whether the restriction is negated as a whole. -/
def isNegated : Restriction → Bool
  | .clause c => c.negated
  | .raw _ negated => negated
  | .group _ _ negated => negated

/-- The restriction with or without a negation of the whole. -/
def setNegated (negated : Bool) : Restriction → Restriction
  | .clause c => .clause { c with negated }
  | .raw query _ => .raw query negated
  | .group connective members _ => .group connective members negated

mutual

/-- Whether two restrictions are built alike from equal clauses and texts. -/
def same : Restriction → Restriction → Bool
  | .clause a, .clause b => a == b
  | .raw a m, .raw b n => a == b && m == n
  | .group c as m, .group d bs n => c == d && sameMembers as bs && m == n
  | _, _ => false

/-- Whether two lists hold the same restrictions in the same order. -/
def sameMembers : List Restriction → List Restriction → Bool
  | [], [] => true
  | a :: as, b :: bs => same a b && sameMembers as bs
  | _, _ => false

end

mutual

/-- Whether nothing in the restriction says anything. -/
def isEmpty : Restriction → Bool
  | .clause c => c.isEmpty
  | .raw query _ => Text.isBlankText query
  | .group _ members _ => allEmpty members

/-- Whether all of some restrictions are empty. -/
def allEmpty : List Restriction → Bool
  | [] => true
  | r :: rs => isEmpty r && allEmpty rs

end

theorem allEmpty_eq_all (rs : List Restriction) : allEmpty rs = rs.all isEmpty := by
  induction rs with
  | nil => rfl
  | cons r rs ih => rw [allEmpty, ih, List.all_cons]

end Restriction

end SearchIndex
