import SearchIndex.Restriction.Compiled

/-!
# Groups

A group is built by adding restrictions one by one. It is an ordered set: what
is empty, or the same as a member it has already, is not added. Adding and
removing tell whether they changed the group.
-/

namespace SearchIndex

/-- Restrictions joined by one connective. -/
structure Group where
  connective : Connective
  members : List Restriction := []
  negated : Bool := false

namespace Group

/-- A group after an operation on it, and whether the operation changed it. -/
structure Outcome extends Group where
  changed : Bool

instance : Coe Outcome Group := ⟨Outcome.toGroup⟩

/-- A group as a restriction. -/
def toRestriction (g : Group) : Restriction :=
  .group g.connective g.members g.negated

/-- The group that a restriction is. -/
def ofRestriction? : Restriction → Option Group
  | .group connective members negated => some { connective, members, negated }
  | _ => none

/-- Whether the group has a member that is the same as a restriction. -/
def contains (g : Group) (r : Restriction) : Bool :=
  g.members.any (·.same r)

/-- Whether a restriction is added to the group. -/
def accepts (g : Group) (r : Restriction) : Bool :=
  !r.isEmpty && !g.contains r

/-- The group with a restriction added at its end, if it accepts it. -/
def add (g : Group) (r : Restriction) : Outcome :=
  if g.accepts r then ⟨{ g with members := g.members ++ [r] }, true⟩ else ⟨g, false⟩

/-- The group with restrictions added in order, and how many it accepted. -/
def addAll (g : Group) : List Restriction → Group × Nat
  | [] => (g, 0)
  | r :: rs =>
    let added := g.add r
    let (after, count) := added.toGroup.addAll rs
    (after, count + if added.changed then 1 else 0)

/-- The group without its first member that is the same as a restriction, if it has one. -/
def remove (g : Group) (r : Restriction) : Outcome :=
  match g.members.findIdx? (·.same r) with
  | some i => ⟨{ g with members := g.members.eraseIdx i }, true⟩
  | none => ⟨g, false⟩

/-- The group without any member. -/
def clear (g : Group) : Group :=
  { g with members := [] }

/-- A group with the given members, added in order. -/
def ofMembers (connective : Connective) (members : List Restriction) (negated : Bool) : Group :=
  ({ connective, negated : Group }.addAll members).1

/-- Whether nothing in the group says anything. -/
def isEmpty (g : Group) : Bool :=
  g.toRestriction.isEmpty

/-- The text of the group. -/
def compile (g : Group) : String :=
  g.toRestriction.compile

/-- Groups are equal if they are the same restriction. -/
instance : BEq Group where
  beq a b := a.toRestriction.same b.toRestriction

theorem add_of_accepts {g : Group} {r : Restriction} (h : g.accepts r = true) :
    g.add r = ⟨{ g with members := g.members ++ [r] }, true⟩ :=
  if_pos h

theorem add_of_not_accepts {g : Group} {r : Restriction} (h : g.accepts r = false) :
    g.add r = ⟨g, false⟩ :=
  if_neg (Bool.eq_false_iff.mp h)

@[simp] theorem changed_add (g : Group) (r : Restriction) : (g.add r).changed = g.accepts r := by
  cases h : g.accepts r with
  | true => rw [add_of_accepts h]
  | false => rw [add_of_not_accepts h]

@[simp] theorem connective_add (g : Group) (r : Restriction) :
    (g.add r).connective = g.connective := by
  unfold add
  split <;> rfl

@[simp] theorem negated_add (g : Group) (r : Restriction) : (g.add r).negated = g.negated := by
  unfold add
  split <;> rfl

/-- The member that is removed is the first one that is the same. -/
theorem members_remove_eq_eraseP (g : Group) (r : Restriction) :
    (g.remove r).members = g.members.eraseP (·.same r) := by
  rw [List.eraseP_eq_eraseIdx, remove]
  cases g.members.findIdx? (·.same r) <;> rfl

@[simp] theorem changed_remove (g : Group) (r : Restriction) :
    (g.remove r).changed = g.contains r := by
  rw [contains, ← List.findIdx?_isSome, remove]
  cases g.members.findIdx? (·.same r) <;> rfl

end Group

end SearchIndex
