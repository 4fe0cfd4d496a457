import SearchIndex.Proofs.Restriction.Forms

/-!
# Restrictions are the same up to the sign of zero

Weights are compared as numbers, and the two zeros are the same number. `canonical` writes
every zero without a sign. Two restrictions are the same if and only if they are equal once
that is done (`same_iff`), so being the same is an equivalence: reflexive, since no weight is
unequal to itself, symmetric and transitive.
-/

namespace SearchIndex

namespace Weight

/-- The weight with its zero written without a sign. -/
def canonical (w : Weight) : Weight where
  word := w.rank
  valid := by
    have := w.valid
    unfold rank
    split <;> omega

theorem canonical_inj {a b : Weight} : a.canonical = b.canonical ↔ (a == b) = true := by
  rw [beq_iff]
  constructor
  · intro h
    exact congrArg Weight.word h
  · intro h
    simp only [canonical, h]

/-- Optional weights are equal if both are missing or both are there and equal. -/
theorem beq_option_iff {a b : Option Weight} :
    (a == b) = true ↔ a.map canonical = b.map canonical := by
  cases a with
  | none =>
      cases b with
      | none => exact ⟨fun _ => rfl, fun _ => rfl⟩
      | some b => exact ⟨nofun, nofun⟩
  | some a =>
      cases b with
      | none => exact ⟨nofun, nofun⟩
      | some b =>
          rw [Option.map_some, Option.map_some, Option.some.injEq, canonical_inj]
          rfl

end Weight

/-- The clause with its zeros written without a sign. -/
def Clause.canonical (c : Clause) : Clause :=
  { c with fuzzy := c.fuzzy.map Weight.canonical, boost := c.boost.map Weight.canonical }

theorem Clause.beq_iff {a b : Clause} : (a == b) = true ↔ a.canonical = b.canonical := by
  have parts : (a == b) = (a.field == b.field && a.query == b.query &&
      a.tokenized == b.tokenized && a.fuzzy == b.fuzzy && a.proximity == b.proximity &&
      a.boost == b.boost && a.negated == b.negated) := rfl
  simp only [parts, Bool.and_eq_true, beq_iff_eq, Weight.beq_option_iff, canonical, Clause.mk.injEq,
    and_assoc]

namespace Restriction

mutual

/-- The restriction with the zeros in its clauses written without a sign. -/
def canonical : Restriction → Restriction
  | .clause c => .clause c.canonical
  | .raw query negated => .raw query negated
  | .group connective members negated => .group connective (canonicalMembers members) negated

/-- Some restrictions with the zeros in their clauses written without a sign. -/
def canonicalMembers : List Restriction → List Restriction
  | [] => []
  | r :: rs => canonical r :: canonicalMembers rs

end

theorem sameMembers_iff {rs others : List Restriction}
    (each : ∀ r ∈ rs, ∀ other : Restriction, r.same other = true ↔ r.canonical = other.canonical) :
    sameMembers rs others = true ↔ canonicalMembers rs = canonicalMembers others := by
  induction rs generalizing others with
  | nil =>
      cases others with
      | nil => exact ⟨fun _ => rfl, fun _ => rfl⟩
      | cons other others => exact ⟨nofun, nofun⟩
  | cons r rs ih =>
      cases others with
      | nil => exact ⟨nofun, nofun⟩
      | cons other others =>
          obtain ⟨here, there⟩ := List.forall_mem_cons.mp each
          rw [sameMembers, Bool.and_eq_true, here other, ih there, canonicalMembers,
            canonicalMembers, List.cons.injEq]

/-- Restrictions are the same if and only if they are equal up to the signs of zeros. -/
theorem same_iff {a b : Restriction} : a.same b = true ↔ a.canonical = b.canonical := by
  induction a using memberInduction generalizing b with
  | clause c =>
      cases b with
      | clause d => rw [same, Clause.beq_iff, canonical, canonical, Restriction.clause.injEq]
      | raw query negated => exact ⟨nofun, nofun⟩
      | group connective members negated => exact ⟨nofun, nofun⟩
  | raw query negated =>
      cases b with
      | clause d => exact ⟨nofun, nofun⟩
      | raw query' negated' => simp [same, canonical]
      | group connective members negated => exact ⟨nofun, nofun⟩
  | group connective members negated ih =>
      cases b with
      | clause d => exact ⟨nofun, nofun⟩
      | raw query negated => exact ⟨nofun, nofun⟩
      | group connective' members' negated' =>
          have alike : sameMembers members members' = true ↔
              canonicalMembers members = canonicalMembers members' :=
            sameMembers_iff fun r hr other => ih r hr
          simp only [same, canonical, Bool.and_eq_true, beq_iff_eq, alike, Restriction.group.injEq,
            and_assoc]

@[simp] theorem same_refl (r : Restriction) : r.same r = true :=
  same_iff.mpr rfl

theorem same_comm (a b : Restriction) : a.same b = b.same a := by
  rw [Bool.eq_iff_iff, same_iff, same_iff]
  exact eq_comm

theorem same_trans {a b c : Restriction} (first : a.same b = true) (second : b.same c = true) :
    a.same c = true :=
  same_iff.mpr ((same_iff.mp first).trans (same_iff.mp second))

end Restriction

end SearchIndex
