import SearchIndex.Proofs.Restriction.Forms
import SearchIndex.Restriction.Group

/-!
# Restrictions that can be built

`Built` has exactly the restrictions that the operations make: a group starts out
empty, takes members one by one, may lose some again, and may change its
connective; everything may be negated or not at any time. What such a run of
operations keeps is `Full`: no group in the restriction has an empty member,
however deep it is nested.
-/

namespace SearchIndex

namespace Restriction

/-- The restrictions that can be made by the operations on them. -/
inductive Built : Restriction → Prop where
  | clause (c : Clause) : Built (.clause c)
  | raw (query : String) (negated : Bool) : Built (.raw query negated)
  | empty (connective : Connective) : Built (Group.toRestriction { connective })
  | add {g : Group} {r : Restriction} :
      Built g.toRestriction → Built r → Built (g.add r).toRestriction
  | remove {g : Group} (r : Restriction) :
      Built g.toRestriction → Built (g.remove r).toRestriction
  | clear {g : Group} : Built g.toRestriction → Built g.clear.toRestriction
  | setConnective {g : Group} (connective : Connective) :
      Built g.toRestriction → Built (Group.toRestriction { g with connective })
  | setNegated {r : Restriction} (negated : Bool) : Built r → Built (r.setNegated negated)

/-- No group in the restriction has an empty member. -/
inductive Full : Restriction → Prop where
  | clause (c : Clause) : Full (.clause c)
  | raw (query : String) (negated : Bool) : Full (.raw query negated)
  | group (connective : Connective) {members : List Restriction} (negated : Bool) :
      (∀ r ∈ members, r.isEmpty = false) → (∀ r ∈ members, Full r) →
      Full (.group connective members negated)

theorem full_group_iff {connective : Connective} {members : List Restriction} {negated : Bool} :
    Full (.group connective members negated) ↔
      ∀ r ∈ members, r.isEmpty = false ∧ Full r := by
  constructor
  · intro h
    cases h with
    | group _ _ nonempty full => exact fun r hr => ⟨nonempty r hr, full r hr⟩
  · intro h
    exact .group connective negated (fun r hr => (h r hr).1) (fun r hr => (h r hr).2)

/-- The negation of the whole has no part in whether members are empty. -/
theorem Full.setNegated {r : Restriction} (h : Full r) (negated : Bool) :
    Full (r.setNegated negated) := by
  cases h with
  | clause c => exact .clause _
  | raw query _ => exact .raw query negated
  | group connective _ nonempty full => exact .group connective negated nonempty full

end Restriction

namespace Group

open Restriction (Built Full full_group_iff)

/-- Only a restriction that says something becomes a member. -/
theorem full_add {g : Group} {r : Restriction} (hg : Full g.toRestriction) (hr : Full r) :
    Full (g.add r).toRestriction := by
  cases accepted : g.accepts r with
  | false =>
      rw [add_of_not_accepts accepted]
      exact hg
  | true =>
      have nonempty : r.isEmpty = false := by
        simp only [accepts, Bool.and_eq_true, Bool.not_eq_true'] at accepted
        exact accepted.1
      rw [toRestriction, full_group_iff, add_of_accepts accepted]
      intro m hm
      rcases List.mem_append.mp hm with hm | hm
      · exact full_group_iff.mp hg m hm
      · rw [List.mem_singleton.mp hm]
        exact ⟨nonempty, hr⟩

theorem full_remove {g : Group} (hg : Full g.toRestriction) (r : Restriction) :
    Full (g.remove r).toRestriction := by
  rw [toRestriction, full_group_iff, members_remove_eq_eraseP]
  intro m hm
  exact full_group_iff.mp hg m (List.mem_of_mem_eraseP hm)

/-- Adding several restrictions is adding one after the other. -/
theorem built_addAll {rs : List Restriction} (hrs : ∀ r ∈ rs, Built r) {g : Group}
    (hg : Built g.toRestriction) : Built (g.addAll rs).1.toRestriction := by
  induction rs generalizing g with
  | nil => exact hg
  | cons r rs ih =>
      obtain ⟨hr, hrs⟩ := List.forall_mem_cons.mp hrs
      exact ih hrs (.add hg hr)

end Group

namespace Restriction

/-- However a restriction was made, no group in it has an empty member. -/
theorem Built.full {r : Restriction} (h : Built r) : Full r := by
  induction h with
  | clause c => exact .clause c
  | raw query negated => exact .raw query negated
  | empty connective => exact full_group_iff.mpr (List.forall_mem_nil _)
  | add _ _ hg hr => exact Group.full_add hg hr
  | remove r _ hg => exact Group.full_remove hg r
  | clear _ _ => exact full_group_iff.mpr (List.forall_mem_nil _)
  | setConnective _ _ hg => exact full_group_iff.mpr (full_group_iff.mp hg)
  | setNegated negated _ hr => exact hr.setNegated negated

end Restriction

end SearchIndex
