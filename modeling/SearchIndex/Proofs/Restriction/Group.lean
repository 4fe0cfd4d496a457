import SearchIndex.Proofs.Restriction.Forms
import SearchIndex.Restriction.Group

/-!
# Groups of several restrictions

Adding restrictions one after the other leaves the members that were there and
behind them, in order, those that say something and are not the same as one
before them. The text of a group that is not turned round is made of the texts of
its members; it has parentheses if there are at least two.
-/

namespace SearchIndex

/-! ### Several values at hand -/

section AtHand

variable {α : Type} {P : α → Prop} {values : List α}

/-- What a change keeps, all values have after one of them was changed. -/
theorem forall_mem_modify (h : ∀ a ∈ values, P a) {change : α → α} (kept : ∀ a, P a → P (change a))
    (index : Nat) : ∀ a ∈ values.modify index change, P a := by
  intro a ha
  obtain ⟨i, hi⟩ := List.mem_iff_getElem?.mp ha
  rw [List.getElem?_modify, Option.map_eq_map, Option.map_eq_some_iff] at hi
  obtain ⟨b, hb, rfl⟩ := hi
  have here := h b (List.mem_of_getElem? hb)
  split
  · exact kept b here
  · exact here

/-- What all values have, they have after one of them was copied. -/
theorem forall_mem_copy (h : ∀ a ∈ values, P a) (index : Nat) :
    ∀ a ∈ values ++ values[index]?.toList, P a := by
  intro a ha
  rcases List.mem_append.mp ha with ha | ha
  · exact h a ha
  · exact h a (List.mem_of_getElem? (Option.mem_toList.mp ha))

end AtHand

namespace Restriction

/-- The restrictions of a list that are not the same as one before them, where
`earlier` comes before the list. -/
def distinct (earlier : List Restriction) : List Restriction → List Restriction
  | [] => []
  | r :: rs =>
    if earlier.any (·.same r) then distinct earlier rs
    else r :: distinct (earlier ++ [r]) rs

theorem distinct_sublist (earlier rs : List Restriction) : (distinct earlier rs).Sublist rs := by
  induction rs generalizing earlier with
  | nil => exact .slnil
  | cons r rs ih =>
      rw [distinct]
      split
      · exact .cons r (ih earlier)
      · exact .cons_cons r (ih (earlier ++ [r]))

/-- The text of a restriction that is not empty is that of its own form. -/
theorem exists_own {r : Restriction} (h : r.isEmpty = false) :
    ∃ e, r.compiled.own = some e ∧ r.compile = String.ofList e.render := by
  have present := (present_compiled r).own
  rw [h] at present
  obtain ⟨e, he⟩ := Option.isSome_iff_exists.mp present
  exact ⟨e, he, by rw [compile, he, Compiled.text]⟩

/-- Forms that are there have the texts of the restrictions that they are forms of. -/
theorem render_forms {form : Compiled → Option Expression} {rs : List Restriction}
    (present : ∀ r ∈ rs, (form r.compiled).isSome = true) :
    ((rs.map compiled).filterMap form).map (fun e => String.ofList e.render) =
      rs.map fun r => Compiled.text (form r.compiled) := by
  induction rs with
  | nil => rfl
  | cons r rs ih =>
      obtain ⟨here, there⟩ := List.forall_mem_cons.mp present
      obtain ⟨e, he⟩ := Option.isSome_iff_exists.mp here
      rw [List.map_cons, List.filterMap_cons_some he, List.map_cons, List.map_cons, he, ih there,
        Compiled.text]

/-- The form of a group with a given negation, whichever negation the group has. -/
theorem form_group (connective : Connective) (members : List Restriction) (own negated : Bool) :
    (Restriction.group connective members own).form negated =
      Compiled.groupForm connective (members.map compiled) negated := by
  rw [form, compiled_group]
  cases negated <;> rfl

/-- The form of a group of one member. -/
theorem groupForm_singleton {only : Restriction} {own : Expression}
    (h : only.compiled.own = some own) (connective : Connective) (negated : Bool) :
    Compiled.groupForm connective [only.compiled] negated =
      some (if negated then .not (.paren own) else own) := by
  cases negated <;>
    simp [Compiled.groupForm, Compiled.operands, Compiled.turnsRound, Compiled.close, h]

end Restriction

namespace Compiled

/-- The text of several operands that are joined: a list in parentheses. -/
theorem text_close_of_several {operands : List Expression} (several : 2 ≤ operands.length)
    (connective : Connective) (negated : Bool) :
    text (close connective operands negated) =
      (if negated then "NOT (" else "(") ++ (String.ofList connective.separator).intercalate
        (operands.map fun e => String.ofList e.render) ++ ")" := by
  match operands, negated with
  | e :: e' :: es, false =>
      show text (some (.paren (.join connective (e :: e' :: es)))) = _
      rw [text, ← String.toList_inj]
      simp [Expression.render, Expression.renderAll_eq_map, Function.comp_def]
  | e :: e' :: es, true =>
      show text (some (.not (.paren (.join connective (e :: e' :: es))))) = _
      rw [text, ← String.toList_inj]
      simp [Expression.render, Expression.renderAll_eq_map, Function.comp_def]

/-- The form of a group of several members without the negation in front of it. -/
theorem groupBare_of_several {members : List Compiled} (several : 2 ≤ members.length)
    (connective : Connective) (negated : Bool) :
    groupBare connective members negated =
      groupForm connective members (turnsRound members) := by
  match members, several with
  | _ :: _ :: _, _ => rfl

/-- The text of operands that are joined without a negation. -/
theorem text_close (connective : Connective) (operands : List Expression) :
    text (close connective operands false) =
      match operands.map (fun e => String.ofList e.render) with
      | [] => ""
      | [only] => only
      | texts => "(" ++ (String.ofList connective.separator).intercalate texts ++ ")" := by
  match operands with
  | [] => rfl
  | [_] => rfl
  | e :: e' :: es => exact text_close_of_several (by simp) connective false

end Compiled

namespace Group

open Restriction (distinct)

/-- The members of a group after some restrictions were added to it. -/
theorem members_addAll (g : Group) (rs : List Restriction) :
    (g.addAll rs).1.members = g.members ++ distinct g.members (rs.filter (!·.isEmpty)) := by
  induction rs generalizing g with
  | nil => simp [addAll, distinct]
  | cons r rs ih =>
      have step : (g.addAll (r :: rs)).1 = ((g.add r).addAll rs).1 := rfl
      rw [step, ih]
      cases empty : r.isEmpty with
      | true =>
          rw [add_of_not_accepts (by simp [accepts, empty])]
          simp [empty]
      | false =>
          cases contained : g.contains r with
          | true =>
              rw [add_of_not_accepts (by simp [accepts, contained])]
              simp only [contains] at contained
              simp [empty, distinct, contained]
          | false =>
              rw [add_of_accepts (by simp [accepts, empty, contained])]
              simp only [contains] at contained
              simp [empty, distinct, contained]

@[simp] theorem connective_addAll (g : Group) (rs : List Restriction) :
    (g.addAll rs).1.connective = g.connective := by
  induction rs generalizing g with
  | nil => rfl
  | cons r rs ih => exact (ih (g.add r)).trans (connective_add g r)

@[simp] theorem negated_addAll (g : Group) (rs : List Restriction) :
    (g.addAll rs).1.negated = g.negated := by
  induction rs generalizing g with
  | nil => rfl
  | cons r rs ih => exact (ih (g.add r)).trans (negated_add g r)

/-- Nothing empty becomes a member. -/
theorem nonempty_members_addAll {g : Group} (h : ∀ m ∈ g.members, m.isEmpty = false)
    (rs : List Restriction) : ∀ m ∈ (g.addAll rs).1.members, m.isEmpty = false := by
  intro m hm
  rw [members_addAll] at hm
  rcases List.mem_append.mp hm with hm | hm
  · exact h m hm
  · have kept := List.mem_filter.mp ((Restriction.distinct_sublist _ _).mem hm)
    simpa using kept.2

theorem nonempty_members_remove {g : Group} (h : ∀ m ∈ g.members, m.isEmpty = false)
    (r : Restriction) : ∀ m ∈ (g.remove r).members, m.isEmpty = false := by
  rw [members_remove_eq_eraseP]
  exact fun m hm => h m (List.mem_of_mem_eraseP hm)

/-- The text of a group with a member that is no negation. -/
theorem compile_eq {g : Group} (nonempty : ∀ m ∈ g.members, m.isEmpty = false)
    (positive : ∃ m ∈ g.members, m.compilesNegated = false) (plain : g.negated = false) :
    g.compile =
      match g.members.map Restriction.compile with
      | [] => ""
      | [only] => only
      | texts => "(" ++ (String.ofList g.connective.separator).intercalate texts ++ ")" := by
  have kept : Compiled.turnsRound (g.members.map Restriction.compiled) = false := by
    obtain ⟨m, hm, hp⟩ := positive
    rw [Compiled.turnsRound, Bool.and_eq_false_iff]
    right
    rw [List.all_eq_false]
    exact ⟨m.compiled, List.mem_map_of_mem hm, by rw [← Restriction.compilesNegated, hp]; simp⟩
  rw [compile, Restriction.compile, toRestriction, Restriction.compiled_group]
  show Compiled.text (Compiled.groupForm _ _ g.negated) = _
  simp only [Compiled.groupForm, Compiled.operands, kept, plain, Bool.false_eq_true, if_false,
    bne_self_eq_false]
  have present : ∀ m ∈ g.members, m.compiled.own.isSome = true := by
    intro m hm
    rw [(Restriction.present_compiled m).own, nonempty m hm, Bool.not_false]
  rw [Compiled.text_close, Restriction.render_forms present]
  rfl

end Group

end SearchIndex
