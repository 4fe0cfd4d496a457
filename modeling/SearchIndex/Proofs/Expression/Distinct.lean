import Mathlib.Data.List.Nodup
import SearchIndex.Proofs.Expression.Formula

/-!
# Expressions that come apart

If all atoms that the text of an expression has in the end are different, then one
exposed atom with an `OR` in it is enough for the text to have another truth value than
the expression (`exists_ne_of_not_separate`): the truth values of different atoms can
be chosen one by one.
-/

namespace SearchIndex

mutual

theorem Operand.holds_congr {truth truth' : List Char → Bool} (o : Operand)
    (h : ∀ text ∈ o.atoms, truth text = truth' text) : o.holds truth = o.holds truth' := by
  match o with
  | .atom text => exact h text (List.mem_singleton.mpr rfl)
  | .not o => exact congrArg (!·) (Operand.holds_congr o h)
  | .paren d => exact Disjunction.holds_congr d h

theorem Conjunction.holds_congr {truth truth' : List Char → Bool} (c : Conjunction)
    (h : ∀ text ∈ c.atoms, truth text = truth' text) : c.holds truth = c.holds truth' := by
  match c with
  | .single o => exact Operand.holds_congr o h
  | .and o c =>
      rw [Conjunction.holds, Conjunction.holds,
        Operand.holds_congr o fun text ht => h text (List.mem_append_left _ ht),
        Conjunction.holds_congr c fun text ht => h text (List.mem_append_right _ ht)]

theorem Disjunction.holds_congr {truth truth' : List Char → Bool} (d : Disjunction)
    (h : ∀ text ∈ d.atoms, truth text = truth' text) : d.holds truth = d.holds truth' := by
  match d with
  | .single c => exact Conjunction.holds_congr c h
  | .or c d =>
      rw [Disjunction.holds, Disjunction.holds,
        Conjunction.holds_congr c fun text ht => h text (List.mem_append_left _ ht),
        Disjunction.holds_congr d fun text ht => h text (List.mem_append_right _ ht)]

end

/-- A demand on truth values that only depends on some atoms. -/
structure Demand where
  atoms : List (List Char)
  met : (List Char → Bool) → Prop
  congr : ∀ {truth truth' : List Char → Bool}, (∀ text ∈ atoms, truth text = truth' text) →
    met truth → met truth'

/-- Demands that have no atoms in common can be met together if each of them can be. -/
theorem Demand.exists_met {demands : List Demand} (distinct : (demands.flatMap atoms).Nodup)
    (each : ∀ demand ∈ demands, ∃ truth, demand.met truth) :
    ∃ truth, ∀ demand ∈ demands, demand.met truth := by
  induction demands with
  | nil => exact ⟨fun _ => false, List.forall_mem_nil _⟩
  | cons demand demands ih =>
      obtain ⟨⟨truth, here⟩, others⟩ := List.forall_mem_cons.mp each
      rw [List.flatMap_cons, List.nodup_append] at distinct
      obtain ⟨-, distinct_rest, disjoint⟩ := distinct
      obtain ⟨truth', there⟩ := ih distinct_rest others
      refine ⟨fun text => if text ∈ demand.atoms then truth text else truth' text,
        List.forall_mem_cons.mpr ⟨demand.congr (fun text ht => (if_pos ht).symm) here, ?_⟩⟩
      intro demand' hd
      refine demand'.congr (fun text ht => (if_neg fun mem => ?_).symm) (there demand' hd)
      exact disjoint text mem text (List.mem_flatMap.mpr ⟨demand', hd, ht⟩) rfl

theorem Demand.exists_both (a b : Demand) (distinct : (a.atoms ++ b.atoms).Nodup)
    (ha : ∃ truth, a.met truth) (hb : ∃ truth, b.met truth) :
    ∃ truth, a.met truth ∧ b.met truth := by
  have met : ∃ truth, ∀ demand ∈ [a, b], demand.met truth :=
    Demand.exists_met (by simpa using distinct)
      (List.forall_mem_cons.mpr ⟨ha, List.forall_mem_singleton.mpr hb⟩)
  obtain ⟨truth, met⟩ := met
  obtain ⟨here, there⟩ := List.forall_mem_cons.mp met
  exact ⟨truth, here, there b (List.mem_singleton.mpr rfl)⟩

/-- The demand that a disjunction has a truth value. -/
def Disjunction.demand (d : Disjunction) (value : Bool) : Demand where
  atoms := d.atoms
  met truth := d.holds truth = value
  congr same h := (d.holds_congr same).symm.trans h

def Conjunction.demand (c : Conjunction) (value : Bool) : Demand where
  atoms := c.atoms
  met truth := c.holds truth = value
  congr same h := (c.holds_congr same).symm.trans h

def Operand.demand (o : Operand) (value : Bool) : Demand where
  atoms := o.atoms
  met truth := o.holds truth = value
  congr same h := (o.holds_congr same).symm.trans h

mutual

theorem Operand.exists_holds (o : Operand) (distinct : o.atoms.Nodup) (value : Bool) :
    ∃ truth, o.holds truth = value := by
  match o with
  | .atom text => exact ⟨fun _ => value, rfl⟩
  | .not o =>
      obtain ⟨truth, h⟩ := Operand.exists_holds o distinct (!value)
      exact ⟨truth, by rw [Operand.holds, h, Bool.not_not]⟩
  | .paren d => exact Disjunction.exists_holds d distinct value

theorem Conjunction.exists_holds (c : Conjunction) (distinct : c.atoms.Nodup) (value : Bool) :
    ∃ truth, c.holds truth = value := by
  match c with
  | .single o => exact Operand.exists_holds o distinct value
  | .and o c =>
      have parts := List.nodup_append.mp distinct
      obtain ⟨truth, here, there⟩ := Demand.exists_both (o.demand value) (c.demand value) distinct
        (Operand.exists_holds o parts.1 value) (Conjunction.exists_holds c parts.2.1 value)
      have here' : o.holds truth = value := here
      have there' : c.holds truth = value := there
      exact ⟨truth, by rw [Conjunction.holds, here', there', Bool.and_self]⟩

theorem Disjunction.exists_holds (d : Disjunction) (distinct : d.atoms.Nodup) (value : Bool) :
    ∃ truth, d.holds truth = value := by
  match d with
  | .single c => exact Conjunction.exists_holds c distinct value
  | .or c d =>
      have parts := List.nodup_append.mp distinct
      obtain ⟨truth, here, there⟩ := Demand.exists_both (c.demand value) (d.demand value) distinct
        (Conjunction.exists_holds c parts.1 value) (Disjunction.exists_holds d parts.2.1 value)
      have here' : c.holds truth = value := here
      have there' : d.holds truth = value := there
      exact ⟨truth, by rw [Disjunction.holds, here', there', Bool.or_self]⟩

end

namespace Connective

/-- The truth value of operands that leave the others as they are. -/
def neutral : Connective → Bool
  | .and => true
  | .or => false

theorem holds_of_eq (connective : Connective) {values : List Bool} {value : Bool}
    (nonempty : values ≠ []) (h : ∀ v ∈ values, v = value) : connective.holds values = value := by
  obtain ⟨first, rest, rfl⟩ := List.exists_cons_of_ne_nil nonempty
  have here : first = value := h first List.mem_cons_self
  cases connective with
  | and =>
      rw [holds, Bool.eq_iff_iff, List.all_eq_true]
      exact ⟨fun all => here ▸ all first List.mem_cons_self, fun hv v hmem => (h v hmem).trans hv⟩
  | or =>
      rw [holds, Bool.eq_iff_iff, List.any_eq_true]
      constructor
      · rintro ⟨v, hmem, hv⟩
        exact (h v hmem).symm.trans hv
      · exact fun hv => ⟨first, List.mem_cons_self, here.trans hv⟩

theorem holds_of_neutral (connective : Connective) {before after : List Bool} {value : Bool}
    (hb : ∀ v ∈ before, v = connective.neutral) (ha : ∀ v ∈ after, v = connective.neutral) :
    connective.holds (before ++ value :: after) = value := by
  cases connective with
  | and =>
      have front : before.all id = true := List.all_eq_true.mpr hb
      have back : after.all id = true := List.all_eq_true.mpr ha
      simp [holds, front, back]
  | or =>
      have front : before.any id = false := List.any_eq_false.mpr fun v hv => by simp [hb v hv, neutral]
      have back : after.any id = false := List.any_eq_false.mpr fun v hv => by simp [ha v hv, neutral]
      simp [holds, front, back]

end Connective

namespace Expression

/-- The atoms that the text of an expression has in the end. -/
def leaves (meaning : List Char → Disjunction) (e : Expression) : List (List Char) :=
  e.atoms.flatMap fun text => (meaning text).atoms

variable {meaning : List Char → Disjunction} {single : List Char → Prop}

@[simp] theorem leaves_atom (text : List Char) :
    leaves meaning (.atom text) = (meaning text).atoms := by
  simp [leaves, atoms]

@[simp] theorem leaves_join (connective : Connective) (operands : List Expression) :
    leaves meaning (.join connective operands) = operands.flatMap (leaves meaning) := by
  rw [leaves, atoms_join, List.flatMap_assoc]
  rfl

theorem ne_nil_of_several {operands : List Expression} (several : 2 ≤ operands.length) :
    operands ≠ [] := by
  rintro rfl
  simp at several

theorem atoms_formula {e : Expression} (h : e.Bracketed single) :
    (e.formula meaning).atoms = e.leaves meaning := by
  induction h with
  | atom text => simp [formula]
  | paren _ ih => exact ih
  | @list connective operands several _ ih =>
      have nonempty : operands.map (formula meaning) ≠ [] := by
        rw [Ne, List.map_eq_nil_iff]
        exact ne_nil_of_several several
      have inner : (Expression.paren (.join connective operands)).leaves meaning =
          operands.flatMap (leaves meaning) := leaves_join connective operands
      rw [formula, formula, formulas_eq_map, Disjunction.atoms_ofOperand, Operand.atoms,
        Disjunction.atoms_joinAll connective nonempty, inner, List.flatMap_map]
      exact List.flatMap_congr ih
  | @notAtom text _ =>
      rw [formula, formula, Disjunction.atoms_negate]
      exact (leaves_atom text).symm
  | notParen _ ih =>
      rw [formula, Disjunction.atoms_negate, ih]
      rfl

/-- Only the atoms of an expression have a part in its truth value. -/
theorem Bracketed.holds_congr {truth truth' : List Char → Bool} {e : Expression}
    (h : e.Bracketed single) (same : ∀ text ∈ e.atoms, truth text = truth' text) :
    e.holds truth = e.holds truth' := by
  induction h with
  | atom text => exact same text (List.mem_singleton.mpr rfl)
  | paren _ ih => exact ih same
  | @list connective operands _ _ ih =>
      rw [holds, holds, holds_join, holds_join]
      congr 1
      refine List.map_congr_left fun e he => ih e he fun text htext => same text ?_
      rw [atoms, atoms_join]
      exact List.mem_flatMap.mpr ⟨e, he, htext⟩
  | notAtom _ => exact congrArg (!·) (same _ (List.mem_singleton.mpr rfl))
  | notParen _ ih => exact congrArg (!·) (ih same)

/-- Only the leaves of an expression have a part in the truth values of its text and of
itself. -/
theorem Bracketed.values_congr {truth truth' : List Char → Bool} {e : Expression}
    (h : e.Bracketed single) (same : ∀ text ∈ e.leaves meaning, truth text = truth' text) :
    (e.formula meaning).holds truth = (e.formula meaning).holds truth' ∧
      e.holds (fun text => (meaning text).holds truth) =
        e.holds fun text => (meaning text).holds truth' := by
  constructor
  · exact Disjunction.holds_congr _ (by rwa [atoms_formula h])
  · refine h.holds_congr fun text htext => Disjunction.holds_congr _ fun leaf hleaf => ?_
    exact same leaf (List.mem_flatMap.mpr ⟨text, htext, hleaf⟩)

/-- The demand that the text of an expression and the expression have one truth value. -/
def agreement (meaning : List Char → Disjunction) (single : List Char → Prop) (e : Expression)
    (value : Bool) : Demand where
  atoms := e.leaves meaning
  met truth := e.Bracketed single → (e.formula meaning).holds truth = value ∧
    e.holds (fun text => (meaning text).holds truth) = value
  congr same met h := by
    obtain ⟨read, own⟩ := h.values_congr same
    rw [← read, ← own]
    exact met h

/-- The demand that the text of an expression has another truth value than the expression. -/
def disagreement (meaning : List Char → Disjunction) (single : List Char → Prop)
    (e : Expression) : Demand where
  atoms := e.leaves meaning
  met truth := e.Bracketed single → (e.formula meaning).holds truth ≠
    e.holds fun text => (meaning text).holds truth
  congr same met h := by
    obtain ⟨read, own⟩ := h.values_congr same
    rw [← read, ← own]
    exact met h

theorem nodup_leaves_of_mem {operands : List Expression}
    (distinct : (operands.flatMap (leaves meaning)).Nodup) {e : Expression} (he : e ∈ operands) :
    (e.leaves meaning).Nodup :=
  (List.nodup_flatMap.mp distinct).1 e he

theorem mem_of_mem_sides {before after : List Expression} {e e' : Expression}
    (h : e ∈ before ++ after) : e ∈ before ++ e' :: after :=
  ((List.sublist_cons_self e' after).append_left before).subset h

variable (atom : ∀ text, single text → meaning text = .ofOperand (.atom text))

include atom

/-- With different atoms, a text and its expression can have either truth value at once. -/
theorem exists_agreement {e : Expression} (h : e.Bracketed single)
    (distinct : (e.leaves meaning).Nodup) (value : Bool) :
    ∃ truth, (agreement meaning single e value).met truth := by
  induction h generalizing value with
  | atom text =>
      obtain ⟨truth, hd⟩ := (meaning text).exists_holds (by rwa [leaves_atom] at distinct) value
      exact ⟨truth, fun _ => ⟨hd, hd⟩⟩
  | @paren inner bracketed ih =>
      obtain ⟨truth, met⟩ := ih distinct value
      exact ⟨truth, fun _ => met bracketed⟩
  | @list connective operands several bracketed ih =>
      have inner : (operands.flatMap (leaves meaning)).Nodup := by
        rwa [← leaves_join connective]
      have nonempty := ne_nil_of_several several
      have each : ∀ demand ∈ operands.map (agreement meaning single · value),
          ∃ truth, demand.met truth := by
        intro demand hd
        obtain ⟨e, he, rfl⟩ := List.mem_map.mp hd
        exact ih e he (nodup_leaves_of_mem inner he) value
      obtain ⟨truth, met⟩ := Demand.exists_met (by rw [List.flatMap_map]; exact inner) each
      have agreed : ∀ e ∈ operands, (e.formula meaning).holds truth = value ∧
          e.holds (fun text => (meaning text).holds truth) = value :=
        fun e he => met _ (List.mem_map_of_mem he) (bracketed e he)
      refine ⟨truth, fun _ => ⟨?_, ?_⟩⟩
      · rw [formula, formula, formulas_eq_map]
        apply Disjunction.holds_joinAll_of_eq connective (by simpa using nonempty)
        intro d hd
        obtain ⟨e, he, rfl⟩ := List.mem_map.mp hd
        exact (agreed e he).1
      · rw [holds, holds_join]
        apply connective.holds_of_eq (by simpa using nonempty)
        intro v hv
        obtain ⟨e, he, rfl⟩ := List.mem_map.mp hv
        exact (agreed e he).2
  | notAtom hs =>
      refine ⟨fun _ => !value, fun _ => ?_⟩
      rw [formula, formula, holds, holds, atom _ hs]
      exact ⟨Bool.not_not value, Bool.not_not value⟩
  | @notParen inner bracketed ih =>
      obtain ⟨truth, met⟩ := ih distinct (!value)
      obtain ⟨read, own⟩ := met bracketed
      refine ⟨truth, fun _ => ⟨?_, ?_⟩⟩
      · exact (congrArg (!·) read).trans (Bool.not_not value)
      · exact (congrArg (!·) own).trans (Bool.not_not value)

/-- Operands with different atoms can have given truth values on the two sides of one that
has a demand of its own. -/
theorem exists_around {before after : List Expression} (demand : Demand) (first last : Bool)
    (bracketed : ∀ e ∈ before ++ after, e.Bracketed single)
    (distinct : (before.flatMap (leaves meaning) ++
      (demand.atoms ++ after.flatMap (leaves meaning))).Nodup)
    (satisfiable : demand.atoms.Nodup → ∃ truth, demand.met truth) :
    ∃ truth, demand.met truth ∧
      (∀ e ∈ before, (e.formula meaning).holds truth = first ∧
        e.holds (fun text => (meaning text).holds truth) = first) ∧
      ∀ e ∈ after, (e.formula meaning).holds truth = last ∧
        e.holds (fun text => (meaning text).holds truth) = last := by
  obtain ⟨distinct_before, distinct_rest, -⟩ := List.nodup_append.mp distinct
  obtain ⟨distinct_demand, distinct_after, -⟩ := List.nodup_append.mp distinct_rest
  have each : ∀ d ∈ before.map (agreement meaning single · first) ++
      demand :: after.map (agreement meaning single · last), ∃ truth, d.met truth := by
    intro d hd
    rcases List.mem_append.mp hd with hd | hd
    · obtain ⟨e, he, rfl⟩ := List.mem_map.mp hd
      exact exists_agreement atom (bracketed e (List.mem_append_left _ he))
        (nodup_leaves_of_mem distinct_before he) first
    · rcases List.mem_cons.mp hd with rfl | hd
      · exact satisfiable distinct_demand
      · obtain ⟨e, he, rfl⟩ := List.mem_map.mp hd
        exact exists_agreement atom (bracketed e (List.mem_append_right _ he))
          (nodup_leaves_of_mem distinct_after he) last
  have disjoint : ((before.map (agreement meaning single · first) ++
      demand :: after.map (agreement meaning single · last)).flatMap Demand.atoms).Nodup := by
    rw [List.flatMap_append, List.flatMap_cons, List.flatMap_map, List.flatMap_map]
    exact distinct
  obtain ⟨truth, met⟩ := Demand.exists_met disjoint each
  refine ⟨truth, met _ (by simp), fun e he => ?_, fun e he => ?_⟩
  · exact met (agreement meaning single e first)
      (List.mem_append_left _ (List.mem_map_of_mem he)) (bracketed e (List.mem_append_left _ he))
  · exact met (agreement meaning single e last)
      (List.mem_append_right _ (List.mem_cons_of_mem _ (List.mem_map_of_mem he)))
      (bracketed e (List.mem_append_right _ he))

/-- An exposed atom that comes apart makes the text of a list true where the list is false. -/
theorem exists_ne_of_exposed {before after : List Expression} {text : List Char}
    (several : 2 ≤ (before ++ .atom text :: after).length)
    (bracketed : ∀ e ∈ before ++ .atom text :: after, e.Bracketed single)
    (distinct : ((before ++ .atom text :: after).flatMap (leaves meaning)).Nodup)
    (apart : (meaning text).isSingle = false) :
    ∃ truth, (Disjunction.joinAll .and
        ((before ++ .atom text :: after).map (formula meaning))).holds truth = true ∧
      Connective.holds .and ((before ++ .atom text :: after).map
        (holds fun text => (meaning text).holds truth)) = false := by
  have sides : ∀ e ∈ before ++ after, e.Bracketed single :=
    fun e he => bracketed e (mem_of_mem_sides he)
  have refuted : ∀ truth, (∃ e ∈ before ++ after,
      e.holds (fun text => (meaning text).holds truth) = false) →
      Connective.holds .and ((before ++ .atom text :: after).map
        (holds fun text => (meaning text).holds truth)) = false := by
    rintro truth ⟨e, he, hv⟩
    rw [Connective.holds, List.all_eq_false]
    exact ⟨_, List.mem_map_of_mem (mem_of_mem_sides he), by simp [hv]⟩
  rw [List.flatMap_append, List.flatMap_cons, leaves_atom] at distinct
  cases parts : meaning text with
  | single c =>
      rw [parts] at apart
      cases apart
  | or c rest =>
      rw [parts, Disjunction.atoms] at distinct
      rw [List.map_append, List.map_cons, formula, parts]
      by_cases none : after = []
      · -- All that is in front is false, and what is behind the first `OR` is true.
        obtain ⟨e, he⟩ : ∃ e, e ∈ before := by
          apply List.exists_mem_of_ne_nil before
          rintro rfl
          simp [none] at several
        have fewer : (before.flatMap (leaves meaning) ++ ((rest.demand true).atoms ++
            after.flatMap (leaves meaning))).Nodup :=
          distinct.sublist ((List.Sublist.refl _).append
            ((List.sublist_append_right c.atoms _).append_right _))
        obtain ⟨truth, met, fails, holds⟩ := exists_around atom (rest.demand true) false true sides
          fewer fun nodup => rest.exists_holds nodup true
        have others : ∀ d ∈ after.map (formula meaning), d.holds truth = true := by
          intro d hd
          obtain ⟨e, he, rfl⟩ := List.mem_map.mp hd
          exact (holds e he).1
        obtain ⟨c', rest', joined, hr⟩ := Disjunction.holds_joinAll_of_back others met
        refine ⟨truth, ?_, refuted truth ⟨e, List.mem_append_left _ he, (fails e he).2⟩⟩
        rw [joined, Disjunction.holds, hr, Bool.or_true]
      · -- All that is behind is false, and what is in front of the first `OR` is true.
        obtain ⟨e, he⟩ : ∃ e, e ∈ after := List.exists_mem_of_ne_nil after none
        have fewer : (before.flatMap (leaves meaning) ++ ((c.demand true).atoms ++
            after.flatMap (leaves meaning))).Nodup :=
          distinct.sublist ((List.Sublist.refl _).append
            ((List.sublist_append_left _ rest.atoms).append_right _))
        obtain ⟨truth, met, holds, fails⟩ := exists_around atom (c.demand true) true false sides
          fewer fun nodup => c.exists_holds nodup true
        have others : ∀ d ∈ before.map (formula meaning), d.holds truth = true := by
          intro d hd
          obtain ⟨e, he, rfl⟩ := List.mem_map.mp hd
          exact (holds e he).1
        refine ⟨truth, ?_, refuted truth ⟨e, List.mem_append_right _ he, (fails e he).2⟩⟩
        exact Disjunction.holds_joinAll_of_front others met

/-- One operand that comes apart makes the text of a list differ from the list, if no
exposed atom of the list itself comes apart. -/
theorem exists_ne_of_operand {connective : Connective} {before after : List Expression}
    {e : Expression}
    (bracketed : ∀ e' ∈ before ++ e :: after, e'.Bracketed single)
    (distinct : ((before ++ e :: after).flatMap (leaves meaning)).Nodup)
    (closed : connective = .and → ∀ d ∈ (before ++ e :: after).map (formula meaning),
      d.isSingle = true)
    (differs : ∃ truth, (e.formula meaning).holds truth ≠
      e.holds fun text => (meaning text).holds truth) :
    ∃ truth, (Disjunction.joinAll connective ((before ++ e :: after).map (formula meaning))).holds
        truth ≠
      connective.holds ((before ++ e :: after).map (holds fun text => (meaning text).holds truth)) := by
  have sides : ∀ e' ∈ before ++ after, e'.Bracketed single :=
    fun e' he => bracketed e' (mem_of_mem_sides he)
  have bracketed_e : e.Bracketed single := bracketed e (by simp)
  obtain ⟨truth₀, differs⟩ := differs
  rw [List.flatMap_append, List.flatMap_cons] at distinct
  obtain ⟨truth, met, front, back⟩ :=
    exists_around atom (disagreement meaning single e) connective.neutral connective.neutral
      sides distinct fun _ => ⟨truth₀, fun _ => differs⟩
  refine ⟨truth, ?_⟩
  rw [Disjunction.holds_joinAll truth connective (by simp) closed, List.map_map, List.map_append,
    List.map_append, List.map_cons, List.map_cons]
  rw [connective.holds_of_neutral, connective.holds_of_neutral]
  · exact met bracketed_e
  all_goals
    intro v hv
    obtain ⟨e', he', rfl⟩ := List.mem_map.mp hv
  · exact (front e' he').2
  · exact (back e' he').2
  · exact (front e' he').1
  · exact (back e' he').1

/-- With different atoms, one exposed atom that comes apart is enough for the text of an
expression to differ from the expression. -/
theorem exists_ne_of_not_separate {e : Expression} (h : e.Bracketed single)
    (distinct : (e.leaves meaning).Nodup) (hn : ¬e.Separate meaning) :
    ∃ truth, (e.formula meaning).holds truth ≠ e.holds fun text => (meaning text).holds truth := by
  induction h with
  | atom text => exact absurd (List.forall_mem_nil _) hn
  | paren _ ih => exact ih distinct hn
  | @list connective operands several bracketed ih =>
      have inner : (operands.flatMap (leaves meaning)).Nodup := by
        rwa [← leaves_join connective]
      have values : ∀ truth, ((Expression.paren (.join connective operands)).formula meaning).holds
            truth = (Disjunction.joinAll connective (operands.map (formula meaning))).holds truth ∧
          (Expression.paren (.join connective operands)).holds
            (fun text => (meaning text).holds truth) =
            connective.holds (operands.map (holds fun text => (meaning text).holds truth)) := by
        intro truth
        rw [formula, formula, formulas_eq_map, holds, holds_join]
        exact ⟨rfl, rfl⟩
      simp only [values]
      by_cases exposure : connective = .and ∧
          ∃ text, Expression.atom text ∈ operands ∧ (meaning text).isSingle = false
      · obtain ⟨rfl, text, mem, apart⟩ := exposure
        obtain ⟨before, after, rfl⟩ := List.append_of_mem mem
        obtain ⟨truth, read, own⟩ := exists_ne_of_exposed atom several bracketed inner apart
        refine ⟨truth, ?_⟩
        rw [read, own]
        decide
      · have closed : connective = .and → ∀ d ∈ operands.map (formula meaning), d.isSingle = true := by
          intro conjunction
          apply isSingle_of_mem_map bracketed atom
          intro text mem
          by_contra apart
          exact exposure ⟨conjunction, text, mem, Bool.eq_false_iff.mpr apart⟩
        obtain ⟨e, he, hne⟩ : ∃ e ∈ operands, ¬e.Separate meaning := by
          by_contra none
          apply hn
          intro text htext
          rcases mem_exposed_join.mp htext with ⟨conjunction, mem⟩ | ⟨e, he, htext⟩
          · by_contra apart
            exact exposure ⟨conjunction, text, mem, Bool.eq_false_iff.mpr apart⟩
          · by_contra apart
            exact none ⟨e, he, fun separate => apart (separate text htext)⟩
        obtain ⟨before, after, rfl⟩ := List.append_of_mem he
        exact exists_ne_of_operand atom bracketed inner closed
          (ih e he (nodup_leaves_of_mem inner he) hne)
  | notAtom _ => exact absurd (List.forall_mem_nil _) hn
  | notParen _ ih =>
      obtain ⟨truth, differs⟩ := ih distinct hn
      exact ⟨truth, fun same => differs (Bool.not_inj same)⟩

end Expression

end SearchIndex
