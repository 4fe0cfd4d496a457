import SearchIndex.Proofs.Decimal.Order
import SearchIndex.Proofs.Restriction.Equality
import SearchIndex.Proofs.Restriction.Same

/-!
# Restrictions that are the same compile alike

Restrictions are compared as they are built, and the weights in them as numbers. No weight is
below zero or no number at all, whatever a clause was given, so that comparison is an
equivalence. The two zeros are equal and kept apart, but they are written alike: a restriction
and its `canonical` have the same forms, and therefore restrictions that are the same have
(`compiled_of_same`). A group may leave out what is the same as one of its members.
-/

namespace SearchIndex

open Decimal (Datum Format)

namespace Weight

theorem canonical_canonical (w : Weight) : w.canonical.canonical = w.canonical := by
  have positive : w.rank ≠ 0x80000000 := by
    have := w.rank_le
    omega
  rw [canonical_inj, beq_iff]
  exact if_neg positive

theorem word_of_ofWord? {word : Nat} {w : Weight} (h : ofWord? word = some w) : w.word = word := by
  rw [ofWord?] at h
  split at h
  · rw [← Option.some.inj h]
  · cases h

/-- What is taken over as a weight: the number itself if it is at least zero, else nothing. -/
theorem ofWord?_spec {word : Nat} (h : word < 2 ^ 32) :
    (Datum.zero.AtMost (Format.single.decode word) ∧ ∃ w, ofWord? word = some w ∧ w.word = word) ∨
    (¬Datum.zero.AtMost (Format.single.decode word) ∧ ofWord? word = none) := by
  rw [← isSome_ofWord?_iff h]
  cases found : ofWord? word with
  | none => exact .inr ⟨nofun, rfl⟩
  | some w => exact .inl ⟨rfl, w, rfl, word_of_ofWord? found⟩

end Weight

namespace Clause

/-- Both zeros are written alike, so a clause has the text of its canonical one. -/
theorem body_canonical (c : Clause) : c.canonical.body = c.body := by
  have equal : (c.canonical == c) = true := by
    rw [beq_iff]
    cases fuzzy : c.fuzzy <;> cases boost : c.boost <;>
      simp [canonical, fuzzy, boost, Weight.canonical_canonical]
  exact (body_of_beq equal).1

/-- The weights that are kept in a clause. -/
def weights (c : Clause) : List Weight :=
  c.fuzzy.toList ++ c.boost.toList

end Clause

theorem Connective.holds_append_cons (connective : Connective) {before after : List Bool}
    {value : Bool} (found : value ∈ before ++ after) :
    connective.holds (before ++ value :: after) = connective.holds (before ++ after) := by
  -- A value that decides a list by itself does so wherever it stands.
  cases connective with
  | and =>
      cases value with
      | true => simp [holds]
      | false =>
          have fails : (before ++ after).all id = false :=
            List.all_eq_false.mpr ⟨false, found, Bool.false_ne_true⟩
          rw [holds, holds, fails]
          simp
  | or =>
      cases value with
      | true =>
          have succeeds : (before ++ after).any id = true :=
            List.any_eq_true.mpr ⟨true, found, rfl⟩
          rw [holds, holds, succeeds]
          simp
      | false => simp [holds]

namespace Restriction

theorem canonicalMembers_eq_map (rs : List Restriction) :
    canonicalMembers rs = rs.map canonical := by
  induction rs with
  | nil => rfl
  | cons r rs ih => rw [canonicalMembers, ih, List.map_cons]

/-- A restriction and its canonical one have the same forms. -/
theorem compiled_canonical (r : Restriction) : r.canonical.compiled = r.compiled := by
  induction r using memberInduction with
  | clause c =>
      simp only [canonical, compiled, Compiled.ofClause, Clause.isEmpty, c.body_canonical]
      rfl
  | raw query negated => rfl
  | group connective members negated ih =>
      have forms : (members.map canonical).map compiled = members.map compiled := by
        rw [List.map_map]
        exact List.map_congr_left ih
      rw [canonical, canonicalMembers_eq_map, compiled_group, compiled_group, forms]

theorem isEmpty_canonical (r : Restriction) : r.canonical.isEmpty = r.isEmpty := by
  induction r using memberInduction with
  | clause c => simp only [canonical, isEmpty_clause, Clause.isEmpty, c.body_canonical]
  | raw query negated => rfl
  | group connective members negated ih =>
      rw [canonical, canonicalMembers_eq_map, isEmpty_group, isEmpty_group, List.all_map,
        Bool.eq_iff_iff, List.all_eq_true, List.all_eq_true]
      exact forall₂_congr fun r hr => by rw [Function.comp_apply, ih r hr]

/-- Two restrictions compile alike: the texts that one may ask for are the same, and so is what
a group around them goes by. -/
structure CompileAlike (a b : Restriction) : Prop where
  compile : a.compile = b.compile
  compileWith : ∀ negated, a.compileWith negated = b.compileWith negated
  compileBare : a.compileBare = b.compileBare
  compilesNegated : a.compilesNegated = b.compilesNegated
  isEmpty : a.isEmpty = b.isEmpty

/-- Restrictions that are the same have the same forms. -/
theorem compiled_of_same {a b : Restriction} (h : a.same b = true) : a.compiled = b.compiled := by
  rw [← compiled_canonical a, same_iff.mp h, compiled_canonical]

theorem compileAlike_of_same {a b : Restriction} (h : a.same b = true) : a.CompileAlike b where
  compile := by rw [compile, compile, compiled_of_same h]
  compileWith negated := by rw [compileWith, compileWith, form, form, compiled_of_same h]
  compileBare := by rw [compileBare, compileBare, compiled_of_same h]
  compilesNegated := by rw [compilesNegated, compilesNegated, compiled_of_same h]
  isEmpty := by rw [← isEmpty_canonical a, same_iff.mp h, isEmpty_canonical]

/-- The same restriction once more, anywhere in a group, does not change what the group means. -/
theorem holdsWith_group_append_cons (truth : List Char → Bool) (connective : Connective)
    {before after : List Restriction} {r member : Restriction} (found : member ∈ before ++ after)
    (same : member.same r = true) (own negated : Bool) :
    (Restriction.group connective (before ++ r :: after) own).holdsWith truth negated =
      (Restriction.group connective (before ++ after) own).holdsWith truth negated := by
  have value : r.holds truth ∈ before.map (holds truth) ++ after.map (holds truth) := by
    rw [← List.map_append, ← holds_of_same truth same]
    exact List.mem_map_of_mem found
  rw [holdsWith_group, holdsWith_group, List.map_append, List.map_cons, List.map_append,
    connective.holds_append_cons value]

/-- A group with the same restriction twice still has a text, and the text says what the group
says without the second one. -/
theorem says_group_of_contains {g : Group} {r : Restriction} (found : g.contains r = true)
    (full : Full g.toRestriction) (full' : Full r) (negated : Bool) :
    let twice := Restriction.group g.connective (g.members ++ [r]) g.negated
    twice.Says (twice.form negated) fun truth => g.toRestriction.holdsWith truth negated := by
  intro twice
  obtain ⟨member, mem, same⟩ := List.any_eq_true.mp found
  have members : ∀ m ∈ g.members, m.isEmpty = false ∧ Full m := full_group_iff.mp full
  have filled : r.isEmpty = false := by
    rw [← (compileAlike_of_same same).isEmpty, (members member mem).1]
  have fullTwice : Full twice := by
    rw [full_group_iff]
    intro m hm
    rcases List.mem_append.mp hm with hm | hm
    · exact members m hm
    · rw [List.mem_singleton.mp hm]
      exact ⟨filled, full'⟩
  have nonempty : twice.isEmpty = false := by
    simp [twice, filled]
  apply (fullTwice.says_form nonempty negated).congr
  intro truth
  have found : member ∈ g.members ++ [] := by rwa [List.append_nil]
  have dropped := holdsWith_group_append_cons truth g.connective found same g.negated negated
  rwa [List.append_nil] at dropped

/-- A clause takes over a similarity or a boost if and only if that is a number which is at least
zero, and so every weight in a restriction is. Weights are equal if and only if they are the same
number. Being the same is therefore an equivalence of restrictions, and restrictions that are the
same compile alike. A group drops what is the same as one of its members; that does not change
what it means, wherever the dropped restriction would stand, nor what its text says. -/
theorem same_isCongruence :
    (∀ (c : Clause) (word : Nat), word < 2 ^ 32 →
      (Datum.zero.AtMost (Format.single.decode word) → ∃ w : Weight, w.word = word ∧
        c.setFuzzy word = { c with fuzzy := some w } ∧
        c.setBoost word = { c with boost := some w }) ∧
      (¬Datum.zero.AtMost (Format.single.decode word) →
        c.setFuzzy word = c ∧ c.setBoost word = c)) ∧
    (∀ r : Restriction, ∀ c ∈ r.clauses, ∀ w ∈ c.weights, Datum.zero.AtMost w.datum) ∧
    (∀ v w : Weight, (v == w) = true ↔ v.datum.Equals w.datum) ∧
    (Equivalence fun a b : Restriction => a.same b = true) ∧
    (∀ a b : Restriction, a.same b = true → a.CompileAlike b) ∧
    (∀ (connective : Connective) (before after : List Restriction) (r member : Restriction),
      member ∈ before ++ after → member.same r = true → ∀ truth own negated,
        (Restriction.group connective (before ++ r :: after) own).holdsWith truth negated =
          (Restriction.group connective (before ++ after) own).holdsWith truth negated) ∧
    ∀ (g : Group) (r : Restriction), Built g.toRestriction → Built r → g.contains r = true →
      g.add r = ⟨g, false⟩ ∧ ∀ negated,
        let twice := Restriction.group g.connective (g.members ++ [r]) g.negated
        twice.Says (twice.form negated) (fun truth => g.toRestriction.holdsWith truth negated) ∧
        g.toRestriction.Says (g.toRestriction.form negated)
          fun truth => g.toRestriction.holdsWith truth negated := by
  refine ⟨?_, fun r c _ w _ => w.zero_atMost_datum, fun v w => Weight.beq_iff_equals,
    ⟨same_refl, fun h => by rwa [same_comm], same_trans⟩, fun a b => compileAlike_of_same, ?_, ?_⟩
  · intro c word h
    rcases Weight.ofWord?_spec h with ⟨number, w, found, kept⟩ | ⟨other, missing⟩
    · refine ⟨fun _ => ⟨w, kept, ?_, ?_⟩, fun other => absurd number other⟩
      · rw [Clause.setFuzzy, found]
      · rw [Clause.setBoost, found]
    · refine ⟨fun number => absurd number other, fun _ => ⟨?_, ?_⟩⟩
      · rw [Clause.setFuzzy, missing]
      · rw [Clause.setBoost, missing]
  · intro connective before after r member found same truth own negated
    exact holdsWith_group_append_cons truth connective found same own negated
  · intro g r built built' found
    obtain ⟨member, mem, -⟩ := List.any_eq_true.mp found
    have dropped : g.add r = ⟨g, false⟩ := by
      apply Group.add_of_not_accepts
      rw [Group.accepts, found]
      exact Bool.and_false _
    have nonempty : g.toRestriction.isEmpty = false := by
      rw [Group.toRestriction, isEmpty_group, List.all_eq_false]
      exact ⟨member, mem, by simp [(full_group_iff.mp built.full member mem).1]⟩
    exact ⟨dropped, fun negated => ⟨says_group_of_contains found built.full built'.full negated,
      built.full.says_form nonempty negated⟩⟩

theorem same_isCongruence_zeros :
    let plain : Clause := { field := "f", query := "b" }
    let plus := Restriction.clause ((plain.setFuzzy 0).setBoost 0x80000000)
    let minus := Restriction.clause ((plain.setFuzzy 0x80000000).setBoost 0)
    let g : Group := Group.ofMembers .and [plus] false
    plain.setFuzzy 0x7fc00000 = plain ∧ plain.setBoost 0xbf800000 = plain ∧
      plus.same minus = true ∧ plus.CompileAlike minus ∧ minus.compile = "f:((b* OR b~0.0))" ∧
      g.members.length = 1 ∧ g.contains minus = true ∧ g.add minus = ⟨g, false⟩ ∧
      ∀ truth, (Restriction.group .and [plus, minus] false).holdsWith truth true =
        (Restriction.group .and [plus] false).holdsWith truth true := by
  intro plain plus minus g
  obtain ⟨taken, -, -, -, alike, kept, added⟩ := same_isCongruence
  have noNumber : ¬Datum.zero.AtMost (Format.single.decode 0x7fc00000) :=
    Weight.not_zero_atMost_decode (by decide) (by decide) (by decide)
  have below : ¬Datum.zero.AtMost (Format.single.decode 0xbf800000) :=
    Weight.not_zero_atMost_decode (by decide) (by decide) (by decide)
  have same : plus.same minus = true := by decide
  have built : Built g.toRestriction :=
    Group.built_addAll (List.forall_mem_singleton.mpr (.clause _)) (.setNegated false (.empty .and))
  have member : g.contains minus = true := by decide +kernel
  refine ⟨((taken plain 0x7fc00000 (by decide)).2 noNumber).1,
    ((taken plain 0xbf800000 (by decide)).2 below).2, same, alike plus minus same,
    by decide +kernel, by decide +kernel, member, (added g minus built (.clause _) member).1, ?_⟩
  intro truth
  exact kept .and [plus] [] minus plus List.mem_cons_self same truth false true

end Restriction

end SearchIndex
