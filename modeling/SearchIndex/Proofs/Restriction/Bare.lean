import SearchIndex.Proofs.Restriction.Group
import SearchIndex.Proofs.Restriction.Meaning

/-!
# What a text is the negation of

A group that is turned round asks each member whether its text is a negation, and then for
what it is the negation of. Both answers are made apart from the text itself, by other
cases. They agree with it: a text that counts as a negation is `NOT` in front of the bare
text, and any other text is the bare text. Parentheses stand between `NOT` and the bare text
if the negation belongs to a raw text or to a negated group of one member (`Enclosed`),
because there the bare text has none of its own. An empty restriction has neither text.
-/

namespace SearchIndex

namespace Restriction

/-- The negation of the restriction is written in front of parentheses that the bare text
lacks. A group of one member that is not negated itself is written as its member. -/
inductive Enclosed : Restriction → Prop where
  | raw (query : String) (negated : Bool) : Enclosed (.raw query negated)
  | single (connective : Connective) (only : Restriction) :
      Enclosed (.group connective [only] true)
  | inside (connective : Connective) {only : Restriction} :
      Enclosed only → Enclosed (.group connective [only] false)

theorem enclosed_inside_iff {connective : Connective} {only : Restriction} :
    Enclosed (.group connective [only] false) ↔ Enclosed only := by
  constructor
  · rintro (_ | _ | ⟨_, h⟩)
    exact h
  · exact .inside connective

/-- How the own form of a restriction is made of its bare form. -/
structure OwnOfBare (r : Restriction) (own bare : Expression) : Prop where
  plain : r.compilesNegated = false → own = bare
  enclosed : r.compilesNegated = true → r.Enclosed → own = .not (.paren bare)
  direct : r.compilesNegated = true → ¬r.Enclosed → own = .not bare

namespace OwnOfBare

variable {r : Restriction} {own bare : Expression}

theorem ofPlain (plain : r.compilesNegated = false) (same : own = bare) : r.OwnOfBare own bare where
  plain _ := same
  enclosed counts := absurd (plain.symm.trans counts) Bool.false_ne_true
  direct counts := absurd (plain.symm.trans counts) Bool.false_ne_true

theorem ofEnclosed (counts : r.compilesNegated = true) (enclosed : r.Enclosed)
    (form : own = .not (.paren bare)) : r.OwnOfBare own bare where
  plain plain := absurd (plain.symm.trans counts) Bool.false_ne_true
  enclosed _ _ := form
  direct _ direct := absurd enclosed direct

theorem ofDirect (counts : r.compilesNegated = true) (direct : ¬r.Enclosed)
    (form : own = .not bare) : r.OwnOfBare own bare where
  plain plain := absurd (plain.symm.trans counts) Bool.false_ne_true
  enclosed _ enclosed := absurd enclosed direct
  direct _ _ := form

end OwnOfBare

/-- Both forms are there and fit together. -/
def Fits (r : Restriction) : Prop :=
  ∃ own bare, r.compiled.own = some own ∧ r.compiled.bare = some bare ∧ r.OwnOfBare own bare

theorem fits_clause {c : Clause} (nonempty : c.isEmpty = false) : Fits (.clause c) := by
  have direct : ¬(Restriction.clause c).Enclosed := by
    rintro ⟨⟩
  cases negated : c.negated with
  | false =>
      refine ⟨.atom c.body, .atom c.body, ?_, ?_, .ofPlain negated rfl⟩ <;>
        simp [compiled, Compiled.ofClause, nonempty, negated]
  | true =>
      refine ⟨.not (.atom c.body), .atom c.body, ?_, ?_, .ofDirect negated direct rfl⟩ <;>
        simp [compiled, Compiled.ofClause, nonempty, negated]

theorem fits_raw {query : String} (negated : Bool) (nonempty : Text.isBlankText query = false) :
    Fits (.raw query negated) := by
  have filled := (Text.isEmpty_trim query).trans nonempty
  have enclosed : (Restriction.raw query negated).Enclosed := .raw query negated
  have bare : (Restriction.raw query negated).compiled.bare =
      some (.atom (Text.trim query.toList)) := by
    simp [compiled, Compiled.ofRaw, filled]
  cases negated with
  | false =>
      have plain : (Restriction.raw query false).compilesNegated = false := rfl
      exact ⟨_, _, bare, bare, .ofPlain plain rfl⟩
  | true =>
      have counts : (Restriction.raw query true).compilesNegated = true := rfl
      refine ⟨.not (.paren (.atom (Text.trim query.toList))), _, ?_, bare,
        .ofEnclosed counts enclosed rfl⟩
      simp [compiled, Compiled.ofRaw, filled]

/-- A group of one member is written as its member, in parentheses if it is negated. -/
theorem fits_single {only : Restriction} (h : Fits only) (connective : Connective)
    (negated : Bool) : Fits (.group connective [only] negated) := by
  obtain ⟨own, bare, hown, hbare, fits⟩ := h
  have form := groupForm_singleton hown connective
  cases negated with
  | false =>
      have formed := compiled_group connective [only] false
      have counts : (Restriction.group connective [only] false).compilesNegated =
          only.compilesNegated := by
        rw [compilesNegated, formed]
        exact Bool.false_or _
      refine ⟨own, bare, by rw [formed]; exact form false, by rw [formed]; exact hbare, ?_, ?_, ?_⟩
      · rw [counts]
        exact fits.plain
      · rw [counts, enclosed_inside_iff]
        exact fits.enclosed
      · rw [counts, enclosed_inside_iff]
        exact fits.direct
  | true =>
      have formed := compiled_group connective [only] true
      have counts : (Restriction.group connective [only] true).compilesNegated = true := by
        rw [compilesNegated, formed]
        rfl
      exact ⟨.not (.paren own), own, by rw [formed]; exact form true,
        by rw [formed]; exact form false, .ofEnclosed counts (.single connective only) rfl⟩

/-- Several operands are joined in parentheses, whether they are negated then or not. -/
theorem exists_close {operands : List Expression} (several : 2 ≤ operands.length)
    (connective : Connective) :
    ∃ e, ∀ negated, Compiled.close connective operands negated =
      some (if negated then .not e else e) := by
  match operands with
  | first :: second :: rest =>
      exact ⟨.paren (.join connective (first :: second :: rest)), fun negated => by
        cases negated <;> rfl⟩

/-- A group of several members has one text in parentheses, and `NOT` in front of it if it is
a negation: that depends on its flag and on whether it is turned round. -/
theorem fits_several {first second : Restriction} {rest : List Restriction}
    (sound : ∀ r ∈ first :: second :: rest, r.Sound) (connective : Connective) (negated : Bool) :
    Fits (.group connective (first :: second :: rest) negated) := by
  have direct : ¬(Restriction.group connective (first :: second :: rest) negated).Enclosed := by
    rintro ⟨⟩
  have formed := compiled_group connective (first :: second :: rest) negated
  have several : 2 ≤ (Compiled.operands ((first :: second :: rest).map compiled)).length := by
    rw [(stand_operands sound).length, List.length_cons, List.length_cons]
    omega
  obtain ⟨e, form⟩ := exists_close several
    (if Compiled.turnsRound ((first :: second :: rest).map compiled) then connective.flip
      else connective)
  have counts : (Restriction.group connective (first :: second :: rest) negated).compilesNegated =
      (negated != Compiled.turnsRound ((first :: second :: rest).map compiled)) := by
    rw [compilesNegated, formed]
    rfl
  refine ⟨if negated != _ then .not e else e, e, by rw [formed]; exact form _, ?_, ?_⟩
  · rw [formed]
    exact (form _).trans (by rw [bne_self_eq_false]; rfl)
  · rw [← counts]
    cases counted : (Restriction.group connective (first :: second :: rest) negated).compilesNegated
    case false => exact .ofPlain counted rfl
    case true => exact .ofDirect counted direct rfl

/-- The forms of a restriction that can be built fit together. -/
theorem Full.fits {r : Restriction} (full : Full r) (nonempty : r.isEmpty = false) : Fits r := by
  induction full with
  | clause c => exact fits_clause nonempty
  | raw query negated => exact fits_raw negated nonempty
  | @group connective members negated members_nonempty members_full ih =>
      match members with
      | [] => simp at nonempty
      | [only] =>
          have fits := ih only List.mem_cons_self (members_nonempty only List.mem_cons_self)
          exact fits_single fits connective negated
      | first :: second :: rest =>
          exact fits_several (fun r hr => (members_full r hr).sound (members_nonempty r hr))
            connective negated

/-- The text of a restriction that can be built is what it is said to be: the negation of the
bare text if it counts as a negation, and else the bare text. -/
theorem compile_eq_compileBare :
    (∀ r : Restriction, Built r → r.isEmpty = false →
      (r.compilesNegated = false → r.compile = r.compileBare) ∧
      (r.compilesNegated = true → r.Enclosed → r.compile = "NOT (" ++ r.compileBare ++ ")") ∧
      (r.compilesNegated = true → ¬r.Enclosed → r.compile = "NOT " ++ r.compileBare)) ∧
    ∀ r : Restriction, r.isEmpty = true → r.compile = "" ∧ r.compileBare = "" := by
  constructor
  · intro r built nonempty
    obtain ⟨own, bare, hown, hbare, fits⟩ := built.full.fits nonempty
    rw [compile, compileBare, hown, hbare, Compiled.text, Compiled.text]
    refine ⟨fun plain => by rw [fits.plain plain], fun counted enclosed => ?_,
      fun counted direct => ?_⟩
    · rw [fits.enclosed counted enclosed, ← String.toList_inj]
      simp [Expression.render]
    · rw [fits.direct counted direct, ← String.toList_inj]
      simp [Expression.render]
  · intro r empty
    have present := present_compiled r
    rw [empty] at present
    have own := Option.isSome_eq_false_iff.mp present.own
    have bare := Option.isSome_eq_false_iff.mp present.bare
    rw [Option.isNone_iff_eq_none] at own bare
    rw [compile, compileBare, own, bare]
    exact ⟨rfl, rfl⟩

/-- Two negations, which turn their group round. -/
def negatedPair : Group :=
  .ofMembers .and [.raw "b" true, .clause { Clause.verbatim "a" "1" with negated := true }] false

/-- The negation of that group, inside a further group. -/
def negatedPairNegated : Group :=
  .ofMembers .or [(Group.ofMembers .or [negatedPair.toRestriction] true).toRestriction] false

theorem built_negatedPair : Built negatedPair.toRestriction := by
  refine Group.built_addAll ?_ (.empty .and)
  exact List.forall_mem_cons.mpr ⟨.raw "b" true, List.forall_mem_singleton.mpr (.clause _)⟩

theorem built_negatedPairNegated : Built negatedPairNegated.toRestriction := by
  refine Group.built_addAll (List.forall_mem_singleton.mpr ?_) (.empty .or)
  exact Group.built_addAll (List.forall_mem_singleton.mpr built_negatedPair)
    (.setNegated true (.empty .or))

theorem compile_eq_compileBare_negatedPair :
    (Built negatedPair.toRestriction ∧ negatedPair.toRestriction.isEmpty = false ∧
      negatedPair.toRestriction.compilesNegated = true ∧ ¬negatedPair.toRestriction.Enclosed ∧
      negatedPair.toRestriction.compileBare = "(b OR a:(1))" ∧
      negatedPair.toRestriction.compile = "NOT " ++ negatedPair.toRestriction.compileBare) ∧
    Built negatedPairNegated.toRestriction ∧ negatedPairNegated.toRestriction.isEmpty = false ∧
      negatedPairNegated.toRestriction.compilesNegated = true ∧
      negatedPairNegated.toRestriction.Enclosed ∧
      negatedPairNegated.toRestriction.compileBare = "NOT (b OR a:(1))" ∧
      negatedPairNegated.toRestriction.compile =
        "NOT (" ++ negatedPairNegated.toRestriction.compileBare ++ ")" := by
  have pairDirect : ¬negatedPair.toRestriction.Enclosed := by
    rintro ⟨⟩
  have enclosed : negatedPairNegated.toRestriction.Enclosed :=
    .inside .or (.single .or negatedPair.toRestriction)
  obtain ⟨texts, -⟩ := compile_eq_compileBare
  have pair := texts _ built_negatedPair (by decide)
  have pairNegated := texts _ built_negatedPairNegated (by decide)
  exact ⟨⟨built_negatedPair, by decide, by decide, pairDirect, by decide,
      pair.2.2 (by decide) pairDirect⟩,
    built_negatedPairNegated, by decide, by decide, enclosed, by decide,
    pairNegated.2.1 (by decide) enclosed⟩

end Restriction

end SearchIndex
