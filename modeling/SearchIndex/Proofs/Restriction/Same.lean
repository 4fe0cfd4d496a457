import SearchIndex.Proofs.Restriction.Group
import SearchIndex.Proofs.Restriction.Meaning

/-!
# Restrictions that are the same

A group leaves out a restriction that is the same as one of its members. Nothing is
lost by that: equal clauses have the same text, although their weights need not have
the same encoding, so restrictions that are the same have the same truth value.
-/

namespace SearchIndex

namespace Weight

/-- The two zeros are written alike. -/
theorem text_of_beq {a b : Weight} (h : (a == b) = true) : a.text = b.text := by
  have zeros : ∀ w : Weight, w.rank = 0 →
      w.text = (Decimal.Datum.finite false 0 Decimal.Format.single.leastExponent).text := by
    rintro ⟨word, valid⟩ hw
    rw [rank] at hw
    split at hw
    · next negative =>
      obtain rfl : word = 0x80000000 := negative
      have decoded : Decimal.Format.single.decode 0x80000000 =
          .finite true 0 Decimal.Format.single.leastExponent := by decide
      rw [text, decoded]
      rfl
    · obtain rfl : word = 0 := hw
      have decoded : Decimal.Format.single.decode 0 =
          .finite false 0 Decimal.Format.single.leastExponent := by decide
      rw [text, decoded]
  have ranks : a.rank = b.rank := beq_iff.mp h
  by_cases zero : a.rank = 0
  · rw [zeros a zero, zeros b (ranks ▸ zero)]
  · have words : ∀ w : Weight, w.rank ≠ 0 → w.rank = w.word := by
      intro w hw
      rw [rank] at hw ⊢
      split at hw
      · exact absurd rfl hw
      · next positive => rw [if_neg positive]
    have same : a.word = b.word := by rw [← words a zero, ← words b (ranks ▸ zero), ranks]
    rw [text, text, same]

end Weight

namespace Clause

/-- What the fuzziness of a clause adds to its text. -/
theorem fuzzyText_of_beq {a b : Weight} (h : (a == b) = true) : fuzzyText a = fuzzyText b := by
  have unit : a.isUnit = b.isUnit := by rw [Weight.isUnit, Weight.isUnit, Weight.beq_iff.mp h]
  funext terms
  rw [fuzzyText, fuzzyText, unit, Weight.text_of_beq h]

/-- Equal clauses have the same text. -/
theorem body_of_beq {a b : Clause} (h : (a == b) = true) :
    a.body = b.body ∧ a.negated = b.negated := by
  have parts : ((((((a.field == b.field && a.query == b.query) && a.tokenized == b.tokenized)
      && a.fuzzy == b.fuzzy) && a.proximity == b.proximity) && a.boost == b.boost)
      && a.negated == b.negated) = true := h
  obtain ⟨field, query, tokenized, fuzzy, proximity, boost, negated⟩ := a
  obtain ⟨field', query', tokenized', fuzzy', proximity', boost', negated'⟩ := b
  simp only [Bool.and_eq_true, beq_iff_eq] at parts
  obtain ⟨⟨⟨⟨⟨⟨rfl, rfl⟩, rfl⟩, hfuzzy⟩, rfl⟩, hboost⟩, rfl⟩ := parts
  refine ⟨?_, rfl⟩
  have value : value ⟨field, query, tokenized, fuzzy, proximity, boost, negated⟩ =
      value ⟨field, query, tokenized, fuzzy', proximity, boost', negated⟩ := by
    cases fuzzy with
    | none =>
        cases fuzzy' with
        | none => rfl
        | some b => cases hfuzzy
    | some a =>
        cases fuzzy' with
        | none => cases hfuzzy
        | some b =>
            have same : (a == b) = true := hfuzzy
            cases proximity <;> simp only [value, fuzzyText_of_beq same]
  have boostText : boostText ⟨field, query, tokenized, fuzzy, proximity, boost, negated⟩ =
      boostText ⟨field, query, tokenized, fuzzy', proximity, boost', negated⟩ := by
    cases boost with
    | none =>
        cases boost' with
        | none => rfl
        | some b => cases hboost
    | some a =>
        cases boost' with
        | none => cases hboost
        | some b =>
            have same : (a == b) = true := hboost
            have positive : a.isPositive = b.isPositive := by
              rw [Weight.isPositive, Weight.isPositive, Weight.beq_iff.mp same]
            simp only [boostText, positive, Weight.text_of_beq same]
  rw [body, body, value, boostText]

end Clause

namespace Restriction

/-- Restrictions that are the same have the same truth value. -/
theorem holds_of_same (truth : List Char → Bool) {a b : Restriction} (h : a.same b = true) :
    a.holds truth = b.holds truth := by
  induction a using memberInduction generalizing b with
  | clause c =>
      cases b with
      | clause c' =>
          obtain ⟨body, negated⟩ := Clause.body_of_beq (show (c == c') = true by simpa [same] using h)
          rw [holds, holds, holdsWith, holdsWith, holdsUnsigned, holdsUnsigned, isNegated, isNegated,
            body, negated]
      | raw _ _ | group _ _ _ => cases h
  | raw query negated =>
      cases b with
      | raw query' negated' =>
          simp only [same, Bool.and_eq_true, beq_iff_eq] at h
          rw [h.1, h.2]
      | clause _ | group _ _ _ => cases h
  | group connective members negated ih =>
      cases b with
      | group connective' members' negated' =>
          simp only [same, Bool.and_eq_true, beq_iff_eq] at h
          obtain ⟨⟨rfl, alike⟩, rfl⟩ := h
          have values : members.map (holds truth) = members'.map (holds truth) := by
            clear negated
            induction members generalizing members' with
            | nil =>
                cases members' with
                | nil => rfl
                | cons _ _ => cases alike
            | cons r rs ihs =>
                cases members' with
                | nil => cases alike
                | cons r' rs' =>
                    simp only [sameMembers, Bool.and_eq_true] at alike
                    rw [List.map_cons, List.map_cons, ih r List.mem_cons_self alike.1,
                      ihs (fun m hm => ih m (List.mem_cons_of_mem r hm)) rs' alike.2]
          rw [holds_group, holds_group, values]
      | clause _ | raw _ _ => cases h

/-- Restrictions that are the same as an earlier one do not matter to a conjunction. -/
theorem all_holds_distinct (truth : List Char → Bool) (earlier rs : List Restriction) :
    (earlier ++ distinct earlier rs).all (holds truth) = (earlier ++ rs).all (holds truth) := by
  induction rs generalizing earlier with
  | nil => rfl
  | cons r rs ih =>
      rw [distinct]
      split
      · next found =>
        obtain ⟨e, he, same⟩ := List.any_eq_true.mp found
        have value : e.holds truth = r.holds truth := holds_of_same truth same
        rw [ih, Bool.eq_iff_iff, List.all_eq_true, List.all_eq_true]
        constructor
        · intro all m hm
          rcases List.mem_append.mp hm with hm | hm
          · exact all m (List.mem_append_left _ hm)
          · rcases List.mem_cons.mp hm with rfl | hm
            · rw [← value]
              exact all e (List.mem_append_left _ he)
            · exact all m (List.mem_append_right _ hm)
        · intro all m hm
          rcases List.mem_append.mp hm with hm | hm
          · exact all m (List.mem_append_left _ hm)
          · exact all m (List.mem_append_right _ (List.mem_cons_of_mem r hm))
      · have step := ih (earlier ++ [r])
        rw [List.append_assoc, List.append_assoc] at step
        exact step

end Restriction

end SearchIndex
