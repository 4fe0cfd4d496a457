import SearchIndex.Proofs.Expression.Grammar

/-!
# Joining what is read

Joining two texts by a connective is not joining their trees. `append` is what comes of
`OR` between two disjunctions, and `conjoin` what comes of `AND`: it takes the last
conjunction of the first and the first one of the second. So the conjunction of two
disjunctions is what they are joined to only if neither of them has an `OR` outside of
parentheses (`holds_joinAll`). One that has comes apart: then one part of it may be
enough for the whole.
-/

namespace SearchIndex

namespace Conjunction

/-- Two conjunctions, one behind the other. -/
def append : Conjunction → Conjunction → Conjunction
  | .single operand, d => .and operand d
  | .and operand rest, d => .and operand (rest.append d)

/-- The conjunction whose first operand is negated. -/
def negate : Conjunction → Conjunction
  | .single operand => .single (.not operand)
  | .and operand rest => .and (.not operand) rest

theorem symbols_append (c d : Conjunction) :
    (c.append d).symbols = c.symbols ++ .and :: d.symbols := by
  match c with
  | .single _ => rfl
  | .and _ rest => simp [append, symbols, symbols_append rest d]

theorem symbols_negate (c : Conjunction) : c.negate.symbols = .not :: c.symbols := by
  cases c <;> rfl

theorem atoms_append (c d : Conjunction) : (c.append d).atoms = c.atoms ++ d.atoms := by
  match c with
  | .single _ => rfl
  | .and _ rest => simp [append, atoms, atoms_append rest d]

theorem atoms_negate (c : Conjunction) : c.negate.atoms = c.atoms := by
  cases c <;> rfl

@[simp] theorem holds_append (truth : List Char → Bool) (c d : Conjunction) :
    (c.append d).holds truth = (c.holds truth && d.holds truth) := by
  match c with
  | .single _ => rfl
  | .and _ rest => simp [append, holds, holds_append truth rest d, Bool.and_assoc]

end Conjunction

namespace Disjunction

/-- The disjunction of one operand. -/
def ofOperand (operand : Operand) : Disjunction :=
  .single (.single operand)

/-- Whether there is no `OR` in the disjunction outside of parentheses. -/
def isSingle : Disjunction → Bool
  | .single _ => true
  | .or _ _ => false

/-- The disjunction whose first operand is negated. -/
def negate : Disjunction → Disjunction
  | .single conjunction => .single conjunction.negate
  | .or conjunction rest => .or conjunction.negate rest

/-- Two disjunctions, one behind the other. -/
def append : Disjunction → Disjunction → Disjunction
  | .single conjunction, e => .or conjunction e
  | .or conjunction rest, e => .or conjunction (rest.append e)

/-- Two disjunctions with `AND` between them, which binds more tightly than the `OR` in
them. -/
def conjoin : Disjunction → Disjunction → Disjunction
  | .single c, .single c' => .single (c.append c')
  | .single c, .or c' rest => .or (c.append c') rest
  | .or c rest, e => .or c (rest.conjoin e)

/-- Two disjunctions with a connective between them. -/
def join : Connective → Disjunction → Disjunction → Disjunction
  | .and => conjoin
  | .or => append

/-- Some disjunctions with a connective between them. Nothing at all is an atom without
any text. -/
def joinAll (connective : Connective) : List Disjunction → Disjunction
  | [] => .ofOperand (.atom [])
  | [d] => d
  | d :: e :: rest => d.join connective (joinAll connective (e :: rest))

theorem joinAll_cons (connective : Connective) (d : Disjunction) {ds : List Disjunction}
    (nonempty : ds ≠ []) :
    joinAll connective (d :: ds) = d.join connective (joinAll connective ds) := by
  cases ds with
  | nil => exact absurd rfl nonempty
  | cons e rest => rfl

theorem symbols_negate (d : Disjunction) : d.negate.symbols = .not :: d.symbols := by
  cases d <;> simp [negate, symbols, Conjunction.symbols_negate]

theorem symbols_append (d e : Disjunction) :
    (d.append e).symbols = d.symbols ++ .or :: e.symbols := by
  match d with
  | .single _ => rfl
  | .or _ rest => simp [append, symbols, symbols_append rest e]

theorem symbols_conjoin (d e : Disjunction) :
    (d.conjoin e).symbols = d.symbols ++ .and :: e.symbols := by
  match d, e with
  | .single c, .single c' => simp [conjoin, symbols, Conjunction.symbols_append]
  | .single c, .or c' _ => simp [conjoin, symbols, Conjunction.symbols_append]
  | .or _ rest, e => simp [conjoin, symbols, symbols_conjoin rest e]

theorem symbols_join (connective : Connective) (d e : Disjunction) :
    (d.join connective e).symbols = d.symbols ++ connective.symbol :: e.symbols := by
  cases connective with
  | and => exact symbols_conjoin d e
  | or => exact symbols_append d e

@[simp] theorem atoms_ofOperand (o : Operand) : (ofOperand o).atoms = o.atoms := rfl

theorem atoms_negate (d : Disjunction) : d.negate.atoms = d.atoms := by
  cases d <;> simp [negate, atoms, Conjunction.atoms_negate]

theorem atoms_append (d e : Disjunction) : (d.append e).atoms = d.atoms ++ e.atoms := by
  match d with
  | .single _ => rfl
  | .or _ rest => simp [append, atoms, atoms_append rest e]

theorem atoms_conjoin (d e : Disjunction) : (d.conjoin e).atoms = d.atoms ++ e.atoms := by
  match d, e with
  | .single c, .single c' => simp [conjoin, atoms, Conjunction.atoms_append]
  | .single c, .or c' _ => simp [conjoin, atoms, Conjunction.atoms_append]
  | .or _ rest, e => simp [conjoin, atoms, atoms_conjoin rest e]

theorem atoms_joinAll (connective : Connective) {ds : List Disjunction} (nonempty : ds ≠ []) :
    (joinAll connective ds).atoms = ds.flatMap atoms := by
  induction ds with
  | nil => exact absurd rfl nonempty
  | cons d ds ih =>
      by_cases last : ds = []
      · simp [last, joinAll]
      · rw [joinAll_cons connective d last, List.flatMap_cons, ← ih last]
        cases connective with
        | and => exact atoms_conjoin d _
        | or => exact atoms_append d _

@[simp] theorem holds_ofOperand (truth : List Char → Bool) (o : Operand) :
    (ofOperand o).holds truth = o.holds truth := rfl

@[simp] theorem holds_append (truth : List Char → Bool) (d e : Disjunction) :
    (d.append e).holds truth = (d.holds truth || e.holds truth) := by
  match d with
  | .single _ => rfl
  | .or _ rest => simp [append, holds, holds_append truth rest e, Bool.or_assoc]

/-- Without an `OR` in either, `AND` between two disjunctions is their conjunction. -/
theorem holds_conjoin (truth : List Char → Bool) {d e : Disjunction} (hd : d.isSingle = true)
    (he : e.isSingle = true) :
    (d.conjoin e).holds truth = (d.holds truth && e.holds truth) := by
  match d, e with
  | .single c, .single c' => exact Conjunction.holds_append truth c c'

theorem isSingle_conjoin {d e : Disjunction} (hd : d.isSingle = true) (he : e.isSingle = true) :
    (d.conjoin e).isSingle = true := by
  match d, e with
  | .single _, .single _ => rfl

/-- Disjunctions that are joined have the value of the connective, unless an `OR` in one
of them gets into a list that is joined by `AND`. -/
theorem holds_joinAll (truth : List Char → Bool) (connective : Connective) {ds : List Disjunction}
    (nonempty : ds ≠ []) (single : connective = .and → ∀ d ∈ ds, d.isSingle = true) :
    (joinAll connective ds).holds truth = connective.holds (ds.map (holds truth)) := by
  cases connective with
  | or =>
      induction ds with
      | nil => exact absurd rfl nonempty
      | cons d ds ih =>
          cases ds with
          | nil => simp [joinAll, Connective.holds]
          | cons e rest =>
              rw [joinAll, join, holds_append, ih (by simp) (by simp)]
              simp [Connective.holds]
  | and =>
      have strong : (joinAll .and ds).isSingle = true ∧
          (joinAll .and ds).holds truth = Connective.holds .and (ds.map (holds truth)) := by
        induction ds with
        | nil => exact absurd rfl nonempty
        | cons d ds ih =>
            obtain ⟨here, there⟩ := List.forall_mem_cons.mp (single rfl)
            cases ds with
            | nil => exact ⟨here, by simp [joinAll, Connective.holds]⟩
            | cons e rest =>
                obtain ⟨single_rest, value⟩ := ih (by simp) fun _ => there
                rw [joinAll, join, holds_conjoin truth here single_rest, value]
                exact ⟨isSingle_conjoin here single_rest, by simp [Connective.holds]⟩
      exact strong.2

variable {truth : List Char → Bool} {value : Bool}

/-- Two disjunctions with the same truth value also have it with `AND` between them. -/
theorem holds_conjoin_of_eq {d e : Disjunction} (hd : d.holds truth = value)
    (he : e.holds truth = value) : (d.conjoin e).holds truth = value := by
  match d, e with
  | .single c, .single c' =>
      have hc : c.holds truth = value := hd
      have hc' : c'.holds truth = value := he
      rw [conjoin, holds, Conjunction.holds_append, hc, hc', Bool.and_self]
  | .single c, .or c' rest =>
      have hc : c.holds truth = value := hd
      rw [holds] at he
      rw [conjoin, holds, Conjunction.holds_append, hc, ← he]
      cases c'.holds truth <;> cases rest.holds truth <;> cases he <;> rfl
  | .or c rest, e =>
      rw [holds] at hd
      have later : rest.holds truth = value → (rest.conjoin e).holds truth = value :=
        fun hrest => holds_conjoin_of_eq hrest he
      cases value with
      | false =>
          obtain ⟨hc, hrest⟩ := Bool.or_eq_false_iff.mp hd
          rw [conjoin, holds, hc, later hrest]
          rfl
      | true =>
          rw [conjoin, holds]
          rcases (Bool.or_eq_true _ _).mp hd with hc | hrest
          · rw [hc]
            rfl
          · rw [later hrest, Bool.or_true]

theorem holds_joinAll_of_eq (connective : Connective) {ds : List Disjunction} (nonempty : ds ≠ [])
    (h : ∀ d ∈ ds, d.holds truth = value) : (joinAll connective ds).holds truth = value := by
  induction ds with
  | nil => exact absurd rfl nonempty
  | cons d ds ih =>
      obtain ⟨here, there⟩ := List.forall_mem_cons.mp h
      by_cases last : ds = []
      · rw [last]
        exact here
      · rw [joinAll_cons connective d last]
        cases connective with
        | and => exact holds_conjoin_of_eq here (ih last there)
        | or => rw [join, holds_append, here, ih last there, Bool.or_self]

/-- What is behind an `OR` holds whatever `AND` puts in front of the disjunction. -/
theorem holds_conjoin_or (d : Disjunction) {c : Conjunction} {rest : Disjunction}
    (h : rest.holds truth = true) : (d.conjoin (.or c rest)).holds truth = true := by
  match d with
  | .single _ => rw [conjoin, holds, h, Bool.or_true]
  | .or _ d => rw [conjoin, holds, holds_conjoin_or d h, Bool.or_true]

/-- The first part of a disjunction that comes apart does not need what is behind it. -/
theorem holds_joinAll_of_front {before after : List Disjunction} {c : Conjunction}
    {rest : Disjunction} (hb : ∀ d ∈ before, d.holds truth = true) (hc : c.holds truth = true) :
    (joinAll .and (before ++ .or c rest :: after)).holds truth = true := by
  induction before with
  | nil =>
      cases after with
      | nil => rw [List.nil_append, joinAll, holds, hc, Bool.true_or]
      | cons e after => rw [List.nil_append, joinAll, join, conjoin, holds, hc, Bool.true_or]
  | cons d before ih =>
      obtain ⟨here, there⟩ := List.forall_mem_cons.mp hb
      rw [List.cons_append, joinAll_cons _ _ (by simp)]
      exact holds_conjoin_of_eq here (ih there)

/-- The other parts do not need what is in front of it. -/
theorem holds_joinAll_of_back {before after : List Disjunction} {c : Conjunction}
    {rest : Disjunction} (ha : ∀ d ∈ after, d.holds truth = true) (hr : rest.holds truth = true) :
    ∃ c' rest', joinAll .and (before ++ .or c rest :: after) = .or c' rest' ∧
      rest'.holds truth = true := by
  induction before with
  | nil =>
      cases after with
      | nil => exact ⟨c, rest, rfl, hr⟩
      | cons e after =>
          refine ⟨c, rest.conjoin (joinAll .and (e :: after)), rfl, ?_⟩
          exact holds_conjoin_of_eq hr (holds_joinAll_of_eq .and (by simp) ha)
  | cons d before ih =>
      obtain ⟨c', rest', hjoin, hr'⟩ := ih
      rw [List.cons_append, joinAll_cons _ _ (by simp), hjoin]
      cases d with
      | single c₀ => exact ⟨c₀.append c', rest', rfl, hr'⟩
      | or c₀ d => exact ⟨c₀, d.conjoin (.or c' rest'), rfl, holds_conjoin_or d hr'⟩

end Disjunction

end SearchIndex
