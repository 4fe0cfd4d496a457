import SearchIndex.Expression

/-!
# The grammar of query text

Query text is a disjunction: conjunctions that are joined by `OR`, each of operands
that are joined by `AND`. An operand is an atom, a negated operand, or a disjunction
in parentheses. So `NOT` binds more tightly than `AND`, and `AND` more tightly than
`OR`.

The three kinds of trees have one constructor for each rule, and `symbols` writes a
tree down. The grammar is unambiguous (`symbols_injective`): what is written behind a
tree shows where it ends.
-/

namespace SearchIndex

/-- What query text is made of. -/
inductive Symbol where
  | atom (text : List Char)
  | not
  | and
  | or
  | opening
  | closing
  deriving DecidableEq, Repr

/-- The symbol of a connective. -/
def Connective.symbol : Connective → Symbol
  | .and => .and
  | .or => .or

mutual

/-- What is joined: an atom, a negation, or a disjunction in parentheses. -/
inductive Operand where
  | atom (text : List Char)
  | not (operand : Operand)
  | paren (inner : Disjunction)

/-- Operands that are joined by `AND`. -/
inductive Conjunction where
  | single (operand : Operand)
  | and (operand : Operand) (rest : Conjunction)

/-- Conjunctions that are joined by `OR`. -/
inductive Disjunction where
  | single (conjunction : Conjunction)
  | or (conjunction : Conjunction) (rest : Disjunction)

end

mutual

/-- The symbols of an operand. -/
def Operand.symbols : Operand → List Symbol
  | .atom text => [.atom text]
  | .not operand => .not :: operand.symbols
  | .paren inner => .opening :: inner.symbols ++ [.closing]

/-- The symbols of a conjunction. -/
def Conjunction.symbols : Conjunction → List Symbol
  | .single operand => operand.symbols
  | .and operand rest => operand.symbols ++ .and :: rest.symbols

/-- The symbols of a disjunction. -/
def Disjunction.symbols : Disjunction → List Symbol
  | .single conjunction => conjunction.symbols
  | .or conjunction rest => conjunction.symbols ++ .or :: rest.symbols

end

mutual

/-- The truth value of an operand, given those of the atoms. -/
def Operand.holds (truth : List Char → Bool) : Operand → Bool
  | .atom text => truth text
  | .not operand => !operand.holds truth
  | .paren inner => inner.holds truth

/-- The truth value of a conjunction. -/
def Conjunction.holds (truth : List Char → Bool) : Conjunction → Bool
  | .single operand => operand.holds truth
  | .and operand rest => operand.holds truth && rest.holds truth

/-- The truth value of a disjunction. -/
def Disjunction.holds (truth : List Char → Bool) : Disjunction → Bool
  | .single conjunction => conjunction.holds truth
  | .or conjunction rest => conjunction.holds truth || rest.holds truth

end

mutual

/-- The atoms of an operand, from left to right. -/
def Operand.atoms : Operand → List (List Char)
  | .atom text => [text]
  | .not operand => operand.atoms
  | .paren inner => inner.atoms

/-- The atoms of a conjunction. -/
def Conjunction.atoms : Conjunction → List (List Char)
  | .single operand => operand.atoms
  | .and operand rest => operand.atoms ++ rest.atoms

/-- The atoms of a disjunction. -/
def Disjunction.atoms : Disjunction → List (List Char)
  | .single conjunction => conjunction.atoms
  | .or conjunction rest => conjunction.atoms ++ rest.atoms

end

mutual

/-- Operands that are written alike, with more text behind them, are the same. -/
theorem Operand.symbols_append_inj {o o' : Operand} {rest rest' : List Symbol}
    (h : o.symbols ++ rest = o'.symbols ++ rest') : o = o' ∧ rest = rest' := by
  match o, o' with
  | .atom t, .atom t' =>
      simp only [Operand.symbols, List.singleton_append, List.cons.injEq, Symbol.atom.injEq] at h
      exact ⟨by rw [h.1], h.2⟩
  | .not o, .not o' =>
      simp only [Operand.symbols, List.cons_append, List.cons.injEq, true_and] at h
      obtain ⟨rfl, same⟩ := Operand.symbols_append_inj h
      exact ⟨rfl, same⟩
  | .paren d, .paren d' =>
      simp only [Operand.symbols, List.cons_append, List.append_assoc, List.cons.injEq,
        true_and, List.nil_append] at h
      have closed : ∀ rest connective,
          (Symbol.closing :: rest).head? ≠ some (Connective.symbol connective) := by
        intro rest connective
        cases connective <;> simp [Connective.symbol]
      obtain ⟨rfl, same⟩ := Disjunction.symbols_append_inj (closed _) (closed _) h
      exact ⟨rfl, (List.cons.inj same).2⟩
  | .atom _, .not _ | .atom _, .paren _ | .not _, .atom _ | .not _, .paren _ | .paren _, .atom _
  | .paren _, .not _ => simp [Operand.symbols] at h

/-- Conjunctions that are written alike are the same if what is behind them does not
carry them on. -/
theorem Conjunction.symbols_append_inj {c c' : Conjunction} {rest rest' : List Symbol}
    (hr : rest.head? ≠ some .and) (hr' : rest'.head? ≠ some .and)
    (h : c.symbols ++ rest = c'.symbols ++ rest') : c = c' ∧ rest = rest' := by
  match c, c' with
  | .single o, .single o' =>
      obtain ⟨rfl, same⟩ := Operand.symbols_append_inj h
      exact ⟨rfl, same⟩
  | .single o, .and o' c' =>
      simp only [Conjunction.symbols, List.append_assoc, List.cons_append] at h
      obtain ⟨rfl, same⟩ := Operand.symbols_append_inj h
      simp [same] at hr
  | .and o c, .single o' =>
      simp only [Conjunction.symbols, List.append_assoc, List.cons_append] at h
      obtain ⟨rfl, same⟩ := Operand.symbols_append_inj h
      simp [← same] at hr'
  | .and o c, .and o' c' =>
      simp only [Conjunction.symbols, List.append_assoc, List.cons_append] at h
      obtain ⟨rfl, same⟩ := Operand.symbols_append_inj h
      obtain ⟨rfl, same_rest⟩ := Conjunction.symbols_append_inj hr hr' (List.cons.inj same).2
      exact ⟨rfl, same_rest⟩

/-- Disjunctions that are written alike are the same if no connective is behind them. -/
theorem Disjunction.symbols_append_inj {d d' : Disjunction} {rest rest' : List Symbol}
    (hr : ∀ connective : Connective, rest.head? ≠ some connective.symbol)
    (hr' : ∀ connective : Connective, rest'.head? ≠ some connective.symbol)
    (h : d.symbols ++ rest = d'.symbols ++ rest') : d = d' ∧ rest = rest' := by
  match d, d' with
  | .single c, .single c' =>
      obtain ⟨rfl, same⟩ := Conjunction.symbols_append_inj (hr .and) (hr' .and) h
      exact ⟨rfl, same⟩
  | .single c, .or c' d' =>
      simp only [Disjunction.symbols, List.append_assoc, List.cons_append] at h
      obtain ⟨rfl, same⟩ := Conjunction.symbols_append_inj (hr .and) (by simp) h
      exact absurd (by rw [same]; rfl) (hr .or)
  | .or c d, .single c' =>
      simp only [Disjunction.symbols, List.append_assoc, List.cons_append] at h
      obtain ⟨rfl, same⟩ := Conjunction.symbols_append_inj (by simp) (hr' .and) h
      exact absurd (by rw [← same]; rfl) (hr' .or)
  | .or c d, .or c' d' =>
      simp only [Disjunction.symbols, List.append_assoc, List.cons_append] at h
      obtain ⟨rfl, same⟩ := Conjunction.symbols_append_inj (by simp) (by simp) h
      obtain ⟨rfl, same_rest⟩ := Disjunction.symbols_append_inj hr hr' (List.cons.inj same).2
      exact ⟨rfl, same_rest⟩

end

/-- The grammar is unambiguous. -/
theorem Disjunction.symbols_injective {d d' : Disjunction} (h : d.symbols = d'.symbols) :
    d = d' := by
  have ends : ∀ connective : Connective, ([] : List Symbol).head? ≠ some connective.symbol :=
    fun _ => by simp
  exact (Disjunction.symbols_append_inj ends ends (congrArg (· ++ []) h)).1

end SearchIndex
