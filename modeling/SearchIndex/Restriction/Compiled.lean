import SearchIndex.Restriction.Basic

/-!
# Compiled restrictions

A restriction compiles to an expression of the query language. A list whose
operands are all negated has no meaning there, so a group of that kind is turned
round: its members lose their negations, the connective is exchanged and the
negation moves in front of the list. `Compiled` holds the forms of a restriction
that a group around it may ask for, and `Restriction.compiled` builds them from
the inside out. Empty restrictions have no form and compile to the empty text.
-/

namespace SearchIndex

/-- The forms of a compiled restriction; an empty one has none of them. -/
structure Compiled where
  /-- The form with no negation of the whole. -/
  positive : Option Expression
  /-- The form with a negation of the whole. -/
  negative : Option Expression
  /-- The form with the negation that the restriction has. -/
  own : Option Expression
  /-- Whether the restriction's own form is the negation of something. -/
  isNegation : Bool
  /-- What the own form is the negation of, or the own form if it is none. -/
  bare : Option Expression

namespace Compiled

/-- Operands joined by a connective: nothing for none, the operand itself for
one, else a list in parentheses. A negation is always in front of parentheses. -/
def close (connective : Connective) : List Expression → Bool → Option Expression
  | [], _ => none
  | [operand], false => some operand
  | [operand], true => some (.not (.paren operand))
  | operands, false => some (.paren (.join connective operands))
  | operands, true => some (.not (.paren (.join connective operands)))

/-- The forms of a clause. -/
def ofClause (c : Clause) : Compiled :=
  let positive := if c.isEmpty then none else some (.atom c.body)
  let negative := positive.map .not
  { positive, negative, own := if c.negated then negative else positive
    isNegation := c.negated, bare := positive }

/-- The forms of a raw text. Its negation has parentheses, since the text may
hold several operands. -/
def ofRaw (query : String) (negated : Bool) : Compiled :=
  let text := Text.trim query.toList
  let positive := if text.isEmpty then none else some (.atom text)
  let negative := positive.map fun e => .not (.paren e)
  { positive, negative, own := if negated then negative else positive
    isNegation := negated, bare := positive }

/-- Whether a group of these members is turned round: there are several and all
of them are negations. -/
def turnsRound (members : List Compiled) : Bool :=
  1 < members.length && members.all (·.isNegation)

/-- The operands that a group of these members joins. -/
def operands (members : List Compiled) : List Expression :=
  members.filterMap fun m => if turnsRound members then m.bare else m.own

/-- The form of a group with a given negation. A group that is turned round has
that negation in reverse. -/
def groupForm (connective : Connective) (members : List Compiled) (negated : Bool) :
    Option Expression :=
  close (if turnsRound members then connective.flip else connective) (operands members)
    (negated != turnsRound members)

/-- Whether the own form of a group is a negation. -/
def groupIsNegation (members : List Compiled) (negated : Bool) : Bool :=
  match members with
  | [] => false
  | [only] => negated || only.isNegation
  | _ => negated != turnsRound members

/-- The form of a group without the negation in front of it. -/
def groupBare (connective : Connective) (members : List Compiled) (negated : Bool) :
    Option Expression :=
  match members, negated with
  | [only], false => only.bare
  | [_], true => groupForm connective members false
  | _, _ => groupForm connective members (turnsRound members)

/-- The forms of a group. -/
def ofGroup (connective : Connective) (members : List Compiled) (negated : Bool) : Compiled where
  positive := groupForm connective members false
  negative := groupForm connective members true
  own := groupForm connective members negated
  isNegation := groupIsNegation members negated
  bare := groupBare connective members negated

/-- The text of a form; a missing form has the empty text. -/
def text : Option Expression → String
  | some e => String.ofList e.render
  | none => ""

end Compiled

namespace Restriction

mutual

/-- The forms of a restriction. -/
def compiled : Restriction → Compiled
  | .clause c => .ofClause c
  | .raw query negated => .ofRaw query negated
  | .group connective members negated => .ofGroup connective (compiledMembers members) negated

/-- The forms of some restrictions. -/
def compiledMembers : List Restriction → List Compiled
  | [] => []
  | r :: rs => compiled r :: compiledMembers rs

end

/-- The form of a restriction with the negation given here instead of its own. -/
def form (r : Restriction) (negated : Bool) : Option Expression :=
  if negated then r.compiled.negative else r.compiled.positive

/-- The text of a restriction. -/
def compile (r : Restriction) : String :=
  Compiled.text r.compiled.own

/-- The text of a restriction with the negation given here instead of its own. -/
def compileWith (r : Restriction) (negated : Bool) : String :=
  Compiled.text (r.form negated)

/-- Whether the text of a restriction is the negation of something. -/
def compilesNegated (r : Restriction) : Bool :=
  r.compiled.isNegation

/-- The text of a restriction without the negation in front of it. -/
def compileBare (r : Restriction) : String :=
  Compiled.text r.compiled.bare

theorem compiledMembers_eq_map (rs : List Restriction) : compiledMembers rs = rs.map compiled := by
  induction rs with
  | nil => rfl
  | cons r rs ih => rw [compiledMembers, ih, List.map_cons]

/-- The own form of a restriction is the one with the negation that it has. -/
theorem form_isNegated (r : Restriction) : r.form r.isNegated = r.compiled.own := by
  cases r with
  | clause c =>
    cases h : c.negated <;> simp [form, compiled, isNegated, Compiled.ofClause, h]
  | raw query negated => cases negated <;> rfl
  | group connective members negated => cases negated <;> rfl

theorem compileWith_isNegated (r : Restriction) : r.compileWith r.isNegated = r.compile := by
  rw [compileWith, form_isNegated, compile]

end Restriction

end SearchIndex
