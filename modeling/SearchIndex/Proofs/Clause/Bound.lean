import SearchIndex.Proofs.Clause.Whole

/-!
# The bounds of a range

The text of a range has both bounds with the word `TO` between them, in brackets or in braces.
A bound is written with its characters escaped, but blanks are no such characters.

So a bound may have the word between blanks inside, and then the text of its range is also that
of other bounds. `rangeText_boundText_inj` says when two pairs of bounds have one text: they are
the same, or the word stands at two places (`Recut`).

`DenotesRange` says which bounds a text is read as. A text is read as one range at most
(`DenotesRange.unique`), and the text of some bounds is read as these if and only if each of
them is open, or else has no blank inside and is not the word itself
(`denotesRange_rangeText_iff`).
-/

namespace SearchIndex

namespace Text

/-- What a bound asks for: nothing if it is blank or a star, and else its trimmed text. -/
def bound? (bound : String) : Option (List Char) :=
  let text := trim bound.toList
  if text.isEmpty || text == ['*'] then none else some text

/-- A bound as it is written; an open one is a star. -/
def boundText : Option (List Char) → List Char
  | none => ['*']
  | some text => escape text

/-- What is written between two bounds. -/
def between : List Char :=
  [' ', 'T', 'O', ' ']

/-- What is written in front of the bounds and behind them. -/
def delimiters (inclusive : Bool) : Char × Char :=
  if inclusive then ('[', ']') else ('\x7b', '\x7d')

/-- Two texts with the word between them, as they are written in a range. -/
def rangeText (inclusive : Bool) (first last : List Char) : List Char :=
  (delimiters inclusive).1 :: first ++ between ++ last ++ [(delimiters inclusive).2]

theorem rangeText_inj {inclusive inclusive' : Bool} {first last first' last' : List Char} :
    rangeText inclusive first last = rangeText inclusive' first' last' ↔
      inclusive = inclusive' ∧ first ++ between ++ last = first' ++ between ++ last' := by
  have front : (delimiters inclusive).1 = (delimiters inclusive').1 ↔ inclusive = inclusive' := by
    cases inclusive <;> cases inclusive' <;> decide
  constructor
  · intro h
    obtain ⟨opening, rest⟩ := List.cons.inj h
    obtain rfl := front.mp opening
    exact ⟨rfl, List.append_cancel_right rest⟩
  · rintro ⟨rfl, same⟩
    simp only [rangeText, List.cons_append, same]

/-! ### Escaped text -/

/-- Escaped text starts with no special character but a backslash. -/
theorem escape_ne_cons {c : Char} (special : isSpecial c = true) (ne : c ≠ '\\')
    (text rest : List Char) : escape text ≠ c :: rest := by
  intro h
  cases text with
  | nil => cases h
  | cons d text =>
      rw [escape] at h
      split at h
      · exact ne (List.cons.inj h).1.symm
      · next ordinary =>
        rw [(List.cons.inj h).1] at ordinary
        exact ordinary special

/-- What stands behind a piece of escaped text is escaped text as well. -/
theorem exists_of_escape_eq_append {text front rest : List Char}
    (h : escape text = escape front ++ rest) :
    ∃ back, text = front ++ back ∧ rest = escape back := by
  induction front generalizing text with
  | nil => exact ⟨text, rfl, h.symm⟩
  | cons c front ih =>
      cases text with
      | nil =>
          rw [escape_cons] at h
          split at h <;> cases h
      | cons d text =>
          have same : c = d ∧ escape text = escape front ++ rest := by
            simp only [escape] at h
            split at h <;> split at h <;> simp only [List.cons_append, List.cons.injEq] at h
            · exact ⟨h.2.1.symm, h.2.2⟩
            · next ordinary =>
              rw [← h.1] at ordinary
              exact absurd rfl ordinary
            · next ordinary _ =>
              rw [h.1] at ordinary
              exact absurd rfl ordinary
            · exact ⟨h.1.symm, h.2⟩
          obtain ⟨rfl, tail⟩ := same
          obtain ⟨back, rfl, behind⟩ := ih tail
          exact ⟨back, rfl, behind⟩

theorem escape_inj {text other : List Char} : escape text = escape other ↔ text = other := by
  constructor
  · intro h
    rw [← unescape_escape text, h, unescape_escape]
  · exact congrArg escape

theorem boundText_inj {bound other : Option (List Char)} :
    boundText bound = boundText other ↔ bound = other := by
  have open' : ∀ text, escape text ≠ ['*'] := fun text =>
    escape_ne_cons (by decide) (by decide) text []
  cases bound with
  | none =>
      cases other with
      | none => exact ⟨fun _ => rfl, fun _ => rfl⟩
      | some text => exact ⟨fun h => absurd h.symm (open' text), nofun⟩
  | some text =>
      cases other with
      | none => exact ⟨fun h => absurd h (open' text), nofun⟩
      | some text' =>
          simp only [boundText, escape_inj, Option.some.injEq]

/-! ### One text for two pairs of bounds -/

/-- The word between two texts stands at another place as well: behind the first one comes the
word and something more in the other pair, and the last one begins with that and the word. The
two places may share a blank. -/
def Overlaps (first last first' last' : List Char) : Prop :=
  ∃ middle, first' ++ [' '] = first ++ between ++ middle ∧
    last = middle ++ ['T', 'O', ' '] ++ last'

theorem Overlaps.append_eq {first last first' last' : List Char}
    (h : Overlaps first last first' last') :
    first ++ between ++ last = first' ++ between ++ last' := by
  obtain ⟨middle, front, rfl⟩ := h
  calc first ++ between ++ (middle ++ ['T', 'O', ' '] ++ last')
      = (first ++ between ++ middle) ++ ['T', 'O', ' '] ++ last' := by
        simp only [List.append_assoc]
    _ = first' ++ between ++ last' := by
        rw [← front]
        simp [between]

/-- If one text has the word at two places, the pieces are the same or overlap. -/
theorem overlaps_of_append_eq (first : List Char) {more last last' : List Char}
    (h : between ++ last = more ++ between ++ last') :
    more = [] ∧ last = last' ∨ Overlaps first last (first ++ more) last' := by
  match more with
  | [] => exact .inl ⟨rfl, List.append_cancel_left h⟩
  | [_] => simp [between] at h
  | [_, _] => simp [between] at h
  | [_, _, _] =>
      right
      simp only [between, List.cons_append, List.nil_append, List.cons.injEq] at h
      obtain ⟨rfl, rfl, rfl, -, rfl⟩ := h
      exact ⟨[], by simp [between], rfl⟩
  | _ :: _ :: _ :: _ :: more =>
      right
      simp only [between, List.cons_append, List.nil_append, List.cons.injEq] at h
      obtain ⟨rfl, rfl, rfl, rfl, rfl⟩ := h
      exact ⟨more ++ [' '], by simp [between], by simp⟩

theorem append_between_eq_iff {first last first' last' : List Char} :
    first ++ between ++ last = first' ++ between ++ last' ↔
      first = first' ∧ last = last' ∨ Overlaps first last first' last' ∨
        Overlaps first' last' first last := by
  constructor
  · intro h
    rw [List.append_assoc, List.append_assoc] at h
    rcases List.append_eq_append_iff.mp h with ⟨more, rfl, rest⟩ | ⟨more, rfl, rest⟩
    · rw [← List.append_assoc] at rest
      rcases overlaps_of_append_eq first rest with ⟨rfl, rfl⟩ | overlaps
      · exact .inl ⟨(List.append_nil first).symm, rfl⟩
      · exact .inr (.inl overlaps)
    · rw [← List.append_assoc] at rest
      rcases overlaps_of_append_eq first' rest with ⟨rfl, rfl⟩ | overlaps
      · exact .inl ⟨List.append_nil first', rfl⟩
      · exact .inr (.inr overlaps)
  · rintro (⟨rfl, rfl⟩ | overlaps | overlaps)
    · rfl
    · exact overlaps.append_eq
    · exact overlaps.append_eq.symm

/-- One pair of bounds is taken for another one: none of them is open, and their texts
overlap. -/
inductive Recut : Option (List Char) → Option (List Char) → Option (List Char) →
    Option (List Char) → Prop where
  | overlaps {first last first' last' : List Char} (h : Overlaps first last first' last') :
    Recut (some first) (some last) (some first') (some last')

/-- No star that is written for an open bound has a part in an overlap. -/
theorem overlaps_boundText_iff {first last first' last' : Option (List Char)} :
    Overlaps (boundText first) (boundText last) (boundText first') (boundText last') ↔
      Recut first last first' last' := by
  have word : escape between = between ∧ escape ['T', 'O', ' '] = ['T', 'O', ' '] ∧
      escape [' '] = [' '] := by decide
  have star : ∀ text rest, escape text ≠ '*' :: rest :=
    escape_ne_cons (by decide) (by decide)
  constructor
  · rintro ⟨middle, front, back⟩
    match first, first' with
    | none, none => simp [boundText, between] at front
    | none, some first' =>
        rw [boundText, boundText, ← word.2.2, ← escape_append] at front
        exact absurd front (star _ _)
    | some first, none =>
        have lengths := congrArg List.length front
        simp only [boundText, between, List.length_append, List.length_cons,
          List.length_nil] at lengths
        omega
    | some first, some first' =>
        rw [boundText, boundText, ← word.2.2, ← word.1, ← escape_append, ← escape_append] at front
        obtain ⟨middle, unescaped, rfl⟩ := exists_of_escape_eq_append front
        match last, last' with
        | none, _ =>
            have lengths := congrArg List.length back
            simp only [boundText, List.length_append, List.length_cons, List.length_nil] at lengths
            omega
        | some last, none =>
            rw [boundText, boundText, ← word.2.1, ← escape_append] at back
            obtain ⟨more, -, star'⟩ := exists_of_escape_eq_append back
            exact absurd star'.symm (star _ _)
        | some last, some last' =>
            rw [boundText, boundText, ← word.2.1, ← escape_append, ← escape_append] at back
            exact .overlaps ⟨middle, unescaped, escape_inj.mp back⟩
  · rintro ⟨middle, front, rfl⟩
    refine ⟨escape middle, ?_, ?_⟩
    · have written := congrArg escape front
      rwa [escape_append, escape_append, escape_append, word.2.2, word.1] at written
    · rw [boundText, boundText, escape_append, escape_append, word.2.1]

/-- Two ranges have the same text if and only if their bounds are the same, or those of one are
taken for those of the other. -/
theorem rangeText_boundText_inj {inclusive inclusive' : Bool}
    {first last first' last' : Option (List Char)} :
    rangeText inclusive (boundText first) (boundText last) =
        rangeText inclusive' (boundText first') (boundText last') ↔
      inclusive = inclusive' ∧ (first = first' ∧ last = last' ∨ Recut first last first' last' ∨
        Recut first' last' first last) := by
  rw [rangeText_inj, append_between_eq_iff, boundText_inj, boundText_inj, overlaps_boundText_iff,
    overlaps_boundText_iff]

/-! ### Reading a range -/

/-- A text is one bound: an open one, or a complete term or phrase that stands for what is left
without the backslashes. The word between the bounds is no term here, unlike those that join. -/
inductive DenotesBound : List Char → Option (List Char) → Prop where
  | unbounded : DenotesBound ['*'] none
  | term {text : List Char} (nonempty : text ≠ []) (word : text ≠ ['T', 'O'])
      (literal : isLiteral isTermPart text = true) : DenotesBound text (some (unescape text))
  | phrase {inner : List Char} (literal : isLiteral isPhrasePart inner = true) :
      DenotesBound ('"' :: inner ++ ['"']) (some (unescape inner))

/-- A text is one range, whose ends belong to it or not, from one bound to another one. -/
inductive DenotesRange : List Char → Bool → Option (List Char) → Option (List Char) → Prop where
  | bounds {first last : List Char} {lower upper : Option (List Char)} (inclusive : Bool)
      (here : DenotesBound first lower) (there : DenotesBound last upper) :
      DenotesRange (rangeText inclusive first last) inclusive lower upper

/-- A bound is written as a term of its own: it is open, or it has no blank inside and is not
the word between the bounds. -/
def IsSingle (bound : Option (List Char)) : Prop :=
  ∀ text ∈ bound, (∀ c ∈ text, isBlank c = false) ∧ text ≠ ['T', 'O']

section Literal

variable {allowed : Char → Bool}

theorem isLiteral_cons_iff (backslash : allowed '\\' = false) {c : Char} {text : List Char} :
    isLiteral allowed (c :: text) = true ↔
      c ≠ '\\' ∧ allowed c = true ∧ isLiteral allowed text = true ∨
        c = '\\' ∧ ∃ d rest, text = d :: rest ∧ isLiteral allowed rest = true := by
  by_cases escaped : c = '\\'
  · subst escaped
    cases text with
    | nil => simp [isLiteral, backslash]
    | cons d rest => simp [isLiteral]
  · rw [isLiteral_cons_of_ne escaped, Bool.and_eq_true]
    simp [escaped]

/-- A character that is not allowed by itself ends a text at one place at most. -/
theorem isLiteral_append_inj (backslash : allowed '\\' = false) {stop : Char} (ne : stop ≠ '\\')
    (barred : allowed stop = false) {text other rest rest' : List Char}
    (literal : isLiteral allowed text = true) (literal' : isLiteral allowed other = true)
    (same : text ++ stop :: rest = other ++ stop :: rest') : text = other ∧ rest = rest' := by
  have starts : ∀ tail, isLiteral allowed (stop :: tail) = false := by
    intro tail
    rw [isLiteral_cons_of_ne ne, barred, Bool.false_and]
  induction hn : text.length using Nat.strongRecOn generalizing text other with
  | ind n ih =>
      match text, other with
      | [], [] => exact ⟨rfl, (List.cons.inj same).2⟩
      | [], d :: other =>
          obtain rfl := (List.cons.inj same).1
          rw [starts] at literal'
          cases literal'
      | c :: text, [] =>
          obtain rfl := (List.cons.inj same).1
          rw [starts] at literal
          cases literal
      | c :: text, d :: other =>
          rw [List.length_cons] at hn
          obtain ⟨rfl, tails⟩ := List.cons.inj same
          rcases (isLiteral_cons_iff backslash).mp literal with
            ⟨plain, -, kept⟩ | ⟨escaped, e, text', rfl, kept⟩
          · rcases (isLiteral_cons_iff backslash).mp literal' with ⟨-, -, kept'⟩ | ⟨escaped, -⟩
            · obtain ⟨rfl, behind⟩ := ih text.length (by omega) kept kept' tails rfl
              exact ⟨rfl, behind⟩
            · exact absurd escaped plain
          · rcases (isLiteral_cons_iff backslash).mp literal' with
              ⟨plain, -⟩ | ⟨-, e', other', rfl, kept'⟩
            · exact absurd escaped plain
            · rw [List.length_cons] at hn
              obtain ⟨rfl, inner⟩ := List.cons.inj tails
              obtain ⟨rfl, behind⟩ := ih text'.length (by omega) kept kept' inner rfl
              exact ⟨rfl, behind⟩

/-- Escaped text that is read in front of something else is all of a text that stands for it. -/
theorem eq_escape_of_unescape (backslash : allowed '\\' = false) {front text rest rest' : List Char}
    (literal : isLiteral allowed front = true) (back : unescape front = text)
    (same : front ++ rest = escape text ++ rest') : front = escape text := by
  induction text generalizing front with
  | nil =>
      cases front with
      | nil => rfl
      | cons c front =>
          exfalso
          by_cases escaped : c = '\\'
          · rcases front with _ | ⟨d, front⟩ <;> simp [escaped, unescape] at back
          · simp [unescape_cons_of_ne escaped] at back
  | cons c text ih =>
      cases front with
      | nil => cases back
      | cons d front =>
          rw [escape] at same ⊢
          split at same
          · next special =>
            obtain ⟨rfl, tails⟩ := List.cons.inj same
            rcases (isLiteral_cons_iff backslash).mp literal with
              ⟨plain, -⟩ | ⟨-, e, front', rfl, kept⟩
            · exact absurd rfl plain
            · rw [unescape] at back
              obtain ⟨rfl, read⟩ := List.cons.inj back
              rw [if_pos special, ih kept read (List.cons.inj tails).2]
          · next ordinary =>
            obtain ⟨rfl, tails⟩ := List.cons.inj same
            rcases (isLiteral_cons_iff backslash).mp literal with ⟨plain, -, kept⟩ | ⟨escaped, -⟩
            · rw [unescape_cons_of_ne plain] at back
              rw [if_neg ordinary, ih kept (List.cons.inj back).2 tails]
            · rw [escaped] at ordinary
              exact absurd rfl ordinary

end Literal

theorem isBlank_of_isSpecial {c : Char} (h : isSpecial c = true) : isBlank c = false := by
  have all : specialChars.any isBlank = false := by decide
  exact Bool.eq_false_iff.mpr (List.any_eq_false.mp all c (List.contains_iff_mem.mp h))

theorem isLiteral_escape_iff {text : List Char} :
    isLiteral isTermPart (escape text) = true ↔ ∀ c ∈ text, isBlank c = false := by
  refine ⟨fun h => ?_, isLiteral_escape⟩
  induction text with
  | nil => exact List.forall_mem_nil _
  | cons c text ih =>
      rw [escape] at h
      split at h
      · next special =>
        exact List.forall_mem_cons.mpr ⟨isBlank_of_isSpecial special, ih h⟩
      · next ordinary =>
        have ne : c ≠ '\\' := by
          rintro rfl
          exact ordinary rfl
        rw [isLiteral_cons_of_ne ne, isTermPart] at h
        simp only [Bool.and_eq_true, Bool.not_eq_true'] at h
        exact List.forall_mem_cons.mpr ⟨h.1.2, ih h.2⟩

theorem escape_eq_word_iff {text : List Char} : escape text = ['T', 'O'] ↔ text = ['T', 'O'] := by
  constructor
  · intro h
    have back := congrArg unescape h
    rwa [unescape_escape] at back
  · rintro rfl
    rfl

section Bound

variable {bound : Option (List Char)} (filled : ∀ text ∈ bound, text ≠ [])
include filled

/-- A bound denotes what it asks for if and only if it is a term of its own. -/
theorem denotesBound_boundText_iff : DenotesBound (boundText bound) bound ↔ IsSingle bound := by
  cases bound with
  | none => exact ⟨fun _ => nofun, fun _ => .unbounded⟩
  | some text =>
      constructor
      · intro h
        generalize written : boundText (some text) = whole at h
        cases h with
        | term _ word literal =>
            rintro _ ⟨⟩
            rw [← written] at word literal
            exact ⟨isLiteral_escape_iff.mp literal, mt escape_eq_word_iff.mpr word⟩
        | phrase _ => exact absurd written (escape_ne_cons (by decide) (by decide) _ _)
      · intro h
        obtain ⟨single, word⟩ := h text rfl
        have term := DenotesBound.term (mt escape_eq_nil_iff.mp (filled text rfl))
          (mt escape_eq_word_iff.mp word) (isLiteral_escape single)
        rwa [unescape_escape] at term

/-- A text in front of something else that denotes a bound is that bound as it is written. -/
theorem DenotesBound.eq_boundText {text rest rest' : List Char} (h : DenotesBound text bound)
    (same : text ++ rest = boundText bound ++ rest') : text = boundText bound := by
  cases h with
  | unbounded => rfl
  | term _ _ literal => exact eq_escape_of_unescape (by decide) literal rfl same
  | @phrase inner _ =>
      exfalso
      obtain ⟨c, value, written⟩ := List.exists_cons_of_ne_nil (filled _ rfl)
      have quote : isSpecial '"' = true := by decide
      have start := escape_ne_cons quote (by decide) (unescape inner)
      cases escaped : escape (unescape inner) with
      | nil =>
          rw [escape_eq_nil_iff.mp escaped] at written
          cases written
      | cons d escaped' =>
          rw [boundText, escaped] at same
          rw [(List.cons.inj same).1] at start
          exact start escaped' escaped

end Bound

/-- A term starts with no character that would need a backslash. -/
theorem append_ne_cons_of_term {text : List Char} (nonempty : text ≠ [])
    (literal : isLiteral isTermPart text = true) {c : Char} (ne : c ≠ '\\')
    (barred : isTermPart c = false) (rest rest' : List Char) : text ++ rest ≠ c :: rest' := by
  intro same
  obtain ⟨d, text, rfl⟩ := List.exists_cons_of_ne_nil nonempty
  obtain rfl := (List.cons.inj same).1
  rw [isLiteral_cons_of_ne ne, barred, Bool.false_and] at literal
  cases literal

/-- A bound that is read in front of a blank ends at one place at most. -/
theorem DenotesBound.unique {text other rest rest' : List Char} {bound bound' : Option (List Char)}
    (h : DenotesBound text bound) (h' : DenotesBound other bound')
    (same : text ++ ' ' :: rest = other ++ ' ' :: rest') : bound = bound' ∧ rest = rest' := by
  cases h with
  | unbounded =>
      cases h' with
      | unbounded => exact ⟨rfl, (List.cons.inj (List.cons.inj same).2).2⟩
      | term nonempty _ literal =>
          exact absurd same.symm
            (append_ne_cons_of_term nonempty literal (by decide) (by decide) _ _)
      | phrase _ => exact absurd (List.cons.inj same).1 (by decide)
  | term nonempty _ literal =>
      cases h' with
      | unbounded =>
          exact absurd same (append_ne_cons_of_term nonempty literal (by decide) (by decide) _ _)
      | term _ _ literal' =>
          obtain ⟨rfl, behind⟩ :=
            isLiteral_append_inj (by decide) (by decide) (by decide) literal literal' same
          exact ⟨rfl, behind⟩
      | phrase _ =>
          exact absurd same (append_ne_cons_of_term nonempty literal (by decide) (by decide) _ _)
  | phrase literal =>
      cases h' with
      | unbounded => exact absurd (List.cons.inj same).1 (by decide)
      | term nonempty _ literal' =>
          exact absurd same.symm
            (append_ne_cons_of_term nonempty literal' (by decide) (by decide) _ _)
      | phrase literal' =>
          have inner := (List.cons.inj same).2
          simp only [List.append_eq, List.append_assoc, List.singleton_append] at inner
          obtain ⟨rfl, behind⟩ :=
            isLiteral_append_inj (by decide) (by decide) (by decide) literal literal' inner
          exact ⟨rfl, (List.cons.inj behind).2⟩

/-- A text is read as one range at most. -/
theorem DenotesRange.unique {text : List Char} {inclusive inclusive' : Bool}
    {lower upper lower' upper' : Option (List Char)} (h : DenotesRange text inclusive lower upper)
    (h' : DenotesRange text inclusive' lower' upper') :
    inclusive = inclusive' ∧ lower = lower' ∧ upper = upper' := by
  cases h with
  | @bounds first last _ _ _ here there =>
      generalize same : rangeText inclusive first last = text at h'
      cases h' with
      | @bounds first' last' _ _ _ here' there' =>
          obtain ⟨ends, texts⟩ := rangeText_inj.mp same
          simp only [between, List.append_assoc, List.cons_append, List.nil_append] at texts
          obtain ⟨lowers, behind⟩ := here.unique here' texts
          simp only [List.cons.injEq, true_and] at behind
          obtain ⟨uppers, -⟩ := there.unique there' (congrArg (· ++ [' ']) behind)
          exact ⟨ends, lowers, uppers⟩

/-- A range denotes its own bounds if and only if each of them is a term of its own. -/
theorem denotesRange_rangeText_iff {first last : Option (List Char)} (inclusive : Bool)
    (filled : ∀ text ∈ first, text ≠ []) (filled' : ∀ text ∈ last, text ≠ []) :
    DenotesRange (rangeText inclusive (boundText first) (boundText last)) inclusive first last ↔
      IsSingle first ∧ IsSingle last := by
  rw [← denotesBound_boundText_iff filled, ← denotesBound_boundText_iff filled']
  constructor
  · intro h
    generalize written : rangeText inclusive (boundText first) (boundText last) = whole at h
    cases h with
    | @bounds lower upper _ _ _ here there =>
        have texts := (rangeText_inj.mp written).2
        rw [List.append_assoc, List.append_assoc] at texts
        have front : lower = boundText first := here.eq_boundText filled texts.symm
        rw [front] at texts here
        have back : upper = boundText last :=
          (List.append_cancel_left (List.append_cancel_left texts)).symm
        rw [back] at there
        exact ⟨here, there⟩
  · rintro ⟨here, there⟩
    exact .bounds inclusive here there

theorem ne_nil_of_mem_bound? {bound : String} : ∀ text ∈ bound? bound, text ≠ [] := by
  intro text h
  rw [bound?] at h
  split at h
  · cases h
  · next given =>
    obtain rfl := Option.some.inj h
    rintro empty
    rw [empty] at given
    exact given rfl

end Text

end SearchIndex
