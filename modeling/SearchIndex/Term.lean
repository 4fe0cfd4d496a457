import SearchIndex.Text.Blank
import SearchIndex.Text.Escape

/-!
# Search terms

Free text is cut into spans: a text between double quotes, with or without a
sign in front, or else a run of characters that are not blank. A span becomes a
`Term` unless nothing but syntax is in it. A plain term is escaped, so that no
character of it has a meaning of its own; a run of wildcards at its end is kept
apart and stays one.

Terms are written in three ways: `mandatory` as a clause that must or must not
match, `fuzzy` as an expression that also finds similar words, and `phrasePart`
as a part of a longer phrase.
-/

namespace SearchIndex

/-- A sign in front of a term. -/
inductive Sign where
  | required
  | excluded
  deriving DecidableEq, Repr

namespace Sign

/-- The character of a sign. -/
def char : Sign → Char
  | .required => '+'
  | .excluded => '-'

/-- The sign that a character is. -/
def ofChar? (c : Char) : Option Sign :=
  if c = '+' then some .required
  else if c = '-' then some .excluded
  else none

@[simp] theorem ofChar?_char (s : Sign) : ofChar? s.char = some s := by
  cases s <;> rfl

end Sign

/-- A piece of free text that is searched for as a whole. The body of a plain
term is escaped; the body of a quoted term has its quotes. -/
structure Term where
  sign : Option Sign := none
  body : List Char
  wildcard : List Char := []
  quoted : Bool := false
  deriving DecidableEq, Repr

namespace Term

/-- The text between double quotes at the start of a text, with its quotes, and
the text after it. -/
def quotedSpan? : List Char → Option (List Char × List Char)
  | '"' :: text =>
    match text.dropWhile (· != '"') with
    | '"' :: rest => some ('"' :: text.takeWhile (· != '"') ++ ['"'], rest)
    | _ => none
  | _ => none

/-- The text between double quotes at the start of a text or behind one sign
there, with sign and quotes, and the text after it. -/
def signedSpan? (text : List Char) : Option (List Char × List Char) :=
  match text with
  | [] => none
  | c :: rest =>
    match Sign.ofChar? c with
    | some _ => (quotedSpan? rest).map fun (span, rest) => (c :: span, rest)
    | none => quotedSpan? text

/-- The run of characters that are not blank at the start of a text, and the
text after it. -/
def plainSpan (text : List Char) : List Char × List Char :=
  (text.takeWhile (!Text.isBlank ·), text.dropWhile (!Text.isBlank ·))

/-- The span at the start of a text whose first character is not blank. -/
def firstSpan (text : List Char) : List Char × List Char :=
  (signedSpan? text).getD (plainSpan text)

theorem length_dropWhile_le (p : Char → Bool) (text : List Char) :
    (text.dropWhile p).length ≤ text.length :=
  (List.dropWhile_sublist p).length_le

theorem length_of_quotedSpan? {text span rest : List Char}
    (h : quotedSpan? text = some (span, rest)) : rest.length < text.length := by
  unfold quotedSpan? at h
  split at h
  · next text =>
    split at h
    · next rest' hd =>
      have := length_dropWhile_le (· != '"') text
      rw [hd] at this
      simp only [Option.some.injEq, Prod.mk.injEq] at h
      rw [← h.2]
      simp only [List.length_cons] at this ⊢
      omega
    · simp at h
  · simp at h

theorem length_of_signedSpan? {text span rest : List Char}
    (h : signedSpan? text = some (span, rest)) : rest.length < text.length := by
  unfold signedSpan? at h
  split at h
  · simp at h
  · next c tail =>
    split at h
    · obtain ⟨⟨span', rest'⟩, hq, he⟩ := Option.map_eq_some_iff.mp h
      simp only [Prod.mk.injEq] at he
      have := length_of_quotedSpan? hq
      rw [← he.2, List.length_cons]
      omega
    · exact length_of_quotedSpan? h

/-- A span leaves less text than there was. -/
theorem length_firstSpan {c : Char} (h : Text.isBlank c = false) (text : List Char) :
    (firstSpan (c :: text)).2.length < (c :: text).length := by
  unfold firstSpan
  cases hs : signedSpan? (c :: text) with
  | some found =>
    obtain ⟨span, rest⟩ := found
    exact length_of_signedSpan? hs
  | none =>
    have := length_dropWhile_le (!Text.isBlank ·) text
    simp only [Option.getD_none, plainSpan, List.dropWhile_cons, h, Bool.not_false, if_true,
      List.length_cons]
    omega

/-- The spans of a text, from left to right. -/
def spans : List Char → List (List Char)
  | [] => []
  | c :: text =>
    if _ : Text.isBlank c = true then spans text
    else (firstSpan (c :: text)).1 :: spans (firstSpan (c :: text)).2
termination_by text => text.length
decreasing_by
  · exact Nat.lt_succ_self _
  · exact length_firstSpan (Bool.eq_false_iff.mpr ‹_›) text

/-- Whether a character is a wildcard. -/
def isWildcard (c : Char) : Bool :=
  c == '*' || c == '?'

/-- A span's text behind its sign: the quoted text, the plain text before the
wildcards, or no term at all if that is blank. -/
def ofUnsigned? (sign : Option Sign) (text : List Char) : Option Term :=
  if 2 ≤ text.length ∧ text.head? = some '"' ∧ text.getLast? = some '"' then
    if (Text.trim (Text.withoutQuotes text)).isEmpty then none
    else some { sign, body := text, quoted := true }
  else
    let wildcard := (text.reverse.takeWhile isWildcard).reverse
    let stem := (text.reverse.dropWhile isWildcard).reverse
    if stem.isEmpty then none
    else some { sign, body := Text.escape stem, wildcard }

/-- The term of a span; a span of bare syntax has none. -/
def ofSpan? : List Char → Option Term
  | [] => none
  | c :: text =>
    match Sign.ofChar? c with
    | some sign => ofUnsigned? (some sign) text
    | none => ofUnsigned? none (c :: text)

/-- The terms of a text, from left to right. -/
def ofText (text : List Char) : List Term :=
  (spans text).filterMap ofSpan?

/-- Whether a term must not match. -/
def isExcluded (t : Term) : Bool :=
  t.sign == some .excluded

/-- The term as a clause that must match, or must not if it is excluded. With
`widen` a plain term without wildcards also matches longer words. -/
def mandatory (t : Term) (widen : Bool) : List Char :=
  (t.sign.getD .required).char :: t.body ++
    if !t.wildcard.isEmpty then t.wildcard
    else if widen && !t.quoted then ['*']
    else []

/-- The term as an expression that matches longer words and similar ones. The
distance says how similar; without one the engine's default applies. -/
def fuzzy (t : Term) (distance : List Char) : List Char :=
  (if t.isExcluded then ['N', 'O', 'T', ' '] else []) ++
    if t.quoted then t.body
    else '(' :: t.body ++ ['*', ' ', 'O', 'R', ' '] ++ t.body ++ '~' :: distance ++ [')']

/-- The term as a part of a phrase. -/
def phrasePart (t : Term) : List Char :=
  if t.quoted then Text.withoutQuotes t.body else t.body

end Term

end SearchIndex
