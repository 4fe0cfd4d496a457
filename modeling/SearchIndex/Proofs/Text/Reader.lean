import SearchIndex.Text.Escape

/-!
# Reading query text

Whoever reads query text from left to right has to know three things: how deep in
parentheses the text is, whether a phrase is open, and whether the next character
is an ordinary one because of a backslash. A `Reader` keeps track of that. Escaped
text leaves a reader as it was, within a phrase and outside of one.

A phrase that is taken over as it stands may end in a backslash that makes its
closing quote an ordinary character. So `Mirrors` compares a text with the phrases
that are written in it: reading either of them has the same effect, and everything
outside of the phrases plays no part. `Quiet` says what reading the text inside a
phrase does, and `isLoose` whether its closing quote is lost.
-/

namespace SearchIndex

/-- How far somebody who reads query text from left to right has got. -/
structure Reader where
  depth : Nat := 0
  inPhrase : Bool := false
  /-- Whether the next character is an ordinary one, whatever it is. -/
  literal : Bool := false
  deriving DecidableEq, Repr

namespace Reader

/-- The reader behind one more character. A parenthesis that closes nothing leaves
the depth at zero. -/
def next (s : Reader) (c : Char) : Reader :=
  if s.literal then { s with literal := false }
  else if c = '\\' then { s with literal := true }
  else if c = '"' then { s with inPhrase := !s.inPhrase }
  else if s.inPhrase then s
  else if c = '(' then { s with depth := s.depth + 1 }
  else if c = ')' then { s with depth := s.depth - 1 }
  else s

/-- The reader behind a text. -/
def read (s : Reader) (text : List Char) : Reader :=
  text.foldl next s

/-- The depth is above zero in front of a text, everywhere in it and behind it. -/
def StaysInside (s : Reader) : List Char → Prop
  | [] => 0 < s.depth
  | c :: text => 0 < s.depth ∧ (s.next c).StaysInside text

@[simp] theorem read_nil (s : Reader) : s.read [] = s := rfl

@[simp] theorem read_cons (s : Reader) (c : Char) (text : List Char) :
    s.read (c :: text) = (s.next c).read text := rfl

theorem read_append (s : Reader) (first second : List Char) :
    s.read (first ++ second) = (s.read first).read second :=
  List.foldl_append

theorem next_of_literal {s : Reader} (h : s.literal = true) (c : Char) :
    s.next c = { s with literal := false } := by
  rw [next, if_pos h]

theorem next_backslash {s : Reader} (h : s.literal = false) :
    s.next '\\' = { s with literal := true } := by
  rw [next, if_neg (by simp [h]), if_pos rfl]

theorem next_quote {s : Reader} (h : s.literal = false) :
    s.next '"' = { s with inPhrase := !s.inPhrase } := by
  rw [next, if_neg (by simp [h]), if_neg (by decide), if_pos rfl]

/-- Within a phrase only backslashes and double quotes matter. -/
theorem next_of_inPhrase {s : Reader} (h : s.literal = false) (hp : s.inPhrase = true) {c : Char}
    (hb : c ≠ '\\') (hq : c ≠ '"') : s.next c = s := by
  rw [next, if_neg (by simp [h]), if_neg hb, if_neg hq, if_pos hp]

/-- Only a double quote opens or closes a phrase, and only a backslash makes the next
character an ordinary one. -/
theorem next_of_ne {s : Reader} (h : s.literal = false) {c : Char} (hb : c ≠ '\\') (hq : c ≠ '"') :
    (s.next c).inPhrase = s.inPhrase ∧ (s.next c).literal = false := by
  rw [next, if_neg (by simp [h]), if_neg hb, if_neg hq]
  split
  · exact ⟨rfl, h⟩
  · split
    · exact ⟨rfl, h⟩
    · split <;> exact ⟨rfl, h⟩

theorem next_opening {s : Reader} (h : s.literal = false) (hp : s.inPhrase = false) :
    s.next '(' = { s with depth := s.depth + 1 } := by
  simp [next, h, hp]

theorem next_closing {s : Reader} (h : s.literal = false) (hp : s.inPhrase = false) :
    s.next ')' = { s with depth := s.depth - 1 } := by
  simp [next, h, hp]

theorem literal_next_quote (s : Reader) : (s.next '"').literal = false := by
  cases h : s.literal with
  | false => rw [next_quote h]; exact h
  | true => rw [next_of_literal h]

@[simp] theorem staysInside_nil (s : Reader) : s.StaysInside [] ↔ 0 < s.depth := Iff.rfl

@[simp] theorem staysInside_cons (s : Reader) (c : Char) (text : List Char) :
    s.StaysInside (c :: text) ↔ 0 < s.depth ∧ (s.next c).StaysInside text := Iff.rfl

theorem StaysInside.depth_pos {s : Reader} {text : List Char} (h : s.StaysInside text) :
    0 < s.depth := by
  cases text with
  | nil => exact h
  | cons c text => exact h.1

theorem staysInside_append {s : Reader} {first second : List Char} :
    s.StaysInside (first ++ second) ↔
      s.StaysInside first ∧ (s.read first).StaysInside second := by
  induction first generalizing s with
  | nil => exact ⟨fun h => ⟨h.depth_pos, h⟩, fun h => h.2⟩
  | cons c first ih =>
      rw [List.cons_append, staysInside_cons, staysInside_cons, ih, and_assoc, read_cons]

theorem staysInside_iff {s : Reader} {text : List Char} :
    s.StaysInside text ↔ ∀ front, front <+: text → 0 < (s.read front).depth := by
  induction text generalizing s with
  | nil =>
      constructor
      · intro h front hf
        rw [List.prefix_nil.mp hf]
        exact h
      · exact fun h => h [] (List.prefix_refl [])
  | cons c text ih =>
      constructor
      · intro h front hf
        cases front with
        | nil => exact h.1
        | cons d front =>
            obtain ⟨rfl, tail⟩ := List.cons_prefix_cons.mp hf
            exact ih.mp h.2 front tail
      · intro h
        refine ⟨h [] List.nil_prefix, ih.mpr fun front hf => ?_⟩
        exact h (c :: front) (List.cons_prefix_cons.mpr ⟨rfl, hf⟩)

/-- Phrases, one right after the other. -/
def quoted (phrases : List (List Char)) : List Char :=
  phrases.flatMap fun phrase => '"' :: phrase ++ ['"']

@[simp] theorem quoted_nil : quoted [] = [] := rfl

@[simp] theorem quoted_cons (phrase : List Char) (phrases : List (List Char)) :
    quoted (phrase :: phrases) = '"' :: phrase ++ '"' :: quoted phrases := by
  simp [quoted]

theorem quoted_append (first second : List (List Char)) :
    quoted (first ++ second) = quoted first ++ quoted second :=
  List.flatMap_append

/-- No backslash in a phrase counts behind its closing quote. -/
theorem literal_read_quoted {s : Reader} (h : s.literal = false) (phrases : List (List Char)) :
    (s.read (quoted phrases)).literal = false := by
  induction phrases generalizing s with
  | nil => exact h
  | cons phrase phrases ih =>
      rw [quoted_cons, read_append, read_cons]
      exact ih (literal_next_quote _)

/-- Whether a character is ordinary to a reader: no backslash, no double quote and
no parenthesis. -/
def isPlain (c : Char) : Bool :=
  c != '\\' && c != '"' && c != '(' && c != ')'

theorem next_of_isPlain {s : Reader} (h : s.literal = false) {c : Char} (hc : isPlain c = true) :
    s.next c = s := by
  simp only [isPlain, Bool.and_eq_true, bne_iff_ne] at hc
  simp [next, h, hc.1.1.1, hc.1.1.2, hc.1.2, hc.2]

theorem isPlain_of_not_isSpecial {c : Char} (h : Text.isSpecial c = false) : isPlain c = true := by
  rw [isPlain]
  simp only [Bool.and_eq_true, bne_iff_ne]
  refine ⟨⟨⟨?_, ?_⟩, ?_⟩, ?_⟩ <;>
    · rintro rfl
      exact absurd h (by decide)

/-- A text and the phrases in it have the same effect on a reader. -/
def Mirrors (text : List Char) (phrases : List (List Char)) : Prop :=
  ∀ s : Reader, s.literal = false → s.read text = s.read (quoted phrases) ∧
    (s.StaysInside text ↔ s.StaysInside (quoted phrases))

theorem mirrors_quoted (phrases : List (List Char)) : Mirrors (quoted phrases) phrases :=
  fun _ _ => ⟨rfl, Iff.rfl⟩

theorem mirrors_nil : Mirrors [] [] :=
  mirrors_quoted []

theorem Mirrors.append {first second : List Char} {phrases phrases' : List (List Char)}
    (h : Mirrors first phrases) (h' : Mirrors second phrases') :
    Mirrors (first ++ second) (phrases ++ phrases') := by
  intro s hs
  obtain ⟨read_first, inside_first⟩ := h s hs
  obtain ⟨read_second, inside_second⟩ := h' _ (literal_read_quoted hs phrases)
  rw [quoted_append, read_append, read_append, staysInside_append, staysInside_append, read_first,
    read_second, inside_first, inside_second]
  exact ⟨rfl, Iff.rfl⟩

/-- Ordinary characters in front of a text do nothing. -/
theorem Mirrors.cons {c : Char} (hc : isPlain c = true) {text : List Char}
    {phrases : List (List Char)} (h : Mirrors text phrases) : Mirrors (c :: text) phrases := by
  intro s hs
  obtain ⟨read_text, inside_text⟩ := h s hs
  rw [read_cons, staysInside_cons, next_of_isPlain hs hc, ← inside_text]
  exact ⟨read_text, fun h => h.2, fun h => ⟨h.depth_pos, h⟩⟩

theorem mirrors_of_isPlain {text : List Char} (h : ∀ c ∈ text, isPlain c = true) :
    Mirrors text [] := by
  induction text with
  | nil => exact mirrors_nil
  | cons c text ih =>
      obtain ⟨hc, htext⟩ := List.forall_mem_cons.mp h
      exact (ih htext).cons hc

/-- Escaped characters do nothing, whatever they are. -/
theorem mirrors_escape (text : List Char) : Mirrors (Text.escape text) [] := by
  induction text with
  | nil => exact mirrors_nil
  | cons c text ih =>
      cases special : Text.isSpecial c with
      | false =>
          rw [Text.escape, special]
          exact ih.cons (isPlain_of_not_isSpecial special)
      | true =>
          rw [Text.escape, special]
          intro s hs
          have back : (s.next '\\').next c = s := by
            rw [next_backslash hs, next_of_literal rfl, ← hs]
          obtain ⟨read_text, inside_text⟩ := ih s hs
          simp only [if_true, read_cons, staysInside_cons, back]
          rw [inside_text, next_backslash hs]
          exact ⟨read_text, fun h => h.2.2, fun h => ⟨h, h, h⟩⟩

/-- Parentheses around a text without phrases do nothing on the whole. -/
theorem Mirrors.paren {text : List Char} (h : Mirrors text []) :
    Mirrors ('(' :: text ++ [')']) [] := by
  intro s hs
  cases hp : s.inPhrase with
  | true =>
      have open' : s.next '(' = s := next_of_inPhrase hs hp (by decide) (by decide)
      have close' : s.next ')' = s := next_of_inPhrase hs hp (by decide) (by decide)
      obtain ⟨read_text, inside_text⟩ := h s hs
      rw [quoted_nil, read_nil] at read_text
      rw [List.cons_append, read_cons, staysInside_cons, open', read_append, staysInside_append,
        read_text, inside_text, read_cons, staysInside_cons, close']
      exact ⟨rfl, fun h => h.1, fun h => ⟨h, h, h, h⟩⟩
  | false =>
      have close' : (s.next '(').next ')' = s := by
        rw [next_opening hs hp]
        exact next_closing (show Reader.literal { s with depth := s.depth + 1 } = false from hs) hp
      have hs' : (s.next '(').literal = false := by rw [next_opening hs hp]; exact hs
      obtain ⟨read_text, inside_text⟩ := h (s.next '(') hs'
      rw [quoted_nil, read_nil] at read_text
      rw [List.cons_append, read_cons, staysInside_cons, read_append, staysInside_append,
        read_text, inside_text, read_cons, staysInside_cons, close']
      have deep : 0 < (s.next '(').depth := by rw [next_opening hs hp]; exact Nat.succ_pos _
      exact ⟨rfl, fun h => h.1, fun h => ⟨h, deep, deep, h⟩⟩

/-- Texts that are joined by ordinary characters have the effect of all phrases in
them. -/
theorem mirrors_intercalate {α : Type} {separator : List Char}
    (hsep : ∀ c ∈ separator, isPlain c = true) {text : α → List Char}
    {phrases : α → List (List Char)} {items : List α}
    (h : ∀ item ∈ items, Mirrors (text item) (phrases item)) :
    Mirrors (separator.intercalate (items.map text)) (items.flatMap phrases) := by
  induction items with
  | nil => exact mirrors_nil
  | cons item items ih =>
      obtain ⟨here, there⟩ := List.forall_mem_cons.mp h
      cases items with
      | nil => simpa using here
      | cons next rest =>
          have joined := (mirrors_of_isPlain hsep).append (ih there)
          rw [List.map_cons, List.map_cons, List.intercalate_cons_cons, List.flatMap_cons,
            List.append_assoc]
          exact here.append joined

end Reader

end SearchIndex
