import Mathlib.Data.List.Induction
import SearchIndex.Proofs.Text.Reader

/-!
# Phrases and parentheses that hold

`Encloses` says that a text between two parentheses cannot leave them: a reader
stays inside up to the closing parenthesis, which takes it out again. If a text
mirrors phrases, it is enclosed if and only if these phrases are
(`encloses_iff`). The phrases in turn are enclosed if none of them is loose, and
they are not if an odd number of them is: then a phrase is open at the end.
-/

namespace SearchIndex.Reader

/-- Whether a text ends in an odd number of backslashes. The last one of them is then
not an ordinary character, and makes one of what comes next. -/
def isLoose (text : List Char) : Bool :=
  (text.reverse.takeWhile (· == '\\')).length % 2 == 1

theorem isLoose_concat_backslash (text : List Char) :
    isLoose (text ++ ['\\']) = !isLoose text := by
  rw [isLoose, isLoose, List.reverse_append, List.reverse_singleton, List.singleton_append,
    List.takeWhile_cons_of_pos (by decide), List.length_cons, Bool.eq_iff_iff]
  simp only [beq_iff_eq, Bool.not_eq_true', beq_eq_false_iff_ne]
  omega

/-- Only what is behind the last other character counts. -/
theorem isLoose_append_cons (text : List Char) {c : Char} (hc : c ≠ '\\') (rest : List Char) :
    isLoose (text ++ c :: rest) = isLoose rest := by
  have stop : (c :: text.reverse).takeWhile (· == '\\') = [] :=
    List.takeWhile_cons_of_neg (by simpa using hc)
  have same : (rest.reverse ++ c :: text.reverse).takeWhile (· == '\\') =
      rest.reverse.takeWhile (· == '\\') := by
    rw [List.takeWhile_append, stop, List.append_nil]
    split
    · next full => exact ((List.takeWhile_prefix _).eq_of_length full).symm
    · rfl
  rw [isLoose, isLoose, List.reverse_append, List.reverse_cons, List.append_assoc,
    List.singleton_append, same]

theorem isLoose_intercalate {texts : List (List Char)} (h : ∀ text ∈ texts, isLoose text = false) :
    isLoose ([' '].intercalate texts) = false := by
  induction texts with
  | nil => rfl
  | cons text texts ih =>
      obtain ⟨here, there⟩ := List.forall_mem_cons.mp h
      cases texts with
      | nil => simpa using here
      | cons next rest =>
          rw [List.intercalate_cons_cons, List.append_assoc, List.singleton_append,
            isLoose_append_cons text (by decide)]
          exact ih there

/-- What the text of a phrase does to a reader: it neither closes the phrase nor
opens another one, and within a phrase it leaves the depth as it is. -/
def Quiet (text : List Char) : Prop :=
  ∀ s : Reader, s.literal = false →
    (s.read text).inPhrase = s.inPhrase ∧ (s.read text).literal = isLoose text ∧
    (s.inPhrase = true → (s.read text).depth = s.depth ∧ (0 < s.depth → s.StaysInside text))

theorem quiet_nil : Quiet [] :=
  fun _ hs => ⟨rfl, hs, fun _ => ⟨rfl, id⟩⟩

/-- One more character keeps a text quiet, unless it is a double quote that no
backslash is in front of. -/
theorem Quiet.concat {text : List Char} (h : Quiet text) {c : Char}
    (hc : c = '"' → isLoose text = true) : Quiet (text ++ [c]) := by
  intro s hs
  obtain ⟨phrase, lit, deep⟩ := h s hs
  have after : ((s.read text).next c).inPhrase = (s.read text).inPhrase ∧
      ((s.read text).next c).literal = isLoose (text ++ [c]) ∧
      ((s.read text).inPhrase = true → ((s.read text).next c).depth = (s.read text).depth) := by
    cases loose : isLoose text with
    | true =>
        rw [loose] at lit
        rw [next_of_literal lit]
        refine ⟨rfl, ?_, fun _ => rfl⟩
        by_cases hb : c = '\\'
        · rw [hb, isLoose_concat_backslash, loose]
          rfl
        · rw [isLoose_append_cons text hb]
          rfl
    | false =>
        rw [loose] at lit
        by_cases hb : c = '\\'
        · rw [hb, next_backslash lit, isLoose_concat_backslash, loose]
          exact ⟨rfl, rfl, fun _ => rfl⟩
        · have hq : c ≠ '"' := by
            intro hq
            rw [hc hq] at loose
            cases loose
          obtain ⟨same, lit'⟩ := next_of_ne lit hb hq
          rw [isLoose_append_cons text hb]
          exact ⟨same, lit', fun inside => by rw [next_of_inPhrase lit inside hb hq]⟩
  rw [read_append, read_cons, read_nil]
  refine ⟨after.1.trans phrase, after.2.1, fun inside => ?_⟩
  obtain ⟨same, stays⟩ := deep inside
  have kept := after.2.2 (phrase.trans inside)
  refine ⟨kept.trans same, fun positive => ?_⟩
  rw [staysInside_append, staysInside_cons, staysInside_nil, kept, same]
  exact ⟨stays positive, positive, positive⟩

theorem quiet_of_not_mem {text : List Char} (h : '"' ∉ text) : Quiet text := by
  induction text using List.reverseRecOn with
  | nil => exact quiet_nil
  | append_singleton text c ih =>
      rw [List.mem_append, not_or] at h
      apply (ih h.1).concat
      intro hc
      rw [hc] at h
      exact absurd (List.mem_singleton.mpr rfl) h.2

/-- A blank is an ordinary character behind a backslash or not. -/
theorem Quiet.blank {first second : List Char} (h : Quiet first) (h' : Quiet second) :
    Quiet (first ++ ' ' :: second) := by
  have blank : Quiet (first ++ [' ']) := h.concat fun hc => absurd hc (by decide)
  have settled : isLoose (first ++ [' ']) = false := isLoose_append_cons first (by decide) []
  intro s hs
  obtain ⟨phrase, lit, deep⟩ := blank s hs
  rw [settled] at lit
  obtain ⟨phrase', lit', deep'⟩ := h' _ lit
  rw [← List.singleton_append, ← List.append_assoc, read_append, List.append_assoc,
    List.singleton_append, isLoose_append_cons first (by decide)]
  refine ⟨phrase'.trans phrase, lit', fun inside => ?_⟩
  obtain ⟨same, stays⟩ := deep inside
  obtain ⟨same', stays'⟩ := deep' (phrase.trans inside)
  refine ⟨same'.trans same, fun positive => ?_⟩
  rw [← List.singleton_append, ← List.append_assoc, staysInside_append]
  exact ⟨stays positive, stays' (by rw [same]; exact positive)⟩

theorem quiet_intercalate {texts : List (List Char)} (h : ∀ text ∈ texts, Quiet text) :
    Quiet ([' '].intercalate texts) := by
  induction texts with
  | nil => exact quiet_nil
  | cons text texts ih =>
      obtain ⟨here, there⟩ := List.forall_mem_cons.mp h
      cases texts with
      | nil => simpa using here
      | cons next rest =>
          rw [List.intercalate_cons_cons, List.append_assoc]
          exact here.blank (ih there)

/-- A text that does nothing to any reader is quiet, and not loose. -/
theorem Mirrors.quiet {text : List Char} (h : Mirrors text []) (loose : isLoose text = false) :
    Quiet text := by
  intro s hs
  obtain ⟨read_text, inside_text⟩ := h s hs
  rw [quoted_nil, read_nil] at read_text
  rw [read_text, inside_text, loose]
  exact ⟨rfl, hs, fun _ => ⟨rfl, id⟩⟩

theorem isLoose_escape (text : List Char) : isLoose (Text.escape text) = false := by
  induction text using List.reverseRecOn with
  | nil => rfl
  | append_singleton text c ih =>
      rw [Text.escape_append]
      by_cases hb : c = '\\'
      · rw [hb, show Text.escape ['\\'] = ['\\'] ++ ['\\'] from rfl, ← List.append_assoc,
          isLoose_concat_backslash, isLoose_concat_backslash, ih]
        rfl
      · cases special : Text.isSpecial c with
        | false =>
            rw [show Text.escape [c] = [c] by simp [Text.escape, special],
              isLoose_append_cons _ hb]
            rfl
        | true =>
            rw [show Text.escape [c] = ['\\'] ++ [c] by simp [Text.escape, special],
              ← List.append_assoc, isLoose_append_cons _ hb]
            rfl

theorem quiet_escape (text : List Char) : Quiet (Text.escape text) :=
  (mirrors_escape text).quiet (isLoose_escape text)

theorem escapeQuotes_append (first second : List Char) :
    Text.escapeQuotes (first ++ second) = Text.escapeQuotes first ++ Text.escapeQuotes second := by
  induction first with
  | nil => rfl
  | cons c first ih =>
      rw [List.cons_append, Text.escapeQuotes, Text.escapeQuotes, ih]
      split <;> rfl

theorem escapeQuotes_concat_quote (text : List Char) :
    Text.escapeQuotes (text ++ ['"']) = Text.escapeQuotes text ++ ['\\'] ++ ['"'] := by
  rw [escapeQuotes_append, List.append_assoc]
  rfl

theorem escapeQuotes_concat_of_ne (text : List Char) {c : Char} (hc : c ≠ '"') :
    Text.escapeQuotes (text ++ [c]) = Text.escapeQuotes text ++ [c] := by
  rw [escapeQuotes_append, Text.escapeQuotes, if_neg hc, Text.escapeQuotes]

theorem isLoose_escapeQuotes (text : List Char) :
    isLoose (Text.escapeQuotes text) = isLoose text := by
  induction text using List.reverseRecOn with
  | nil => rfl
  | append_singleton text c ih =>
      by_cases hq : c = '"'
      · rw [hq, escapeQuotes_concat_quote, isLoose_append_cons _ (by decide),
          isLoose_append_cons _ (by decide)]
      · rw [escapeQuotes_concat_of_ne text hq]
        by_cases hb : c = '\\'
        · rw [hb, isLoose_concat_backslash, isLoose_concat_backslash, ih]
        · rw [isLoose_append_cons _ hb, isLoose_append_cons _ hb]

/-- A text with a backslash in front of each double quote is quiet if none of the double
quotes already had one that counts. -/
theorem quiet_escapeQuotes {text : List Char}
    (h : ∀ front, front ++ ['"'] <+: text → isLoose front = false) :
    Quiet (Text.escapeQuotes text) := by
  induction text using List.reverseRecOn with
  | nil => exact quiet_nil
  | append_singleton text c ih =>
      have quiet : Quiet (Text.escapeQuotes text) :=
        ih fun front hf => h front (hf.trans (List.prefix_append text [c]))
      by_cases hq : c = '"'
      · rw [hq] at h ⊢
        have settled : isLoose text = false := h text (List.prefix_refl _)
        have loose : isLoose (Text.escapeQuotes text ++ ['\\']) = true := by
          rw [isLoose_concat_backslash, isLoose_escapeQuotes, settled]
          rfl
        rw [escapeQuotes_concat_quote]
        exact (quiet.concat fun hc => absurd hc (by decide)).concat fun _ => loose
      · rw [escapeQuotes_concat_of_ne text hq]
        exact quiet.concat fun hc => absurd hc hq

/-- Closed phrases do nothing to a reader outside of a phrase. -/
theorem read_quoted_of_closed {phrases : List (List Char)} (quiet : ∀ p ∈ phrases, Quiet p)
    (closed : ∀ p ∈ phrases, isLoose p = false) {depth : Nat} (positive : 0 < depth) :
    ({ depth } : Reader).read (quoted phrases) = { depth } ∧
      ({ depth } : Reader).StaysInside (quoted phrases) := by
  induction phrases with
  | nil => exact ⟨rfl, positive⟩
  | cons phrase phrases ih =>
      obtain ⟨quiet_phrase, quiet_rest⟩ := List.forall_mem_cons.mp quiet
      obtain ⟨closed_phrase, closed_rest⟩ := List.forall_mem_cons.mp closed
      obtain ⟨read_rest, inside_rest⟩ := ih quiet_rest closed_rest
      have opened : ({ depth } : Reader).next '"' = { depth, inPhrase := true } := rfl
      have closes : ({ depth, inPhrase := true } : Reader).next '"' = { depth } := rfl
      obtain ⟨inPhrase, lit, deep⟩ := quiet_phrase { depth, inPhrase := true } rfl
      obtain ⟨same, stays⟩ := deep rfl
      have read_phrase : ({ depth, inPhrase := true } : Reader).read phrase =
          { depth, inPhrase := true } := by
        rw [closed_phrase] at lit
        generalize ({ depth, inPhrase := true } : Reader).read phrase = s at *
        cases s
        simp_all
      rw [quoted_cons, List.cons_append, read_cons, staysInside_cons, opened, read_append,
        staysInside_append, read_phrase, read_cons, staysInside_cons, closes]
      exact ⟨read_rest, positive, stays positive, positive, inside_rest⟩

/-- An odd number of loose phrases changes whether a phrase is open, an even number
does not. -/
theorem inPhrase_read_quoted {phrases : List (List Char)} (quiet : ∀ p ∈ phrases, Quiet p)
    {s : Reader} (hs : s.literal = false) :
    (s.read (quoted phrases)).inPhrase = (s.inPhrase != (phrases.countP isLoose % 2 == 1)) := by
  induction phrases generalizing s with
  | nil => simp
  | cons phrase phrases ih =>
      obtain ⟨quiet_phrase, quiet_rest⟩ := List.forall_mem_cons.mp quiet
      obtain ⟨inPhrase, lit, _⟩ := quiet_phrase (s.next '"') (literal_next_quote s)
      rw [quoted_cons, List.cons_append, read_cons, read_append, read_cons,
        ih quiet_rest (literal_next_quote _)]
      rw [next_quote hs] at inPhrase lit ⊢
      cases loose : isLoose phrase with
      | true =>
          have odd : ((phrases.countP isLoose + 1) % 2 == 1) = !(phrases.countP isLoose % 2 == 1) := by
            rw [Bool.eq_iff_iff]
            simp only [beq_iff_eq, Bool.not_eq_true', beq_eq_false_iff_ne]
            omega
          rw [loose] at lit
          rw [next_of_literal lit, inPhrase, List.countP_cons_of_pos loose, odd]
          cases s.inPhrase <;> simp
      | false =>
          rw [loose] at lit
          rw [next_quote lit, inPhrase, List.countP_cons_of_neg (by simp [loose]), Bool.not_not]

/-- A text between parentheses, with more text before and behind them, cannot leave
them: a reader stays inside up to the closing one, which takes it out again, and no
phrase is open at the end. -/
structure Encloses (before text after : List Char) : Prop where
  inside : ∀ front, front <+: text → 0 < (({} : Reader).read (before ++ '(' :: front)).depth
  outside : (({} : Reader).read (before ++ '(' :: text ++ [')'])).depth = 0
  closed : (({} : Reader).read (before ++ '(' :: text ++ ')' :: after)).inPhrase = false

/-- Ordinary characters before and behind the parentheses play no part. -/
theorem encloses_iff_read {before after : List Char} (hbefore : ∀ c ∈ before, isPlain c = true)
    (hafter : ∀ c ∈ after, isPlain c = true) {text : List Char} :
    Encloses before text after ↔
      ({ depth := 1 } : Reader).StaysInside text ∧
        ({ depth := 1 } : Reader).read text = { depth := 1 } := by
  have entered : ∀ rest, ({} : Reader).read (before ++ '(' :: rest) =
      ({ depth := 1 } : Reader).read rest := by
    intro rest
    rw [read_append, (mirrors_of_isPlain hbefore {} rfl).1]
    rfl
  constructor
  · rintro ⟨inside, outside, -⟩
    have stays : ({ depth := 1 } : Reader).StaysInside text := by
      rw [staysInside_iff]
      intro front hf
      have := inside front hf
      rwa [entered] at this
    refine ⟨stays, ?_⟩
    have positive := staysInside_iff.mp stays text (List.prefix_refl text)
    rw [List.append_assoc, List.cons_append, entered, read_append, read_cons, read_nil] at outside
    generalize ({ depth := 1 } : Reader).read text = s at positive outside
    obtain ⟨depth, inPhrase, lit⟩ := s
    cases lit <;> cases inPhrase <;> simp [next] at positive outside ⊢ <;> omega
  · rintro ⟨stays, back⟩
    refine ⟨fun front hf => ?_, ?_, ?_⟩
    · rw [entered]
      exact staysInside_iff.mp stays front hf
    · rw [List.append_assoc, List.cons_append, entered, read_append, back]
      rfl
    · rw [List.append_assoc, List.cons_append, entered, read_append, back, read_cons,
        (mirrors_of_isPlain hafter _ rfl).1]
      rfl

/-- A text is enclosed if and only if the phrases that it mirrors are. -/
theorem encloses_iff {before text after : List Char} {phrases : List (List Char)}
    (hbefore : ∀ c ∈ before, isPlain c = true) (hafter : ∀ c ∈ after, isPlain c = true)
    (h : Mirrors text phrases) :
    Encloses before text after ↔ Encloses [] (quoted phrases) [] := by
  obtain ⟨read_text, inside_text⟩ := h { depth := 1 } rfl
  rw [encloses_iff_read hbefore hafter, read_text, inside_text,
    encloses_iff_read (List.forall_mem_nil _) (List.forall_mem_nil _)]

theorem encloses_quoted_of_closed {phrases : List (List Char)} (quiet : ∀ p ∈ phrases, Quiet p)
    (closed : ∀ p ∈ phrases, isLoose p = false) : Encloses [] (quoted phrases) [] := by
  rw [encloses_iff_read (List.forall_mem_nil _) (List.forall_mem_nil _), and_comm]
  exact read_quoted_of_closed quiet closed Nat.one_pos

theorem encloses_of_isPlain {text : List Char} (h : ∀ c ∈ text, isPlain c = true) :
    Encloses [] text [] := by
  rw [encloses_iff (List.forall_mem_nil _) (List.forall_mem_nil _) (mirrors_of_isPlain h)]
  exact encloses_quoted_of_closed (List.forall_mem_nil _) (List.forall_mem_nil _)

theorem not_encloses_quoted_of_odd {phrases : List (List Char)} (quiet : ∀ p ∈ phrases, Quiet p)
    (odd : phrases.countP isLoose % 2 = 1) : ¬Encloses [] (quoted phrases) [] := by
  rw [encloses_iff_read (List.forall_mem_nil _) (List.forall_mem_nil _)]
  rintro ⟨-, back⟩
  have opened := inPhrase_read_quoted quiet (s := { depth := 1 }) rfl
  rw [back, odd] at opened
  cases opened

end SearchIndex.Reader
