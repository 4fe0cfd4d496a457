import Mathlib.Data.List.DropRight
import SearchIndex.Term

/-!
# How a text is cut into spans

`Splits` says how a text is cut, from left to right and without a search: blanks are passed
over; where a quoted span begins, it goes up to the next double quote; everywhere else a
span is the longest run of characters that are not blank. There is one such way for each
text, and it is the one that is taken (`splits_iff`). Blanks around a text do not matter to it.

A span that is cut out is the only span of itself (`Found.spans_eq`), since a run that begins
no quoted span in the text begins none by itself. For the same reason such a run is never taken
for a quoted one, so its term is made of its sign, the text behind it and the wildcards at its
end. A span has no term if and only if it is bare syntax (`IsBare`).
-/

namespace SearchIndex

namespace Text

/-- The double quotes around a text without any are those that are removed. -/
theorem withoutQuotes_quoted {inner : List Char} (h : '"' ∉ inner) :
    withoutQuotes ('"' :: inner ++ ['"']) = inner := by
  have stop : ∀ text : List Char, '"' ∉ text → text.dropWhile (· == '"') = text := by
    intro text ht
    cases text with
    | nil => rfl
    | cons c text =>
        have hc : c ≠ '"' := fun hc => ht (hc ▸ List.mem_cons_self)
        exact List.dropWhile_cons_of_neg (by simpa using hc)
  rw [withoutQuotes, List.cons_append, List.dropWhile_cons_of_pos rfl]
  cases inner with
  | nil => rfl
  | cons c rest =>
      have hc : c ≠ '"' := fun hc => h (hc ▸ List.mem_cons_self)
      have first : (c :: rest ++ ['"']).dropWhile (· == '"') = c :: rest ++ ['"'] :=
        List.dropWhile_cons_of_neg (by simpa using hc)
      have back : '"' ∉ (c :: rest).reverse := fun mem => h (List.mem_reverse.mp mem)
      rw [first, List.reverse_append, List.reverse_singleton, List.singleton_append,
        List.dropWhile_cons_of_pos rfl, stop _ back, List.reverse_reverse]

/-- Blanks are all that trimming takes away at the end. -/
theorem exists_trimEnd_append (text : List Char) :
    ∃ tail, text = trimEnd text ++ tail ∧ ∀ c ∈ tail, isBlank c = true := by
  refine ⟨(text.reverse.takeWhile isBlank).reverse, ?_, ?_⟩
  · calc
      text = (text.reverse.takeWhile isBlank ++ text.reverse.dropWhile isBlank).reverse := by
        rw [List.takeWhile_append_dropWhile, List.reverse_reverse]
      _ = trimEnd text ++ (text.reverse.takeWhile isBlank).reverse := List.reverse_append
  · intro c hc
    exact List.mem_takeWhile_imp (List.mem_reverse.mp hc)

end Text

/-- A character that is read as a sign is that of the sign. -/
theorem Sign.ofChar?_eq_some_iff {c : Char} {s : Sign} : ofChar? c = some s ↔ c = s.char := by
  constructor
  · intro h
    unfold ofChar? at h
    split at h
    · next plus => rw [plus, ← Option.some.inj h, char]
    · split at h
      · next minus => rw [minus, ← Option.some.inj h, char]
      · cases h
  · rintro rfl
    exact ofChar?_char s

namespace Term

/-- The sign of a term as it is written. -/
def signText (sign : Option Sign) : List Char :=
  (sign.map Sign.char).toList

/-- A text between double quotes, with a sign or none in front. -/
def quotedText (sign : Option Sign) (inner : List Char) : List Char :=
  signText sign ++ '"' :: inner ++ ['"']

/-- A quoted span begins a text. -/
def BeginsQuoted (text : List Char) : Prop :=
  ∃ sign inner rest, '"' ∉ inner ∧ text = quotedText sign inner ++ rest

/-- The ways of cutting a text into spans. -/
inductive Splits : List Char → List (List Char) → Prop where
  | nil : Splits [] []
  | blank {c : Char} {text : List Char} {found : List (List Char)} :
      Text.isBlank c = true → Splits text found → Splits (c :: text) found
  | quoted (sign : Option Sign) {inner rest : List Char} {found : List (List Char)} :
      '"' ∉ inner → Splits rest found →
      Splits (quotedText sign inner ++ rest) (quotedText sign inner :: found)
  | run {run rest : List Char} {found : List (List Char)} :
      run ≠ [] → (∀ c ∈ run, Text.isBlank c = false) → (∀ c ∈ rest.head?, Text.isBlank c = true) →
      ¬BeginsQuoted (run ++ rest) → Splits rest found → Splits (run ++ rest) (run :: found)

/-- A text that may be cut out of another one: a quoted span or a run. -/
inductive Found : List Char → Prop where
  | quoted (sign : Option Sign) {inner : List Char} : '"' ∉ inner → Found (quotedText sign inner)
  | run {run : List Char} : run ≠ [] → (∀ c ∈ run, Text.isBlank c = false) → ¬BeginsQuoted run →
      Found run

theorem getLast?_quotedText (sign : Option Sign) (inner : List Char) :
    (quotedText sign inner).getLast? = some '"' :=
  List.getLast?_concat

/-! ### The search for a span -/

theorem exists_quotedText_eq (sign : Option Sign) (inner : List Char) :
    ∃ c text, quotedText sign inner = c :: text ∧ Text.isBlank c = false := by
  cases sign with
  | none => exact ⟨'"', inner ++ ['"'], rfl, by decide⟩
  | some s => exact ⟨s.char, '"' :: inner ++ ['"'], rfl, by cases s <;> decide⟩

/-- A quoted span ends at the next double quote. -/
theorem quotedSpan?_append {inner : List Char} (h : '"' ∉ inner) (rest : List Char) :
    quotedSpan? ('"' :: inner ++ '"' :: rest) = some ('"' :: inner ++ ['"'], rest) := by
  have inside : ∀ c ∈ inner, (c != '"') = true := by
    intro c hc
    have : c ≠ '"' := fun quote => h (quote ▸ hc)
    simpa using this
  have after : (inner ++ '"' :: rest).dropWhile (· != '"') = '"' :: rest := by
    rw [List.dropWhile_append_of_pos inside]
    rfl
  have before : (inner ++ '"' :: rest).takeWhile (· != '"') = inner := by
    rw [List.takeWhile_append_of_pos inside]
    exact List.append_nil inner
  rw [List.cons_append, quotedSpan?, after]
  simp only [before]

theorem signedSpan?_quotedText (sign : Option Sign) {inner : List Char} (h : '"' ∉ inner)
    (rest : List Char) :
    signedSpan? (quotedText sign inner ++ rest) = some (quotedText sign inner, rest) := by
  have found := quotedSpan?_append h rest
  cases sign with
  | none => simpa [quotedText, signText, signedSpan?, Sign.ofChar?] using found
  | some s =>
      have step : signedSpan? (s.char :: ('"' :: inner ++ '"' :: rest)) =
          some (s.char :: ('"' :: inner ++ ['"']), rest) := by
        rw [signedSpan?, Sign.ofChar?_char, found]
        rfl
      simpa [quotedText, signText] using step

/-- A quoted span has no double quotes but those at its ends. -/
theorem exists_of_quotedSpan? {text span rest : List Char}
    (h : quotedSpan? text = some (span, rest)) :
    ∃ inner, '"' ∉ inner ∧ span = '"' :: inner ++ ['"'] ∧ text = span ++ rest := by
  unfold quotedSpan? at h
  split at h
  · next text =>
    split at h
    · next rest' after =>
      simp only [Option.some.injEq, Prod.mk.injEq] at h
      obtain ⟨rfl, rfl⟩ := h
      refine ⟨text.takeWhile (· != '"'), ?_, rfl, ?_⟩
      · intro mem
        simpa using List.mem_takeWhile_imp mem
      · have whole := List.takeWhile_append_dropWhile (p := (· != '"')) (l := text)
        rw [after] at whole
        simpa using whole.symm
    · cases h
  · cases h

theorem exists_of_signedSpan? {text span rest : List Char}
    (h : signedSpan? text = some (span, rest)) :
    ∃ sign inner, '"' ∉ inner ∧ span = quotedText sign inner ∧ text = span ++ rest := by
  unfold signedSpan? at h
  split at h
  · cases h
  · next c tail =>
    split at h
    · next sign hsign =>
      obtain ⟨⟨span', rest'⟩, found, he⟩ := Option.map_eq_some_iff.mp h
      obtain ⟨rfl, rfl⟩ := Prod.mk.inj he
      obtain ⟨inner, hinner, rfl, whole⟩ := exists_of_quotedSpan? found
      obtain rfl := Sign.ofChar?_eq_some_iff.mp hsign
      refine ⟨some sign, inner, hinner, rfl, ?_⟩
      rw [whole]
      rfl
    · obtain ⟨inner, hinner, rfl, whole⟩ := exists_of_quotedSpan? h
      exact ⟨none, inner, hinner, rfl, whole⟩

theorem signedSpan?_eq_none_iff {text : List Char} :
    signedSpan? text = none ↔ ¬BeginsQuoted text := by
  constructor
  · rintro none ⟨sign, inner, rest, hinner, rfl⟩
    rw [signedSpan?_quotedText sign hinner] at none
    cases none
  · intro plain
    cases found : signedSpan? text with
    | none => rfl
    | some pair =>
        obtain ⟨sign, inner, hinner, span, whole⟩ := exists_of_signedSpan? found
        exact absurd ⟨sign, inner, pair.2, hinner, by rw [whole, span]⟩ plain

theorem firstSpan_quotedText (sign : Option Sign) {inner : List Char} (h : '"' ∉ inner)
    (rest : List Char) :
    firstSpan (quotedText sign inner ++ rest) = (quotedText sign inner, rest) := by
  rw [firstSpan, signedSpan?_quotedText sign h, Option.getD_some]

theorem firstSpan_run {run rest : List Char} (filled : ∀ c ∈ run, Text.isBlank c = false)
    (ended : ∀ c ∈ rest.head?, Text.isBlank c = true) (plain : ¬BeginsQuoted (run ++ rest)) :
    firstSpan (run ++ rest) = (run, rest) := by
  have inside : ∀ c ∈ run, (!Text.isBlank c) = true := fun c hc => by simp [filled c hc]
  have outside : rest.takeWhile (!Text.isBlank ·) = [] ∧
      rest.dropWhile (!Text.isBlank ·) = rest := by
    cases rest with
    | nil => exact ⟨rfl, rfl⟩
    | cons c rest => simp [ended c rfl]
  rw [firstSpan, signedSpan?_eq_none_iff.mpr plain, Option.getD_none, plainSpan,
    List.takeWhile_append_of_pos inside, List.dropWhile_append_of_pos inside, outside.1, outside.2,
    List.append_nil]

/-- The first span of a text that does not begin with a quoted one is the longest run of
characters that are not blank. -/
theorem exists_run {c : Char} (filled : Text.isBlank c = false) (text : List Char) :
    ∃ run rest, c :: text = run ++ rest ∧ run ≠ [] ∧ (∀ c ∈ run, Text.isBlank c = false) ∧
      ∀ c ∈ rest.head?, Text.isBlank c = true := by
  refine ⟨(c :: text).takeWhile (!Text.isBlank ·), (c :: text).dropWhile (!Text.isBlank ·),
    List.takeWhile_append_dropWhile.symm, ?_, ?_, ?_⟩
  · simp [filled]
  · intro d hd
    simpa using List.mem_takeWhile_imp hd
  · intro d hd
    have kept : (c :: text).dropWhile (!Text.isBlank ·) ≠ [] := by
      intro none
      rw [none] at hd
      cases hd
    have first := List.head_dropWhile_not (!Text.isBlank ·) kept
    rw [Option.mem_def, List.head?_eq_some_head kept, Option.some.injEq] at hd
    simpa [hd] using first

/-! ### There is one way of cutting a text -/

theorem spans_of_isBlank {c : Char} (h : Text.isBlank c = true) (text : List Char) :
    spans (c :: text) = spans text := by
  rw [spans, dif_pos h]

theorem spans_of_firstSpan {c : Char} (h : Text.isBlank c = false) {text span rest : List Char}
    (first : firstSpan (c :: text) = (span, rest)) : spans (c :: text) = span :: spans rest := by
  rw [spans, dif_neg (by simp [h]), first]

theorem splits_spans (text : List Char) : Splits text (spans text) := by
  induction text using spans.induct with
  | case1 =>
      rw [spans]
      exact .nil
  | case2 c text blank ih =>
      rw [spans_of_isBlank blank]
      exact .blank blank ih
  | case3 c text filled ih =>
      have filled := Bool.eq_false_iff.mpr filled
      by_cases quoted : BeginsQuoted (c :: text)
      · obtain ⟨sign, inner, rest, hinner, whole⟩ := quoted
        have first := firstSpan_quotedText sign hinner rest
        rw [← whole] at first
        rw [first] at ih
        rw [spans_of_firstSpan filled first, whole]
        exact .quoted sign hinner ih
      · obtain ⟨run, rest, whole, nonempty, inside, ended⟩ := exists_run filled text
        rw [whole] at quoted
        have first := firstSpan_run inside ended quoted
        rw [← whole] at first
        rw [first] at ih
        rw [spans_of_firstSpan filled first, whole]
        exact .run nonempty inside ended quoted ih

theorem Splits.spans_eq {text : List Char} {found : List (List Char)} (h : Splits text found) :
    spans text = found := by
  induction h with
  | nil => rw [spans]
  | blank blank _ ih => rw [spans_of_isBlank blank, ih]
  | @quoted sign inner rest found hinner _ ih =>
      obtain ⟨c, text, head, filled⟩ := exists_quotedText_eq sign inner
      have first := firstSpan_quotedText sign hinner rest
      rw [head, List.cons_append] at first ⊢
      rw [spans_of_firstSpan filled first, ih]
  | @run run rest found nonempty inside ended plain _ ih =>
      obtain ⟨c, text, rfl⟩ := List.exists_cons_of_ne_nil nonempty
      have first := firstSpan_run inside ended plain
      rw [List.cons_append] at first ⊢
      rw [spans_of_firstSpan (inside c List.mem_cons_self) first, ih]

/-- There is exactly one way of cutting a text into spans. -/
theorem splits_iff {text : List Char} {found : List (List Char)} :
    Splits text found ↔ found = spans text := by
  constructor
  · intro h
    exact h.spans_eq.symm
  · rintro rfl
    exact splits_spans text

/-- Spans are made of characters of the text. -/
theorem Splits.subset {text : List Char} {found : List (List Char)} (h : Splits text found) :
    ∀ span ∈ found, span ⊆ text := by
  induction h with
  | nil => exact List.forall_mem_nil _
  | blank _ _ ih => exact fun span hs => List.subset_cons_of_subset _ (ih span hs)
  | quoted _ _ _ ih =>
      refine List.forall_mem_cons.mpr ⟨List.subset_append_left _ _, fun span hs => ?_⟩
      exact List.subset_append_of_subset_right _ (ih span hs)
  | run _ _ _ _ _ ih =>
      refine List.forall_mem_cons.mpr ⟨List.subset_append_left _ _, fun span hs => ?_⟩
      exact List.subset_append_of_subset_right _ (ih span hs)

/-! ### Blanks around a text -/

theorem spans_trimStart (text : List Char) : spans (Text.trimStart text) = spans text := by
  induction text with
  | nil => rfl
  | cons c text ih =>
      cases blank : Text.isBlank c with
      | true =>
          rw [spans_of_isBlank blank, ← ih, Text.trimStart, Text.trimStart,
            List.dropWhile_cons_of_pos blank]
      | false => rw [Text.trimStart, List.dropWhile_cons_of_neg (by simp [blank])]

/-- Text without double quotes does not end a quoted span that began in front of it. -/
theorem BeginsQuoted.of_append {text tail : List Char} (h : BeginsQuoted (text ++ tail))
    (quiet : '"' ∉ tail) : BeginsQuoted text := by
  obtain ⟨sign, inner, rest, hinner, whole⟩ := h
  rcases List.append_eq_append_iff.mp whole with ⟨part, span, tailEq⟩ | ⟨part, textEq, -⟩
  · rcases List.eq_nil_or_concat' part with rfl | ⟨front, c, rfl⟩
    · exact ⟨sign, inner, [], hinner, by simpa using span.symm⟩
    · have last : some '"' = some c := by
        rw [← getLast?_quotedText sign inner, span, ← List.append_assoc, List.getLast?_concat]
      refine absurd ?_ quiet
      rw [tailEq, Option.some.inj last]
      simp
  · exact ⟨sign, inner, part, hinner, textEq⟩

theorem BeginsQuoted.append {text : List Char} (h : BeginsQuoted text) (tail : List Char) :
    BeginsQuoted (text ++ tail) := by
  obtain ⟨sign, inner, rest, hinner, rfl⟩ := h
  exact ⟨sign, inner, rest ++ tail, hinner, List.append_assoc _ _ _⟩

theorem splits_blank {tail : List Char} (h : ∀ c ∈ tail, Text.isBlank c = true) :
    Splits tail [] := by
  induction tail with
  | nil => exact .nil
  | cons c tail ih =>
      obtain ⟨here, there⟩ := List.forall_mem_cons.mp h
      exact .blank here (ih there)

theorem Splits.append_blank {text : List Char} {found : List (List Char)} (h : Splits text found)
    {tail : List Char} (blank : ∀ c ∈ tail, Text.isBlank c = true) :
    Splits (text ++ tail) found := by
  have quiet : '"' ∉ tail := fun mem => by
    have := blank _ mem
    revert this
    decide
  induction h with
  | nil => exact splits_blank blank
  | blank here _ ih => exact .blank here ih
  | quoted sign hinner _ ih =>
      rw [List.append_assoc]
      exact .quoted sign hinner ih
  | @run run rest found nonempty inside ended plain _ ih =>
      have later : ∀ c ∈ (rest ++ tail).head?, Text.isBlank c = true := by
        intro c hc
        cases rest with
        | nil => exact blank c (List.mem_of_mem_head? hc)
        | cons d rest => exact ended c hc
      have still : ¬BeginsQuoted (run ++ (rest ++ tail)) := by
        intro quoted
        rw [← List.append_assoc] at quoted
        exact plain (quoted.of_append quiet)
      rw [List.append_assoc]
      exact .run nonempty inside later still ih

/-- Blanks around a text do not matter. -/
theorem spans_trim (text : List Char) : spans (Text.trim text) = spans text := by
  obtain ⟨tail, whole, blank⟩ := Text.exists_trimEnd_append (Text.trimStart text)
  have trimmed := (splits_spans (Text.trim text)).append_blank blank
  rw [Text.trim, ← whole] at trimmed
  calc
    spans (Text.trim text) = spans (Text.trimStart text) := trimmed.spans_eq.symm
    _ = spans text := spans_trimStart text

theorem ofText_trim (text : List Char) : ofText (Text.trim text) = ofText text := by
  rw [ofText, spans_trim, ofText]

/-! ### Spans that are cut out -/

theorem Splits.found {text : List Char} {found : List (List Char)} (h : Splits text found) :
    ∀ span ∈ found, Found span := by
  induction h with
  | nil => exact List.forall_mem_nil _
  | blank _ _ ih => exact ih
  | quoted sign hinner _ ih => exact List.forall_mem_cons.mpr ⟨.quoted sign hinner, ih⟩
  | run nonempty inside _ plain _ ih =>
      exact List.forall_mem_cons.mpr
        ⟨.run nonempty inside fun quoted => plain (quoted.append _), ih⟩

theorem found_of_mem_spans {text span : List Char} (h : span ∈ spans text) : Found span :=
  (splits_spans text).found span h

/-- A span that is cut out of a text is cut out as a whole when it stands by itself. -/
theorem Found.spans_eq {span : List Char} (h : Found span) : spans span = [span] := by
  cases h with
  | quoted sign hinner =>
      have alone := Splits.quoted sign hinner .nil
      rw [List.append_nil] at alone
      exact alone.spans_eq
  | run nonempty inside plain =>
      have unquoted : ¬BeginsQuoted (span ++ []) := by rwa [List.append_nil]
      have alone := Splits.run nonempty inside (by simp) unquoted .nil
      rw [List.append_nil] at alone
      exact alone.spans_eq

theorem Found.ofText_eq {span : List Char} (h : Found span) : ofText span = (ofSpan? span).toList := by
  rw [ofText, h.spans_eq]
  cases term : ofSpan? span <;> simp [term]

/-! ### The term of a span -/

/-- The sign in front of a span. -/
def leadingSign (span : List Char) : Option Sign :=
  span.head?.bind Sign.ofChar?

/-- A span without the sign in front of it. -/
def unsigned (span : List Char) : List Char :=
  if (leadingSign span).isSome then span.tail else span

/-- Nothing but syntax: a sign or none, and behind it only wildcards, or only blanks between
double quotes. -/
inductive IsBare : List Char → Prop where
  | wildcards (sign : Option Sign) {run : List Char} :
      (∀ c ∈ run, isWildcard c = true) → IsBare (signText sign ++ run)
  | quotes (sign : Option Sign) {inner : List Char} :
      (∀ c ∈ inner, Text.isBlank c = true) → IsBare (quotedText sign inner)

theorem ofSpan?_eq (span : List Char) :
    ofSpan? span = ofUnsigned? (leadingSign span) (unsigned span) := by
  cases span with
  | nil => rfl
  | cons c text =>
      have lead : leadingSign (c :: text) = Sign.ofChar? c := rfl
      rw [ofSpan?, unsigned, lead]
      cases Sign.ofChar? c <;> rfl

theorem leadingSign_append {sign : Option Sign} {text : List Char}
    (h : ∀ c ∈ text.head?, Sign.ofChar? c = none) : leadingSign (signText sign ++ text) = sign := by
  cases sign with
  | none =>
      cases text with
      | nil => rfl
      | cons c text => exact h c rfl
  | some s => exact Sign.ofChar?_char s

theorem unsigned_append {sign : Option Sign} {text : List Char}
    (h : ∀ c ∈ text.head?, Sign.ofChar? c = none) : unsigned (signText sign ++ text) = text := by
  rw [unsigned, leadingSign_append h]
  cases sign <;> rfl

theorem leadingSign_quotedText (sign : Option Sign) (inner : List Char) :
    leadingSign (quotedText sign inner) = sign := by
  cases sign with
  | none => rfl
  | some s => exact Sign.ofChar?_char s

theorem unsigned_quotedText (sign : Option Sign) (inner : List Char) :
    unsigned (quotedText sign inner) = '"' :: inner ++ ['"'] := by
  rw [unsigned, leadingSign_quotedText]
  cases sign <;> rfl

/-- A span is its sign and what is behind it. -/
theorem signText_append_unsigned (span : List Char) :
    signText (leadingSign span) ++ unsigned span = span := by
  cases span with
  | nil => rfl
  | cons c text =>
      have lead : leadingSign (c :: text) = Sign.ofChar? c := rfl
      cases found : Sign.ofChar? c with
      | none =>
          rw [unsigned, lead, found]
          rfl
      | some s =>
          rw [unsigned, lead, found, Sign.ofChar?_eq_some_iff.mp found]
          rfl

theorem ofSpan?_append {sign : Option Sign} {text : List Char}
    (h : ∀ c ∈ text.head?, Sign.ofChar? c = none) :
    ofSpan? (signText sign ++ text) = ofUnsigned? sign text := by
  rw [ofSpan?_eq, leadingSign_append h, unsigned_append h]

/-- Behind a double quote that begins no quoted span there is no other one. -/
theorem beginsQuoted_of_mem (sign : Option Sign) {text : List Char} (h : '"' ∈ text) :
    BeginsQuoted (signText sign ++ '"' :: text) := by
  obtain ⟨inner, rest, rfl, hinner⟩ := List.eq_append_cons_of_mem h
  exact ⟨sign, inner, rest, hinner, by simp [quotedText]⟩

/-- A text that begins no quoted span is a plain one: what is in front of the wildcards at
its end is escaped. -/
theorem ofUnsigned?_of_plain {sign : Option Sign} {text : List Char}
    (plain : ¬BeginsQuoted (signText sign ++ text)) :
    ofUnsigned? sign text =
      if text.all isWildcard then none
      else some { sign, body := Text.escape (text.rdropWhile isWildcard),
                  wildcard := text.rtakeWhile isWildcard } := by
  have unquoted : ¬(2 ≤ text.length ∧ text.head? = some '"' ∧ text.getLast? = some '"') := by
    rintro ⟨long, head, last⟩
    match text, long, head with
    | c :: d :: text, _, head =>
        obtain rfl : c = '"' := Option.some.inj head
        rw [List.getLast?_cons_cons] at last
        exact plain (beginsQuoted_of_mem sign (List.mem_of_getLast? last))
  have empty : (text.rdropWhile isWildcard).isEmpty = text.all isWildcard := by
    rw [Bool.eq_iff_iff, List.isEmpty_iff, List.rdropWhile_eq_nil_iff, List.all_eq_true]
  rw [ofUnsigned?, if_neg unquoted, ← empty]
  rfl

theorem ofUnsigned?_quoted (sign : Option Sign) {inner : List Char} (h : '"' ∉ inner) :
    ofUnsigned? sign ('"' :: inner ++ ['"']) =
      if inner.all Text.isBlank then none
      else some { sign, body := '"' :: inner ++ ['"'], quoted := true } := by
  have last : ('"' :: inner ++ ['"']).getLast? = some '"' := List.getLast?_concat
  have blank : (Text.trim inner).isEmpty = inner.all Text.isBlank := by
    rw [Bool.eq_iff_iff, List.isEmpty_iff, Text.trim_eq_nil_iff, List.all_eq_true]
  rw [ofUnsigned?, if_pos ⟨by simp, rfl, last⟩, Text.withoutQuotes_quoted h, blank]

theorem ofSpan?_quotedText (sign : Option Sign) {inner : List Char} (h : '"' ∉ inner) :
    ofSpan? (quotedText sign inner) =
      if inner.all Text.isBlank then none
      else some { sign, body := '"' :: inner ++ ['"'], quoted := true } := by
  rw [ofSpan?_eq, leadingSign_quotedText, unsigned_quotedText, ofUnsigned?_quoted sign h]

theorem ofSpan?_run {run : List Char} (plain : ¬BeginsQuoted run) :
    ofSpan? run =
      if (unsigned run).all isWildcard then none
      else some { sign := leadingSign run
                  body := Text.escape ((unsigned run).rdropWhile isWildcard)
                  wildcard := (unsigned run).rtakeWhile isWildcard } := by
  rw [ofSpan?_eq]
  apply ofUnsigned?_of_plain
  rwa [signText_append_unsigned]

/-- Bare syntax has no term. -/
theorem ofSpan?_of_isBare {span : List Char} (h : IsBare span) : ofSpan? span = none := by
  cases h with
  | @wildcards sign run all =>
      have unsigned : ∀ c ∈ run.head?, Sign.ofChar? c = none := by
        intro c hc
        have wildcard := all c (List.mem_of_mem_head? hc)
        rw [isWildcard, Bool.or_eq_true, beq_iff_eq, beq_iff_eq] at wildcard
        rcases wildcard with rfl | rfl <;> rfl
      have plain : ¬BeginsQuoted (signText sign ++ run) := by
        rintro ⟨sign', inner, rest, -, whole⟩
        have mem : '"' ∈ signText sign ++ run := by simp [whole, quotedText]
        rcases List.mem_append.mp mem with mem | mem
        · revert mem
          cases sign with
          | none => decide
          | some s => cases s <;> decide
        · exact absurd (all _ mem) (by decide)
      rw [ofSpan?_append unsigned, ofUnsigned?_of_plain plain, if_pos (List.all_eq_true.mpr all)]
  | @quotes sign inner blank =>
      have quiet : '"' ∉ inner := fun mem => absurd (blank _ mem) (by decide)
      rw [ofSpan?_quotedText sign quiet, if_pos (List.all_eq_true.mpr blank)]

/-- A span that is cut out has no term only if it is bare syntax. -/
theorem Found.ofSpan?_eq_none_iff {span : List Char} (h : Found span) :
    ofSpan? span = none ↔ IsBare span := by
  refine ⟨fun none => ?_, ofSpan?_of_isBare⟩
  cases h with
  | @quoted sign inner hinner =>
      rw [ofSpan?_quotedText sign hinner, ite_eq_left_iff] at none
      have blank : inner.all Text.isBlank = true := by simpa using none
      exact .quotes sign (List.all_eq_true.mp blank)
  | run _ _ plain =>
      rw [ofSpan?_run plain, ite_eq_left_iff] at none
      have wildcards : (unsigned span).all isWildcard = true := by simpa using none
      rw [← signText_append_unsigned span]
      exact .wildcards _ (List.all_eq_true.mp wildcards)

end Term

end SearchIndex
