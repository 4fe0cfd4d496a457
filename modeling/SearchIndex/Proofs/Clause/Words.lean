import SearchIndex.Proofs.Clause.Whole
import SearchIndex.Proofs.Restriction.Blank

/-!
# Words are read back

A clause that takes its text apart, and neither searches fuzzily nor within a distance, writes
each word of a text without double quotes as one term. `SearchWord.ofQuery` lists what the words
of a text ask for, and `SearchWord.ofValue` reads the same from what the clause writes between
its parentheses: a term is up to the next space, its first character is the operator, the
wildcards at its end are its wildcards, and what is between them is unescaped.

Both lists are the same (`reads_compileWith`), so no word is lost, merged, cut or changed.
-/

namespace SearchIndex

namespace Text

/-- The words of a text: what is between its blanks. -/
def words (text : List Char) : List (List Char) :=
  (text.splitOnP isBlank).filter (!·.isEmpty)

theorem words_nil : words [] = [] := rfl

theorem words_cons_of_isBlank {c : Char} (h : isBlank c = true) (text : List Char) :
    words (c :: text) = words text := by
  have split := List.splitOnP_append_cons (p := isBlank) [] text h
  rw [List.nil_append, List.splitOnP_nil] at split
  rw [words, split]
  rfl

/-- A run of characters that are not blank is a word. -/
theorem words_append {run rest : List Char} (nonempty : run ≠ [])
    (filled : ∀ c ∈ run, isBlank c = false) (ended : ∀ c ∈ rest.head?, isBlank c = true) :
    words (run ++ rest) = run :: words rest := by
  have kept : ∀ others : List (List Char),
      (run :: others).filter (!·.isEmpty) = run :: others.filter (!·.isEmpty) := by
    intro others
    exact List.filter_cons_of_pos (by simpa using nonempty)
  cases rest with
  | nil => rw [List.append_nil, words, List.splitOnP_eq_singleton filled, kept, words_nil,
      List.filter_nil]
  | cons c rest =>
      have blank : isBlank c = true := ended c rfl
      rw [words_cons_of_isBlank blank, words,
        List.splitOnP_append_cons_of_forall_mem filled c blank, kept, words]

theorem getLast?_escape (text : List Char) : (escape text).getLast? = text.getLast? := by
  rcases List.eq_nil_or_concat' text with rfl | ⟨front, c, rfl⟩
  · rfl
  · rw [escape_append, escape_cons, List.getLast?_concat]
    split <;> simp

end Text

namespace Term

/-- The spans of a text without double quotes are its words. -/
theorem Splits.eq_words {text : List Char} {found : List (List Char)} (h : Splits text found)
    (unquoted : '"' ∉ text) : found = Text.words text := by
  induction h with
  | nil => rfl
  | blank blank _ ih =>
      rw [Text.words_cons_of_isBlank blank]
      exact ih fun mem => unquoted (List.mem_cons_of_mem _ mem)
  | quoted sign _ _ _ => exact absurd (by simp [quotedText]) unquoted
  | run nonempty filled ended _ _ ih =>
      rw [Text.words_append nonempty filled ended,
        ← ih fun mem => unquoted (List.mem_append_right _ mem)]

/-- A word of a text without double quotes has none itself, and no blanks. -/
theorem of_mem_words {text word : List Char} (unquoted : '"' ∉ text) (h : word ∈ Text.words text) :
    '"' ∉ word ∧ ∀ c ∈ word, Text.isBlank c = false := by
  have cut := splits_spans text
  rw [← cut.eq_words unquoted] at h
  have quiet : '"' ∉ word := fun mem => unquoted (cut.subset word h mem)
  refine ⟨quiet, ?_⟩
  cases cut.found word h with
  | quoted sign _ => exact absurd (by simp [quotedText]) quiet
  | run _ filled _ => exact filled

/-- The wildcards at the end of a text are told from what is in front of them. -/
theorem split_wildcards {front wildcards : List Char} (all : ∀ c ∈ wildcards, isWildcard c = true)
    (last : ∀ c ∈ front.getLast?, isWildcard c = false) :
    (front ++ wildcards).rdropWhile isWildcard = front ∧
      (front ++ wildcards).rtakeWhile isWildcard = wildcards := by
  have back : ∀ c ∈ wildcards.reverse, isWildcard c = true :=
    fun c hc => all c (List.mem_reverse.mp hc)
  have stop : front.reverse.dropWhile isWildcard = front.reverse ∧
      front.reverse.takeWhile isWildcard = [] := by
    rcases List.eq_nil_or_concat' front with rfl | ⟨start, c, rfl⟩
    · exact ⟨rfl, rfl⟩
    · simp [last c List.getLast?_concat]
  constructor
  · rw [List.rdropWhile, List.reverse_append, List.dropWhile_append_of_pos back, stop.1,
      List.reverse_reverse]
  · rw [List.rtakeWhile, List.reverse_append, List.takeWhile_append_of_pos back, stop.2,
      List.append_nil, List.reverse_reverse]

/-- Whether nothing but wildcards, or nothing at all, is behind the sign of a word. -/
def isBareWord (word : List Char) : Bool :=
  (unsigned word).all isWildcard

/-- The term of a word that is not bare syntax. -/
def ofWord (word : List Char) : Term where
  sign := leadingSign word
  body := Text.escape ((unsigned word).rdropWhile isWildcard)
  wildcard := (unsigned word).rtakeWhile isWildcard

theorem ofSpan?_word {word : List Char} (unquoted : '"' ∉ word) :
    ofSpan? word = if isBareWord word then none else some (ofWord word) := by
  have plain : ¬BeginsQuoted word := by
    rintro ⟨sign, inner, rest, -, rfl⟩
    exact unquoted (by simp [quotedText])
  exact ofSpan?_run plain

/-- The terms of a text without double quotes are those of its words. -/
theorem ofText_eq_map_words {text : List Char} (unquoted : '"' ∉ text) :
    ofText text = ((Text.words text).filter (!isBareWord ·)).map ofWord := by
  have quiet : ∀ word ∈ Text.words text, '"' ∉ word := fun _ h => (of_mem_words unquoted h).1
  rw [ofText, (splits_spans text).eq_words unquoted]
  generalize Text.words text = words at quiet
  induction words with
  | nil => rfl
  | cons word words ih =>
      obtain ⟨here, there⟩ := List.forall_mem_cons.mp quiet
      rw [List.filterMap_cons, ofSpan?_word here, ih there, List.filter_cons]
      cases isBareWord word <;> rfl

end Term

/-- A word as it is searched for. -/
structure SearchWord where
  operator : Char
  text : List Char
  wildcards : List Char
  deriving DecidableEq, Repr

namespace SearchWord

open Term (isWildcard isBareWord unsigned leadingSign)

/-- What a word asks for. It must match, unless there is a minus sign in front of it, and longer
words match as well, unless it has wildcards of its own. -/
def ofWord (word : List Char) : SearchWord where
  operator := if word.head? = some '-' then '-' else '+'
  text := (unsigned word).rdropWhile isWildcard
  wildcards :=
    if (unsigned word).rtakeWhile isWildcard = [] then ['*']
    else (unsigned word).rtakeWhile isWildcard

/-- What the words of a query ask for, without those that are bare syntax. -/
def ofQuery (query : List Char) : List SearchWord :=
  ((Text.words query).filter (!isBareWord ·)).map ofWord

/-- A term of the query language as it is read: its first character, the text without the
backslashes that make the next character an ordinary one, and the wildcards at the end. -/
def ofTerm? : List Char → Option SearchWord
  | [] => none
  | operator :: rest =>
    some { operator
           text := Text.unescape (rest.rdropWhile isWildcard)
           wildcards := rest.rtakeWhile isWildcard }

/-- The terms between the spaces of a text. -/
def ofValue (value : List Char) : List (Option SearchWord) :=
  (value.splitOn ' ').map ofTerm?

/-- The sign that is written in front of a term is the one of its word, or else a plus sign. -/
theorem char_leadingSign (word : List Char) :
    ((leadingSign word).getD .required).char = (ofWord word).operator := by
  cases word with
  | nil => rfl
  | cons c word =>
      by_cases plus : c = '+'
      · rw [plus]
        rfl
      · by_cases minus : c = '-'
        · rw [minus]
          rfl
        · simp [leadingSign, Sign.ofChar?, ofWord, plus, minus, Sign.char]

/-- The term of a word is written as what the word asks for, its text escaped. -/
theorem mandatory_ofWord (word : List Char) :
    (Term.ofWord word).mandatory true = (ofWord word).operator ::
      (Text.escape (ofWord word).text ++ (ofWord word).wildcards) := by
  rw [← char_leadingSign, Term.mandatory]
  cases own : (unsigned word).rtakeWhile isWildcard <;> simp [Term.ofWord, ofWord, own]

theorem isWildcard_of_mem_wildcards {word : List Char} :
    ∀ c ∈ (ofWord word).wildcards, isWildcard c = true := by
  intro c hc
  simp only [ofWord] at hc
  split at hc
  · rw [List.mem_singleton.mp hc]
    decide
  · exact List.mem_rtakeWhile_imp hc

/-- The term of a word is read as what the word asks for. -/
theorem ofTerm?_mandatory (word : List Char) :
    ofTerm? ((Term.ofWord word).mandatory true) = some (ofWord word) := by
  have last : ∀ c ∈ (Text.escape (ofWord word).text).getLast?, isWildcard c = false := by
    intro c hc
    rw [Text.getLast?_escape] at hc
    have nonempty : (ofWord word).text ≠ [] := List.ne_nil_of_mem (List.mem_of_getLast? hc)
    have stop := List.rdropWhile_last_not isWildcard (unsigned word) nonempty
    rw [Option.mem_def, List.getLast?_eq_some_getLast nonempty, Option.some.injEq] at hc
    rw [← hc]
    exact Bool.eq_false_iff.mpr stop
  obtain ⟨text, wildcards⟩ := Term.split_wildcards isWildcard_of_mem_wildcards last
  rw [mandatory_ofWord, ofTerm?, text, wildcards, Text.unescape_escape]

/-- Nothing in the term of a word separates it from itself. -/
theorem space_not_mem_mandatory {word : List Char} (filled : ∀ c ∈ word, Text.isBlank c = false) :
    ' ' ∉ (Term.ofWord word).mandatory true := by
  have text : ' ' ∉ (ofWord word).text := by
    intro mem
    have inside : (ofWord word).text ⊆ word := by
      intro c hc
      rw [← Term.signText_append_unsigned word]
      exact List.mem_append_right _ ((List.rdropWhile_prefix _ _).subset hc)
    exact absurd (filled ' ' (inside mem)) (by decide)
  rw [mandatory_ofWord, List.mem_cons, List.mem_append]
  rintro (operator | escaped | wildcard)
  · rw [ofWord] at operator
    split at operator <;> cases operator
  · rcases Text.mem_of_mem_escape escaped with backslash | mem
    · cases backslash
    · exact text mem
  · exact absurd (isWildcard_of_mem_wildcards ' ' wildcard) (by decide)

end SearchWord

namespace Clause

open SearchWord (ofQuery ofValue ofTerm?_mandatory space_not_mem_mandatory)

variable {c : Clause}

/-- The words that a clause searches for are written next to each other. -/
theorem value_eq_words (tokenized : c.tokenized = true) (fuzzy : c.fuzzy = none)
    (proximity : c.proximity = none) (unquoted : '"' ∉ c.query.toList) :
    c.value = mandatoryText
      (((Text.words c.query.toList).filter (!Term.isBareWord ·)).map Term.ofWord) := by
  rw [← Term.ofText_eq_map_words unquoted, ← Term.ofText_trim, value, tokenized, if_pos rfl, fuzzy,
    proximity]

/-- Terms next to each other are read one by one. -/
theorem ofValue_mandatoryText {words : List (List Char)} (nonempty : words ≠ [])
    (filled : ∀ word ∈ words, ∀ c ∈ word, Text.isBlank c = false) :
    ofValue (mandatoryText (words.map Term.ofWord)) = words.map fun word =>
      some (SearchWord.ofWord word) := by
  have apart : ∀ text ∈ (words.map Term.ofWord).map (·.mandatory true), ' ' ∉ text := by
    intro text mem
    rw [List.map_map] at mem
    obtain ⟨word, hw, rfl⟩ := List.mem_map.mp mem
    exact space_not_mem_mandatory (filled word hw)
  rw [ofValue, mandatoryText, List.splitOn_intercalate ' ' apart (by simpa using nonempty),
    List.map_map, List.map_map]
  exact List.map_congr_left fun word _ => ofTerm?_mandatory word

/-- A clause that takes a text without double quotes apart is empty only if its field is blank
or no word of the text asks for anything. Else what it writes between its parentheses is read
as what the words ask for, word by word. -/
theorem reads_compileWith (tokenized : c.tokenized = true) (fuzzy : c.fuzzy = none)
    (proximity : c.proximity = none) (unquoted : '"' ∉ c.query.toList) (negated : Bool) :
    ((Restriction.clause c).compileWith negated = "" ↔
      Text.isBlankText c.field = true ∨ ofQuery c.query.toList = []) ∧
    ((Restriction.clause c).compileWith negated ≠ "" → ∃ value,
      (Restriction.clause c).compileWith negated = String.ofList
        ((if negated then ['N', 'O', 'T', ' '] else []) ++ Text.trim c.field.toList ++
          ':' :: '(' :: value ++ ')' :: c.boostText) ∧
      ofValue value = (ofQuery c.query.toList).map some) := by
  have value := value_eq_words tokenized fuzzy proximity unquoted
  have nothing : c.value = [] ↔ ofQuery c.query.toList = [] := by
    rw [value, mandatoryText_eq_nil_iff, ofQuery, List.map_eq_nil_iff, List.map_eq_nil_iff]
  have empty : c.isEmpty = true ↔
      Text.isBlankText c.field = true ∨ ofQuery c.query.toList = [] := by
    rw [isEmpty_eq, Bool.or_eq_true, List.isEmpty_iff, nothing]
  have silent := (Restriction.clause c).compileWith_eq_empty_iff negated
  refine ⟨silent.trans empty, fun said => ⟨c.value, ?_, ?_⟩⟩
  · have filled : c.isEmpty = false := Bool.eq_false_iff.mpr (mt silent.mpr said)
    rw [Restriction.compileWith_clause, if_neg (by simp [filled]), body_eq filled]
    simp only [List.append_assoc, List.cons_append]
  · have asked : ofQuery c.query.toList ≠ [] :=
      fun none => said (silent.mpr (empty.mpr (.inr none)))
    have kept : (Text.words c.query.toList).filter (!Term.isBareWord ·) ≠ [] := by
      intro none
      exact asked (by rw [ofQuery, none, List.map_nil])
    have filled : ∀ word ∈ (Text.words c.query.toList).filter (!Term.isBareWord ·),
        ∀ ch ∈ word, Text.isBlank ch = false :=
      fun _ mem => (Term.of_mem_words unquoted (List.mem_filter.mp mem).1).2
    rw [value, ofValue_mandatoryText kept filled, ofQuery, List.map_map]
    rfl

/-- A search for words with signs, wildcards and a backslash, between bare syntax. -/
def markedWords : Clause :=
  { field := " title ", query := "-spam  a*b\\* + eg? **" }

theorem reads_compileWith_markedWords :
    (Restriction.clause markedWords).compileWith true =
        "NOT title:(-spam* +a\\*b\\\\* +eg?)" ∧
    ∃ value, (Restriction.clause markedWords).compileWith true = String.ofList
        (['N', 'O', 'T', ' '] ++ Text.trim markedWords.field.toList ++ ':' :: '(' :: value ++
          ')' :: markedWords.boostText) ∧
      ofValue value = [some ⟨'-', ['s', 'p', 'a', 'm'], ['*']⟩,
        some ⟨'+', ['a', '*', 'b', '\\'], ['*']⟩, some ⟨'+', ['e', 'g'], ['?']⟩] := by
  have written : markedWords.value = "-spam* +a\\*b\\\\* +eg?".toList := by cbv
  have nonempty : markedWords.isEmpty = false := by
    rw [isEmpty_eq, written]
    decide
  have text : (Restriction.clause markedWords).compileWith true =
      "NOT title:(-spam* +a\\*b\\\\* +eg?)" := by
    rw [Restriction.compileWith_clause, nonempty, body_eq nonempty, written]
    decide
  have filled : (Restriction.clause markedWords).compileWith true ≠ "" := by
    rw [text]
    decide
  obtain ⟨-, reads⟩ := reads_compileWith (c := markedWords) rfl rfl rfl (by decide) true
  obtain ⟨value, shape, back⟩ := reads filled
  exact ⟨text, value, shape, back.trans (by decide)⟩

end Clause

end SearchIndex
