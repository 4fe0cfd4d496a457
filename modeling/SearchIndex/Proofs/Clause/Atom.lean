import SearchIndex.Proofs.Clause.Containment
import SearchIndex.Proofs.Text.Symbols

/-!
# Clauses are atoms

Whoever cuts query text into symbols takes the text of a clause for a single atom, if
its field is one word and its value cannot leave its parentheses: what is in these
belongs to the word in front of them, and so does the weight behind them.
-/

namespace SearchIndex

open Reader

namespace Text

/-- Whether a character is an ordinary part of a word, not the colon behind a field. -/
def isWordPart (c : Char) : Bool :=
  isPlain c && !isBlank c && c != ':'

theorem scan_cons {word : List Char} {s : Reader} {colon : Bool} {c : Char}
    (h : (if s = {} then delimiter? colon c else none) = none) (text : List Char) :
    scan word s colon (c :: text) = scan (word ++ [c]) (s.next c) (s == {} && c == ':') text := by
  rw [scan, h]

theorem scan_word {text : List Char} (h : ∀ c ∈ text, isWordPart c = true) (word rest : List Char) :
    scan word {} false (text ++ rest) = scan (word ++ text) {} false rest := by
  induction text generalizing word with
  | nil => rw [List.nil_append, List.append_nil]
  | cons c text ih =>
      obtain ⟨here, there⟩ := List.forall_mem_cons.mp h
      simp only [isWordPart, Bool.and_eq_true, Bool.not_eq_true', bne_iff_ne] at here
      obtain ⟨⟨plain, filled⟩, not_colon⟩ := here
      have kept : delimiter? false c = none := by
        simp only [isPlain, Bool.and_eq_true, bne_iff_ne] at plain
        simp [delimiter?, filled, plain.1.2, plain.2]
      have colon : (c == ':') = false := beq_eq_false_iff_ne.mpr not_colon
      rw [List.cons_append, scan_cons (by rw [if_pos rfl, kept]), next_of_isPlain rfl plain, colon,
        Bool.and_false, ih there, List.append_assoc, List.singleton_append]

/-- Everything in parentheses belongs to the word. -/
theorem scan_inside {text : List Char} {s : Reader} (h : s.StaysInside text)
    (word rest : List Char) :
    scan word s false (text ++ rest) = scan (word ++ text) (s.read text) false rest := by
  induction text generalizing word s with
  | nil => rw [List.nil_append, List.append_nil, read_nil]
  | cons c text ih =>
      have deep : s ≠ {} := by
        rintro rfl
        exact absurd h.1 (by decide)
      have flag : (s == {}) = false := beq_eq_false_iff_ne.mpr deep
      rw [List.cons_append, scan_cons (if_neg deep), flag, Bool.false_and, ih h.2,
        List.append_assoc, List.singleton_append, read_cons]

theorem wordSymbols_of_mem {word : List Char} (h : '(' ∈ word) : wordSymbols word = [.atom word] := by
  have ne : ∀ keyword : List Char, '(' ∉ keyword → word ≠ keyword := by
    rintro keyword hk rfl
    exact hk h
  rw [wordSymbols, if_neg (ne _ (by decide)), if_neg (ne _ (by decide)), if_neg (ne _ (by decide)),
    if_neg (ne _ (by decide))]

theorem isWordPart_of_isDigit {c : Char} (h : isDigit c = true) : isWordPart c = true := by
  have filled : isBlank c = false := by
    simp only [isDigit, Bool.and_eq_true, decide_eq_true_eq] at h
    rw [isBlank, List.any_eq_false]
    have : '0'.toNat = 48 ∧ '9'.toNat = 57 := by decide
    simp only [blankRanges, List.forall_mem_cons, Bool.and_eq_true, decide_eq_true_eq]
    refine ⟨?_, ?_, ?_, ?_, ?_, ?_, ?_, ?_, ?_, ?_, List.forall_mem_nil _⟩ <;> omega
  have not_colon : c ≠ ':' := by
    rintro rfl
    exact absurd h (by decide)
  simp [isWordPart, isPlain_of_isDigit h, filled, not_colon]

end Text

namespace Clause

variable {c : Clause}

theorem isWordPart_boostText : ∀ ch ∈ c.boostText, Text.isWordPart ch = true := by
  rw [boostText]
  split
  · split
    · refine List.forall_mem_cons.mpr ⟨by decide, fun ch hch => ?_⟩
      rcases Decimal.of_mem_text hch with rfl | rfl | digit
      · decide
      · decide
      · exact Text.isWordPart_of_isDigit digit
    · exact List.forall_mem_nil _
  · exact List.forall_mem_nil _

/-- The text of a clause is one atom if its field is a single word and its value cannot
leave its parentheses. -/
theorem symbols?_body (nonempty : c.isEmpty = false)
    (field : ∀ ch ∈ Text.trim c.field.toList, Text.isWordPart ch = true)
    (enclosed : Encloses [] c.value []) : Text.symbols? c.body = some [.atom c.body] := by
  obtain ⟨inside, back⟩ :=
    (encloses_iff_read (List.forall_mem_nil _) (List.forall_mem_nil _)).mp enclosed
  have opened : ∀ word rest, Text.scan word {} false (':' :: '(' :: rest) =
      Text.scan (word ++ [':'] ++ ['(']) { depth := 1 } false rest := fun _ _ => rfl
  have closed : ∀ word rest, Text.scan word { depth := 1 } false (')' :: rest) =
      Text.scan (word ++ [')']) {} false rest := fun _ _ => rfl
  have written := body_eq nonempty
  have mem : '(' ∈ c.body := by
    rw [written]
    simp
  have scanned : Text.symbols? c.body = some (Text.wordSymbols c.body) := by
    have boost := Text.scan_word c.isWordPart_boostText
    have outside := Text.scan_word field []
    rw [written]
    generalize Text.trim c.field.toList = name at *
    calc Text.symbols? (name ++ ':' :: '(' :: c.value ++ ')' :: c.boostText)
        = Text.scan name {} false (':' :: '(' :: (c.value ++ ')' :: c.boostText)) := by
          rw [List.append_assoc, Text.symbols?, outside]
          rfl
      _ = Text.scan (name ++ [':'] ++ ['('] ++ c.value) { depth := 1 } false
            (')' :: c.boostText) := by
          rw [opened, Text.scan_inside inside, back]
      _ = Text.scan (name ++ [':'] ++ ['('] ++ c.value ++ [')'] ++ c.boostText) {} false [] := by
          rw [closed, ← boost, List.append_nil]
      _ = some (Text.wordSymbols (name ++ ':' :: '(' :: c.value ++ ')' :: c.boostText)) := by
          simp [Text.scan]
  rw [scanned, Text.wordSymbols_of_mem mem]

end Clause

end SearchIndex
