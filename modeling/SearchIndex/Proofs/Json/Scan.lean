import Mathlib.Data.List.TakeWhile
import SearchIndex.Json.Reader
import SearchIndex.Json.Writer
import SearchIndex.Proofs.Text.Digits

/-!
# The tokens of a written value

A value is written as a text that is cut into the tokens one expects: `tokens?_write`. The
scanner ends a number or a word only when it sees what follows, so the statements are about
a text with a rest that begins, if at all, with a character that ends whatever stands
before it. A literal that is kept as it is has to be one that the scanner would keep, which
is what `Token.IsSound` asks for.
-/

namespace SearchIndex.Json

mutual

/-- The tokens that a value is written in. -/
def Value.tokens : Value → List Token
  | .null => [.null]
  | .bool value => [.bool value]
  | .integer value => [.integer value]
  | .real literal => [.real literal]
  | .string text => [.string text]
  | .array [] => [.openArray, .closeArray]
  | .array (item :: items) => .openArray :: (item.tokens ++ itemsTokens items)
  | .object [] => [.openObject, .closeObject]
  | .object ((name, value) :: members) =>
    .openObject :: .string name :: .colon :: (value.tokens ++ membersTokens members)

/-- The tokens of the items of an array behind its first one, and of its end. -/
def itemsTokens : List Value → List Token
  | [] => [.closeArray]
  | item :: items => .comma :: (item.tokens ++ itemsTokens items)

/-- The tokens of the members of an object behind its first one, and of its end. -/
def membersTokens : List (Option String × Value) → List Token
  | [] => [.closeObject]
  | (name, value) :: members =>
    .comma :: .string name :: .colon :: (value.tokens ++ membersTokens members)

end

/-- A token is sound if it is read from what is written for it. Only numbers that are not
written as integers may fail to be. -/
def Token.IsSound : Token → Prop
  | .real literal => literal.all isNumeric = true ∧ numberToken? literal = some (.real literal)
  | _ => True

/-- A value is sound if all its tokens are. -/
def Value.IsSound (value : Value) : Prop :=
  ∀ token ∈ value.tokens, token.IsSound

/-- A text ends whatever number or word stands before it. -/
def Ends (rest : List Char) : Prop :=
  ∀ c ∈ rest.head?, isNumeric c = false ∧ isLetter c = false

theorem isSpace_of_isNumeric {c : Char} (h : isNumeric c = true) : isSpace c = false := by
  rw [Bool.eq_false_iff]
  intro space
  simp only [isSpace, Bool.or_eq_true, beq_iff_eq] at space
  obtain ((rfl | rfl) | rfl) | rfl := space <;> exact absurd h (by decide)

theorem ne_quote_of_isNumeric {c : Char} (h : isNumeric c = true) : c ≠ '"' := by
  rintro rfl
  exact absurd h (by decide)

theorem isSpace_of_isLetter {c : Char} (h : isLetter c = true) : isSpace c = false := by
  rw [Bool.eq_false_iff]
  intro space
  simp only [isSpace, Bool.or_eq_true, beq_iff_eq] at space
  obtain ((rfl | rfl) | rfl) | rfl := space <;> exact absurd h (by decide)

theorem ne_quote_of_isLetter {c : Char} (h : isLetter c = true) : c ≠ '"' := by
  rintro rfl
  exact absurd h (by decide)

namespace Scan

/-- All tokens of a text, of which the scanner has read the beginning. -/
def run (s : Scan) (text : List Char) : Option (List Token) := do
  (← text.foldlM read s).finish

theorem run_cons (s : Scan) (c : Char) (text : List Char) :
    s.run (c :: text) = (s.read c).bind (·.run text) := by
  rw [run, List.foldlM_cons]
  cases s.read c <;> rfl

theorem run_of_read {s t : Scan} {c : Char} (h : s.read c = some t) (text : List Char) :
    s.run (c :: text) = t.run text := by
  rw [run_cons, h]
  rfl

variable (before : List Token) {rest : List Char}

/-- A number is a token once it has ended. -/
theorem run_number (reversed : List Char) {token : Token}
    (h : numberToken? reversed.reverse = some token) (ends : Ends rest) :
    run ⟨before, .number reversed⟩ rest = run ⟨token :: before, .between⟩ rest := by
  cases rest with
  | nil => simp [run, finish, h, emit]
  | cons c rest =>
      have other := (ends c rfl).1
      rw [run_cons, run_cons]
      simp [read, other, h, emit]

/-- A word is a token once it has ended. -/
theorem run_word (reversed : List Char) {token : Token}
    (h : wordToken? reversed.reverse = some token) (ends : Ends rest) :
    run ⟨before, .word reversed⟩ rest = run ⟨token :: before, .between⟩ rest := by
  cases rest with
  | nil => simp [run, finish, h, emit]
  | cons c rest =>
      have other := (ends c rfl).2
      rw [run_cons, run_cons]
      simp [read, other, h, emit]

theorem run_numeric (reversed run' : List Char) (numeric : run'.all isNumeric = true) :
    run ⟨before, .number reversed⟩ (run' ++ rest) =
      run ⟨before, .number (run'.reverse ++ reversed)⟩ rest := by
  induction run' generalizing reversed with
  | nil => rfl
  | cons c cs ih =>
      rw [List.all_cons, Bool.and_eq_true] at numeric
      rw [List.cons_append, run_of_read (t := ⟨before, .number (c :: reversed)⟩)
        (by simp [read, numeric.1, go]), ih _ numeric.2]
      simp

theorem run_letters (reversed run' : List Char) (letters : run'.all isLetter = true) :
    run ⟨before, .word reversed⟩ (run' ++ rest) =
      run ⟨before, .word (run'.reverse ++ reversed)⟩ rest := by
  induction run' generalizing reversed with
  | nil => rfl
  | cons c cs ih =>
      rw [List.all_cons, Bool.and_eq_true] at letters
      rw [List.cons_append, run_of_read (t := ⟨before, .word (c :: reversed)⟩)
        (by simp [read, letters.1, go]), ih _ letters.2]
      simp

/-- The literal of a number is read as a number. -/
theorem run_literal {literal : List Char} {token : Token} (numeric : literal.all isNumeric = true)
    (h : numberToken? literal = some token) (ends : Ends rest) :
    run ⟨before, .between⟩ (literal ++ rest) = run ⟨token :: before, .between⟩ rest := by
  cases literal with
  | nil => cases h
  | cons c cs =>
      rw [List.all_cons, Bool.and_eq_true] at numeric
      have first : read ⟨before, .between⟩ c = some ⟨before, .number [c]⟩ := by
        simp [read, start, isSpace_of_isNumeric numeric.1, ne_quote_of_isNumeric numeric.1,
          numeric.1, go]
      rw [List.cons_append, run_of_read first, run_numeric before [c] cs numeric.2,
        run_number before _ (by simpa using h) ends]

/-- Four digits are read as the code unit that they write. -/
theorem run_hexDigits (piece : Piece) {unit : Nat} (h : unit < 0x10000) :
    run ⟨before, .unit piece 0 0⟩ (Text.hexDigits 4 unit ++ rest) =
      run ⟨before, .string (piece.pushUnit unit)⟩ rest := by
  have digit (n : Nat) : Text.hexValue? (Text.hexDigit (n % 16)) = some (n % 16) :=
    Text.hexValue?_hexDigit (Nat.mod_lt n (by decide))
  have value : ((unit / 16 / 16 / 16 % 16 * 16 + unit / 16 / 16 % 16) * 16 + unit / 16 % 16) * 16
      + unit % 16 = unit := by omega
  simp [Text.hexDigits, run_cons, read, go, digit, value]

/-- A character of a string is read from what is written for it. -/
theorem run_writeChar (piece : Piece) (c : Char) :
    run ⟨before, .string piece⟩ (writeChar c ++ rest) =
      run ⟨before, .string (piece.push c)⟩ rest := by
  by_cases quote : c = '"'
  case pos => subst quote; rfl
  by_cases backslash : c = '\\'
  case pos => subst backslash; rfl
  unfold writeChar
  rw [if_neg quote, if_neg backslash]
  by_cases control : c.toNat < 0x20
  case neg =>
    have plain : read ⟨before, .string piece⟩ c = some ⟨before, .string (piece.push c)⟩ := by
      simp [read, quote, backslash, control, go]
    have unescaped : c ≠ '\x08' ∧ c ≠ '\x0c' ∧ c ≠ '\n' ∧ c ≠ '\r' ∧ c ≠ '\t' := by
      refine ⟨?_, ?_, ?_, ?_, ?_⟩ <;> rintro rfl <;> exact control (by decide)
    simp only [unescaped, control, if_false]
    exact run_of_read plain rest
  case pos =>
    split
    case isTrue h => subst h; rfl
    split
    case isTrue h => subst h; rfl
    split
    case isTrue h => subst h; rfl
    split
    case isTrue h => subst h; rfl
    split
    case isTrue h => subst h; rfl
    have opened : run ⟨before, .string piece⟩ ('\\' :: 'u' :: (Text.hexDigits 4 c.toNat ++ rest)) =
        run ⟨before, .unit piece 0 0⟩ (Text.hexDigits 4 c.toNat ++ rest) := rfl
    have scalar : piece.pushUnit c.toNat = piece.push c := by
      rw [Piece.pushUnit, if_neg (by omega), if_neg (by omega), Char.ofNat_toNat]
    rw [List.cons_append, List.cons_append, opened, run_hexDigits before piece (by omega), scalar]

/-- The text of a string is read from what is written for it. -/
theorem run_writeChars (piece : Piece) (settled : piece.waiting = none) (text : List Char) :
    run ⟨before, .string piece⟩ (text.flatMap writeChar ++ rest) =
      run ⟨before, .string { piece with reversed := text.reverse ++ piece.reversed }⟩ rest := by
  induction text generalizing piece with
  | nil => rfl
  | cons c cs ih =>
      have pushed : piece.push c = { piece with reversed := c :: piece.reversed } := by
        simp [Piece.push, Piece.settled, settled]
      rw [List.flatMap_cons, List.append_assoc, run_writeChar before piece, pushed,
        ih { piece with reversed := c :: piece.reversed } settled]
      simp

/-- A string is read from what is written for it. -/
theorem run_writeString (text : Option String) :
    run ⟨before, .between⟩ (writeString text ++ rest) =
      run ⟨.string text :: before, .between⟩ rest := by
  cases text with
  | none => rfl
  | some text =>
      have opened : read ⟨before, .between⟩ '"' = some ⟨before, .string {}⟩ := rfl
      rw [writeString, List.append_assoc, List.cons_append, run_of_read opened,
        run_writeChars before {} rfl]
      have closed : read ⟨before, .string { reversed := text.toList.reverse }⟩ '"' =
          some ⟨.string (some text) :: before, .between⟩ := by
        simp [read, emit, Piece.text?, Piece.settled]
      simpa using run_of_read closed rest

/-- A word is read from what is written for it. No word for a value begins with a letter
that may stand in a number. -/
theorem run_wordText {c : Char} {cs : List Char} {token : Token}
    (letters : (c :: cs).all isLetter = true) (first : isNumeric c = false)
    (h : wordToken? (c :: cs) = some token) (ends : Ends rest) :
    run ⟨before, .between⟩ (c :: cs ++ rest) = run ⟨token :: before, .between⟩ rest := by
  rw [List.all_cons, Bool.and_eq_true] at letters
  have opened : read ⟨before, .between⟩ c = some ⟨before, .word [c]⟩ := by
    simp [read, start, isSpace_of_isLetter letters.1, ne_quote_of_isLetter letters.1, first,
      letters.1, go]
  rw [List.cons_append, run_of_read opened, run_letters before [c] cs letters.2,
    run_word before _ (by simpa using h) ends]

end Scan

/-! ### Integers -/

theorem all_isDigit_digits (n : Nat) : (Text.digits n).all Text.isDigit = true :=
  List.all_eq_true.mpr fun _ hc => Text.isDigit_of_mem_digits hc

theorem isWhole_digits (n : Nat) : isWhole (Text.digits n) = true := by
  by_cases zero : n = 0
  case pos =>
    subst zero
    rw [Text.digits_of_lt (by decide)]
    rfl
  case neg =>
    unfold isWhole
    split
    · rfl
    · next h => exact absurd h (Text.head_digits_ne_zero zero)
    · rw [isDigits, all_isDigit_digits, Bool.and_true, Bool.not_eq_true',
        List.isEmpty_eq_false_iff]
      exact Text.digits_ne_nil n

/-- The token of an integer, from its sign and its digits. -/
theorem unsignedToken?_digits (negative : Bool) {n : Nat} (h : negative = true → n ≠ 0) :
    unsignedToken? negative (Text.digits n) =
      some (.integer (if negative then -(n : Int) else n)) := by
  have all := List.all_eq_true.mp (all_isDigit_digits n)
  have whole : (Text.digits n).takeWhile Text.isDigit = Text.digits n :=
    List.takeWhile_eq_self_iff.mpr all
  have rest : (Text.digits n).dropWhile Text.isDigit = [] :=
    List.dropWhile_eq_nil_iff.mpr all
  simp only [unsignedToken?, whole, rest, isWhole_digits, Text.valueFrom_digits]
  cases negative with
  | false => simp
  | true => simp [h rfl]

/-- The token of a written integer is the integer. -/
theorem numberToken?_writeInteger (value : Int) :
    numberToken? (writeInteger value) = some (.integer value) := by
  rw [writeInteger]
  by_cases negative : value < 0
  case pos =>
    rw [if_pos negative, List.singleton_append, numberToken?,
      unsignedToken?_digits true (by omega), if_pos rfl]
    congr
    omega
  case neg =>
    rw [if_neg negative, List.nil_append]
    unfold numberToken?
    split
    · next h =>
      have digit : Text.isDigit '-' = true := Text.isDigit_of_mem_digits (h ▸ List.mem_cons_self)
      exact absurd digit (by decide)
    · rw [unsignedToken?_digits false (by simp)]
      congr
      exact Int.natAbs_of_nonneg (Int.not_lt.mp negative)

theorem all_isNumeric_writeInteger (value : Int) : (writeInteger value).all isNumeric = true := by
  have digits : (Text.digits value.natAbs).all isNumeric = true :=
    List.all_eq_true.mpr fun c hc => by simp [isNumeric, Text.isDigit_of_mem_digits hc]
  rw [writeInteger, List.all_append, digits]
  split <;> rfl

/-! ### Values -/

theorem ends_of_mark {c : Char} (h : isNumeric c = false ∧ isLetter c = false)
    (rest : List Char) : Ends (c :: rest) := by
  intro c' hc
  obtain rfl := Option.some.inj hc
  exact h

theorem ends_writeItems (items : List Value) (rest : List Char) :
    Ends (writeItems items ++ rest) := by
  cases items <;> exact ends_of_mark (by decide) _

theorem ends_writeMembers (members : List (Option String × Value)) (rest : List Char) :
    Ends (writeMembers members ++ rest) := by
  cases members <;> exact ends_of_mark (by decide) _

mutual

/-- A value is cut into its tokens. -/
theorem run_write (before : List Token) {rest : List Char} (ends : Ends rest) :
    ∀ value : Value, value.IsSound → Scan.run ⟨before, .between⟩ (value.write ++ rest) =
      Scan.run ⟨value.tokens.reverse ++ before, .between⟩ rest
  | .null, _ => Scan.run_wordText before (by decide) (by decide) rfl ends
  | .bool true, _ => Scan.run_wordText before (by decide) (by decide) rfl ends
  | .bool false, _ => Scan.run_wordText before (by decide) (by decide) rfl ends
  | .integer value, _ =>
      Scan.run_literal before (all_isNumeric_writeInteger value)
        (numberToken?_writeInteger value) ends
  | .real literal, sound =>
      have ⟨numeric, token⟩ := sound (.real literal) (List.mem_singleton_self _)
      Scan.run_literal before numeric token ends
  | .string text, _ => Scan.run_writeString before text
  | .array [], _ => rfl
  | .array (item :: items), sound => by
      simp only [Value.tokens, Value.IsSound, List.forall_mem_cons, List.forall_mem_append] at sound
      have first := run_write (.openArray :: before) (ends_writeItems items rest) item sound.2.1
      simp only [Value.write, Value.tokens, List.cons_append, List.append_assoc]
      rw [Scan.run_of_read (t := ⟨.openArray :: before, .between⟩) rfl, first,
        run_writeItems _ items sound.2.2]
      simp
  | .object [], _ => rfl
  | .object ((name, value) :: members), sound => by
      simp only [Value.tokens, Value.IsSound, List.forall_mem_cons, List.forall_mem_append] at sound
      have first := run_write (.colon :: .string name :: .openObject :: before)
        (ends_writeMembers members rest) value sound.2.2.2.1
      simp only [Value.write, Value.tokens, List.cons_append, List.append_assoc]
      rw [Scan.run_of_read (t := ⟨.openObject :: before, .between⟩) rfl, Scan.run_writeString,
        Scan.run_of_read (t := ⟨.colon :: .string name :: .openObject :: before, .between⟩) rfl,
        first, run_writeMembers _ members sound.2.2.2.2]
      simp

theorem run_writeItems (before : List Token) {rest : List Char} :
    ∀ items : List Value, (∀ t ∈ itemsTokens items, t.IsSound) →
      Scan.run ⟨before, .between⟩ (writeItems items ++ rest) =
        Scan.run ⟨(itemsTokens items).reverse ++ before, .between⟩ rest
  | [], _ => rfl
  | item :: items, sound => by
      simp only [itemsTokens, List.forall_mem_cons, List.forall_mem_append] at sound
      have first := run_write (.comma :: before) (ends_writeItems items rest) item sound.2.1
      simp only [writeItems, itemsTokens, List.cons_append, List.append_assoc]
      rw [Scan.run_of_read (t := ⟨.comma :: before, .between⟩) rfl, first,
        run_writeItems _ items sound.2.2]
      simp

theorem run_writeMembers (before : List Token) {rest : List Char} :
    ∀ members : List (Option String × Value), (∀ t ∈ membersTokens members, t.IsSound) →
      Scan.run ⟨before, .between⟩ (writeMembers members ++ rest) =
        Scan.run ⟨(membersTokens members).reverse ++ before, .between⟩ rest
  | [], _ => rfl
  | (name, value) :: members, sound => by
      simp only [membersTokens, List.forall_mem_cons, List.forall_mem_append] at sound
      have first := run_write (.colon :: .string name :: .comma :: before)
        (ends_writeMembers members rest) value sound.2.2.2.1
      simp only [writeMembers, membersTokens, List.cons_append, List.append_assoc]
      rw [Scan.run_of_read (t := ⟨.comma :: before, .between⟩) rfl, Scan.run_writeString,
        Scan.run_of_read (t := ⟨.colon :: .string name :: .comma :: before, .between⟩) rfl,
        first, run_writeMembers _ members sound.2.2.2.2]
      simp

end

/-- The tokens of a written value. -/
theorem tokens?_write {value : Value} (sound : value.IsSound) :
    tokens? value.write = some value.tokens := by
  have all := run_write [] (nofun : Ends []) value sound
  rw [List.append_nil, List.append_nil] at all
  exact all.trans (by simp [Scan.run, Scan.finish])

end SearchIndex.Json
