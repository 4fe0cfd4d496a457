import SearchIndex.Proofs.Json.Scan

/-!
# Written values read back

The machine puts the tokens of a value together again, whatever is still open around it,
so a written value reads back: `Value.parse?_write`.
-/

namespace SearchIndex.Json

namespace Machine

/-- What is read from some tokens, of which the machine has read the beginning. -/
def run (m : Machine) (tokens : List Token) : Option Value := do
  (← tokens.foldlM read m).value?

theorem run_of_read {m n : Machine} {token : Token} (h : m.read token = some n)
    (tokens : List Token) : m.run (token :: tokens) = n.run tokens := by
  rw [run, List.foldlM_cons, h]
  rfl

/-- A value may come next, as the only thing or as an alternative to the end of an array. -/
def ExpectsValue (m : Machine) : Prop :=
  ∀ token, token ≠ .closeArray → m.read token = readValue m.stack token

theorem expectsValue_value (stack : List Frame) : ExpectsValue ⟨stack, .value⟩ :=
  fun _ _ => rfl

theorem expectsValue_item (reversed : List Value) (stack : List Frame) :
    ExpectsValue ⟨.array reversed :: stack, .item⟩ := by
  intro token other
  cases token <;> first | rfl | exact absurd rfl other

theorem run_of_readValue {m next : Machine} (expects : m.ExpectsValue) {token : Token}
    (other : token ≠ .closeArray) (h : readValue m.stack token = some next) (rest : List Token) :
    m.run (token :: rest) = next.run rest :=
  run_of_read ((expects token other).trans h) rest

mutual

/-- The tokens of a value are put together to the value. -/
theorem run_tokens {m : Machine} (expects : m.ExpectsValue) (rest : List Token) :
    ∀ value : Value, m.run (value.tokens ++ rest) = (finished m.stack value).run rest
  | .null => run_of_readValue expects (by simp) rfl rest
  | .bool _ => run_of_readValue expects (by simp) rfl rest
  | .integer _ => run_of_readValue expects (by simp) rfl rest
  | .real _ => run_of_readValue expects (by simp) rfl rest
  | .string _ => run_of_readValue expects (by simp) rfl rest
  | .array [] => by
      have opened : readValue m.stack .openArray = some ⟨.array [] :: m.stack, .item⟩ := rfl
      simp only [Value.tokens, List.cons_append, List.nil_append]
      rw [run_of_readValue expects (by simp) opened]
      exact run_of_read rfl rest
  | .array (item :: items) => by
      have first := run_tokens (expectsValue_item [] m.stack) (itemsTokens items ++ rest) item
      simp only [Value.tokens, List.cons_append, List.append_assoc]
      rw [run_of_readValue expects (by simp) rfl, first]
      exact run_itemsTokens [] item m.stack rest items
  | .object [] => by
      have opened : readValue m.stack .openObject =
          some ⟨.object [] none :: m.stack, .member⟩ := rfl
      simp only [Value.tokens, List.cons_append, List.nil_append]
      rw [run_of_readValue expects (by simp) opened]
      exact run_of_read rfl rest
  | .object ((name, value) :: members) => by
      have first := run_tokens (expectsValue_value (.object [] name :: m.stack))
        (membersTokens members ++ rest) value
      simp only [Value.tokens, List.cons_append, List.append_assoc]
      rw [run_of_readValue expects (by simp) rfl,
        run_of_read (n := ⟨.object [] name :: m.stack, .colon⟩) rfl,
        run_of_read (n := ⟨.object [] name :: m.stack, .value⟩) rfl, first]
      exact run_membersTokens [] name value m.stack rest members

theorem run_itemsTokens (reversed : List Value) (last : Value) (stack : List Frame)
    (rest : List Token) : ∀ items : List Value,
    run ⟨.array reversed :: stack, .after last⟩ (itemsTokens items ++ rest) =
      (finished stack (.array ((last :: reversed).reverse ++ items))).run rest
  | [] => by
      rw [List.append_nil]
      exact run_of_read rfl rest
  | item :: items => by
      have first := run_tokens (expectsValue_value (.array (last :: reversed) :: stack))
        (itemsTokens items ++ rest) item
      have others := run_itemsTokens (last :: reversed) item stack rest items
      rw [List.reverse_cons, List.append_assoc] at others
      rw [itemsTokens, List.cons_append, List.append_assoc,
        run_of_read (n := ⟨.array (last :: reversed) :: stack, .value⟩) rfl, first]
      exact others

theorem run_membersTokens (reversed : List (Option String × Value)) (name : Option String)
    (last : Value) (stack : List Frame) (rest : List Token) :
    ∀ members : List (Option String × Value),
    run ⟨.object reversed name :: stack, .after last⟩ (membersTokens members ++ rest) =
      (finished stack (.object (((name, last) :: reversed).reverse ++ members))).run rest
  | [] => by
      rw [List.append_nil]
      exact run_of_read rfl rest
  | (next, value) :: members => by
      have first := run_tokens
        (expectsValue_value (.object ((name, last) :: reversed) next :: stack))
        (membersTokens members ++ rest) value
      have others := run_membersTokens ((name, last) :: reversed) next value stack rest members
      rw [List.reverse_cons, List.append_assoc] at others
      simp only [membersTokens, List.cons_append, List.append_assoc]
      rw [run_of_read (n := ⟨.object ((name, last) :: reversed) none :: stack, .name⟩) rfl,
        run_of_read (n := ⟨.object ((name, last) :: reversed) next :: stack, .colon⟩) rfl,
        run_of_read (n := ⟨.object ((name, last) :: reversed) next :: stack, .value⟩) rfl, first]
      exact others

end

end Machine

/-- The value of its own tokens. -/
theorem Value.ofTokens?_tokens (value : Value) : Value.ofTokens? value.tokens = some value := by
  have all := Machine.run_tokens (Machine.expectsValue_value []) [] value
  rw [List.append_nil] at all
  exact all

/-- A written value reads back. -/
theorem Value.parse?_write {value : Value} (sound : value.IsSound) :
    Value.parse? value.write = some value := by
  rw [Value.parse?, tokens?_write sound]
  exact value.ofTokens?_tokens

/-- An array is sound if its items are. -/
theorem isSound_array {items : List Value} (sound : ∀ item ∈ items, item.IsSound) :
    (Value.array items).IsSound := by
  have rest (items : List Value) (h : ∀ item ∈ items, item.IsSound) :
      ∀ t ∈ itemsTokens items, t.IsSound := by
    induction items with
    | nil => simp [itemsTokens, Token.IsSound]
    | cons item items ih =>
        rw [List.forall_mem_cons] at h
        simp only [itemsTokens, List.forall_mem_cons, List.forall_mem_append]
        exact ⟨trivial, h.1, ih h.2⟩
  cases items with
  | nil => simp [Value.IsSound, Value.tokens, Token.IsSound]
  | cons item items =>
      rw [List.forall_mem_cons] at sound
      simp only [Value.IsSound, Value.tokens, List.forall_mem_cons, List.forall_mem_append]
      exact ⟨trivial, sound.1, rest items sound.2⟩

end SearchIndex.Json
