import SearchIndex.Json.Record
import SearchIndex.Proofs.Json.Parse

/-!
# Records

A record that is written with the names of its fields in order has each field at hand under its
name: `Record.ofValue?_record`. A record that is written by hand seldom looks like that: members
are missing, they stand in another order, and there are some that the record does not know.
`Retains` says what such an object may look like. It is read as a record all the same, in which
each field is either given with its own value or omitted: `Retains.ofValue?_eq`.
-/

namespace SearchIndex.Json

theorem mapM_eq_some {α β : Type} {f : α → Option β} {g : α → β} {items : List α}
    (h : ∀ a ∈ items, f a = some (g a)) : items.mapM f = some (items.map g) := by
  induction items with
  | nil => rfl
  | cons a items ih =>
      rw [List.forall_mem_cons] at h
      rw [List.mapM_cons, h.1, ih h.2]
      rfl

/-- In a list with a key only once, the key finds its entry and nothing else. -/
theorem filter_key_eq {α : Type} {entries : List (String × α)} (nodup : (entries.map (·.1)).Nodup)
    {entry : String × α} (h : entry ∈ entries) :
    entries.filter (fun e => e.1 == entry.1) = [entry] := by
  induction entries with
  | nil => cases h
  | cons e entries ih =>
      rw [List.map_cons, List.nodup_cons] at nodup
      rcases List.mem_cons.mp h with rfl | rest
      · have others : entries.filter (fun e => e.1 == entry.1) = [] := by
          rw [List.filter_eq_nil_iff]
          intro e he same
          exact nodup.1 (beq_iff_eq.mp same ▸ List.mem_map_of_mem he)
        rw [List.filter_cons_of_pos (by simp), others]
      · have other : (e.1 == entry.1) = false := by
          rw [beq_eq_false_iff_ne]
          exact fun same => nodup.1 (same ▸ List.mem_map_of_mem rest)
        rw [List.filter_cons_of_neg (by simp [other]), ih nodup.2 rest]

/-- The members of an object, without those whose name stands for no text. -/
def Value.members : Value → List (String × Value)
  | .object members => members.filterMap fun m => m.1.map (·, m.2)
  | _ => []

@[simp] theorem Value.members_record (members : List (String × Value)) :
    (Value.record members).members = members := by
  simp [Value.members, Value.record, List.filterMap_map]

/-- A name with a value in a record is that of a member. -/
theorem Value.mem_of_member?_record {members : List (String × Value)} {name : String}
    {value : Value} (h : (Value.record members).member? name = some value) :
    (name, value) ∈ members := by
  obtain ⟨found, first, rfl⟩ := Option.map_eq_some_iff.mp h
  rw [List.find?_map, Option.map_eq_some_iff] at first
  obtain ⟨m, found, rfl⟩ := first
  have same : m.1 = name := by simpa using List.find?_some found
  exact same ▸ List.mem_of_find?_eq_some found

/-- A name that stands only once in a record has the value of its member. -/
theorem Value.member?_record {members : List (String × Value)}
    (nodup : (members.map (·.1)).Nodup) {m : String × Value} (hm : m ∈ members) :
    (Value.record members).member? m.1 = some m.2 := by
  have own : members.find? (fun e => e.1 == m.1) = some m := by
    rw [← List.head?_filter, filter_key_eq nodup hm]
    rfl
  simpa [member?, record, List.find?_map, Function.comp_def] using congrArg (·.map (·.2)) own

/-- A record is sound if its values are. -/
theorem isSound_record {members : List (String × Value)} (sound : ∀ m ∈ members, m.2.IsSound) :
    (Value.record members).IsSound := by
  have rest (ms : List (String × Value)) (h : ∀ m ∈ ms, m.2.IsSound) :
      ∀ t ∈ membersTokens (ms.map fun m => (some m.1, m.2)), t.IsSound := by
    induction ms with
    | nil => simp [membersTokens, Token.IsSound]
    | cons m ms ih =>
        rw [List.forall_mem_cons] at h
        simp only [List.map_cons, membersTokens, List.forall_mem_cons, List.forall_mem_append]
        exact ⟨trivial, trivial, trivial, h.1, ih h.2⟩
  cases members with
  | nil => simp [Value.record, Value.IsSound, Value.tokens, Token.IsSound]
  | cons m ms =>
      rw [List.forall_mem_cons] at sound
      simp only [Value.record, Value.IsSound, List.map_cons, Value.tokens, List.forall_mem_cons,
        List.forall_mem_append]
      exact ⟨trivial, trivial, trivial, sound.1, rest ms sound.2⟩

/-- The members of an object are those of a record which are not left out, in any order and among
any others with names that the record does not have. -/
def Retains (record : List (String × Value)) (leftOut : String → Bool)
    (members : List (String × Value)) : Prop :=
  ∃ others : List (String × Value),
    (∀ m ∈ others, m.1 ∉ record.map (·.1)) ∧
    members.Perm (record.filter (fun m => !leftOut m.1) ++ others)

/-- The record of which some fields are omitted. -/
def Record.retained (record : List (String × Value)) (leftOut : String → Bool) : Record :=
  ⟨record.map fun m => (m.1, if leftOut m.1 then .omitted else .given m.2)⟩

theorem Record.slot_retained {record : List (String × Value)} (nodup : (record.map (·.1)).Nodup)
    (leftOut : String → Bool) {m : String × Value} (hm : m ∈ record) :
    (retained record leftOut).slot m.1 = if leftOut m.1 then .omitted else .given m.2 := by
  have keys : ((retained record leftOut).slots.map (·.1)).Nodup := by
    simpa [retained, Function.comp_def] using nodup
  have entry : (m.1, if leftOut m.1 then Slot.omitted else .given m.2) ∈
      (retained record leftOut).slots := List.mem_map_of_mem hm
  rw [slot, ← List.head?_filter, filter_key_eq keys entry]
  rfl

namespace Retains

variable {record members : List (String × Value)} {leftOut : String → Bool}

/-- A record retains all its members if none is left out. -/
theorem refl (none : ∀ m ∈ record, leftOut m.1 = false) : Retains record leftOut record := by
  refine ⟨[], List.forall_mem_nil _, ?_⟩
  have all : record.filter (fun m => !leftOut m.1) = record :=
    List.filter_eq_self.mpr fun m hm => by simp [none m hm]
  rw [all, List.append_nil]

theorem whole (record : List (String × Value)) : Retains record (fun _ => false) record :=
  refl fun _ _ => rfl

/-- A name of the record stands for its own member, unless that is left out. -/
theorem filter_eq (h : Retains record leftOut members) (nodup : (record.map (·.1)).Nodup)
    {m : String × Value} (hm : m ∈ record) :
    members.filter (fun e => e.1 == m.1) = if leftOut m.1 then [] else [m] := by
  obtain ⟨others, unknown, perm⟩ := h
  have apart : others.filter (fun e => e.1 == m.1) = [] := by
    rw [List.filter_eq_nil_iff]
    intro e he same
    exact unknown e he (beq_iff_eq.mp same ▸ List.mem_map_of_mem hm)
  have found := perm.filter (fun e => e.1 == m.1)
  rw [List.filter_append, apart, List.append_nil, List.filter_comm, filter_key_eq nodup hm] at found
  cases out : leftOut m.1 with
  | false =>
      rw [List.filter_cons_of_pos (by simp [out]), List.filter_nil] at found
      exact List.perm_singleton.mp found
  | true =>
      rw [List.filter_cons_of_neg (by simp [out]), List.filter_nil] at found
      exact List.perm_nil.mp found

/-- What is found for a name of the record. -/
theorem memberSlot?_eq (h : Retains record leftOut members) (nodup : (record.map (·.1)).Nodup)
    {m : String × Value} (hm : m ∈ record) :
    Record.memberSlot? (members.map fun m => (some m.1, m.2)) m.1 =
      some (if leftOut m.1 then .omitted else .given m.2) := by
  have only : (members.map fun e => ((some e.1, e.2) : Option String × Value)).filter
      (fun e => e.1 == some m.1) =
      (if leftOut m.1 then [] else [m]).map fun e => (some e.1, e.2) := by
    rw [List.filter_map]
    exact congrArg _ (h.filter_eq nodup hm)
  rw [Record.memberSlot?, only]
  cases leftOut m.1 <;> rfl

/-- The object is read as the record in which the fields are omitted that are left out. -/
theorem ofValue?_eq (h : Retains record leftOut members) {names : List String}
    (given : names = record.map (·.1)) (nodup : names.Nodup) :
    Record.ofValue? names (.record members) = some (.retained record leftOut) := by
  subst given
  have named : (members.map fun m => ((some m.1, m.2) : Option String × Value)).all
      (·.1.isSome) = true := by simp
  have found : (record.map (·.1)).mapM (fun name =>
      (Record.memberSlot? (members.map fun m => (some m.1, m.2)) name).map (name, ·)) =
      some (Record.retained record leftOut).slots := by
    rw [List.mapM_map]
    refine mapM_eq_some fun m hm => ?_
    rw [Function.comp_apply, h.memberSlot?_eq nodup hm]
    rfl
  rw [Value.record, Record.ofValue?, if_pos named, found]
  rfl

end Retains

namespace Record

/-- A record that holds a value for each of some names. -/
def ofMembers (members : List (String × Value)) : Record :=
  ⟨members.map fun m => (m.1, .given m.2)⟩

variable {members : List (String × Value)}

/-- An object with exactly the given names is read as the record of its members. -/
theorem ofValue?_record {names : List String} (given : names = members.map (·.1))
    (nodup : names.Nodup) : ofValue? names (.record members) = some (ofMembers members) :=
  (Retains.whole members).ofValue?_eq given nodup

theorem slot_ofMembers_cons (name name' : String) (value : Value)
    (members : List (String × Value)) : (ofMembers ((name, value) :: members)).slot name' =
      if name = name' then .given value else (ofMembers members).slot name' := by
  by_cases same : name = name' <;> simp [slot, ofMembers, same]

/-- A field with a default is read as its value, be it given or, as the default, left out. -/
theorem defaulted_retained {α : Type} {leftOut : String → Bool} {name : String} {value : Value}
    {a default : α} {decode : Value → Option α} (nodup : (members.map (·.1)).Nodup)
    (given : (name, value) ∈ members) (read : decode value = some a)
    (standard : leftOut name = true → a = default) :
    (retained members leftOut).defaulted name default decode = some a := by
  rw [defaulted, slot_retained nodup leftOut given]
  cases out : leftOut name with
  | false => exact read
  | true => exact congrArg some (standard out).symm

end Record

end SearchIndex.Json
