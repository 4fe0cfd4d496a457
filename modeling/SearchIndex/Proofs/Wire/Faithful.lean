import SearchIndex.Proofs.Calendar.Timestamp
import SearchIndex.Proofs.Json.Record
import SearchIndex.Wire.Event

/-!
# What travels arrives

A value is `Faithful` if it reads back from its JSON text. Records are faithful if their
fields are, and an optional field is if its value is not written as `null`. So every index
event is faithful whose instant is one that timestamps are kept for.
-/

namespace SearchIndex

open Json (Record Value)
open Wire (encode decode?)

namespace Wire

/-- A value that reads back from its JSON text. -/
structure Faithful {α : Type} [Wire α] (a : α) : Prop where
  decode : decode? (encode a) = some a
  sound : (encode a).IsSound

theorem Faithful.read?_write {α : Type} [Wire α] {a : α} (h : Faithful a) :
    read? (write a) = some a := by
  rw [read?, write, Value.toText, String.toList_ofList, Value.parse?_write h.sound]
  exact h.decode

theorem Faithful.encode_inj {α : Type} [Wire α] {a b : α} (ha : Faithful a) (hb : Faithful b)
    (same : encode a = encode b) : a = b :=
  Option.some.inj ((ha.decode.symm.trans (congrArg decode? same)).trans hb.decode)

/-- A text is read as what the value that it writes stands for. -/
theorem read_of_parse? {α : Type} [Wire α] {text : String} {value : Value} {a : α}
    (written : Value.parse? text.toList = some value) (h : decode? value = some a) :
    read text = .ok a := by
  rw [read, read?, written]
  simp [h]

theorem isSound_text (text : String) : (Value.text text).IsSound := by
  simp [Value.IsSound, Value.text, Value.tokens, Json.Token.IsSound]

theorem isSound_null : Value.null.IsSound := by
  simp [Value.IsSound, Value.tokens, Json.Token.IsSound]

theorem faithful_string (text : String) : Faithful text :=
  ⟨rfl, isSound_text text⟩

theorem faithful_bool (value : Bool) : Faithful value :=
  ⟨rfl, by simp [encode, Value.IsSound, Value.tokens, Json.Token.IsSound]⟩

/-- Counts of 64 bits are faithful. -/
theorem faithful_nat {n : Nat} (h : n < countBound) : Faithful n where
  decode := if_pos h
  sound := by simp [encode, Value.nat, Value.IsSound, Value.tokens, Json.Token.IsSound]

/-- An optional value is faithful if the value is, and is not written as `null`. -/
theorem faithful_option {α : Type} [Wire α] {a : Option α}
    (h : ∀ value ∈ a, Faithful value ∧ encode value ≠ Value.null) : Faithful a := by
  cases a with
  | none => exact ⟨rfl, isSound_null⟩
  | some value =>
      obtain ⟨faithful, present⟩ := h value rfl
      have given : decode? (encode (some value)) =
          (decode? (encode value)).map (some (α := α)) := by
        unfold instOption
        simp only [Value.option]
        cases written : encode value <;> first | rfl | exact absurd written present
      exact ⟨by rw [given, faithful.decode]; rfl, faithful.sound⟩

theorem faithful_language (language : Option String) : Faithful language :=
  faithful_option fun text _ => ⟨faithful_string text, nofun⟩

theorem faithful_priority (p : Priority) : Faithful p :=
  ⟨by cases p <;> rfl, isSound_text p.word⟩

theorem faithful_taskKind (k : TaskKind) : Faithful k :=
  ⟨by cases k <;> rfl, isSound_text k.word⟩

theorem faithful_document (d : DocumentRef) : Faithful d where
  decode := by
    unfold instWireDocumentRef
    simp [Record.ofValue?_record, Record.required, Record.defaulted,
      Record.slot_ofMembers_cons, (faithful_string _).decode, (faithful_language _).decode]
  sound := Json.isSound_record (by
    simp [(faithful_string _).sound, (faithful_language _).sound])

theorem faithful_attachment (a : AttachmentRef) : Faithful a where
  decode := by
    unfold instWireAttachmentRef
    simp [Record.ofValue?_record, Record.required,
      Record.slot_ofMembers_cons, (faithful_string _).decode, (faithful_document _).decode]
  sound := Json.isSound_record (by
    simp [(faithful_string _).sound, (faithful_document _).sound])

/-- A written variant has its name and its content. -/
theorem newVariant?_variant (name : String) (content : Value) :
    (Value.variant name content).newVariant? = some (name, content) := rfl

theorem faithful_entity (e : EntityRef) : Faithful e where
  decode := by
    unfold instWireEntityRef
    cases e <;> simp [newVariant?_variant, (faithful_string _).decode,
      (faithful_document _).decode, (faithful_attachment _).decode]
  sound := by
    cases e <;> exact Json.isSound_record (by
      simp [(faithful_string _).sound, (faithful_document _).sound, (faithful_attachment _).sound])

theorem faithful_payload (p : TaskPayload) : Faithful p where
  decode := by
    unfold instWireTaskPayload
    simp [Record.ofValue?_record, Record.required, Record.defaulted,
      Record.slot_ofMembers_cons, (faithful_priority _).decode, (faithful_bool _).decode]
  sound := Json.isSound_record (by
    simp [(faithful_priority _).sound, (faithful_bool _).sound])

theorem faithful_instant {i : Calendar.Instant} (kept : i.IsKept) : Faithful i where
  decode := by
    unfold instWireInstant
    simp [Value.text?_text, Calendar.Instant.ofTimestamp?_timestamp kept]
  sound := isSound_text _

/-- An index event reads back from its JSON text. -/
theorem faithful_indexEvent {e : IndexEvent} (kept : e.queuedAt.IsKept) : Faithful e where
  decode := by
    unfold instWireIndexEvent
    simp [Record.ofValue?_record, Record.required, Record.slot_ofMembers_cons,
      (faithful_taskKind _).decode, (faithful_entity _).decode, (faithful_payload _).decode,
      (faithful_instant kept).decode]
  sound := Json.isSound_record (by
    simp [(faithful_taskKind _).sound, (faithful_entity _).sound, (faithful_payload _).sound,
      (faithful_instant kept).sound])

end Wire

end SearchIndex
