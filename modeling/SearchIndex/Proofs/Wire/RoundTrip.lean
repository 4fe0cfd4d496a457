import SearchIndex.Proofs.Calendar.Reading
import SearchIndex.Proofs.NodeId
import SearchIndex.Proofs.Wire.Faithful

/-!
# The wire in both directions

Nodes act on what they read, so what one node means has to be what another one reads. The
types that travel are written completely and read back as they were: texts with any
characters in them, absent fields, variants, lists, node identifiers, and instants of every
year that timestamps are kept for. Reading is more lenient than writing, but whatever is read
belongs to the values that are written completely: an instant that comes from a timestamp is
kept. So writing anything that has been read, and reading it again, changes nothing.

`Carries` says both for one type, and `carriesTraffic` for all of them.
-/

namespace SearchIndex

open Json (Record Value)
open Wire (encode decode?)

namespace Wire

/-- A list is faithful if its items are. -/
theorem faithful_list {α : Type} [Wire α] {items : List α} (h : ∀ a ∈ items, Faithful a) :
    Faithful items where
  decode := by
    have each : ∀ a ∈ items, (decode? ∘ encode) a = some (id a) := fun a ha => (h a ha).decode
    have all : (items.map encode).mapM decode? = some items := by
      rw [List.mapM_map, Json.mapM_eq_some each, List.map_id]
    exact all
  sound := Json.isSound_array (by
    rw [List.forall_mem_map]
    exact fun a ha => (h a ha).sound)

theorem faithful_nodeId (id : NodeId) : Faithful id where
  decode := by
    unfold instWireNodeId
    simp [Value.text?_text, NodeId.ofText?_text]
  sound := isSound_text id.text

theorem faithful_envelope (e : Envelope) : Faithful e where
  decode := by
    unfold instWireEnvelope
    simp [Record.ofValue?_record, Record.required, Record.slot_ofMembers_cons,
      (faithful_nodeId _).decode, (faithful_string _).decode]
  sound := Json.isSound_record (by
    simp [(faithful_nodeId _).sound, (faithful_string _).sound])

theorem faithful_documentInfo (info : DocumentInfo) : Faithful info := by
  have names : Faithful info.attachments := faithful_list fun a _ => faithful_string a
  constructor
  · unfold instWireDocumentInfo
    simp [Record.ofValue?_record, Record.required, Record.defaulted, Record.slot_ofMembers_cons,
      (faithful_document _).decode, names.decode]
  · exact Json.isSound_record (by simp [(faithful_document _).sound, names.sound])

theorem faithful_context (c : RequestContext) : Faithful c := by
  have priority : Faithful c.priority :=
    faithful_option fun p _ => ⟨faithful_priority p, nofun⟩
  have rendered : Faithful c.rendered :=
    faithful_option fun d _ => ⟨faithful_document d, nofun⟩
  -- A field that may be `null` is read like an optional value.
  have readPriority : (encode c.priority).option? decode? = some c.priority := priority.decode
  have readRendered : (encode c.rendered).option? decode? = some c.rendered := rendered.decode
  constructor
  · unfold instWireRequestContext
    simp [Record.ofValue?_record, Record.required, Record.nullable, Record.slot_ofMembers_cons,
      (faithful_bool _).decode, readPriority, readRendered]
  · exact Json.isSound_record (by
      simp [priority.sound, (faithful_bool _).sound, rendered.sound])

theorem faithful_contentEvent (e : ContentEvent) : Faithful e where
  decode := by
    unfold instWireContentEvent
    cases e <;> simp [newVariant?_variant, (faithful_string _).decode,
      (faithful_document _).decode, (faithful_attachment _).decode]
  sound := by
    cases e <;> exact Json.isSound_record (by
      simp [(faithful_string _).sound, (faithful_document _).sound, (faithful_attachment _).sound])

theorem faithful_contentChange (c : ContentChange) : Faithful c where
  decode := by
    unfold instWireContentChange
    simp [Record.ofValue?_record, Record.required, Record.defaulted, Record.slot_ofMembers_cons,
      (faithful_contentEvent _).decode, (faithful_context _).decode]
  sound := Json.isSound_record (by
    simp [(faithful_contentEvent _).sound, (faithful_context _).sound])

theorem faithful_task {t : IndexTask} (kept : t.queuedAt.IsKept) : Faithful t where
  decode := by
    unfold instWireIndexTask
    simp [Record.ofValue?_record, Record.required, Record.slot_ofMembers_cons,
      (faithful_entity _).decode, (faithful_taskKind _).decode, (faithful_priority _).decode,
      (faithful_bool _).decode, (faithful_instant kept).decode]
  sound := Json.isSound_record (by
    simp [(faithful_entity _).sound, (faithful_taskKind _).sound, (faithful_priority _).sound,
      (faithful_bool _).sound, (faithful_instant kept).sound])

/-! ### What is read can be written -/

theorem isKept_of_decode {value : Value} {i : Calendar.Instant} (h : decode? value = some i) :
    i.IsKept := by
  obtain ⟨text, -, read⟩ := Option.bind_eq_some_iff.mp h
  exact Calendar.Instant.isKept_of_ofTimestamp? read

/-- What a required field is read as is what its value is read as. -/
theorem exists_decode_of_required {α : Type} [Wire α] {r : Record} {name : String} {a : α}
    (h : r.required name decode? = some a) : ∃ value, decode? value = some a := by
  unfold Record.required at h
  split at h
  · exact ⟨_, h⟩
  · cases h

theorem isKept_of_required {r : Record} {name : String} {i : Calendar.Instant}
    (h : r.required name decode? = some i) : i.IsKept :=
  let ⟨_, read⟩ := exists_decode_of_required h
  isKept_of_decode read

theorem isKept_queuedAt_task {value : Value} {t : IndexTask} (h : decode? value = some t) :
    t.queuedAt.IsKept := by
  unfold instWireIndexTask at h
  simp only [Option.bind_eq_bind, Option.bind_eq_some_iff] at h
  obtain ⟨r, -, target, -, kind, -, priority, -, quiet, -, queuedAt, read, same⟩ := h
  obtain rfl := Option.some.inj same
  exact isKept_of_required read

theorem isKept_queuedAt_event {value : Value} {e : IndexEvent} (h : decode? value = some e) :
    e.queuedAt.IsKept := by
  unfold instWireIndexEvent at h
  simp only [Option.bind_eq_bind, Option.bind_eq_some_iff] at h
  obtain ⟨r, -, kind, -, target, -, payload, -, queuedAt, read, same⟩ := h
  obtain rfl := Option.some.inj same
  exact isKept_of_required read

/-! ### Types -/

/-- The wire carries the values of a type that satisfy a condition: they are read as they
were written, and what is read at all is one of them. -/
structure Carries (α : Type) [Wire α] (kept : α → Prop) : Prop where
  arrives : ∀ a, kept a → read? (write a) = some a
  rereads : ∀ (text : String) (a : α), read? text = some a → kept a ∧ read? (write a) = some a

theorem carries_of {α : Type} [Wire α] {kept : α → Prop} (faithful : ∀ a, kept a → Faithful a)
    (inside : ∀ (value : Value) (a : α), decode? value = some a → kept a) : Carries α kept where
  arrives a ha := (faithful a ha).read?_write
  rereads text a h := by
    obtain ⟨value, -, read⟩ := Option.bind_eq_some_iff.mp h
    have ha := inside value a read
    exact ⟨ha, (faithful a ha).read?_write⟩

theorem carries_all {α : Type} [Wire α] (faithful : ∀ a : α, Faithful a) :
    Carries α fun _ => True :=
  carries_of (fun a _ => faithful a) fun _ _ _ => trivial

/-- What the nodes of a cluster can rely on when they send each other tasks, events and
envelopes. The only condition is on instants: the year has to be one that timestamps are kept
for, which the years 0 to 9999 are. -/
structure CarriesTraffic : Prop where
  task : Carries IndexTask (·.queuedAt.IsKept)
  indexEvent : Carries IndexEvent (·.queuedAt.IsKept)
  payload : Carries TaskPayload fun _ => True
  kind : Carries TaskKind fun _ => True
  priority : Carries Priority fun _ => True
  entity : Carries EntityRef fun _ => True
  document : Carries DocumentRef fun _ => True
  attachment : Carries AttachmentRef fun _ => True
  documentInfo : Carries DocumentInfo fun _ => True
  context : Carries RequestContext fun _ => True
  contentEvent : Carries ContentEvent fun _ => True
  contentChange : Carries ContentChange fun _ => True
  envelope : Carries Envelope fun _ => True
  /-- A task arrives unchanged in the event that carries it. -/
  taskInEvent : ∀ t : IndexTask, t.queuedAt.IsKept →
    (read? (write (IndexEvent.ofTask t))).map IndexEvent.task = some t
  /-- Nanoseconds into a second of the years 0 to 9999 are kept. -/
  fourDigitYears : ∀ i : Calendar.Instant, 0 ≤ i.date.year → i.date.year ≤ 9999 →
    i.nanos < Calendar.nanosPerSecond → i.IsKept

/-- Everything that travels is read as it was written, and as it was read. -/
theorem carriesTraffic : CarriesTraffic where
  task := carries_of (fun _ => faithful_task) fun _ _ => isKept_queuedAt_task
  indexEvent := carries_of (fun _ => faithful_indexEvent) fun _ _ => isKept_queuedAt_event
  payload := carries_all faithful_payload
  kind := carries_all faithful_taskKind
  priority := carries_all faithful_priority
  entity := carries_all faithful_entity
  document := carries_all faithful_document
  attachment := carries_all faithful_attachment
  documentInfo := carries_all faithful_documentInfo
  context := carries_all faithful_context
  contentEvent := carries_all faithful_contentEvent
  contentChange := carries_all faithful_contentChange
  envelope := carries_all faithful_envelope
  taskInEvent t kept := by
    rw [(faithful_indexEvent (e := .ofTask t) kept).read?_write]
    rfl
  fourDigitYears _ := Calendar.Instant.isKept_of_year

/-- A task for a file with quotes, backslashes, line ends and letters of other scripts in its
name, queued in the last second of the year 9999. -/
def rareTask : IndexTask where
  target := .attachment
    { document :=
        { partition := "", space := "a\\\"b", name := "\u0000\n\u001f", language := some "ü" }
      filename := "日本\u2028/\\.\"" }
  kind := .delete
  priority := .highest
  quiet := true
  queuedAt := ⟨253402300799, 123456789⟩

theorem carriesTraffic_rareTask :
    rareTask.queuedAt.IsKept ∧ read? (write rareTask) = some rareTask ∧
    (read? (write (IndexEvent.ofTask rareTask))).map IndexEvent.task = some rareTask := by
  have kept : rareTask.queuedAt.IsKept :=
    carriesTraffic.fourDigitYears _ (by decide +kernel) (by decide +kernel) (by decide)
  exact ⟨kept, carriesTraffic.task.arrives _ kept, carriesTraffic.taskInEvent _ kept⟩

end Wire

end SearchIndex
