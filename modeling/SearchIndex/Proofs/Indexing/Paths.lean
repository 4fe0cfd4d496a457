import SearchIndex.Proofs.Indexing.Events

/-!
# Events and requests of the same meaning

The index learns of a change in two ways: content reports an event, or somebody requests a
task for the entity. Both paths look up the entity in the store, each in its own way. For an
entity that is stored they come to the same task, with one exception. A file that was deleted
is looked up in the store when an event reports it. A request to delete a file takes the
reference as it is given. So the request misses the entry of the file if the reference leaves
out the language under which the store has the document.
-/

namespace SearchIndex

open Calendar (Instant)

/-- A store answers for what it has by what it finds. -/
def ContentStore.IsConsistent (store : ContentStore) : Prop :=
  ∀ d info, store.get? d = some info → store.getOrCreate d = info

theorem ContentStore.isConsistent_ofList (documents : List DocumentInfo) :
    (ofList documents).IsConsistent := by
  intro d info found
  change (ofList.find documents d).getD _ = info
  rw [show ofList.find documents d = some info from found, Option.getD_some]

namespace ContentEvent

/-- What an event is about. -/
def subject : ContentEvent → EntityRef
  | .documentCreated d | .documentUpdated d | .documentDeleted d => .document d
  | .attachmentAdded a | .attachmentUpdated a | .attachmentDeleted a => .attachment a
  | .partitionCreated name | .partitionDeleted name => .partition name

/-- What an event means for the entry of its subject. -/
def kind : ContentEvent → TaskKind
  | .documentDeleted _ | .attachmentDeleted _ | .partitionDeleted _ => .delete
  | _ => .index

/-- What an event addresses whose subject is stored: the stored entity, except that a document
was deleted under the reference that the event gives. -/
def addressed (stored : EntityRef) : ContentEvent → EntityRef
  | .documentDeleted d => .document d
  | _ => stored

/-- Whether a task for an event is about its subject, and not about a file of it. -/
def isOwn (event : ContentEvent) (t : IndexTask) : Bool :=
  match event.subject, t.target with
  | .document _, .attachment _ => false
  | _, _ => true

end ContentEvent

/-- The entries of the index that some tasks address, and what they do to them. -/
def entries (tasks : List IndexTask) : List (TaskKind × EntityRef) :=
  tasks.map fun t => (t.kind, t.target)

namespace Planner

/-- What an event does to the entry of its subject. -/
def eventEntries (p : Planner) (now : Instant) (context : RequestContext) (event : ContentEvent) :
    List (TaskKind × EntityRef) :=
  entries ((p.tasksFor now event context).batch.ordered.filter event.isOwn)

/-- What a request does to entries. -/
def requestEntries (p : Planner) (r : TaskRequest) : List (TaskKind × EntityRef) :=
  entries (p.request {} r).batch.ordered

/-- A request addresses what it is resolved to. -/
theorem requestEntries_eq (p : Planner) (r : TaskRequest) :
    p.requestEntries r = (r.resolved? p.store).toList.map fun target => (r.kind, target) := by
  rw [requestEntries, batch_request]
  cases r.resolved? p.store with
  | none => rw [show ({} : TaskBatch).ordered = [] from List.mergeSort_nil]; rfl
  | some target => rw [TaskBatch.ordered_push]; rfl

/-- Of the tasks for a document and its files, the one for the document is its own. -/
theorem own_dueDocument (p : Planner) (now : Instant) (context : RequestContext)
    (info : DocumentInfo) {event : ContentEvent} {d : DocumentRef} (h : event.subject = .document d) :
    (p.dueDocument now context info).filter event.isOwn =
      [p.dueTask now context .index (.document info.reference) none] := by
  have own : event.isOwn (p.dueTask now context .index (.document info.reference) none) = true := by
    rw [ContentEvent.isOwn, h]
    rfl
  have files : ∀ task : String → IndexTask,
      (∀ filename, ∃ a, (task filename).target = .attachment a) →
      (info.attachments.eraseDups.map task).filter event.isOwn = [] := by
    intro task ofFile
    apply List.filter_eq_nil_iff.mpr
    intro t ht
    obtain ⟨filename, -, rfl⟩ := List.mem_map.mp ht
    obtain ⟨a, target⟩ := ofFile filename
    rw [ContentEvent.isOwn, h, target]
    exact Bool.false_ne_true
  rw [dueDocument]
  split
  · rw [List.filter_cons_of_pos own, files _ fun _ => ⟨_, rfl⟩]
  · rw [List.filter_append, files _ fun _ => ⟨_, rfl⟩, List.filter_singleton, own]
    rfl

theorem storedEntity_document {p : Planner} {d : DocumentRef} {stored : EntityRef}
    (h : p.storedEntity (.document d) = .ok stored) :
    ∃ info, p.store.get? d = some info ∧ stored = .document info.reference := by
  rw [storedEntity] at h
  cases found : p.store.get? d with
  | none =>
    rw [found] at h
    cases h
  | some info =>
    rw [found] at h
    cases h
    exact ⟨info, rfl, rfl⟩

theorem storedEntity_attachment {p : Planner} {a : AttachmentRef} {stored : EntityRef}
    (h : p.storedEntity (.attachment a) = .ok stored) :
    ∃ info, p.store.get? a.document = some info ∧ a.filename ∈ info.attachments ∧
      stored = .attachment { document := info.reference, filename := a.filename } := by
  rw [storedEntity, storedAttachment] at h
  cases found : p.store.get? a.document with
  | none =>
    rw [found] at h
    cases h
  | some info =>
    rw [found] at h
    by_cases has : info.hasAttachment a.filename = true
    · simp only [has, if_true] at h
      cases h
      exact ⟨info, rfl, List.contains_iff_mem.mp has, rfl⟩
    · simp only [has] at h
      cases h

/-- An event has one entry of its own if its subject is stored. -/
theorem eventEntries_eq {p : Planner} (consistent : p.store.IsConsistent) (event : ContentEvent)
    {stored : EntityRef} (known : p.storedEntity event.subject = .ok stored) (now : Instant)
    (context : RequestContext) :
    p.eventEntries now context event = [(event.kind, event.addressed stored)] := by
  rw [eventEntries, ordered_tasksFor]
  cases event with
  | documentCreated d | documentUpdated d =>
    obtain ⟨info, found, rfl⟩ := storedEntity_document known
    simp only [due, found]
    rw [own_dueDocument p now context info rfl]
    rfl
  | attachmentAdded a | attachmentUpdated a =>
    obtain ⟨info, found, has, rfl⟩ := storedEntity_attachment known
    simp only [due, found, if_pos has]
    rfl
  | attachmentDeleted a =>
    obtain ⟨info, found, -, rfl⟩ := storedEntity_attachment known
    rw [due, consistent a.document info found]
    rfl
  | documentDeleted d => rfl
  | partitionCreated name | partitionDeleted name =>
    cases known
    rfl

/-- What a request addresses if its target is stored: the stored entity, except that what is
to be deleted is the one that the request names. -/
theorem requestEntries_of_stored {p : Planner} (r : TaskRequest) {stored : EntityRef}
    (known : p.storedEntity r.target = .ok stored) :
    p.requestEntries r = [(r.kind, if r.kind = .delete then r.target else stored)] := by
  rw [requestEntries_eq]
  cases kind : r.kind with
  | index =>
    rw [← storedEntity_eq p r kind, known]
    rfl
  | delete =>
    rw [TaskRequest.resolved?, kind]
    rfl

/-- An event and a request of the same meaning, about something that is stored. They come to
the same task unless a file is deleted whose document the store has under another reference.
Then the event removes the entry under which the file was indexed, and the request removes
the entry of the reference that it gives. -/
theorem eventEntries_eq_requestEntries_iff (p : Planner) (consistent : p.store.IsConsistent)
    (event : ContentEvent) (stored : EntityRef) (known : p.storedEntity event.subject = .ok stored)
    (now : Instant) (context : RequestContext) (r : TaskRequest) (kind : r.kind = event.kind)
    (target : r.target = event.subject) :
    (p.eventEntries now context event = p.requestEntries r ↔
      ∀ a, event = .attachmentDeleted a →
        (p.store.getOrCreate a.document).reference = a.document) ∧
    ∀ a, event = .attachmentDeleted a →
      p.requestEntries { r with kind := .index } = [(.index, stored)] ∧
      p.eventEntries now context event = [(.delete, stored)] ∧
      p.requestEntries r = [(.delete, .attachment a)] := by
  have requested := requestEntries_of_stored r (target ▸ known)
  rw [kind, target] at requested
  have addressed := eventEntries_eq consistent event known now context
  constructor
  · rw [addressed, requested]
    cases event with
    | attachmentDeleted a =>
      obtain ⟨info, found, -, rfl⟩ := storedEntity_attachment known
      have answer := consistent a.document info found
      constructor
      · intro same other named
        cases named
        rw [answer]
        have targets := (Prod.mk.inj (List.head_eq_of_cons_eq same)).2
        exact congrArg AttachmentRef.document (EntityRef.attachment.inj targets)
      · intro pinned
        rw [← answer, pinned a rfl]
        rfl
    | partitionDeleted name =>
      cases known
      exact ⟨fun _ => nofun, fun _ => rfl⟩
    | _ => exact ⟨fun _ => nofun, fun _ => rfl⟩
  · rintro a rfl
    refine ⟨?_, addressed, requested⟩
    exact requestEntries_of_stored { r with kind := .index } (target ▸ known)

/-- A stored file, with the language of its document or without. -/
def fileIn (language : Option String) : AttachmentRef :=
  { document := ⟨"main", "a", "b", language⟩, filename := "c.txt" }

theorem eventEntries_eq_requestEntries_iff_fileWithLanguage :
    nodeWithLog.planner.store.IsConsistent ∧
    nodeWithLog.planner.storedEntity (.attachment (fileIn "en")) = .ok (.attachment (fileIn "en")) ∧
    nodeWithLog.planner.eventEntries .epoch {} (.attachmentDeleted (fileIn "en")) =
      nodeWithLog.planner.requestEntries
        { now := .epoch, kind := .delete, target := .attachment (fileIn "en") } := by
  have consistent : nodeWithLog.planner.store.IsConsistent := ContentStore.isConsistent_ofList _
  have stored : nodeWithLog.planner.storedEntity (.attachment (fileIn "en")) =
      .ok (.attachment (fileIn "en")) := by rfl
  have same := eventEntries_eq_requestEntries_iff nodeWithLog.planner consistent
    (.attachmentDeleted (fileIn "en")) _ stored .epoch {}
    { now := .epoch, kind := .delete, target := .attachment (fileIn "en") } rfl rfl
  refine ⟨consistent, stored, same.1.mpr ?_⟩
  rintro a named
  cases named
  rfl

/-- Without the language the event removes the entry that was indexed, and the request that
of a document in no language. -/
theorem not_eventEntries_eq_requestEntries_fileWithoutLanguage :
    ¬ ∀ p : Planner, p.store.IsConsistent → ∀ (event : ContentEvent) (stored : EntityRef),
      p.storedEntity event.subject = .ok stored →
      ∀ (now : Instant) (context : RequestContext) (r : TaskRequest),
        r.kind = event.kind → r.target = event.subject →
        p.eventEntries now context event = p.requestEntries r := by
  intro claimed
  have consistent : nodeWithLog.planner.store.IsConsistent := ContentStore.isConsistent_ofList _
  have stored : nodeWithLog.planner.storedEntity (.attachment (fileIn none)) =
      .ok (.attachment (fileIn "en")) := by rfl
  let deletion : TaskRequest :=
    { now := .epoch, kind := .delete, target := .attachment (fileIn none) }
  have same := claimed nodeWithLog.planner consistent (.attachmentDeleted (fileIn none)) _ stored
    .epoch {} deletion rfl rfl
  rw [eventEntries_eq consistent (.attachmentDeleted (fileIn none)) stored,
    requestEntries_of_stored deletion stored] at same
  exact absurd same (by decide)

end Planner

end SearchIndex
