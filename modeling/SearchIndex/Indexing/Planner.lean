import SearchIndex.Indexing.Event
import SearchIndex.Indexing.Notice
import SearchIndex.Indexing.Store
import SearchIndex.Settings

/-!
# Planning index tasks

The planner turns requests and content events into tasks. What is to be indexed
is looked up in the content store first, so that the task is about the stored
reference; what is not stored is left out with a notice. What is to be deleted
need not be stored any more.

The priority of a task is the one asked for explicitly, else what the context
asks for, else the configured default. Attachments that are indexed along with a
content event have a configured priority of their own.
-/

namespace SearchIndex

open Calendar (Instant)

/-- What planning needs: the settings of the queue and the content store. -/
structure Planner where
  settings : QueueSettings
  store : ContentStore

/-- A batch and the notices of making it. -/
structure Plan where
  batch : TaskBatch := {}
  notices : List QueueNotice := []

namespace Planner

/-- The priority of a task. -/
def resolve (p : Planner) (explicit : Option Priority) (target : EntityRef)
    (context : RequestContext) : Priority :=
  (explicit.or (context.priorityFor target)).getD p.settings.defaultPriority

/-- A task queued at a given instant. -/
def task (p : Planner) (now : Instant) (kind : TaskKind) (target : EntityRef)
    (explicit : Option Priority) (context : RequestContext) : IndexTask where
  target := target
  kind := kind
  priority := p.resolve explicit target context
  quiet := context.quiet
  queuedAt := now

/-- The stored attachment that a reference stands for. -/
def storedAttachment (p : Planner) (a : AttachmentRef) : Except QueueNotice AttachmentRef :=
  match p.store.get? a.document with
  | none => .error (.unknownOwner a.identity)
  | some info =>
    if info.hasAttachment a.filename then .ok { document := info.reference, filename := a.filename }
    else .error (.unknownAttachment a.identity)

/-- The stored entity that a reference stands for. Partitions are not stored. -/
def storedEntity (p : Planner) : EntityRef → Except QueueNotice EntityRef
  | .partition name => .ok (.partition name)
  | .document d =>
    match p.store.get? d with
    | some info => .ok (.document info.reference)
    | none => .error (.unknownDocument d.identity)
  | .attachment a => (p.storedAttachment a).map .attachment

/-- Adds a task to index an entity, if it is stored. -/
def addIndex (p : Planner) (now : Instant) (batch : TaskBatch) (target : EntityRef)
    (explicit : Option Priority) (context : RequestContext) : Plan :=
  match p.storedEntity target with
  | .ok stored => { batch := batch.push (p.task now .index stored explicit context) }
  | .error notice => { batch, notices := [notice] }

/-- Adds a task to delete an entity. -/
def addDelete (p : Planner) (now : Instant) (batch : TaskBatch) (target : EntityRef)
    (explicit : Option Priority) (context : RequestContext) : Plan :=
  { batch := batch.push (p.task now .delete target explicit context) }

/-- The tasks to index a stored document and all its attachments. -/
def documentTasks (p : Planner) (now : Instant) (info : DocumentInfo) (context : RequestContext) :
    List IndexTask :=
  p.task now .index (.document info.reference) none context
    :: info.attachments.map fun filename =>
      p.task now .index (.attachment { document := info.reference, filename })
        (some p.settings.attachmentPriority) context

/-- The plan for a document that is new or has changed. -/
def planDocument (p : Planner) (now : Instant) (d : DocumentRef) (context : RequestContext) :
    Plan :=
  match p.store.get? d with
  | some info => { batch := ({} : TaskBatch).pushAll (p.documentTasks now info context) }
  | none => { notices := [.unknownDocument d.identity] }

/-- The plan for an attachment that is new or has changed. -/
def planAttachment (p : Planner) (now : Instant) (a : AttachmentRef) (context : RequestContext) :
    Plan :=
  match p.storedAttachment a with
  | .ok stored =>
    { batch := ({} : TaskBatch).push (p.task now .index (.attachment stored)
        (some p.settings.attachmentPriority) context) }
  | .error notice => { notices := [notice] }

/-- The tasks that a content event calls for. -/
def tasksFor (p : Planner) (now : Instant) (event : ContentEvent) (context : RequestContext) :
    Plan :=
  match event with
  | .documentCreated d | .documentUpdated d => p.planDocument now d context
  | .documentDeleted d => p.addDelete now {} (.document d) none context
  | .attachmentAdded a | .attachmentUpdated a => p.planAttachment now a context
  | .attachmentDeleted a =>
    let document := (p.store.getOrCreate a.document).reference
    p.addDelete now {} (.attachment { document, filename := a.filename }) none context
  | .partitionCreated name => p.addIndex now {} (.partition name) none context
  | .partitionDeleted name => p.addDelete now {} (.partition name) none context

end Planner

end SearchIndex
