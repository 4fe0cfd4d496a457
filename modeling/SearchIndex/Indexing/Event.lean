import SearchIndex.Indexing.RequestContext
import SearchIndex.Indexing.Task

/-!
# Events

Two kinds of events travel between the parts of an installation. A content event
says that stored content has changed, and comes with the context in which it
did. An index event asks every node for a change to its index; it carries what a
task does.
-/

namespace SearchIndex

/-- A change to stored content. -/
inductive ContentEvent where
  | documentCreated (document : DocumentRef)
  | documentUpdated (document : DocumentRef)
  | documentDeleted (document : DocumentRef)
  | attachmentAdded (attachment : AttachmentRef)
  | attachmentUpdated (attachment : AttachmentRef)
  | attachmentDeleted (attachment : AttachmentRef)
  | partitionCreated (name : String)
  | partitionDeleted (name : String)
  deriving DecidableEq, Repr

/-- A content event and its context. -/
structure ContentChange where
  event : ContentEvent
  context : RequestContext := {}
  deriving DecidableEq, Repr

/-- What an index event carries besides its target. -/
structure TaskPayload where
  priority : Priority
  quiet : Bool := false
  deriving DecidableEq, Repr

/-- A request to every node for a change to its index. -/
structure IndexEvent where
  kind : TaskKind
  target : EntityRef
  payload : TaskPayload
  queuedAt : Calendar.Instant
  deriving DecidableEq, Repr

/-- The event that carries a task. -/
def IndexEvent.ofTask (t : IndexTask) : IndexEvent where
  kind := t.kind
  target := t.target
  payload := { priority := t.priority, quiet := t.quiet }
  queuedAt := t.queuedAt

/-- The task that an event carries. -/
def IndexEvent.task (e : IndexEvent) : IndexTask where
  target := e.target
  kind := e.kind
  priority := e.payload.priority
  quiet := e.payload.quiet
  queuedAt := e.queuedAt

@[simp] theorem IndexEvent.task_ofTask (t : IndexTask) : (ofTask t).task = t := rfl

end SearchIndex
