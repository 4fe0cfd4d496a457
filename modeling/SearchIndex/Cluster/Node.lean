import SearchIndex.Cluster.Channel
import SearchIndex.Indexing.Planner
import SearchIndex.Wire.Event

/-!
# Nodes

A node plans index tasks from content changes and requests, publishes them on
its index channel, and has a dispatcher that hands every index event to the
index writer. The writer is outside the library; it may be missing, and it may
refuse a task. A content change is published on the content channel, whose
first listener converts it into index events.
-/

namespace SearchIndex

/-- The component that changes the index. It accepts a task or refuses it with a
cause. -/
structure IndexWriter where
  apply : IndexTask → Except String Unit

/-- How many index events the dispatcher of a node has handed on, dropped for
want of a writer, and seen refused. -/
structure DispatchStats where
  applied : Nat := 0
  dropped : Nat := 0
  failed : Nat := 0
  deriving DecidableEq, Repr

/-- Who hears index events: the dispatcher, or a listener with a tag. -/
inductive IndexListener where
  | dispatcher
  | tap (tag : String)
  deriving DecidableEq, Repr

/-- Who hears content changes: the converter, or a listener with a tag. -/
inductive ContentListener where
  | converter
  | tap (tag : String)
  deriving DecidableEq, Repr

/-- A node of a cluster. -/
structure Node where
  planner : Planner
  writer : Option IndexWriter
  content : Channel ContentChange ContentListener
  index : Channel IndexEvent IndexListener
  stats : DispatchStats := {}

/-- A node with its two channels, of which the index channel may be linked. -/
def Node.make (id : NodeId) (settings : QueueSettings) (store : ContentStore)
    (writer : Option IndexWriter) (linked : Bool) : Node where
  planner := { settings, store }
  writer := writer
  content :=
    { name := settings.contentChannel, origin := id, linked := false
      localListeners := [.converter] }
  index :=
    { name := settings.indexChannel, origin := id, linked
      remoteListeners := [.dispatcher] }

/-- What the dispatcher of a node does with a task. -/
inductive Dispatch where
  | applied
  | dropped
  | failed (cause : String)
  deriving DecidableEq, Repr

namespace Node

/-- What becomes of a task at the writer. -/
def dispatch (n : Node) (task : IndexTask) : Dispatch :=
  match n.writer with
  | none => .dropped
  | some writer =>
    match writer.apply task with
    | .ok () => .applied
    | .error cause => .failed cause

/-- The node once it has counted what became of a task. -/
def counted (n : Node) : Dispatch → Node
  | .applied => { n with stats.applied := n.stats.applied + 1 }
  | .dropped => { n with stats.dropped := n.stats.dropped + 1 }
  | .failed _ => { n with stats.failed := n.stats.failed + 1 }

end Node

/-- What is reported of a task and what became of it. -/
def Dispatch.notices (task : IndexTask) : Dispatch → List QueueNotice
  | .applied => [.applying task]
  | .dropped => [.writerMissing task]
  | .failed cause => [.applying task, .writerFailed task cause]

end SearchIndex
