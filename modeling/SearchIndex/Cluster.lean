import SearchIndex.Cluster.Link
import SearchIndex.Cluster.Node

/-!
# Clusters

Nodes that may share a link. What happens on one node is a run of small steps:
an event is published, each listener hears it, the dispatcher tries the writer,
and the event is sent on the link. All of it goes into the trace of the cluster
in the order in which it happens. Other nodes get what was sent when their
subscriptions read it; handling it sends nothing.

A node can leave. Its subscriptions end with the next envelope they get, or when
nobody holds the link any more.
-/

namespace SearchIndex

open Calendar (Instant)

/-- What a listener with a tag hears. -/
inductive Heard where
  | task (task : IndexTask)
  | change (change : ContentChange)
  deriving DecidableEq, Repr

/-- What happens on a node: it publishes an index event, it accepts one of
another node, its dispatcher gets a task, its writer accepts a task, a listener
hears something, or there is a notice. -/
inductive Occurrence where
  | published (node : Nat) (event : IndexEvent)
  | delivered (node : Nat) (event : IndexEvent)
  | handed (node : Nat) (task : IndexTask)
  | applied (node : Nat) (task : IndexTask)
  | heard (node : Nat) (tag : String) (what : Heard)
  | noted (notice : QueueNotice)
  deriving DecidableEq, Repr

/-- Who subscribes to the link: a node, for the channel of a name. -/
structure Receiver where
  node : Nat
  channel : String
  deriving DecidableEq, Repr

/-- Nodes, of which some have left, and their link. `held` says whether anyone
outside the nodes holds the link. -/
structure Cluster where
  nodes : List (Option Node)
  link : Option (Link Receiver) := none
  held : Bool := true
  trace : List Occurrence := []

namespace Cluster

/-- The node at an index, unless it has left. -/
def node? (c : Cluster) (i : Nat) : Option Node :=
  c.nodes[i]?.join

/-- The cluster with a node changed. -/
def modify (c : Cluster) (i : Nat) (f : Node → Node) : Cluster :=
  { c with nodes := c.nodes.modify i (·.map f) }

/-- The cluster with something more in its trace. -/
def record (c : Cluster) (occurrence : Occurrence) : Cluster :=
  { c with trace := c.trace ++ [occurrence] }

/-- The cluster with further notices. -/
def note (c : Cluster) (notices : List QueueNotice) : Cluster :=
  { c with trace := c.trace ++ notices.map .noted }

/-- Hands a task to the dispatcher of a node. -/
def dispatchTask (c : Cluster) (i : Nat) (task : IndexTask) : Cluster :=
  match c.node? i with
  | none => c
  | some n =>
    let outcome := n.dispatch task
    let c := (c.record (.handed i task)).modify i (·.counted outcome)
    let c := c.note (outcome.notices task)
    if outcome = .applied then c.record (.applied i task) else c

/-- Lets a listener of the index channel hear an event. -/
def hearIndex (c : Cluster) (i : Nat) (event : IndexEvent) : IndexListener → Cluster
  | .dispatcher => c.dispatchTask i event.task
  | .tap tag => c.record (.heard i tag (.task event.task))

/-- Sends an event of a node to the other nodes, if the node is on the link. -/
def broadcast (c : Cluster) (n : Node) (event : IndexEvent) : Cluster :=
  match if n.index.linked then c.link else none with
  | none => c
  | some link =>
    { c with link := some (link.send (n.index.envelope event)) }.note
      [.broadcast n.index.name link.receivers]

/-- Publishes an event on the index channel of a node. -/
def publishIndex (c : Cluster) (i : Nat) (event : IndexEvent) : Cluster :=
  match c.node? i with
  | none => c
  | some n =>
    let c := c.record (.published i event)
    (n.index.audience.foldl (·.hearIndex i event) c).broadcast n event

/-- Publishes a task that was planned on a node. -/
def publishTask (c : Cluster) (i : Nat) (task : IndexTask) : Cluster :=
  (c.note [.queueing task]).publishIndex i (.ofTask task)

/-- Publishes the tasks of a batch in order. -/
def publishBatch (c : Cluster) (i : Nat) (batch : TaskBatch) : Cluster :=
  batch.ordered.foldl (·.publishTask i ·) c

/-- Carries out a plan of a node: reports its notices and publishes its tasks. -/
def carryOut (c : Cluster) (i : Nat) (plan : Plan) : Cluster :=
  (c.note plan.notices).publishBatch i plan.batch

/-- The plan of a node for a content event; a node that has left has none. -/
def planFor (c : Cluster) (now : Instant) (i : Nat) (event : ContentEvent)
    (context : RequestContext) : Plan :=
  match c.node? i with
  | none => {}
  | some n => n.planner.tasksFor now event context

/-- Turns a content event on a node into index events. -/
def onContentEvent (c : Cluster) (now : Instant) (i : Nat) (event : ContentEvent)
    (context : RequestContext) : Cluster :=
  c.carryOut i (c.planFor now i event context)

/-- Lets a listener of the content channel hear a change. -/
def hearContent (now : Instant) (i : Nat) (change : ContentChange) (c : Cluster) :
    ContentListener → Cluster
  | .converter => c.onContentEvent now i change.event change.context
  | .tap tag => c.record (.heard i tag (.change change))

/-- Publishes a content event on the content channel of a node. -/
def notify (c : Cluster) (now : Instant) (i : Nat) (event : ContentEvent)
    (context : RequestContext) : Cluster :=
  match c.node? i with
  | none => c
  | some n => n.content.audience.foldl (hearContent now i { event, context }) c

/-- Requests a task to index an entity. -/
def queueIndex (c : Cluster) (now : Instant) (i : Nat) (target : EntityRef)
    (explicit : Option Priority) (context : RequestContext) : Cluster :=
  match c.node? i with
  | none => c
  | some n => c.carryOut i (n.planner.addIndex now {} target explicit context)

/-- Requests a task to delete an entity. -/
def queueDelete (c : Cluster) (now : Instant) (i : Nat) (target : EntityRef)
    (explicit : Option Priority) (context : RequestContext) : Cluster :=
  match c.node? i with
  | none => c
  | some n => c.carryOut i (n.planner.addDelete now {} target explicit context)

/-- Installs or removes the writer of a node. -/
def setWriter (c : Cluster) (i : Nat) (writer : Option IndexWriter) : Cluster :=
  c.modify i ({ · with writer })

/-- Adds a listener with a tag to the index channel of a node. -/
def tapIndex (c : Cluster) (i : Nat) (side : Side) (tag : String) : Cluster :=
  c.modify i fun n => { n with index := n.index.register side (.tap tag) }

/-- Adds a listener with a tag to the content channel of a node. -/
def tapContent (c : Cluster) (i : Nat) (side : Side) (tag : String) : Cluster :=
  c.modify i fun n => { n with content := n.content.register side (.tap tag) }

/-- Hands an envelope to the index channel of a node, and says whether it was
accepted. -/
def deliverIndex (c : Cluster) (i : Nat) (envelope : Envelope) : Bool × Cluster :=
  match c.node? i with
  | none => (false, c)
  | some n =>
    match n.index.examine envelope with
    | .ignored => (false, c)
    | .malformed => (false, c.note [.malformed n.index.name envelope.origin])
    | .accepted event =>
      (true, n.index.remoteListeners.foldl (·.hearIndex i event) (c.record (.delivered i event)))

/-- Hands an envelope to the content channel of a node, and says whether it was
accepted. -/
def deliverContent (c : Cluster) (now : Instant) (i : Nat) (envelope : Envelope) :
    Bool × Cluster :=
  match c.node? i with
  | none => (false, c)
  | some n =>
    match n.content.examine envelope with
    | .ignored => (false, c)
    | .malformed => (false, c.note [.malformed n.content.name envelope.origin])
    | .accepted change => (true, n.content.remoteListeners.foldl (hearContent now i change) c)

/-- Subscribes a node to the link, and says whether the node is on it. -/
def spawn (c : Cluster) (i : Nat) : Bool × Cluster :=
  match c.node? i, c.link with
  | some n, some link =>
    if n.index.linked then
      (true, { c with link := some (link.subscribe ⟨i, n.index.name⟩) })
    else (false, c)
  | _, _ => (false, c)

/-- Sends an envelope from outside the nodes, and says how many subscriptions it
reaches. -/
def send (c : Cluster) (envelope : Envelope) : Nat × Cluster :=
  match if c.held then c.link else none with
  | none => (0, c)
  | some link => (link.receivers, { c with link := some (link.send envelope) })

/-- Lets go of the link outside the nodes. -/
def release (c : Cluster) : Cluster :=
  { c with held := false }

/-- Lets a node leave. -/
def leave (c : Cluster) (i : Nat) : Cluster :=
  { c with nodes := c.nodes.set i none }

/-- Whether anyone can still send on the link. -/
def isOpen (c : Cluster) : Bool :=
  c.held || c.nodes.any fun n => n.any (·.index.linked)

/-- What the node of a subscription does with what the subscription gets. -/
def take (c : Cluster) (receiver : Receiver) : Reception → Cluster
  | .lagged missed => c.note [.lagged receiver.channel missed]
  | .received envelope => (c.deliverIndex receiver.node envelope).2

/-- Whether a subscription ends when this is what it gets: if its node has left,
with the first envelope; if nobody can send any more, with nothing left. -/
def endsWith (c : Cluster) (receiver : Receiver) : Option Reception → Bool
  | some (.received _) => (c.node? receiver.node).isNone
  | some (.lagged _) => false
  | none => !c.isOpen

/-- Lets a subscription read one thing, or end. -/
def receive (number : Nat) (c : Cluster) : Cluster :=
  (do
    let link ← c.link
    let s ← link.active? number
    let found := link.readAt s.position
    if c.endsWith s.owner (found.map Prod.fst) then
      some ({ c with link := some (link.cancel number) }.note [.stopped s.owner.channel])
    else
      let (reception, next) ← found
      some ({ c with link := some (link.moveTo number next) }.take s.owner reception)).getD c

/-- Lets all subscriptions read everything there is to read, in the order in
which they were made. -/
def pump (c : Cluster) : Cluster :=
  match c.link with
  | none => c
  | some link =>
    (List.range link.subscriptions.length).foldl
      (fun c number => Nat.repeat (receive number) (link.readings number) c) c

end Cluster

end SearchIndex
