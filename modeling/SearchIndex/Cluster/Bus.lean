import SearchIndex.Cluster.Channel
import SearchIndex.Cluster.Link
import SearchIndex.Indexing.Notice

/-!
# A bus

Channels of one event type that may share a link, without the nodes around
them. Listeners are tags. A monitor may watch everything that is sent on the
link. Operations add to the trace of the bus what was heard and reported.
-/

namespace SearchIndex

/-- Who subscribes to the link of a bus: one of its channels, or the monitor. -/
inductive Subscriber where
  | channel (index : Nat)
  | monitor
  deriving DecidableEq, Repr

/-- What happens on a bus: a listener of a channel hears an event, the monitor
gets something, or there is a notice. -/
inductive BusOccurrence (ε : Type) where
  | heard (channel : Nat) (tag : String) (event : ε)
  | watched (reception : Reception)
  | noted (notice : QueueNotice)
  deriving Repr

/-- Channels that may share a link. -/
structure Bus (ε : Type) where
  channels : List (Channel ε String)
  link : Option (Link Subscriber) := none
  trace : List (BusOccurrence ε) := []

namespace Bus

variable {ε : Type}

/-- The bus with something more in its trace. -/
def record (b : Bus ε) (occurrence : BusOccurrence ε) : Bus ε :=
  { b with trace := b.trace ++ [occurrence] }

/-- The link of a channel, if the channel uses the link there is. -/
def linkOf (b : Bus ε) (c : Channel ε String) : Option (Link Subscriber) :=
  if c.linked then b.link else none

/-- Lets the monitor watch the link. -/
def watch (b : Bus ε) : Bus ε :=
  { b with link := b.link.map (·.subscribe .monitor) }

/-- Adds a listener to a channel. -/
def register (b : Bus ε) (index : Nat) (side : Side) (tag : String) : Bus ε :=
  { b with channels := b.channels.modify index (·.register side tag) }

/-- Lets some listeners of a channel hear an event. -/
def hear (b : Bus ε) (index : Nat) (listeners : List String) (event : ε) : Bus ε :=
  listeners.foldl (fun b tag => b.record (.heard index tag event)) b

/-- Publishes an event on a channel. -/
def publish [Wire ε] (b : Bus ε) (index : Nat) (event : ε) : Bus ε :=
  match b.channels[index]? with
  | none => b
  | some c =>
    let b := b.hear index c.audience event
    match b.linkOf c with
    | none => b
    | some link =>
      { b with link := some (link.send (c.envelope event)) }.record
        (.noted (.broadcast c.name link.receivers))

/-- Hands an envelope to a channel, and says whether it was accepted. -/
def deliver [Wire ε] (b : Bus ε) (index : Nat) (envelope : Envelope) : Bool × Bus ε :=
  match b.channels[index]? with
  | none => (false, b)
  | some c =>
    match c.examine envelope with
    | .ignored => (false, b)
    | .malformed => (false, b.record (.noted (.malformed c.name envelope.origin)))
    | .accepted event => (true, b.hear index c.remoteListeners event)

/-- Subscribes a channel to the link, and says whether it uses one. -/
def spawn (b : Bus ε) (index : Nat) : Bool × Bus ε :=
  match b.channels[index]?.bind b.linkOf with
  | none => (false, b)
  | some link => (true, { b with link := some (link.subscribe (.channel index)) })

/-- Sends an envelope on the link, and says how many subscriptions it reaches. -/
def send (b : Bus ε) (envelope : Envelope) : Nat × Bus ε :=
  match b.link with
  | none => (0, b)
  | some link => (link.receivers, { b with link := some (link.send envelope) })

/-- What the owner of a subscription does with what it gets. -/
def take [Wire ε] (b : Bus ε) (owner : Subscriber) (reception : Reception) : Bus ε :=
  match owner, reception with
  | .monitor, reception => b.record (.watched reception)
  | .channel index, .received envelope => (b.deliver index envelope).2
  | .channel index, .lagged missed =>
    match b.channels[index]? with
    | none => b
    | some c => b.record (.noted (.lagged c.name missed))

/-- Lets a subscription read one thing, if there is anything to read. -/
def receive [Wire ε] (number : Nat) (b : Bus ε) : Bus ε :=
  (do
    let link ← b.link
    let s ← link.active? number
    let (reception, next) ← link.readAt s.position
    some ({ b with link := some (link.moveTo number next) }.take s.owner reception)).getD b

/-- Lets the subscriptions of some owners read everything there is to read. -/
def receiveAll [Wire ε] (b : Bus ε) (owners : Subscriber → Bool) : Bus ε :=
  match b.link with
  | none => b
  | some link =>
    let numbers := (List.range link.subscriptions.length).filter fun number =>
      (link.active? number).any (owners ·.owner)
    numbers.foldl (fun b number => Nat.repeat (receive number) (link.readings number) b) b

/-- Lets the subscriptions of all channels read everything there is to read. -/
def pump [Wire ε] (b : Bus ε) : Bus ε :=
  b.receiveAll (· != .monitor)

/-- Lets the monitor read everything there is to read. -/
def watchAll [Wire ε] (b : Bus ε) : Bus ε :=
  b.receiveAll (· == .monitor)

end Bus

end SearchIndex
