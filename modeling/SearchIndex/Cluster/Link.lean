import SearchIndex.Cluster.Envelope

/-!
# Links

A link carries envelopes between the nodes of a cluster. It keeps a fixed number
of the last envelopes, and every subscription reads them at its own pace from
the moment it was made. One that falls behind what is kept is told how many
envelopes it missed and goes on with the oldest kept one. What is sent while
nobody subscribes is lost.

Subscriptions belong to owners of any type `ω`.
-/

namespace SearchIndex

/-- A reader of a link: whose it is, the number of the envelope it reads next, and
whether it still reads. -/
structure Subscription (ω : Type) where
  owner : ω
  position : Nat
  active : Bool := true
  deriving DecidableEq, Repr

/-- What a subscription gets: an envelope, or the news that it missed some. -/
inductive Reception where
  | lagged (missed : Nat)
  | received (envelope : Envelope)
  deriving DecidableEq, Repr

/-- A link. All envelopes sent are listed, the oldest first; `slots` is how many
of the last ones can still be read. Subscriptions are known by their number. -/
structure Link (ω : Type) where
  slots : Nat
  sent : List Envelope := []
  subscriptions : List (Subscription ω) := []
  deriving Repr

namespace Link

variable {ω : Type}

/-- A link that keeps at least `capacity` envelopes: the next power of two. -/
def ofCapacity (capacity : Nat) : Link ω :=
  { slots := (max capacity 1).nextPowerOfTwo }

/-- The link with a further subscription, to what is sent from now on. -/
def subscribe (link : Link ω) (owner : ω) : Link ω :=
  { link with
    subscriptions := link.subscriptions ++ [{ owner, position := link.sent.length }] }

/-- How many subscriptions an envelope reaches. -/
def receivers (link : Link ω) : Nat :=
  link.subscriptions.countP (·.active)

/-- Sends an envelope to all subscriptions. -/
def send (link : Link ω) (envelope : Envelope) : Link ω :=
  if link.receivers = 0 then link else { link with sent := link.sent ++ [envelope] }

/-- The number of the oldest envelope that can still be read. -/
def oldest (link : Link ω) : Nat :=
  link.sent.length - link.slots

/-- What is to be read at a position, and the position after it. -/
def readAt (link : Link ω) (position : Nat) : Option (Reception × Nat) :=
  if position < link.oldest then some (.lagged (link.oldest - position), link.oldest)
  else link.sent[position]?.map fun envelope => (.received envelope, position + 1)

/-- The subscription of a number, if it still reads. -/
def active? (link : Link ω) (number : Nat) : Option (Subscription ω) :=
  link.subscriptions[number]?.filter (·.active)

/-- The link with a subscription moved to another position. -/
def moveTo (link : Link ω) (number position : Nat) : Link ω :=
  { link with subscriptions := link.subscriptions.modify number ({ · with position }) }

/-- The link with a subscription ended. -/
def cancel (link : Link ω) (number : Nat) : Link ω :=
  { link with subscriptions := link.subscriptions.modify number ({ · with active := false }) }

/-- A number of readings that leaves nothing to read for a subscription, not even
the news that there will be nothing more. -/
def readings (link : Link ω) (number : Nat) : Nat :=
  match link.active? number with
  | none => 0
  | some s => link.sent.length - s.position + 1

end Link

end SearchIndex
