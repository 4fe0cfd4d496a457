import SearchIndex.Cluster.Envelope
import SearchIndex.Wire.Basic

/-!
# Channels

A channel carries events of one type `ε` to listeners. Local listeners hear what
is published on this node; remote listeners also hear what other nodes publish
on a channel of the same name. Listeners are of any type `τ`: a channel only
says who hears what.
-/

namespace SearchIndex

/-- A channel of a node, the one that `origin` identifies. -/
structure Channel (ε τ : Type) where
  name : String
  origin : NodeId
  linked : Bool
  localListeners : List τ := []
  remoteListeners : List τ := []
  deriving Repr

/-- Which events a listener hears. -/
inductive Side where
  | localOnly
  | remote
  deriving DecidableEq, Repr

/-- What becomes of an envelope: it is none of this channel's, its payload is no
event, or it carries an event. -/
inductive Delivery (ε : Type) where
  | ignored
  | malformed
  | accepted (event : ε)
  deriving DecidableEq, Repr

namespace Channel

variable {ε τ : Type}

/-- The channel with a further listener. -/
def register (c : Channel ε τ) (side : Side) (listener : τ) : Channel ε τ :=
  match side with
  | .localOnly => { c with localListeners := c.localListeners ++ [listener] }
  | .remote => { c with remoteListeners := c.remoteListeners ++ [listener] }

/-- Who hears what is published here, in order. -/
def audience (c : Channel ε τ) : List τ :=
  c.localListeners ++ c.remoteListeners

/-- An event as it is sent to other nodes. -/
def envelope [Wire ε] (c : Channel ε τ) (event : ε) : Envelope where
  origin := c.origin
  channel := c.name
  payload := Wire.write event

/-- What becomes of an envelope that arrives. A node ignores its own. -/
def examine [Wire ε] (c : Channel ε τ) (envelope : Envelope) : Delivery ε :=
  if envelope.channel ≠ c.name ∨ envelope.origin = c.origin then .ignored
  else match Wire.read? envelope.payload with
    | some event => .accepted event
    | none => .malformed

end Channel

end SearchIndex
