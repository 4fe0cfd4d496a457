import SearchIndex.NodeId

/-!
# Envelopes

What nodes send each other: the text of an event, the channel it was published
on and the node that published it.
-/

namespace SearchIndex

/-- A message between nodes. -/
structure Envelope where
  origin : NodeId
  channel : String
  payload : String
  deriving DecidableEq, Repr

end SearchIndex
