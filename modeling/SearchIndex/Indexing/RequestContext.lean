import SearchIndex.Entity
import SearchIndex.Indexing.Priority

/-!
# Request contexts

A request to index or delete something is made in a context: the priority of
whatever it is part of, whether other parties stay uninformed of it, and the
document that is being rendered meanwhile. Indexing the rendered document is
most urgent, since a user waits for it.
-/

namespace SearchIndex

/-- The context of a request. -/
structure RequestContext where
  priority : Option Priority := none
  quiet : Bool := false
  rendered : Option DocumentRef := none
  deriving DecidableEq, Repr

namespace RequestContext

/-- Whether an entity is the document being rendered, in any language. -/
def isRendered (c : RequestContext) : EntityRef → Bool
  | .document d => c.rendered.any d.sameDocument
  | _ => false

/-- The priority that the context asks for an entity, if it asks for any. -/
def priorityFor (c : RequestContext) (target : EntityRef) : Option Priority :=
  if c.isRendered target then some .highest else c.priority

end RequestContext

end SearchIndex
