import SearchIndex.Entity
import SearchIndex.Fields

/-!
# Hits

A hit of the search engine is a score and the stored fields of an entity.
`EngineHit.reference?` tells from the fields which entity it is: an attachment
if there is a file name, a document if there are a space and a name, a partition
if there is at least that, and none otherwise. A blank field counts as missing.
-/

namespace SearchIndex

/-- What the engine stores for an entity that it found. The score is kept as the
encoding of a single-precision number. -/
structure EngineHit where
  score : UInt32
  fields : List (String × String) := []
  deriving DecidableEq, Repr

/-- An entity that a search found. -/
structure SearchHit where
  reference : EntityRef
  score : UInt32
  deriving DecidableEq, Repr

namespace EngineHit

/-- The hit with a field set, in place of any earlier value of that field. -/
def withField (hit : EngineHit) (name value : String) : EngineHit :=
  { hit with fields := hit.fields.filter (·.1 != name) ++ [(name, value)] }

/-- The trimmed value of a field that is not blank. -/
def field? (hit : EngineHit) (name : String) : Option String := do
  let (_, value) ← hit.fields.find? (·.1 == name)
  if Text.isBlankText value then none else some (Text.trimmed value)

/-- The language of a stored document; the word for none is no language. -/
def language? (hit : EngineHit) (names : FieldNames) : Option String :=
  (hit.field? names.language).filter (· != DocumentRef.defaultLanguage)

/-- The entity that a hit is. -/
def reference? (hit : EngineHit) (names : FieldNames) : Option EntityRef := do
  let partition ← hit.field? names.partition
  match hit.field? names.space, hit.field? names.name with
  | some space, some name =>
    let document : DocumentRef := { partition, space, name, language := hit.language? names }
    match hit.field? names.filename with
    | some filename => some (.attachment { document, filename })
    | none => some (.document document)
  | _, _ => some (.partition partition)

end EngineHit

namespace SearchHit

/-- The score of each entity among some hits; of several hits of one entity the
last counts. -/
def scoreMap (hits : List SearchHit) : List (EntityRef × UInt32) :=
  hits.foldl (fun scores hit =>
    scores.filter (·.1 != hit.reference) ++ [(hit.reference, hit.score)]) []

end SearchHit

end SearchIndex
