import SearchIndex.Calendar.Instant
import SearchIndex.Entity
import SearchIndex.Fields
import SearchIndex.Restriction.Group

/-!
# Common conditions

The conditions that searches ask for again and again, on the fields where an
installation keeps them: the partition, the type, the space, the language or the
file name of an entity, one document, and spans of time.
-/

namespace SearchIndex.FieldNames

open Calendar (Instant)

/-- The entities of a partition. -/
def inPartition (names : FieldNames) (partition : String) : Clause :=
  .exactly names.partition partition

/-- The entities of a type. -/
def ofType (names : FieldNames) (docType : String) : Clause :=
  .exactly names.docType docType

/-- The entities of a space. -/
def inSpace (names : FieldNames) (space : String) : Clause :=
  .exactly names.space space

/-- The entities in a language. -/
def inLanguage (names : FieldNames) (language : String) : Clause :=
  .exactly names.language language

/-- The attachments with a file name. -/
def withFilename (names : FieldNames) (filename : String) : Clause :=
  .exactly names.filename filename

/-- The entities with any, or all, of some values in a field. -/
def withValues (field : String) (values : List String) (connective : Connective) : Group :=
  .ofMembers connective (values.map fun value => .clause (.exactly field value)) false

/-- The entities of any of some types. -/
def ofTypes (names : FieldNames) (docTypes : List String) : Group :=
  withValues names.docType docTypes .or

/-- A document, in its language if it has one and in any language otherwise. -/
def isDocument (names : FieldNames) (document : DocumentRef) : Group :=
  .ofMembers .and
    (.clause (.exactly names.fullName document.fullName)
      :: document.language.toList.map fun language => .clause (names.inLanguage language))
    false

/-- One end of a span of time: a stamp, or a star for an open end. -/
def spanEnd : Option Instant → String
  | some instant => String.ofList instant.stamp
  | none => "*"

/-- The entities whose date in a field lies in a span of time, to the minute. -/
def inSpan (field : String) (first last : Option Instant) (inclusive : Bool) : Clause :=
  .range field (spanEnd first) (spanEnd last) inclusive

/-- The entities modified in a span of time, its ends included. -/
def modifiedBetween (names : FieldNames) (first last : Option Instant) : Clause :=
  inSpan names.date first last true

/-- The entities created in a span of time, its ends included. -/
def createdBetween (names : FieldNames) (first last : Option Instant) : Clause :=
  inSpan names.creationDate first last true

end SearchIndex.FieldNames
