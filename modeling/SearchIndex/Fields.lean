/-!
# Index fields

The index stores each entity under a set of named fields. The names are chosen
per installation; the defaults below are used for those that are not.
-/

namespace SearchIndex

/-- The names of the index fields. -/
structure FieldNames where
  partition : String := "wiki"
  docType : String := "type"
  space : String := "web"
  name : String := "name"
  fullName : String := "fullname"
  language : String := "lang"
  filename : String := "filename"
  date : String := "date"
  creationDate : String := "creationdate"
  deriving DecidableEq, Repr, Inhabited

end SearchIndex
