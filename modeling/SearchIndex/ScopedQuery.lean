import SearchIndex.Condition
import SearchIndex.Failure

/-!
# Scoped queries

A scoped query searches one partition. Its scope is fixed when it is made; types
and further restrictions are added to it. It compiles to the conjunction of the
scope, the types and the restrictions, and to the empty text if the partition is
no scope.
-/

namespace SearchIndex

/-- A query for one partition. -/
structure ScopedQuery where
  partition : String
  names : FieldNames
  scope : Clause
  types : Group := { connective := .or }
  restrictions : Group := { connective := .and }

namespace ScopedQuery

/-- A query after an operation on it, and whether the operation changed it. -/
structure Outcome extends ScopedQuery where
  changed : Bool

instance : Coe Outcome ScopedQuery := ⟨Outcome.toScopedQuery⟩

/-- A query for a partition and nothing else. -/
def ofPartition (partition : String) (names : FieldNames) : ScopedQuery :=
  { partition, names, scope := names.inPartition partition }

/-- Whether the partition scopes the query. -/
def isScoped (q : ScopedQuery) : Bool :=
  !q.scope.isEmpty

/-- A query for a partition that scopes it. -/
def scoped? (partition : String) (names : FieldNames) : Except Failure ScopedQuery :=
  let q := ofPartition partition names
  if q.isScoped then .ok q else .error (.unscoped partition)

/-- The query for any of some further types as well. -/
def withTypes (q : ScopedQuery) (docTypes : List String) : ScopedQuery :=
  { q with types := (q.types.addAll (docTypes.map fun t => .clause (q.names.ofType t))).1 }

/-- The query with a further restriction. -/
def add (q : ScopedQuery) (r : Restriction) : Outcome :=
  let added := q.restrictions.add r
  ⟨{ q with restrictions := added }, added.changed⟩

/-- The query with further restrictions, and how many of them were kept. -/
def addAll (q : ScopedQuery) (rs : List Restriction) : ScopedQuery × Nat :=
  let (restrictions, count) := q.restrictions.addAll rs
  ({ q with restrictions }, count)

/-- The query without a restriction. The scope is not among the restrictions. -/
def remove (q : ScopedQuery) (r : Restriction) : Outcome :=
  let removed := q.restrictions.remove r
  ⟨{ q with restrictions := removed }, removed.changed⟩

/-- Whether there is nothing to the query but its scope and types. -/
def isEmpty (q : ScopedQuery) : Bool :=
  q.restrictions.isEmpty

/-- Everything that the query asks for, as one group. -/
def root (q : ScopedQuery) : Group :=
  .ofMembers .and (.clause q.scope :: q.types.toRestriction :: q.restrictions.members) false

/-- The text of the query. -/
def compile (q : ScopedQuery) : String :=
  if q.isScoped then q.root.compile else ""

/-- Queries are equal if all their parts are. -/
instance : BEq ScopedQuery where
  beq a b := a.partition == b.partition && a.names == b.names && a.scope == b.scope
    && a.types == b.types && a.restrictions == b.restrictions

end ScopedQuery

end SearchIndex
