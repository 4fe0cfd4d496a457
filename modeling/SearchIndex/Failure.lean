/-!
# Failures

Why an operation fails, and how a failure is reported.
-/

namespace SearchIndex

/-- Why an operation fails: the engine refused a query, a partition is no scope
for one, or a text is no JSON form of what it should be. -/
inductive Failure where
  | searchFailed (query cause : String)
  | unscoped (partition : String)
  | malformed
  deriving DecidableEq, Repr

namespace Failure

/-- The report of a failure. -/
def message : Failure → String
  | .searchFailed query cause => "search failed for query '" ++ query ++ "': " ++ cause
  | .unscoped partition =>
    "invalid argument: partition '" ++ partition ++ "' does not scope a query"
  | .malformed => "serialization error"

/-- The query that a failure is about. -/
def query? : Failure → Option String
  | .searchFailed query _ => some query
  | _ => none

/-- The cause that the engine gave for a failure. -/
def cause? : Failure → Option String
  | .searchFailed _ cause => some cause
  | _ => none

end Failure

end SearchIndex
