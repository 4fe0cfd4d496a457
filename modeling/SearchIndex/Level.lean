/-!
# Levels of notices

Besides its result, an operation may report what it does on the way. Every
notice has a level, which says how much it matters.
-/

namespace SearchIndex

/-- How much a notice matters. -/
inductive Level where
  | debug
  | warn
  | error
  deriving DecidableEq, Repr

/-- The word for a level. -/
def Level.word : Level → String
  | .debug => "DEBUG"
  | .warn => "WARN"
  | .error => "ERROR"

end SearchIndex
