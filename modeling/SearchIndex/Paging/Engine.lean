import SearchIndex.Level
import SearchIndex.Paging.Hit

/-!
# The search engine

The engine is outside the library. It answers a query with its hits, which it
hands out page by page, or refuses with a cause; a call may turn out differently
the next time, so both functions take the number of the call.
-/

namespace SearchIndex

/-- Whether the hits that the searching user may not see are left out. -/
inductive PermissionMode where
  | checked
  | skipChecks
  deriving DecidableEq, Repr

/-- The word for a permission mode. -/
def PermissionMode.word : PermissionMode → String
  | .checked => "Checked"
  | .skipChecks => "SkipChecks"

/-- A query as the engine gets it. -/
structure EngineQuery where
  text : String
  sortFields : List String := []
  languages : List String := []
  mode : PermissionMode := .checked
  deriving DecidableEq, Repr

/-- A part of the hits: how many to skip, and how many to take then. -/
structure Window where
  offset : Nat
  limit : Nat
  deriving DecidableEq, Repr

/-- Where a window ends. Positions are counted in 64 bits. -/
def Window.last (w : Window) : Nat :=
  (w.offset + w.limit) % 18446744073709551616

/-- The hits of a query. `page` takes the number of the call and the window. -/
structure EngineHits where
  page : Nat → Window → Except String (List EngineHit)
  visibleCount : Nat
  totalCount : Nat

/-- A search engine. `search` takes the number of the call and the query. -/
structure Engine where
  search : Nat → EngineQuery → Except String EngineHits

/-- How many hits a query has in a permission mode. -/
def EngineHits.count (hits : EngineHits) : PermissionMode → Nat
  | .checked => hits.visibleCount
  | .skipChecks => hits.totalCount

/-- What a search reports while it works. -/
inductive SearchNotice where
  | engineMissing (query : String)
  | executing (query : String) (mode : PermissionMode)
  | fetching (window : Window) (query : String)
  | unmappable
  deriving DecidableEq, Repr

namespace SearchNotice

/-- The level of a notice. -/
def level : SearchNotice → Level
  | .engineMissing _ => .warn
  | _ => .debug

/-- The text of a notice. -/
def text : SearchNotice → String
  | .engineMissing query =>
    "search engine not available, returning no results for '" ++ query ++ "'"
  | .executing query mode => "executing query '" ++ query ++ "' (" ++ mode.word ++ ")"
  | .fetching window query =>
    "fetching hits " ++ toString window.offset ++ ".."
      ++ toString window.last ++ " of '" ++ query ++ "'"
  | .unmappable => "skipping unmappable hit"

end SearchNotice

end SearchIndex
