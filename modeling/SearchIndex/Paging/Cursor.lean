import SearchIndex.Failure
import SearchIndex.Paging.Engine
import SearchIndex.ScopedQuery

/-!
# Cursors

A cursor stands for the results of one search. It asks the engine only when an
answer is needed, at most once with success, and keeps the last page it fetched.
The window of a page is set by an offset, zero by default, and a limit, by
default the number of hits. A blank query, like a missing engine, has no
results.

Every operation returns its answer and the cursor after it. A failed call of the
engine leaves nothing behind but a trace in `Activity`, so the operation may be
repeated.
-/

namespace SearchIndex

/-- What to search for, and which part of the results to begin with. -/
structure Request where
  query : String
  sortFields : List String := []
  languages : List String := []
  mode : PermissionMode := .checked
  offset : Option Nat := none
  limit : Option Nat := none
  deriving DecidableEq, Repr

/-- The request for a scoped query. -/
def ScopedQuery.request (q : ScopedQuery) (sortFields languages : List String)
    (mode : PermissionMode) : Request :=
  { query := q.compile, sortFields, languages, mode }

/-- A page of results, and the window it was fetched for. -/
structure Page where
  window : Window
  hits : List SearchHit
  deriving DecidableEq, Repr

/-- What a cursor has done: the queries it sent, the windows it fetched and its
notices, each in order. -/
structure Activity where
  searches : List EngineQuery := []
  fetches : List Window := []
  notices : List SearchNotice := []
  deriving DecidableEq, Repr

/-- The results of one search. -/
structure Cursor where
  query : EngineQuery
  offset : Option Nat
  limit : Option Nat
  engine : Option Engine
  names : FieldNames
  hits : Option EngineHits := none
  page : Option Page := none
  activity : Activity := {}

namespace Cursor

/-- A cursor that has not asked the engine yet. -/
def ofRequest (request : Request) (engine : Option Engine) (names : FieldNames) : Cursor where
  query :=
    { text := request.query, sortFields := request.sortFields
      languages := request.languages, mode := request.mode }
  offset := request.offset
  limit := request.limit
  engine := engine
  names := names

/-- The cursor with a further notice. -/
def notify (c : Cursor) (notice : SearchNotice) : Cursor :=
  { c with activity.notices := c.activity.notices ++ [notice] }

/-- Sets the offset. A different one makes the kept page useless. -/
def setOffset (c : Cursor) (offset : Nat) : Cursor :=
  if c.offset = some offset then c else { c with offset := some offset, page := none }

/-- Sets the limit. A different one makes the kept page useless. -/
def setLimit (c : Cursor) (limit : Nat) : Cursor :=
  if c.limit = some limit then c else { c with limit := some limit, page := none }

/-- The cursor once it has sent its query. -/
def sent (c : Cursor) : Cursor :=
  { c.notify (.executing c.query.text c.query.mode) with
    activity.searches := c.activity.searches ++ [c.query] }

/-- Asks the engine unless that is done or there is nothing to ask. -/
def execute (c : Cursor) : Except Failure Unit × Cursor :=
  match c.hits, c.engine with
  | none, some engine =>
    if Text.isBlankText c.query.text then (.ok (), c)
    else match engine.search c.activity.searches.length c.query with
      | .ok hits => (.ok (), { c.sent with hits := some hits })
      | .error cause => (.error (.searchFailed c.query.text cause), c.sent)
  | _, _ => (.ok (), c)

/-- How many hits are known. -/
def count (c : Cursor) : Nat :=
  match c.hits with
  | some hits => hits.count c.query.mode
  | none => 0

/-- How many hits the search has. -/
def size (c : Cursor) : Except Failure Nat × Cursor :=
  match c.execute with
  | (.error e, c) => (.error e, c)
  | (.ok (), c) => (.ok c.count, c)

/-- The window that is in effect. -/
def window (c : Cursor) : Window :=
  { offset := c.offset.getD 0, limit := c.limit.getD c.count }

/-- The hits of a fetched page that are entities. -/
def mapped (c : Cursor) (page : List EngineHit) : List SearchHit :=
  page.filterMap fun hit => (hit.reference? c.names).map (⟨·, hit.score⟩)

/-- One notice for each hit of a fetched page that is no entity. -/
def unmapped (c : Cursor) (page : List EngineHit) : List SearchNotice :=
  (page.filter fun hit => (hit.reference? c.names).isNone).map fun _ => .unmappable

/-- The cursor once it has asked for a page. -/
def asked (c : Cursor) (window : Window) : Cursor :=
  { c.notify (.fetching window c.query.text) with
    activity.fetches := c.activity.fetches ++ [window] }

/-- Fetches a window of the hits. An empty window is not worth a call. -/
def fetch (c : Cursor) (window : Window) : Except Failure (List SearchHit) × Cursor :=
  match c.hits with
  | none => (.ok [], c)
  | some hits =>
    if window.limit = 0 then (.ok [], c)
    else match hits.page c.activity.fetches.length window with
      | .ok page => (.ok (c.mapped page), (c.unmapped page).foldl notify (c.asked window))
      | .error cause => (.error (.searchFailed c.query.text cause), c.asked window)

/-- The results in the window, from the kept page if it is the one. -/
def pageFor (c : Cursor) (window : Window) : Except Failure (List SearchHit) × Cursor :=
  match c.page.filter (·.window == window) with
  | some page => (.ok page.hits, c)
  | none =>
    match c.fetch window with
    | (.error e, c) => (.error e, c)
    | (.ok hits, c) => (.ok hits, { c with page := some ⟨window, hits⟩ })

/-- The results in the window that is in effect. -/
def results (c : Cursor) : Except Failure (List SearchHit) × Cursor :=
  match c.execute with
  | (.error e, c) => (.error e, c)
  | (.ok (), c) => c.pageFor c.window

/-- The entities in the window that is in effect. -/
def references (c : Cursor) : Except Failure (List EntityRef) × Cursor :=
  let (answer, c) := c.results
  (answer.map (·.map SearchHit.reference), c)

/-- The entities in the window that is in effect and their scores. -/
def scores (c : Cursor) : Except Failure (List (EntityRef × UInt32)) × Cursor :=
  let (answer, c) := c.results
  (answer.map SearchHit.scoreMap, c)

end Cursor

/-- Where searches are sent: an engine, if it is available, and the names of the
fields it stores. -/
structure Searcher where
  engine : Option Engine
  names : FieldNames

/-- The cursor for a request. -/
def Searcher.search (s : Searcher) (request : Request) : Cursor :=
  let cursor := Cursor.ofRequest request s.engine s.names
  if s.engine.isNone then cursor.notify (.engineMissing request.query) else cursor

end SearchIndex
