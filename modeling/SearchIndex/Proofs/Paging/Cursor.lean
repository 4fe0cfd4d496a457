import Mathlib.Data.List.Induction
import Mathlib.Data.List.Nodup
import SearchIndex.Paging.Cursor

/-!
# A cursor answers as if it kept nothing

`Viewer` is a cursor that keeps nothing but the window that is set: it looks at the hits
again for every answer. If the engine is `Steady`, that is if its calls succeed and its
hits stay what they are, a cursor answers every sequence of calls as the viewer does,
while it sends its query at most once and fetches a window only if it is not the one that
it answered last.

The cursor and the viewer go side by side (`Follows`): what the cursor keeps is what the
viewer would see.
-/

namespace SearchIndex

/-- Hits that stay what they are. -/
structure SteadyHits where
  page : Window → List EngineHit
  visibleCount : Nat
  totalCount : Nat

/-- Hits of an engine answer in the same way again and again. -/
structure EngineHits.Shows (hits : EngineHits) (steady : SteadyHits) : Prop where
  page : ∀ call window, hits.page call window = .ok (steady.page window)
  visibleCount : hits.visibleCount = steady.visibleCount
  totalCount : hits.totalCount = steady.totalCount

/-- An engine whose calls succeed and whose hits stay what they are. -/
def Engine.Steady (engine : Engine) : Prop :=
  ∀ call query, ∃ hits, engine.search call query = .ok hits ∧ ∃ steady, hits.Shows steady

/-- The hits that there are for a query. There are none without an engine, nor for a blank
text; else they are those that the engine gives when it is asked for the first time. -/
inductive Shown (engine : Option Engine) (query : EngineQuery) : Option SteadyHits → Prop where
  | missing (absent : engine = none) : Shown engine query none
  | blank (empty : Text.isBlankText query.text = true) : Shown engine query none
  | found {e : Engine} {hits : EngineHits} {steady : SteadyHits} (present : engine = some e)
      (asks : Text.isBlankText query.text = false) (answer : e.search 0 query = .ok hits)
      (shows : hits.Shows steady) : Shown engine query (some steady)

theorem exists_shown {engine : Option Engine} (steady : ∀ e ∈ engine, e.Steady)
    (query : EngineQuery) : ∃ hits, Shown engine query hits := by
  cases present : engine with
  | none => exact ⟨none, .missing rfl⟩
  | some e =>
      cases text : Text.isBlankText query.text with
      | true => exact ⟨none, .blank text⟩
      | false =>
          obtain ⟨hits, answer, kept, shows⟩ := steady e present 0 query
          exact ⟨some kept, .found rfl text answer shows⟩

/-- How many hits there are in a permission mode. -/
def SteadyHits.count (hits : SteadyHits) : PermissionMode → Nat
  | .checked => hits.visibleCount
  | .skipChecks => hits.totalCount

namespace SearchHit

/-- The score of the last hit of an entity. -/
def lastScore? (hits : List SearchHit) (reference : EntityRef) : Option UInt32 :=
  (hits.reverse.find? (·.reference = reference)).map (·.score)

/-- The score of an entity in a map of scores. -/
def scoreIn? (scores : List (EntityRef × UInt32)) (reference : EntityRef) : Option UInt32 :=
  (scores.find? (·.1 = reference)).map (·.2)

theorem scoreMap_concat (hits : List SearchHit) (hit : SearchHit) :
    scoreMap (hits ++ [hit]) =
      (scoreMap hits).filter (·.1 != hit.reference) ++ [(hit.reference, hit.score)] := by
  rw [scoreMap, List.foldl_append]
  rfl

/-- In the map of the scores of some hits, each entity has the score of its last hit. -/
theorem scoreIn?_scoreMap (hits : List SearchHit) (reference : EntityRef) :
    scoreIn? (scoreMap hits) reference = lastScore? hits reference := by
  induction hits using List.reverseRecOn with
  | nil => rfl
  | append_singleton hits hit ih =>
      rw [scoreMap_concat, scoreIn?, List.find?_append, lastScore?, List.reverse_concat]
      by_cases same : hit.reference = reference
      case pos =>
        have dropped : ((scoreMap hits).filter (·.1 != hit.reference)).find?
            (·.1 = reference) = none := by
          rw [List.find?_eq_none]
          intro entry kept
          have other := (List.mem_filter.mp kept).2
          simpa [same] using other
        rw [dropped, Option.none_or]
        simp [same]
      case neg =>
        have kept : ((scoreMap hits).filter (·.1 != hit.reference)).find? (·.1 = reference) =
            (scoreMap hits).find? (·.1 = reference) := by
          rw [List.find?_filter]
          congr 1
          funext entry
          by_cases this : entry.1 = reference
          · simp [this, Ne.symm same]
          · simp [this]
        rw [kept, List.find?_cons_of_neg (by simpa using same),
          List.find?_cons_of_neg (by simpa using same), List.find?_nil, Option.or_none]
        exact ih

end SearchHit

/-- What one does with a cursor. -/
inductive CursorCall where
  | setOffset (offset : Nat)
  | setLimit (limit : Nat)
  | size
  | results
  | references
  | scores
  deriving DecidableEq, Repr

namespace CursorCall

/-- Whether a call only sets the window. -/
def isSetter : CursorCall → Bool
  | .setOffset _ | .setLimit _ => true
  | _ => false

/-- Whether a call is answered from the window. -/
def isRead : CursorCall → Bool
  | .results | .references | .scores => true
  | _ => false

end CursorCall

/-- What one gets from a cursor. The scores are a map from the entities. -/
inductive CursorAnswer where
  | nothing
  | size (count : Nat)
  | results (hits : List SearchHit)
  | references (references : List EntityRef)
  | scores (score? : EntityRef → Option UInt32)

namespace Cursor

/-- The answer to a call, and the cursor after it. -/
def call (c : Cursor) : CursorCall → Except Failure CursorAnswer × Cursor
  | .setOffset offset => (.ok .nothing, c.setOffset offset)
  | .setLimit limit => (.ok .nothing, c.setLimit limit)
  | .size => let (answer, c) := c.size; (answer.map .size, c)
  | .results => let (answer, c) := c.results; (answer.map .results, c)
  | .references => let (answer, c) := c.references; (answer.map .references, c)
  | .scores => let (answer, c) := c.scores; (answer.map fun s => .scores (SearchHit.scoreIn? s), c)

/-- The answers to some calls, and the cursor after them. -/
def callAll (c : Cursor) : List CursorCall → List (Except Failure CursorAnswer) × Cursor
  | [] => ([], c)
  | call :: calls =>
    let (answer, c) := c.call call
    let (answers, c) := c.callAll calls
    (answer :: answers, c)

end Cursor

/-- A cursor that keeps nothing but the window that is set. Without hits, there is no
engine or nothing to search for. -/
structure Viewer where
  query : EngineQuery
  hits : Option SteadyHits
  names : FieldNames
  offset : Option Nat
  limit : Option Nat

namespace Viewer

/-- How many hits there are. -/
def size (v : Viewer) : Nat :=
  match v.hits with
  | some hits => hits.count v.query.mode
  | none => 0

/-- The window that is in effect: from the first hit on, and all of them, unless it is set. -/
def window (v : Viewer) : Window :=
  { offset := v.offset.getD 0, limit := v.limit.getD v.size }

/-- The hits in the window that are entities, in the order of the engine. -/
def results (v : Viewer) : List SearchHit :=
  match v.hits with
  | some hits =>
    if v.window.limit = 0 then []
    else (hits.page v.window).filterMap fun hit =>
      (hit.reference? v.names).map fun reference => { reference, score := hit.score }
  | none => []

/-- The answer to a call. -/
def answer (v : Viewer) : CursorCall → CursorAnswer
  | .setOffset _ | .setLimit _ => .nothing
  | .size => .size v.size
  | .results => .results v.results
  | .references => .references (v.results.map (·.reference))
  | .scores => .scores (SearchHit.lastScore? v.results)

/-- The viewer after a call. -/
def after (v : Viewer) : CursorCall → Viewer
  | .setOffset offset => { v with offset := some offset }
  | .setLimit limit => { v with limit := some limit }
  | _ => v

/-- The answers to some calls. -/
def answers (v : Viewer) : List CursorCall → List CursorAnswer
  | [] => []
  | call :: calls => v.answer call :: (v.after call).answers calls

/-- Whether the window may still be at hand after a call. It is at hand once it was read,
until something else is set. -/
def stillRead (v : Viewer) (read : Bool) (call : CursorCall) : Bool :=
  (read || call.isRead) &&
    decide ((v.after call).offset = v.offset ∧ (v.after call).limit = v.limit)

/-- What has to be fetched for a call: the window if the call is answered from it, unless
it is at hand, or there are no hits, or it is empty. -/
def fetchesFor (v : Viewer) (read : Bool) (call : CursorCall) : List Window :=
  if call.isRead && (!read && v.hits.isSome && v.window.limit != 0) then [v.window] else []

/-- What has to be fetched for some calls. -/
def fetches (v : Viewer) (read : Bool) : List CursorCall → List Window
  | [] => []
  | call :: calls =>
    v.fetchesFor read call ++ (v.after call).fetches (v.stillRead read call) calls

end Viewer

/-- What the engine gets for a request. -/
def Request.engineQuery (request : Request) : EngineQuery :=
  { text := request.query, sortFields := request.sortFields
    languages := request.languages, mode := request.mode }

/-- The viewer for a request, if these are the hits for its query. -/
def Request.viewer (request : Request) (names : FieldNames) (hits : Option SteadyHits) : Viewer :=
  { query := request.engineQuery, hits, names, offset := request.offset, limit := request.limit }

variable {c : Cursor} {v : Viewer} {asked read : Bool}

/-- A cursor follows a viewer: it keeps what the viewer sees. `asked` tells whether it had
to know the hits so far, and `read` whether the window is at hand. -/
structure Follows (c : Cursor) (v : Viewer) (asked read : Bool) : Prop where
  query : c.query = v.query
  names : c.names = v.names
  offset : c.offset = v.offset
  limit : c.limit = v.limit
  shown : Shown c.engine v.query v.hits
  searches : c.activity.searches = if asked && v.hits.isSome then [v.query] else []
  unasked : (asked && v.hits.isSome) = false → c.hits = none
  kept : asked = true → ∀ steady, v.hits = some steady →
    ∃ hits, c.hits = some hits ∧ hits.Shows steady
  page : c.page = if read then some ⟨v.window, v.results⟩ else none

/-- A new cursor follows the viewer for its request. -/
theorem follows_search (s : Searcher) (request : Request) {hits : Option SteadyHits}
    (shown : Shown s.engine request.engineQuery hits) :
    Follows (s.search request) (request.viewer s.names hits) false false := by
  rw [Searcher.search]
  split <;> exact ⟨rfl, rfl, rfl, rfl, shown, rfl, fun _ => rfl, nofun, rfl⟩

namespace Cursor

/-- Notices are all that is added by notices. -/
theorem foldl_notify (notices : List SearchNotice) (c : Cursor) :
    notices.foldl notify c = { c with activity.notices := c.activity.notices ++ notices } := by
  induction notices generalizing c with
  | nil => simp
  | cons notice notices ih => simp [ih, notify]

end Cursor

namespace Follows

/-- A cursor has the hits of its viewer once it was asked. -/
theorem execute (h : Follows c v asked read) :
    ∃ next, c.execute = (.ok (), next) ∧ Follows next v true read ∧
      next.activity.fetches = c.activity.fetches := by
  have shown := h.shown
  cases hits : v.hits with
  | none =>
      have pending := h.unasked (by simp [hits])
      refine ⟨c, ?_, ?_, rfl⟩
      · rw [hits] at shown
        cases shown with
        | missing absent => rw [Cursor.execute, pending, absent]
        | blank empty =>
            rw [Cursor.execute, pending, h.query]
            cases c.engine <;> simp [empty]
      · exact { h with
          searches := by simpa [hits] using h.searches
          unasked := fun _ => pending
          kept := by simp [hits] }
  | some steady =>
      cases asked with
      | true =>
          obtain ⟨found, kept, -⟩ := h.kept rfl steady hits
          exact ⟨c, by rw [Cursor.execute, kept], h, rfl⟩
      | false =>
          have pending := h.unasked rfl
          have unsent : c.activity.searches = [] := h.searches
          rw [hits] at shown
          cases shown with
          | @found engine found _ present asks answer shows =>
              refine ⟨{ c.sent with hits := some found }, ?_, ?_, rfl⟩
              · rw [Cursor.execute, pending, present, h.query, unsent]
                simp [asks, answer]
              · exact { h with
                  searches := by simp [Cursor.sent, unsent, hits, h.query]
                  unasked := by simp [hits]
                  kept := fun _ other same => by
                    obtain rfl := Option.some.inj (hits.symm.trans same)
                    exact ⟨found, rfl, shows⟩ }

theorem count_eq (h : Follows c v true read) : c.count = v.size := by
  rw [Cursor.count, Viewer.size]
  cases hits : v.hits with
  | none => rw [h.unasked (by simp [hits])]
  | some steady =>
      obtain ⟨found, kept, shows⟩ := h.kept rfl steady hits
      simp only [kept, h.query, EngineHits.count, SteadyHits.count]
      cases v.query.mode with
      | checked => exact shows.visibleCount
      | skipChecks => exact shows.totalCount

theorem window_eq (h : Follows c v true read) : c.window = v.window := by
  rw [Cursor.window, h.offset, h.limit, h.count_eq, Viewer.window]

/-- A fetched window has the results that the viewer sees. -/
theorem fetch (h : Follows c v true read) :
    ∃ next, c.fetch v.window = (.ok v.results, next) ∧ Follows next v true read ∧
      next.activity.fetches = c.activity.fetches ++
        if v.hits.isSome && v.window.limit != 0 then [v.window] else [] := by
  cases hits : v.hits with
  | none =>
      refine ⟨c, ?_, h, by simp⟩
      rw [Cursor.fetch, h.unasked (by simp [hits]), Viewer.results, hits]
  | some steady =>
      obtain ⟨found, kept, shows⟩ := h.kept rfl steady hits
      rw [Cursor.fetch, kept, Viewer.results, hits]
      by_cases empty : v.window.limit = 0
      case pos => exact ⟨c, by simp [empty], h, by simp [empty]⟩
      case neg =>
        simp only [if_neg empty, shows.page, Cursor.foldl_notify, Cursor.mapped, h.names]
        refine ⟨_, rfl, ?_, by simp [Cursor.asked, Cursor.notify, empty]⟩
        exact { h with }

/-- The results of a cursor are those that its viewer sees. -/
theorem results (h : Follows c v asked read) :
    ∃ next, c.results = (.ok v.results, next) ∧ Follows next v true true ∧
      next.activity.fetches = c.activity.fetches ++
        if !read && v.hits.isSome && v.window.limit != 0 then [v.window] else [] := by
  obtain ⟨asked, executed, follows, fetches⟩ := h.execute
  rw [Cursor.results, executed]
  simp only [follows.window_eq, Cursor.pageFor, follows.page, ← fetches]
  cases read with
  | true => exact ⟨asked, by simp [Option.filter], follows, by simp⟩
  | false =>
      obtain ⟨next, fetched, follows, fetches⟩ := follows.fetch
      refine ⟨{ next with page := some ⟨v.window, v.results⟩ }, ?_, ?_, fetches⟩
      · simp [fetched]
      · exact { follows with page := rfl }

/-- An offset that is set already leaves the window at hand, another one does not. -/
theorem setOffset (h : Follows c v asked read) (offset : Nat) :
    Follows (c.setOffset offset) (v.after (.setOffset offset)) asked
      (v.stillRead read (.setOffset offset)) := by
  rw [Cursor.setOffset, h.offset]
  by_cases same : v.offset = some offset
  case pos =>
    have unchanged : v.after (.setOffset offset) = v := by rw [Viewer.after, ← same]
    have still : v.stillRead read (.setOffset offset) = read := by
      simp [Viewer.stillRead, CursorCall.isRead, unchanged]
    rw [if_pos same, unchanged, still]
    exact h
  case neg =>
    have still : v.stillRead read (.setOffset offset) = false := by
      simp [Viewer.stillRead, Viewer.after, Ne.symm same]
    rw [if_neg same, still]
    exact { h with offset := rfl, page := rfl }

theorem setLimit (h : Follows c v asked read) (limit : Nat) :
    Follows (c.setLimit limit) (v.after (.setLimit limit)) asked
      (v.stillRead read (.setLimit limit)) := by
  rw [Cursor.setLimit, h.limit]
  by_cases same : v.limit = some limit
  case pos =>
    have unchanged : v.after (.setLimit limit) = v := by rw [Viewer.after, ← same]
    have still : v.stillRead read (.setLimit limit) = read := by
      simp [Viewer.stillRead, CursorCall.isRead, unchanged]
    rw [if_pos same, unchanged, still]
    exact h
  case neg =>
    have still : v.stillRead read (.setLimit limit) = false := by
      simp [Viewer.stillRead, Viewer.after, Ne.symm same]
    rw [if_neg same, still]
    exact { h with limit := rfl, page := rfl }

/-- A call that is answered from the window has it fetched unless it is at hand. -/
theorem window (h : Follows c v asked read) (call : CursorCall) (reads : call.isRead = true) :
    ∃ next, c.call call = (.ok (v.answer call), next) ∧ Follows next v true true ∧
      next.activity.fetches = c.activity.fetches ++ v.fetchesFor read call := by
  obtain ⟨next, results, follows, fetches⟩ := h.results
  refine ⟨next, ?_, follows, by rw [fetches, Viewer.fetchesFor, reads, Bool.true_and]⟩
  cases call with
  | results => rw [Cursor.call, results]; rfl
  | references => rw [Cursor.call, Cursor.references, results]; rfl
  | scores =>
      rw [Cursor.call, Cursor.scores, results, Viewer.answer,
        ← funext (SearchHit.scoreIn?_scoreMap v.results)]
      rfl
  | _ => cases reads

/-- A call is answered as the viewer answers it. -/
theorem call (h : Follows c v asked read) (call : CursorCall) :
    ∃ next, c.call call = (.ok (v.answer call), next) ∧
      Follows next (v.after call) (asked || !call.isSetter) (v.stillRead read call) ∧
      next.activity.fetches = c.activity.fetches ++ v.fetchesFor read call := by
  cases kind : call.isRead with
  | true =>
      obtain ⟨next, answer, follows, fetches⟩ := h.window call kind
      have unset : call.isSetter = false := by cases call <;> first | rfl | cases kind
      have unchanged : v.after call = v := by cases call <;> first | rfl | cases kind
      refine ⟨next, answer, ?_, fetches⟩
      simpa [Viewer.stillRead, unset, unchanged, kind] using follows
  | false =>
      have idle : v.fetchesFor read call = [] := by simp [Viewer.fetchesFor, kind]
      rw [idle, List.append_nil]
      cases call with
      | setOffset offset =>
          refine ⟨_, rfl, ?_, ?_⟩
          · simpa [CursorCall.isSetter] using h.setOffset offset
          · rw [Cursor.setOffset]
            split <;> rfl
      | setLimit limit =>
          refine ⟨_, rfl, ?_, ?_⟩
          · simpa [CursorCall.isSetter] using h.setLimit limit
          · rw [Cursor.setLimit]
            split <;> rfl
      | size =>
          obtain ⟨next, executed, follows, fetches⟩ := h.execute
          refine ⟨next, ?_, ?_, fetches⟩
          · rw [Cursor.call, Cursor.size, executed, Viewer.answer, ← follows.count_eq]
            rfl
          · simpa [Viewer.stillRead, Viewer.after, CursorCall.isSetter, kind] using follows
      | _ => cases kind

/-- All calls are answered as the viewer answers them. -/
theorem callAll (h : Follows c v asked read) (calls : List CursorCall) :
    ∃ next, c.callAll calls = ((v.answers calls).map .ok, next) ∧
      next.activity.searches =
        (if (asked || calls.any (!·.isSetter)) && v.hits.isSome then [v.query] else []) ∧
      next.activity.fetches = c.activity.fetches ++ v.fetches read calls := by
  induction calls generalizing c v asked read with
  | nil => exact ⟨c, rfl, by simpa using h.searches, by simp [Viewer.fetches]⟩
  | cons call calls ih =>
      obtain ⟨next, answer, follows, fetches⟩ := h.call call
      obtain ⟨last, answers, searches, furtherFetches⟩ := ih follows
      have kept : (v.after call).hits = v.hits ∧ (v.after call).query = v.query := by
        cases call <;> exact ⟨rfl, rfl⟩
      refine ⟨last, ?_, ?_, ?_⟩
      · rw [Cursor.callAll, answer, Viewer.answers, List.map_cons]
        simp only [answers]
      · rw [searches, kept.1, kept.2, List.any_cons, Bool.or_assoc]
      · rw [furtherFetches, fetches, Viewer.fetches, List.append_assoc]

end Follows

/-- The cursor for a request answers as its viewer does. It sends the query once, when it
has to know the hits for the first time, and fetches no window that is at hand. -/
theorem exists_shown_callAll (s : Searcher) (request : Request)
    (steady : ∀ engine ∈ s.engine, engine.Steady) :
    ∃ hits, Shown s.engine request.engineQuery hits ∧ ∀ calls,
      let viewer := request.viewer s.names hits
      let (answers, cursor) := (s.search request).callAll calls
      answers = (viewer.answers calls).map .ok ∧
      cursor.activity.searches =
        (if calls.any (!·.isSetter) && hits.isSome then [request.engineQuery] else []) ∧
      cursor.activity.fetches = viewer.fetches false calls := by
  obtain ⟨hits, shown⟩ := exists_shown steady request.engineQuery
  refine ⟨hits, shown, fun calls => ?_⟩
  have new : (s.search request).activity.fetches = [] := by
    rw [Searcher.search]
    split <;> rfl
  obtain ⟨next, answers, searches, fetches⟩ := (follows_search s request shown).callAll calls
  rw [answers]
  exact ⟨rfl, searches, by rw [fetches, new, List.nil_append]⟩

/-- An engine that finds the same for every query. -/
def fixedEngine (hits : List EngineHit) (visibleCount : Nat) : Engine where
  search _ _ := .ok
    { page := fun _ window => .ok ((hits.drop window.offset).take window.limit)
      visibleCount
      totalCount := hits.length }

theorem steady_fixedEngine (hits : List EngineHit) (visibleCount : Nat) :
    (fixedEngine hits visibleCount).Steady := fun _ _ =>
  ⟨_, rfl, ⟨fun window => (hits.drop window.offset).take window.limit, visibleCount, hits.length⟩,
    fun _ _ => rfl, rfl, rfl⟩

/-- A searcher with such an engine. It finds one document twice, and a hit that is nothing. -/
def fixedSearcher : Searcher where
  engine := some (fixedEngine
    [{ score := 3, fields := [("wiki", "main"), ("web", "a"), ("name", "b")] },
      { score := 2 },
      { score := 1, fields := [("wiki", "main"), ("web", "a"), ("name", "b")] }] 2)
  names := {}

/-- Calls of which some need the window again, or another one. -/
def rereading : List CursorCall :=
  [.setOffset 0, .results, .scores, .setLimit 2, .size, .references]

theorem exists_shown_callAll_rereading :
    (∀ engine ∈ fixedSearcher.engine, engine.Steady) ∧
    let request : Request := { query := "b", mode := .skipChecks }
    ∃ hits, Shown fixedSearcher.engine request.engineQuery hits ∧
      let (answers, cursor) := (fixedSearcher.search request).callAll rereading
      answers = ((request.viewer fixedSearcher.names hits).answers rereading).map .ok ∧
      cursor.activity.searches = [request.engineQuery] ∧
      cursor.activity.fetches = [⟨0, 3⟩, ⟨0, 2⟩] := by
  have steady : ∀ engine ∈ fixedSearcher.engine, engine.Steady := by
    rintro engine present
    obtain rfl := Option.some.inj present
    exact steady_fixedEngine _ _
  obtain ⟨hits, shown, run⟩ :=
    exists_shown_callAll fixedSearcher { query := "b", mode := .skipChecks } steady
  exact ⟨steady, hits, shown, (run rereading).1, rfl, rfl⟩

end SearchIndex
