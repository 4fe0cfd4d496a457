import SearchIndex.Proofs.Paging.Cursor

/-!
# Windows one behind the other show every result once

An engine that `Finds` some hits hands out any window of them, and may count them as it
likes. A cursor that is moved from window to window, where each begins at the end of the
one before (`Window.Cut`), then shows the entities among all the hits, in their order: none
is left out at the end of a window or shown again at the beginning of the next one.

That the windows cut the hits is a matter of lists (`Window.Cut.take_append`). That each
window shows what is in it, whatever page was kept of the one before, is what a cursor has
from the viewer that it follows (`Follows.pageThrough`).
-/

namespace SearchIndex

namespace Window

/-- The part of a list that is in a window. -/
def slice {α : Type} (window : Window) (items : List α) : List α :=
  (items.drop window.offset).take window.limit

/-- Windows of which each begins where the one before ends, from `start` to `stop`. -/
inductive Cut : Nat → List Window → Nat → Prop where
  | nil (stop : Nat) : Cut stop [] stop
  | cons (start limit : Nat) {windows : List Window} {stop : Nat}
      (rest : Cut (start + limit) windows stop) : Cut start (⟨start, limit⟩ :: windows) stop

variable {start middle stop : Nat} {windows further : List Window}

theorem Cut.append (cut : Cut start windows middle) (rest : Cut middle further stop) :
    Cut start (windows ++ further) stop := by
  induction cut with
  | nil => exact rest
  | cons start limit _ ih => exact .cons start limit (ih rest)

/-- Windows that have the same limit and begin at its multiples. -/
theorem cut_range (limit count : Nat) :
    Cut 0 ((List.range count).map fun number => ⟨number * limit, limit⟩) (count * limit) := by
  induction count with
  | zero =>
      rw [Nat.zero_mul]
      exact .nil 0
  | succ count ih =>
      rw [List.range_succ, List.map_append, Nat.succ_mul]
      exact ih.append (.cons _ limit (.nil _))

/-- What comes before some windows, and what is in them, is all that comes before their end. -/
theorem Cut.take_append {α : Type} (cut : Cut start windows stop) (items : List α) :
    items.take start ++ windows.flatMap (·.slice items) = items.take stop := by
  -- What comes before the first window goes along, so that no position is subtracted.
  induction cut with
  | nil => exact List.append_nil _
  | @cons start limit windows stop _ ih =>
      have first : items.take start ++ slice ⟨start, limit⟩ items = items.take (start + limit) :=
        List.take_add.symm
      rw [List.flatMap_cons, ← List.append_assoc, first, ih]

end Window

/-- An engine that finds some hits for a query, and hands out every window of them. Its
counts of them may be any. -/
def Engine.Finds (engine : Engine) (query : EngineQuery) (found : List EngineHit) : Prop :=
  ∀ call, ∃ hits, engine.search call query = .ok hits ∧
    ∀ call window, hits.page call window = .ok (window.slice found)

/-- The hits that are entities, with their scores. -/
def FieldNames.entities (names : FieldNames) (found : List EngineHit) : List SearchHit :=
  found.filterMap fun hit =>
    (hit.reference? names).map fun reference => { reference, score := hit.score }

theorem FieldNames.entities_flatMap {α : Type} (names : FieldNames) (items : List α)
    (found : α → List EngineHit) :
    names.entities (items.flatMap found) = items.flatMap fun item => names.entities (found item) :=
  List.filterMap_flatMap

/-- A window to move to, and whether its limit is set before its offset. -/
structure Turn where
  window : Window
  limitFirst : Bool
  deriving DecidableEq, Repr

/-- The calls that move to a window. -/
def Turn.setters (turn : Turn) : List CursorCall :=
  if turn.limitFirst then [.setLimit turn.window.limit, .setOffset turn.window.offset]
  else [.setOffset turn.window.offset, .setLimit turn.window.limit]

/-- The results in some windows, one after the other, if there is no failure. -/
def Cursor.pageThrough (c : Cursor) : List Turn → Except Failure (List SearchHit)
  | [] => .ok []
  | turn :: turns =>
    match (c.callAll turn.setters).2.results with
    | (.error failure, _) => .error failure
    | (.ok hits, c) => (c.pageThrough turns).map (hits ++ ·)

/-- The viewer with a window that is set. -/
def Viewer.moved (v : Viewer) (window : Window) : Viewer :=
  { v with offset := some window.offset, limit := some window.limit }

/-- What a viewer sees in a window of some hits are the entities there. An empty window
shows nothing, as it has to. -/
theorem Viewer.results_moved {v : Viewer} {hits : SteadyHits} (shown : v.hits = some hits)
    {found : List EngineHit} {window : Window} (page : hits.page window = window.slice found) :
    (v.moved window).results = v.names.entities (window.slice found) := by
  have set : (v.moved window).window = window := rfl
  rw [results, set, show (v.moved window).hits = some hits from shown]
  simp only [page]
  split
  · next empty => rw [Window.slice, empty, List.take_zero]; rfl
  · rfl

namespace Follows

variable {c : Cursor} {v : Viewer} {asked read : Bool}

/-- After any calls, a cursor follows a viewer that sees the same hits. -/
theorem exists_callAll (h : Follows c v asked read) (calls : List CursorCall) :
    ∃ w asked read, Follows (c.callAll calls).2 w asked read ∧
      w.hits = v.hits ∧ w.names = v.names := by
  induction calls generalizing c v asked read with
  | nil => exact ⟨v, asked, read, h, rfl, rfl⟩
  | cons call calls ih =>
      obtain ⟨next, answered, follows, -⟩ := h.call call
      obtain ⟨w, asked, read, follows, hits, names⟩ := ih follows
      have kept : (v.after call).hits = v.hits ∧ (v.after call).names = v.names := by
        cases call <;> exact ⟨rfl, rfl⟩
      refine ⟨w, asked, read, ?_, hits.trans kept.1, names.trans kept.2⟩
      rw [Cursor.callAll, answered]
      exact follows

/-- In which order the ends of a window are set does not matter. -/
theorem setters (h : Follows c v asked read) (turn : Turn) :
    ∃ read, Follows (c.callAll turn.setters).2 (v.moved turn.window) asked read := by
  rw [Turn.setters]
  split
  · exact ⟨_, (h.setLimit turn.window.limit).setOffset turn.window.offset⟩
  · exact ⟨_, (h.setOffset turn.window.offset).setLimit turn.window.limit⟩

/-- A cursor shows in each window what its viewer sees there. -/
theorem pageThrough (h : Follows c v asked read) (turns : List Turn) :
    c.pageThrough turns = .ok (turns.flatMap fun turn => (v.moved turn.window).results) := by
  induction turns generalizing c v asked read with
  | nil => rfl
  | cons turn turns ih =>
      obtain ⟨still, moved⟩ := h.setters turn
      obtain ⟨next, results, follows, -⟩ := moved.results
      rw [Cursor.pageThrough, results]
      simp only [ih follows]
      rfl

end Follows

/-- The results in windows that cut the hits are the entities among them. -/
theorem Follows.pageThrough_of_cut {c : Cursor} {v : Viewer} {asked read : Bool}
    (h : Follows c v asked read) {hits : SteadyHits} (shown : v.hits = some hits)
    {found : List EngineHit} (pages : ∀ window, hits.page window = window.slice found)
    {turns : List Turn} {stop : Nat} (cut : Window.Cut 0 (turns.map (·.window)) stop)
    (covered : found.length ≤ stop) : c.pageThrough turns = .ok (v.names.entities found) := by
  have whole : turns.flatMap (fun turn => turn.window.slice found) = found := by
    have joined := cut.take_append found
    rwa [List.take_of_length_le covered, List.take_zero, List.nil_append,
      List.flatMap_map] at joined
  have seen (turn : Turn) :
      (v.moved turn.window).results = v.names.entities (turn.window.slice found) :=
    Viewer.results_moved shown (pages turn.window)
  calc c.pageThrough turns
      = .ok (turns.flatMap fun turn => v.names.entities (turn.window.slice found)) := by
        rw [h.pageThrough]
        simp only [seen]
    _ = .ok (v.names.entities found) := by rw [← FieldNames.entities_flatMap, whole]

/-- Without hits there is nothing to show. -/
theorem Follows.pageThrough_of_none {c : Cursor} {v : Viewer} {asked read : Bool}
    (h : Follows c v asked read) (missing : v.hits = none) (turns : List Turn) :
    c.pageThrough turns = .ok [] := by
  rw [h.pageThrough]
  simp [Viewer.results, Viewer.moved, missing]

/-- Windows that cut the hits that there are for a request show all entities among them,
each once and in order, whatever was done with the cursor before. So do windows of one size
that follow each other up to the last hit. -/
theorem Searcher.pageThrough_cut (s : Searcher) (request : Request) (before : List CursorCall)
    {engine : Engine} (present : s.engine = some engine) {found : List EngineHit}
    (finds : engine.Finds request.engineQuery found) :
    let c := ((s.search request).callAll before).2
    let shown := if Text.isBlankText request.query then [] else s.names.entities found
    (∀ (turns : List Turn) (stop : Nat), Window.Cut 0 (turns.map (·.window)) stop →
      found.length ≤ stop → c.pageThrough turns = .ok shown) ∧
    ∀ (size count : Nat) (limitFirst : Nat → Bool), found.length ≤ count * size →
      c.pageThrough ((List.range count).map fun number =>
        ⟨⟨number * size, size⟩, limitFirst number⟩) = .ok shown := by
  intro c shown
  have cuts : ∀ (turns : List Turn) (stop : Nat), Window.Cut 0 (turns.map (·.window)) stop →
      found.length ≤ stop → c.pageThrough turns = .ok shown := by
    intro turns stop cut covered
    cases blank : Text.isBlankText request.query with
    | true =>
        have start := follows_search s request (.blank blank)
        obtain ⟨v, asked, read, follows, missing, -⟩ := start.exists_callAll before
        simp only [shown, blank, if_true]
        exact follows.pageThrough_of_none missing turns
    | false =>
        obtain ⟨hits, answer, pages⟩ := finds 0
        have shows : hits.Shows ⟨(·.slice found), hits.visibleCount, hits.totalCount⟩ :=
          ⟨pages, rfl, rfl⟩
        have start := follows_search s request (.found present blank answer shows)
        obtain ⟨v, asked, read, follows, same, names⟩ := start.exists_callAll before
        have all := follows.pageThrough_of_cut same (fun _ => rfl) cut covered
        rw [show v.names = s.names from names] at all
        simpa only [shown, blank, Bool.false_eq_true, if_false] using all
  refine ⟨cuts, fun size count limitFirst covered => cuts _ (count * size) ?_ covered⟩
  rw [List.map_map]
  exact Window.cut_range size count

/-- Hits of which one is not an entity. -/
def mixedHits : List EngineHit :=
  [{ score := 5, fields := [("wiki", "main"), ("web", "a"), ("name", "b")] },
    { score := 4 },
    { score := 3, fields := [("wiki", "main")] },
    { score := 2, fields := [("wiki", "main"), ("web", "a"), ("name", "c")] },
    { score := 1, fields := [("wiki", "other")] }]

theorem finds_fixedEngine (hits : List EngineHit) (visibleCount : Nat) (query : EngineQuery) :
    (fixedEngine hits visibleCount).Finds query hits :=
  fun _ => ⟨_, rfl, fun _ _ => rfl⟩

/-- Windows that cut them, an empty one among them. The last one goes beyond the end. -/
def mixedTurns : List Turn :=
  [⟨⟨0, 2⟩, false⟩, ⟨⟨2, 0⟩, true⟩, ⟨⟨2, 2⟩, true⟩, ⟨⟨4, 2⟩, false⟩]

theorem Searcher.pageThrough_cut_mixedHits :
    let s : Searcher := { engine := some (fixedEngine mixedHits 1), names := {} }
    let request : Request := { query := "b" }
    (fixedEngine mixedHits 1).Finds request.engineQuery mixedHits ∧
    Window.Cut 0 (mixedTurns.map (·.window)) 6 ∧ mixedHits.length ≤ 6 ∧
    ((s.search request).callAll rereading).2.pageThrough mixedTurns =
      .ok [⟨.document { partition := "main", space := "a", name := "b" }, 5⟩,
        ⟨.partition "main", 3⟩,
        ⟨.document { partition := "main", space := "a", name := "c" }, 2⟩,
        ⟨.partition "other", 1⟩] := by
  intro s request
  have finds := finds_fixedEngine mixedHits 1 request.engineQuery
  have cut : Window.Cut 0 (mixedTurns.map (·.window)) 6 :=
    .cons 0 2 (.cons 2 0 (.cons 2 2 (.cons 4 2 (.nil 6))))
  refine ⟨finds, cut, by decide, ?_⟩
  rw [(s.pageThrough_cut request rereading rfl finds).1 mixedTurns 6 cut (by decide)]
  decide

end SearchIndex
