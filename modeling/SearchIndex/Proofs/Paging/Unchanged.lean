import SearchIndex.Proofs.Paging.Failures

/-!
# What is looked at again is at hand

After a call that was answered from the window, the results in it are at hand (`AtHand`),
and they stay so as long as the offset and the limit are set to nothing else: whatever looks
at the window again then has nothing to fetch.

It is the setting of another offset or limit that counts, not where the window is in the
end. A window that is moved away and back is fetched again, though it is the one that was
fetched last.
-/

namespace SearchIndex

/-- Hits that hand out every page. What is on it may change from call to call. -/
def EngineHits.Reliable (hits : EngineHits) : Prop :=
  ∀ call window, ∃ page, hits.page call window = .ok page

/-- An engine whose calls succeed. -/
def Engine.Reliable (engine : Engine) : Prop :=
  ∀ call query, ∃ hits, engine.search call query = .ok hits ∧ hits.Reliable

theorem Engine.Steady.reliable {engine : Engine} (steady : engine.Steady) : engine.Reliable := by
  intro call query
  obtain ⟨hits, found, kept, shows⟩ := steady call query
  exact ⟨hits, found, fun call window => ⟨kept.page window, shows.page call window⟩⟩

namespace Cursor

variable {c d : Cursor}

/-- A cursor whose engine does not fail. -/
structure Reliable (c : Cursor) : Prop where
  engine : ∀ engine ∈ c.engine, engine.Reliable
  hits : ∀ hits ∈ c.hits, hits.Reliable

theorem reliable_search {s : Searcher} (reliable : ∀ engine ∈ s.engine, engine.Reliable)
    (request : Request) : (s.search request).Reliable := by
  rw [Searcher.search]
  split <;> exact ⟨reliable, by rintro _ ⟨⟩⟩

namespace Reliable

/-- What a cursor whose engine does not fail is told about its hits is no failure. -/
theorem exists_of_searched (h : c.Reliable) {number : Nat} {reply : Except String EngineHits}
    (asked : ∃ engine, c.engine = some engine ∧ engine.search number c.query = reply) :
    ∃ hits, reply = .ok hits ∧ hits.Reliable := by
  obtain ⟨engine, present, rfl⟩ := asked
  exact h.engine engine present number c.query

theorem call (h : c.Reliable) (call : CursorCall) : (c.call call).2.Reliable := by
  obtain ⟨searched, fetched, serves⟩ := exists_serves c call
  refine ⟨by rw [serves.engine]; exact h.engine, ?_⟩
  by_cases told : ∃ hits, searched = some (.ok hits)
  case pos =>
    obtain ⟨hits, rfl⟩ := told
    obtain ⟨found, same, reliable⟩ := h.exists_of_searched (serves.search _ rfl).2
    obtain rfl := Except.ok.inj same
    rw [serves.told hits rfl]
    rintro _ ⟨⟩
    exact reliable
  case neg =>
    rw [serves.untold fun hits same => told ⟨hits, same⟩]
    exact h.hits

theorem callAll (h : c.Reliable) (calls : List CursorCall) : (c.callAll calls).2.Reliable := by
  induction calls generalizing c with
  | nil => exact h
  | cons call calls ih => exact ih (h.call call)

/-- Without failures of the engine, every call succeeds. -/
theorem exists_answer (h : c.Reliable) (call : CursorCall) :
    ∃ answer, (c.call call).1 = .ok answer := by
  obtain ⟨searched, fetched, serves⟩ := exists_serves c call
  cases answered : (c.call call).1 with
  | ok answer => exact ⟨answer, rfl⟩
  | error failure =>
      obtain ⟨cause, failed | failed, -⟩ := (serves.fails failure).mp answered
      · obtain ⟨found, same, -⟩ := h.exists_of_searched (serves.search _ failed).2
        cases same
      · obtain ⟨hits, known, reply⟩ := serves.fetch _ failed
        obtain ⟨page, paged⟩ := (h.call call).hits hits known _ _
        rw [paged] at reply
        cases reply

end Reliable

/-- The results in the window that is in effect are at hand. -/
structure AtHand (c : Cursor) : Prop where
  known : c.search? = none
  page : ∃ hits, c.page = some ⟨c.window, hits⟩

/-- They are at hand after a call that was answered from the window. -/
theorem atHand_of_isRead {call : CursorCall} (kind : call.isRead = true) {answer : CursorAnswer}
    (answered : c.call call = (.ok answer, d)) : d.AtHand := by
  have unset := CursorCall.isSetter_of_isRead kind
  rcases executed : c.execute with ⟨done, e⟩
  cases done with
  | error failure =>
      rw [(call_of_execute unset).1 _ executed] at answered
      cases answered
  | ok _ =>
      obtain ⟨shape, called⟩ := (call_of_execute unset).2.2 executed kind
      rw [called, pageFor_eq] at answered
      have known := search?_of_execute executed
      cases asks : e.fetch? with
      | none =>
          rw [asks] at answered
          obtain rfl := (Prod.mk.inj answered).2
          exact ⟨known, e.atHand, rfl⟩
      | some reply =>
          rw [asks] at answered
          cases reply with
          | error cause => cases (Prod.mk.inj answered).1
          | ok page =>
              obtain rfl : e.paged page = d := (Prod.mk.inj answered).2
              rw [paged, foldl_notify]
              exact ⟨known, e.mapped page, rfl⟩

/-- A call that sets the offset or the limit to nothing else than what is set. -/
def Repeats (c : Cursor) : CursorCall → Prop
  | .setOffset offset => c.offset = some offset
  | .setLimit limit => c.limit = some limit
  | _ => True

instance (c : Cursor) : DecidablePred c.Repeats
  | .setOffset offset => inferInstanceAs (Decidable (c.offset = some offset))
  | .setLimit limit => inferInstanceAs (Decidable (c.limit = some limit))
  | .size | .results | .references | .scores => inferInstanceAs (Decidable True)

namespace AtHand

/-- What is at hand need not be fetched. -/
theorem fetch?_eq (h : c.AtHand) : c.fetch? = none := by
  obtain ⟨hits, page⟩ := h.page
  rw [fetch?, page]
  exact if_pos (.inr (by simp))

theorem call (h : c.AtHand) {call : CursorCall} (repeats : c.Repeats call) :
    (c.call call).2 = c := by
  have executed := execute_of_search? h.known
  cases kind : call.isRead with
  | true =>
      have unset := CursorCall.isSetter_of_isRead kind
      obtain ⟨hits, page⟩ := h.page
      obtain ⟨shape, called⟩ := (call_of_execute unset).2.2 executed kind
      have same : some ⟨c.window, c.atHand⟩ = c.page := by
        simp [atHand, page, Option.filter]
      rw [called, pageFor_eq, h.fetch?_eq, same]
  | false =>
      cases call with
      | setOffset offset => exact if_pos repeats
      | setLimit limit => exact if_pos repeats
      | size => rw [Cursor.call, size, executed]
      | _ => cases kind

theorem callAll (h : c.AtHand) {calls : List CursorCall}
    (repeats : ∀ call ∈ calls, c.Repeats call) : (c.callAll calls).2 = c := by
  induction calls with
  | nil => rfl
  | cons call calls ih =>
      rw [callAll_cons, h.call (repeats call List.mem_cons_self)]
      exact ih fun later among => repeats later (List.mem_cons_of_mem _ among)

end AtHand

/-- What calls that are not answered from the window make of a cursor that knows its hits:
they may set the window, and leave the page at hand only if all is as before. -/
structure Moves (c d : Cursor) : Prop where
  same : d = { c with offset := d.offset, limit := d.limit, page := d.page }
  page : d = c ∨ d.page = none

theorem moves_call (known : c.search? = none) {call : CursorCall} (unread : call.isRead = false) :
    c.Moves (c.call call).2 := by
  cases call with
  | setOffset offset =>
      rw [Cursor.call, setOffset]
      split
      · exact ⟨rfl, .inl rfl⟩
      · exact ⟨rfl, .inr rfl⟩
  | setLimit limit =>
      rw [Cursor.call, setLimit]
      split
      · exact ⟨rfl, .inl rfl⟩
      · exact ⟨rfl, .inr rfl⟩
  | size =>
      rw [Cursor.call, size, execute_of_search? known]
      exact ⟨rfl, .inl rfl⟩
  | _ => cases unread

/-- A cursor that knows its hits still knows them when its window is moved. -/
theorem Moves.search? (h : c.Moves d) : d.search? = c.search? := by
  rw [h.same]
  rfl

theorem Moves.trans {e : Cursor} (h : c.Moves d) (further : d.Moves e) : c.Moves e := by
  constructor
  · rw [further.same, h.same]
  · rcases further.page with rfl | dropped
    · exact h.page
    · exact .inr dropped

theorem moves_callAll (known : c.search? = none) {calls : List CursorCall}
    (unread : ∀ call ∈ calls, call.isRead = false) : c.Moves (c.callAll calls).2 := by
  induction calls generalizing c with
  | nil => exact ⟨rfl, .inl rfl⟩
  | cons call calls ih =>
      have first := moves_call known (unread call List.mem_cons_self)
      rw [callAll_cons]
      exact first.trans <| ih (first.search?.trans known) fun later among =>
        unread later (List.mem_cons_of_mem _ among)

/-- Calls that move the window away, if only for a while, leave no page at hand. -/
theorem page_callAll_of_moved (known : c.search? = none) {calls : List CursorCall}
    (unread : ∀ call ∈ calls, call.isRead = false)
    (moved : ∃ earlier, earlier <+: calls ∧ (c.callAll earlier).2.window ≠ c.window) :
    (c.callAll calls).2.page = none := by
  obtain ⟨earlier, ⟨later, rfl⟩, elsewhere⟩ := moved
  -- The page goes where the window is away, and nothing on the way back brings another.
  have away := moves_callAll known fun call among => unread call (List.mem_append_left _ among)
  have back := moves_callAll (away.search?.trans known) fun call among =>
    unread call (List.mem_append_right _ among)
  have dropped : (c.callAll earlier).2.page = none := by
    rcases away.page with same | dropped
    · rw [same] at elsewhere
      exact absurd rfl elsewhere
    · exact dropped
  rw [callAll_append]
  rcases back.page with same | dropped'
  · rw [same]
    exact dropped
  · exact dropped'

end Cursor

/-- Between two calls that are answered from the same window, as it is in effect, with an
engine that does not fail. If the offset and the limit were set to nothing else in between,
or there is nothing in the window, the second call has nothing fetched. If the window was
another one for a while, the second call has it fetched again. -/
theorem Searcher.fetches_sameWindow (s : Searcher) (request : Request)
    (reliable : ∀ engine ∈ s.engine, engine.Reliable) (before between : List CursorCall)
    {first second : CursorCall} (looks : first.isRead = true) (again : second.isRead = true)
    (unread : ∀ call ∈ between, call.isRead = false) :
    let seen := ((s.search request).callAll (before ++ [first])).2
    let c := (seen.callAll between).2
    c.window = seen.window →
      (((∀ call ∈ between, seen.Repeats call) ∨ seen.window.limit = 0 ∨ seen.hits = none) →
        (c.call second).2.activity.fetches = c.activity.fetches) ∧
      ((∃ earlier, earlier <+: between ∧ (seen.callAll earlier).2.window ≠ seen.window) →
        seen.window.limit ≠ 0 → seen.hits.isSome = true →
        (c.call second).2.activity.fetches = c.activity.fetches ++ [c.window]) := by
  intro seen c same
  have atHand : seen.AtHand := by
    have ready := (Cursor.reliable_search reliable request).callAll before
    obtain ⟨answer, answered⟩ := ready.exists_answer first
    refine Cursor.atHand_of_isRead looks (Prod.ext answered ?_)
    exact (Cursor.callAll_append _ before [first]).symm
  have moves : seen.Moves c := Cursor.moves_callAll atHand.known unread
  have fetches := (Cursor.fetches_call again (moves.search?.trans atHand.known)).2
  have hits : c.hits = seen.hits := by rw [moves.same]
  rw [fetches]
  constructor
  · intro nothing
    have idle : c.fetch? = none := by
      rcases nothing with repeats | empty | unknown
      · rw [show c = seen from atHand.callAll repeats]
        exact atHand.fetch?_eq
      · rw [Cursor.fetch?, same]
        exact if_pos (.inl empty)
      · rw [Cursor.fetch?, hits, unknown]
        split <;> rfl
    rw [idle]
    exact List.append_nil _
  · intro moved filled known
    obtain ⟨found, present⟩ := Option.isSome_iff_exists.mp known
    have dropped : c.page = none := Cursor.page_callAll_of_moved atHand.known unread moved
    have asks : c.fetch? = some (found.page c.activity.fetches.length c.window) := by
      rw [Cursor.fetch?, dropped, hits, present]
      exact if_neg (by simp [same, filled])
    rw [asks]
    rfl

theorem reliable_fixedSearcher : ∀ engine ∈ fixedSearcher.engine, engine.Reliable := by
  rintro engine present
  obtain rfl := Option.some.inj present
  exact (steady_fixedEngine _ _).reliable

/-- A request for the results from the first one on. -/
def fromFirst : Request := { query := "b", mode := .skipChecks, offset := some 0 }

/-- Calls that leave a window of two results from the first one on as it is. -/
def repeating : List CursorCall := [.setLimit 2, .size, .setOffset 0]

/-- Calls that move it by one result for a while. -/
def movingBack : List CursorCall := [.setOffset 1, .size, .setOffset 0]

theorem Searcher.fetches_sameWindow_asItWas :
    (∀ engine ∈ fixedSearcher.engine, engine.Reliable) ∧
    (∀ call ∈ repeating ++ movingBack, call.isRead = false) ∧
    let seen := ((fixedSearcher.search fromFirst).callAll ([.setLimit 2] ++ [.results])).2
    (∀ call ∈ repeating, seen.Repeats call) ∧
    let c := (seen.callAll repeating).2
    let d := (seen.callAll movingBack).2
    (c.call .scores).2.activity.fetches = c.activity.fetches ∧
    (d.call .references).2.activity.fetches = d.activity.fetches ++ [d.window] := by
  have repeats : ∀ call ∈ repeating, Cursor.Repeats
      ((fixedSearcher.search fromFirst).callAll ([.setLimit 2] ++ [.results])).2 call := by
    decide
  have kept := @Searcher.fetches_sameWindow fixedSearcher fromFirst reliable_fixedSearcher
    [.setLimit 2] repeating .results .scores rfl rfl (by decide) rfl
  have fetched := @Searcher.fetches_sameWindow fixedSearcher fromFirst reliable_fixedSearcher
    [.setLimit 2] movingBack .results .references rfl rfl (by decide) rfl
  refine ⟨reliable_fixedSearcher, by decide, repeats, kept.1 (.inl repeats), ?_⟩
  exact fetched.2 ⟨[.setOffset 1], ⟨_, rfl⟩, by decide⟩ (by decide) rfl

/-- A window that is moved away and back is the one that was looked at last, and is fetched
once more. -/
theorem Searcher.exists_fetched_movedBack :
    (∀ engine ∈ fixedSearcher.engine, engine.Reliable) ∧
    let seen := ((fixedSearcher.search fromFirst).callAll [.results]).2
    let c := (seen.callAll movingBack).2
    c.window = seen.window ∧ c.activity.fetches = [⟨0, 3⟩] ∧
      (c.call .results).2.activity.fetches = [⟨0, 3⟩, ⟨0, 3⟩] :=
  ⟨reliable_fixedSearcher, rfl, rfl, rfl⟩

end SearchIndex
