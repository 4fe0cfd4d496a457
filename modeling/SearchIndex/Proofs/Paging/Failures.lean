import SearchIndex.Proofs.Paging.Replies

/-!
# Failures leave nothing behind

The calls of an engine may fail at any time. Whatever a cursor has seen so far, a call on
it sends at most one query and fetches at most one window, `search?` and `fetch?` being the
replies that it gets. It fails if and only if one of these replies is a failure, and keeps
nothing of the failure (`Serves`).

So a cursor goes on as if the engine had never got the call that failed. That is a matter
of the replies to come: two cursors that keep the same and are about to get the same
replies are `Alike`, and answer alike from then on.
-/

namespace SearchIndex

/-- An engine that does not get the query of one number. Later ones move up. -/
def Engine.sparing (engine : Engine) (number : Nat) : Engine where
  search call query := engine.search (if call < number then call else call + 1) query

/-- Hits of which the window of one number is not fetched. Later ones move up. -/
def EngineHits.sparing (hits : EngineHits) (number : Nat) : EngineHits :=
  { hits with
    page := fun call window => hits.page (if call < number then call else call + 1) window }

/-- Hits that have the same counts, and from two numbers on the same pages. -/
structure EngineHits.Alike (m n : Nat) (hits others : EngineHits) : Prop where
  visibleCount : hits.visibleCount = others.visibleCount
  totalCount : hits.totalCount = others.totalCount
  page : ∀ call window, hits.page (m + call) window = others.page (n + call) window

/-- Replies to a query that have the same cause, or hits that are alike. -/
inductive RepliesAlike (m n : Nat) :
    Except String EngineHits → Except String EngineHits → Prop where
  | refused (cause : String) : RepliesAlike m n (.error cause) (.error cause)
  | found {hits others : EngineHits} (alike : hits.Alike m n others) :
      RepliesAlike m n (.ok hits) (.ok others)

theorem EngineHits.Alike.refl (n : Nat) (hits : EngineHits) : hits.Alike n n hits :=
  ⟨rfl, rfl, fun _ _ => rfl⟩

theorem RepliesAlike.refl (n : Nat) (reply : Except String EngineHits) :
    RepliesAlike n n reply reply := by
  cases reply with
  | error cause => exact .refused cause
  | ok hits => exact .found (.refl n hits)

/-- Hits of which the next window is not fetched are alike from the window behind it on. -/
theorem EngineHits.alike_sparing (hits : EngineHits) (number : Nat) :
    hits.Alike (number + 1) number (hits.sparing number) := by
  refine ⟨rfl, rfl, fun call window => ?_⟩
  have later : (if number + call < number then number + call else number + call + 1) =
      number + 1 + call := by
    rw [if_neg (by omega)]
    omega
  simp only [sparing, later]

/-- One fetch later, hits are still alike. -/
theorem EngineHits.Alike.next {m n : Nat} {hits others : EngineHits} (h : hits.Alike m n others) :
    hits.Alike (m + 1) (n + 1) others := by
  refine ⟨h.visibleCount, h.totalCount, fun call window => ?_⟩
  have := h.page (1 + call) window
  rwa [← Nat.add_assoc, ← Nat.add_assoc] at this

namespace Cursor

/-- The cursor, if the engine does not get the next query. -/
def sparingSearch (c : Cursor) : Cursor :=
  { c with engine := c.engine.map (·.sparing c.activity.searches.length) }

/-- The cursor, if the hits do not get the next fetch. -/
def sparingFetch (c : Cursor) : Cursor :=
  let spared (hits : EngineHits) : EngineHits := hits.sparing c.activity.fetches.length
  { c with
    engine := c.engine.map fun engine =>
      { search := fun call query => (engine.search call query).map spared }
    hits := c.hits.map spared }

variable {c d : Cursor}

/-- Two cursors keep the same, and the replies that they are about to get are alike, up to
the first one that brings hits. -/
structure Alike (c d : Cursor) : Prop where
  query : c.query = d.query
  names : c.names = d.names
  offset : c.offset = d.offset
  limit : c.limit = d.limit
  page : c.page = d.page
  replies : ∀ number, (∀ earlier < number, ∃ cause, c.reply? earlier = some (.error cause)) →
    Option.Rel (RepliesAlike c.activity.fetches.length d.activity.fetches.length)
      (c.reply? number) (d.reply? number)

/-- A cursor that is told a failure is about to get the next replies. -/
theorem reply?_sent {cause : String} (h : c.reply? 0 = some (.error cause)) (number : Nat) :
    c.sent.reply? number = c.reply? (number + 1) := by
  cases hits : c.hits with
  | some hits =>
      rw [reply?_of_hits hits] at h
      cases h
  | none =>
      simp only [reply?, sent, notify, hits, List.length_append, List.length_singleton]
      rw [Nat.add_right_comm, Nat.add_assoc]

/-- Two cursors know hits that are alike, or neither knows any. -/
def KnowsAlike (c d : Cursor) : Prop :=
  (c.hits = none ∧ d.hits = none) ∨
    ∃ hits others, c.hits = some hits ∧ d.hits = some others ∧
      hits.Alike c.activity.fetches.length d.activity.fetches.length others

namespace Alike

/-- Cursors that know hits that are alike go on alike. -/
theorem of_hits {hits others : EngineHits} (hc : c.hits = some hits) (hd : d.hits = some others)
    (alike : hits.Alike c.activity.fetches.length d.activity.fetches.length others)
    (query : c.query = d.query) (names : c.names = d.names) (offset : c.offset = d.offset)
    (limit : c.limit = d.limit) (page : c.page = d.page) : c.Alike d where
  query := query
  names := names
  offset := offset
  limit := limit
  page := page
  replies number _ := by
    rw [reply?_of_hits hc, reply?_of_hits hd]
    exact .some (.found alike)

/-- Cursors that are alike get to know hits that are alike, or none, or the same failure. -/
theorem execute (h : c.Alike d) :
    ∃ answer c' d', c.execute = (answer, c') ∧ d.execute = (answer, d') ∧ c'.Alike d' ∧
      (answer = .ok () → c'.KnowsAlike d') := by
  have first := h.replies 0 (fun _ earlier => absurd earlier (Nat.not_lt_zero _))
  cases here : c.reply? 0 with
  | none =>
      rw [here] at first
      obtain ⟨executed, unknown⟩ := execute_of_none here
      cases there : d.reply? 0 with
      | some reply =>
          rw [there] at first
          cases first
      | none =>
          obtain ⟨executed', unknown'⟩ := execute_of_none there
          exact ⟨_, c, d, executed, executed', h, fun _ => .inl ⟨unknown, unknown'⟩⟩
  | some reply =>
      rw [here] at first
      cases there : d.reply? 0 with
      | none =>
          rw [there] at first
          cases first
      | some reply' =>
          rw [there] at first
          obtain ⟨alike⟩ := first
          cases alike with
          | refused cause =>
              refine ⟨_, c.sent, d.sent, execute_of_error here, ?_, ?_, nofun⟩
              · rw [h.query]
                exact execute_of_error there
              · -- The failure is behind both, so what was to come second is next now.
                refine { h with query := h.query, replies := fun number failed => ?_ }
                rw [reply?_sent here, reply?_sent there]
                apply h.replies (number + 1)
                intro earlier before
                cases earlier with
                | zero => exact ⟨cause, here⟩
                | succ earlier =>
                    rw [← reply?_sent here]
                    exact failed earlier (Nat.lt_of_succ_lt_succ before)
          | @found hits others alike =>
              obtain ⟨activity, executed, fetches⟩ := execute_of_ok here
              obtain ⟨activity', executed', fetches'⟩ := execute_of_ok there
              rw [← fetches, ← fetches'] at alike
              refine ⟨_, _, _, executed, executed', ?_, fun _ => .inr ⟨_, _, rfl, rfl, alike⟩⟩
              exact of_hits rfl rfl alike h.query h.names h.offset h.limit h.page

theorem count_eq (h : c.Alike d) (known : c.KnowsAlike d) : c.count = d.count := by
  rw [Cursor.count, Cursor.count, h.query]
  rcases known with ⟨hc, hd⟩ | ⟨hits, others, hc, hd, alike⟩
  · rw [hc, hd]
  · rw [hc, hd]
    cases d.query.mode with
    | checked => exact alike.visibleCount
    | skipChecks => exact alike.totalCount

theorem window_eq (h : c.Alike d) (known : c.KnowsAlike d) : c.window = d.window := by
  rw [Cursor.window, Cursor.window, h.offset, h.limit, h.count_eq known]

theorem size (h : c.Alike d) :
    ∃ answer c' d', c.size = (answer, c') ∧ d.size = (answer, d') ∧ c'.Alike d' := by
  obtain ⟨answer, c', d', executed, executed', alike, known⟩ := h.execute
  rw [Cursor.size, Cursor.size, executed, executed']
  cases answer with
  | error e => exact ⟨_, c', d', rfl, rfl, alike⟩
  | ok _ =>
      refine ⟨_, c', d', rfl, ?_, alike⟩
      simp only [alike.count_eq (known rfl)]

/-- Cursors that know hits that are alike get the same reply to a fetch. -/
theorem fetch?_eq (h : c.Alike d) (known : c.KnowsAlike d) : c.fetch? = d.fetch? := by
  rw [fetch?, fetch?, h.page, h.window_eq known]
  rcases known with ⟨hc, hd⟩ | ⟨hits, others, hc, hd, alike⟩
  · rw [hc, hd]
    rfl
  · have replies := alike.page 0 d.window
    rw [Nat.add_zero, Nat.add_zero] at replies
    rw [hc, hd, Option.map_some, Option.map_some, replies]

/-- Whatever is kept of a page, the cursors go on alike. -/
theorem withPage (h : c.Alike d) (page : Option Page) :
    Alike { c with page } { d with page } :=
  { h with page := rfl }

/-- Cursors go on alike after both fetched the window that is in effect. -/
theorem afterFetch (h : c.Alike d) (known : c.KnowsAlike d) {reply : Except String (List EngineHit)}
    (asks : c.fetch? = some reply) : (c.asked c.window).Alike (d.asked d.window) := by
  rcases known with ⟨hc, -⟩ | ⟨hits, others, hc, hd, alike⟩
  · rw [fetch?, hc] at asks
    split at asks <;> cases asks
  · refine of_hits (c := c.asked c.window) (d := d.asked d.window) hc hd ?_ h.query h.names h.offset
      h.limit h.page
    simpa [Cursor.asked, notify] using alike.next

theorem pageFor (h : c.Alike d) (known : c.KnowsAlike d) :
    ∃ answer c' d', c.pageFor c.window = (answer, c') ∧ d.pageFor d.window = (answer, d') ∧
      c'.Alike d' := by
  have asks := h.fetch?_eq known
  have window := h.window_eq known
  have atHand : c.atHand = d.atHand := by rw [Cursor.atHand, Cursor.atHand, h.page, window]
  rw [pageFor_eq, pageFor_eq, ← asks]
  cases reply : c.fetch? with
  | none =>
      refine ⟨_, _, _, rfl, by rw [← atHand], ?_⟩
      rw [← window]
      exact h.withPage _
  | some reply' =>
      have next := h.afterFetch known reply
      cases reply' with
      | error cause => exact ⟨_, _, _, rfl, by rw [h.query], next⟩
      | ok page =>
          have mapped : c.mapped page = d.mapped page := by
            rw [Cursor.mapped, Cursor.mapped, h.names]
          refine ⟨_, c.paged page, d.paged page, rfl, by simp only [mapped], ?_⟩
          rw [paged, paged, foldl_notify, foldl_notify]
          exact { next with page := by rw [mapped, window] }

theorem results (h : c.Alike d) :
    ∃ answer c' d', c.results = (answer, c') ∧ d.results = (answer, d') ∧ c'.Alike d' := by
  obtain ⟨answer, c', d', executed, executed', alike, known⟩ := h.execute
  rw [Cursor.results, Cursor.results, executed, executed']
  cases answer with
  | error e => exact ⟨_, c', d', rfl, rfl, alike⟩
  | ok _ => exact alike.pageFor (known rfl)

theorem setOffset (h : c.Alike d) (offset : Nat) :
    (c.setOffset offset).Alike (d.setOffset offset) := by
  rw [Cursor.setOffset, Cursor.setOffset, h.offset]
  split
  · exact h
  · exact { h with offset := rfl, page := rfl }

theorem setLimit (h : c.Alike d) (limit : Nat) :
    (c.setLimit limit).Alike (d.setLimit limit) := by
  rw [Cursor.setLimit, Cursor.setLimit, h.limit]
  split
  · exact h
  · exact { h with limit := rfl, page := rfl }

/-- Cursors that are alike answer a call alike, and are alike behind it. -/
theorem call (h : c.Alike d) (call : CursorCall) :
    ∃ answer c' d', c.call call = (answer, c') ∧ d.call call = (answer, d') ∧ c'.Alike d' := by
  cases kind : call.isRead with
  | true =>
      obtain ⟨answer, reads⟩ := call_of_isRead kind
      obtain ⟨results, c', d', hc, hd, alike⟩ := h.results
      exact ⟨results.map answer, c', d', by rw [reads, hc], by rw [reads, hd], alike⟩
  | false =>
      cases call with
      | setOffset offset => exact ⟨_, _, _, rfl, rfl, h.setOffset offset⟩
      | setLimit limit => exact ⟨_, _, _, rfl, rfl, h.setLimit limit⟩
      | size =>
          obtain ⟨size, c', d', hc, hd, alike⟩ := h.size
          exact ⟨size.map .size, c', d', by rw [Cursor.call, hc], by rw [Cursor.call, hd], alike⟩
      | _ => cases kind

/-- Cursors that are alike give the same answers from then on. -/
theorem callAll (h : c.Alike d) (calls : List CursorCall) :
    (c.callAll calls).1 = (d.callAll calls).1 := by
  induction calls generalizing c d with
  | nil => rfl
  | cons call calls ih =>
      obtain ⟨answer, c', d', hc, hd, alike⟩ := h.call call
      rw [Cursor.callAll, Cursor.callAll, hc, hd]
      exact congrArg (answer :: ·) (ih alike)

end Alike

/-- A cursor whose query failed is alike one whose engine did not get that query. -/
theorem alike_sparingSearch {cause : String} (h : c.search? = some (.error cause)) :
    c.sent.Alike c.sparingSearch := by
  obtain ⟨hits, first, -, engine, present, -⟩ := reply?_of_search? h
  refine ⟨rfl, rfl, rfl, rfl, rfl, fun number _ => ?_⟩
  have later : ¬c.activity.searches.length + number < c.activity.searches.length := by omega
  have spared : c.sparingSearch.reply? number = c.reply? (number + 1) := by
    simp only [reply?, sparingSearch, hits, present, Option.map_some, Engine.sparing, if_neg later,
      Nat.add_assoc]
  rw [reply?_sent first, spared]
  cases c.reply? (number + 1) with
  | none => exact .none
  | some reply => exact .some (.refl _ reply)

/-- A cursor whose hits do not get the next fetch is told about the same hits, but for
that fetch. -/
theorem reply?_sparingFetch (c : Cursor) (number : Nat) :
    c.sparingFetch.reply? number =
      (c.reply? number).map (·.map (·.sparing c.activity.fetches.length)) := by
  rw [reply?, reply?, sparingFetch]
  cases c.hits with
  | some hits => rfl
  | none =>
      cases c.engine with
      | none => rfl
      | some engine =>
          simp only [Option.map_some, Option.map_none]
          split <;> rfl

/-- A cursor whose fetch failed is alike one whose hits did not get that fetch, whether or
not it had to ask for the hits before. -/
theorem alike_sparingFetch (executed : c.execute = (.ok (), d))
    {reply : Except String (List EngineHit)} (h : d.fetch? = some reply) :
    (d.asked d.window).Alike c.sparingFetch := by
  obtain ⟨hits, known, -⟩ := fetch_of_fetch? _ h
  obtain ⟨kept, fetches⟩ := kept_of_execute executed
  have behind : ∀ number, (d.asked d.window).reply? number = some (.ok hits) :=
    reply?_of_hits known
  have same : d.query = c.query ∧ d.names = c.names ∧ d.offset = c.offset ∧ d.limit = c.limit ∧
      d.page = c.page := by
    rw [kept]
    exact ⟨rfl, rfl, rfl, rfl, rfl⟩
  obtain ⟨query, names, offset, limit, page⟩ := same
  refine ⟨query, names, offset, limit, page, fun number failed => ?_⟩
  -- The hits are known by now, so no failure comes before them.
  cases number with
  | succ number =>
      obtain ⟨cause, failure⟩ := failed 0 (Nat.succ_pos number)
      rw [behind 0] at failure
      cases failure
  | zero =>
      rw [behind 0, reply?_sparingFetch, reply?_of_execute executed known]
      refine .some (.found ?_)
      simpa [asked, notify, fetches, sparingFetch] using
        hits.alike_sparing c.activity.fetches.length

/-- What a call that may fail does: `searched` and `fetched` are the replies that it gets,
to a query and to the fetch of a window. It sends at most one of either. -/
structure Serves (c : Cursor) (call : CursorCall) (answer : Except Failure CursorAnswer)
    (next : Cursor) (searched : Option (Except String EngineHits))
    (fetched : Option (Except String (List EngineHit))) : Prop where
  engine : next.engine = c.engine
  searches : next.activity.searches =
    c.activity.searches ++ searched.toList.map fun _ => c.query
  search : ∀ reply ∈ searched, c.hits = none ∧ ∃ engine, c.engine = some engine ∧
    engine.search c.activity.searches.length c.query = reply
  fetches : next.activity.fetches =
    c.activity.fetches ++ fetched.toList.map fun _ => next.window
  fetch : ∀ reply ∈ fetched, ∃ hits, next.hits = some hits ∧
    hits.page c.activity.fetches.length next.window = reply
  /-- It fails if one of them does, with the query and the cause, and not otherwise. -/
  fails : ∀ failure, answer = .error failure ↔ ∃ cause,
    (searched = some (.error cause) ∨ fetched = some (.error cause)) ∧
      failure = .searchFailed c.query.text cause
  /-- Hits that it was told about are known, and else what was known. -/
  told : ∀ hits, searched = some (.ok hits) → next.hits = some hits
  untold : (∀ hits, searched ≠ some (.ok hits)) → next.hits = c.hits
  /-- A query that failed leaves no trace, and is sent again by the same call. From then on
  everything is as if the engine had not got it. -/
  unsearched : ∀ cause, searched = some (.error cause) → fetched = none ∧
    next = { c with activity := next.activity } ∧
    (next.call call).2.activity.searches = next.activity.searches ++ [c.query] ∧
    ∀ calls, (next.callAll calls).1 = (c.sparingSearch.callAll calls).1
  /-- A fetch that failed leaves no trace but the hits that had to be known for it. The same
  call sends no query and fetches the window again. From then on everything is as if the
  hits had not got that fetch. -/
  unfetched : ∀ cause, fetched = some (.error cause) →
    next = { c with hits := next.hits, activity := next.activity } ∧
    (next.call call).2.activity.searches = next.activity.searches ∧
    (next.call call).2.activity.fetches = next.activity.fetches ++ [next.window] ∧
    ∀ calls, (next.callAll calls).1 = (c.sparingFetch.callAll calls).1

theorem serves_setter {call : CursorCall} (set : call.isSetter = true) :
    c.Serves call (c.call call).1 (c.call call).2 none none := by
  have kept : ∃ next, c.call call = (.ok .nothing, next) ∧ next.engine = c.engine ∧
      next.activity = c.activity ∧ next.hits = c.hits := by
    cases call with
    | setOffset offset =>
        refine ⟨_, rfl, ?_⟩
        rw [setOffset]
        split <;> exact ⟨rfl, rfl, rfl⟩
    | setLimit limit =>
        refine ⟨_, rfl, ?_⟩
        rw [setLimit]
        split <;> exact ⟨rfl, rfl, rfl⟩
    | _ => cases set
  obtain ⟨next, called, engine, activity, hits⟩ := kept
  rw [called]
  refine ⟨engine, ?_, by simp, ?_, by simp, fun failure => ⟨by simp, ?_⟩, by simp,
    fun _ => hits, by simp, by simp⟩
  · rw [activity]
    exact (List.append_nil _).symm
  · rw [activity]
    exact (List.append_nil _).symm
  · rintro ⟨cause, failed | failed, -⟩ <;> cases failed

theorem serves_unsearched {call : CursorCall} (unset : call.isSetter = false) {cause : String}
    (asks : c.search? = some (.error cause)) :
    c.Serves call (c.call call).1 (c.call call).2 (some (.error cause)) none := by
  obtain ⟨unknown, first, filled, engine, present, reply⟩ := reply?_of_search? asks
  have executed := execute_eq c
  rw [asks] at executed
  have called := (call_of_execute unset).1 _ executed
  have again : c.sent.search? =
      some (engine.search (c.activity.searches.length + 1) c.query) := by
    simp [search?, reply?, sent, notify, unknown, present, filled]
  rw [called]
  refine ⟨rfl, rfl, ?_, ?_, by simp, fun failure => ⟨?_, ?_⟩, by simp, fun _ => rfl,
    fun cause' failed => ?_, by simp⟩
  · rintro _ ⟨⟩
    exact ⟨unknown, engine, present, reply⟩
  · exact (List.append_nil _).symm
  · rintro ⟨⟩
    exact ⟨cause, .inl rfl, rfl⟩
  · rintro ⟨cause', failed | failed, rfl⟩
    · obtain rfl := Except.error.inj (Option.some.inj failed)
      rfl
    · cases failed
  · exact ⟨rfl, rfl, searches_call unset again,
      fun calls => (alike_sparingSearch asks).callAll calls⟩

theorem serves_size {call : CursorCall} (unset : call.isSetter = false) (kind : call.isRead = false)
    (executed : c.execute = (.ok (), d)) :
    c.Serves call (c.call call).1 (c.call call).2 c.search? none := by
  obtain ⟨answer, called⟩ := (call_of_execute unset).2.1 executed kind
  obtain ⟨searches, told, untold, succeeds⟩ := searched_of_execute executed
  obtain ⟨kept, fetches⟩ := kept_of_execute executed
  rw [called]
  refine ⟨by rw [kept], searches, search_of_search?, ?_, nofun, fun failure => ⟨nofun, ?_⟩, told,
    untold, fun cause failed => absurd failed (succeeds cause), nofun⟩
  · rw [fetches]
    exact (List.append_nil _).symm
  · rintro ⟨cause, failed | failed, -⟩
    · exact absurd failed (succeeds cause)
    · cases failed

/-- A window that was asked for, without success, has to be fetched again. -/
theorem fetch?_asked {reply : Except String (List EngineHit)} (h : c.fetch? = some reply) :
    ∃ reply, (c.asked c.window).fetch? = some reply := by
  obtain ⟨hits, known, -⟩ := fetch_of_fetch? _ h
  refine ⟨hits.page (c.asked c.window).activity.fetches.length c.window, ?_⟩
  rw [fetch?] at h
  split at h
  · cases h
  · next uncached =>
    rw [fetch?, show (c.asked c.window).hits = some hits from known]
    exact if_neg uncached

/-- An answer from the window fails if the fetch does, for the hits are known by then. -/
theorem read_eq_error_iff (executed : c.execute = (.ok (), d))
    (answer : List SearchHit → CursorAnswer) {failure : Failure} :
    (d.pageFor d.window).1.map answer = .error failure ↔ ∃ cause,
      (c.search? = some (.error cause) ∨ d.fetch? = some (.error cause)) ∧
        failure = .searchFailed c.query.text cause := by
  obtain ⟨-, -, -, succeeds⟩ := searched_of_execute executed
  have query : d.query = c.query := by rw [(kept_of_execute executed).1]
  have mapped : (d.pageFor d.window).1.map answer = .error failure ↔
      (d.pageFor d.window).1 = .error failure := by
    cases (d.pageFor d.window).1 with
    | ok hits => exact ⟨nofun, nofun⟩
    | error e =>
        exact ⟨fun same => congrArg _ (Except.error.inj same), fun same => by rw [same]; rfl⟩
  rw [mapped, pageFor_eq_error_iff, query]
  constructor
  · rintro ⟨cause, failed, rfl⟩
    exact ⟨cause, .inr failed, rfl⟩
  · rintro ⟨cause, failed | failed, rfl⟩
    · exact absurd failed (succeeds cause)
    · exact ⟨cause, failed, rfl⟩

/-- What a fetch without success leaves of a cursor that was to be answered from the window. -/
theorem left_of_fetch? {call : CursorCall} (kind : call.isRead = true)
    (executed : c.execute = (.ok (), d)) {reply : Except String (List EngineHit)}
    (asks : d.fetch? = some reply) :
    let next := d.asked d.window
    next = { c with hits := next.hits, activity := next.activity } ∧
      (next.call call).2.activity.searches = next.activity.searches ∧
      (next.call call).2.activity.fetches = next.activity.fetches ++ [next.window] ∧
      ∀ calls, (next.callAll calls).1 = (c.sparingFetch.callAll calls).1 := by
  intro next
  obtain ⟨kept, -⟩ := kept_of_execute executed
  obtain ⟨hits, present, -⟩ := fetch_of_fetch? _ asks
  have idle : next.search? = none := by
    rw [search?, show next.hits = some hits from present]
    rfl
  obtain ⟨again, refetches⟩ := fetch?_asked asks
  obtain ⟨unsent, refetched⟩ := fetches_call kind idle
  rw [refetches] at refetched
  refine ⟨?_, unsent, refetched, (alike_sparingFetch executed asks).callAll⟩
  exact congrArg (fun d' : Cursor => { d' with activity := next.activity }) kept

theorem serves_read {call : CursorCall} (kind : call.isRead = true)
    (executed : c.execute = (.ok (), d)) :
    c.Serves call (c.call call).1 (c.call call).2 c.search? d.fetch? := by
  have unset := CursorCall.isSetter_of_isRead kind
  obtain ⟨answer, called⟩ := (call_of_execute unset).2.2 executed kind
  obtain ⟨searches, told, untold, succeeds⟩ := searched_of_execute executed
  obtain ⟨kept, fetches⟩ := kept_of_execute executed
  obtain ⟨paged, searches', fetches'⟩ := kept_of_pageFor d
  have window : (d.pageFor d.window).2.window = d.window := by
    rw [paged]
    rfl
  have known : (d.pageFor d.window).2.hits = d.hits := by
    rw [paged]
  rw [called]
  refine ⟨by rw [paged, kept], by rw [searches', searches], search_of_search?, ?_, ?_,
    fun failure => read_eq_error_iff executed answer, ?_, ?_,
    fun cause failed => absurd failed (succeeds cause), fun cause failed => ?_⟩
  · rw [fetches', fetches, window]
  · rw [window, known, ← fetches]
    exact fetch_of_fetch?
  · rw [known]
    exact told
  · rw [known]
    exact untold
  · have next : (d.pageFor d.window).2 = d.asked d.window := by rw [pageFor_eq, failed]
    rw [next]
    exact left_of_fetch? kind executed failed

/-- Whatever the engine replies, a call leaves nothing behind of a failure. -/
theorem exists_serves (c : Cursor) (call : CursorCall) :
    ∃ searched fetched, c.Serves call (c.call call).1 (c.call call).2 searched fetched := by
  cases set : call.isSetter with
  | true => exact ⟨none, none, serves_setter set⟩
  | false =>
      rcases executed : c.execute with ⟨answer, d⟩
      cases answer with
      | error failure =>
          cases asks : c.search? with
          | none =>
              rw [execute_of_search? asks] at executed
              cases executed
          | some reply =>
              cases reply with
              | ok hits =>
                  rw [execute_eq, asks] at executed
                  cases executed
              | error cause => exact ⟨_, _, serves_unsearched set asks⟩
      | ok _ =>
          cases kind : call.isRead with
          | true => exact ⟨_, _, serves_read kind executed⟩
          | false => exact ⟨_, _, serves_size set kind executed⟩

/-- The replies that a cursor got to its queries, in order. -/
def searchReplies (c : Cursor) : List (Except String EngineHits) :=
  match c.engine with
  | some engine => c.activity.searches.mapIdx engine.search
  | none => []

theorem Serves.searchReplies_eq {next : Cursor} {call : CursorCall}
    {answer : Except Failure CursorAnswer} {searched : Option (Except String EngineHits)}
    {fetched : Option (Except String (List EngineHit))}
    (h : c.Serves call answer next searched fetched) :
    next.searchReplies = c.searchReplies ++ searched.toList := by
  rw [searchReplies, searchReplies, h.engine, h.searches]
  cases searched with
  | none => simp
  | some reply =>
      obtain ⟨-, engine, present, replied⟩ := h.search reply rfl
      simp [present, List.mapIdx_append, replied]

/-- The queries of some calls fail until one succeeds; after that one there is none. -/
theorem searchReplies_callAll (c : Cursor) (calls : List CursorCall) :
    ∃ (causes : List String) (found : Option EngineHits),
      (c.callAll calls).2.searchReplies =
        c.searchReplies ++ (causes.map .error ++ found.toList.map .ok) ∧
      (c.hits.isSome = true → causes = [] ∧ found = none) := by
  -- The second half carries the induction: with the hits known, no query is left to send.
  induction calls generalizing c with
  | nil => exact ⟨[], none, by simp [callAll], fun _ => ⟨rfl, rfl⟩⟩
  | cons call calls ih =>
      obtain ⟨searched, fetched, serves⟩ := exists_serves c call
      have replies := serves.searchReplies_eq
      obtain ⟨causes, found, further, once⟩ := ih (c.call call).2
      rw [callAll_cons, further, replies]
      cases searched with
      | none =>
          refine ⟨causes, found, by simp, fun known => once ?_⟩
          rw [serves.untold (by simp)]
          exact known
      | some reply =>
          have unknown := (serves.search reply rfl).1
          cases reply with
          | error cause =>
              refine ⟨cause :: causes, found, by simp, fun known => ?_⟩
              rw [unknown] at known
              cases known
          | ok hits =>
              obtain ⟨rfl, rfl⟩ := once (by rw [serves.told hits rfl]; rfl)
              refine ⟨[], some hits, by simp, fun known => ?_⟩
              rw [unknown] at known
              cases known

end Cursor

/-- Failures leave nothing behind in a cursor, whatever it kept before, and to look at the
size again for the window makes no difference. Of the queries that a search takes some fail,
until one succeeds and is the last. -/
theorem Cursor.serves_call :
    (∀ (c : Cursor) (call : CursorCall), ∃ searched fetched,
      c.Serves call (c.call call).1 (c.call call).2 searched fetched) ∧
    (∀ c : Cursor, c.resultsBySize = c.results) ∧
    ∀ (s : Searcher) (request : Request) (calls : List CursorCall),
      ∃ (causes : List String) (found : Option EngineHits),
        ((s.search request).callAll calls).2.searchReplies =
          causes.map .error ++ found.toList.map .ok := by
  refine ⟨exists_serves, resultsBySize_eq, fun s request calls => ?_⟩
  obtain ⟨causes, found, replies, -⟩ := (s.search request).searchReplies_callAll calls
  have new : (s.search request).searchReplies = [] := by
    cases present : s.engine <;>
      simp [Searcher.search, Cursor.searchReplies, Cursor.ofRequest, Cursor.notify, present]
  exact ⟨causes, found, by rw [replies, new, List.nil_append]⟩

end SearchIndex
