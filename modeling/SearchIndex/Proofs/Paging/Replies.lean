import SearchIndex.Proofs.Paging.Cursor

/-!
# What a call asks of the engine

A call on a cursor asks the engine twice at most. It sends the query, unless the hits are
known or there is nothing to search for; `search?` is the reply that it gets. Then it
fetches the window that is in effect, unless that is at hand, or empty; `fetch?` is the
reply to that.

What becomes of the cursor is a matter of these replies alone: see `execute_eq` and
`pageFor_eq` for the two steps, and `call_of_execute` for the calls that consist of them.
-/

namespace SearchIndex

/-- A call that is answered from the window does not set it. -/
theorem CursorCall.isSetter_of_isRead {call : CursorCall} (h : call.isRead = true) :
    call.isSetter = false := by
  cases call <;> first | rfl | cases h

namespace Cursor

/-- What the cursor would be told about its hits, if it had to ask for them in so many
queries from now on. It knows its hits once it was told, and does not ask without an engine,
nor for a blank text. -/
def reply? (c : Cursor) (number : Nat) : Option (Except String EngineHits) :=
  match c.hits, c.engine with
  | some hits, _ => some (.ok hits)
  | none, some engine =>
    if Text.isBlankText c.query.text then none
    else some (engine.search (c.activity.searches.length + number) c.query)
  | none, none => none

/-- The reply to the query that the cursor sends to know its hits, if it has to. -/
def search? (c : Cursor) : Option (Except String EngineHits) :=
  if c.hits.isSome then none else c.reply? 0

/-- The reply to the fetch of the window that is in effect, if it has to be fetched. -/
def fetch? (c : Cursor) : Option (Except String (List EngineHit)) :=
  if c.window.limit = 0 ∨ (c.page.filter (·.window == c.window)).isSome then none
  else c.hits.map (·.page c.activity.fetches.length c.window)

/-- The cursor with hits that it was told about. -/
def told (c : Cursor) (hits : EngineHits) : Cursor :=
  { c.sent with hits := some hits }

/-- The cursor with a page that was fetched. -/
def paged (c : Cursor) (page : List EngineHit) : Cursor :=
  { (c.unmapped page).foldl notify (c.asked c.window) with
    page := some ⟨c.window, c.mapped page⟩ }

variable {c d : Cursor}

theorem execute_eq (c : Cursor) :
    c.execute = match c.search? with
      | none => (.ok (), c)
      | some (.ok hits) => (.ok (), c.told hits)
      | some (.error cause) => (.error (.searchFailed c.query.text cause), c.sent) := by
  rw [execute, search?, reply?]
  cases c.hits with
  | some hits => rfl
  | none =>
      cases c.engine with
      | none => rfl
      | some engine =>
          cases Text.isBlankText c.query.text with
          | true => rfl
          | false =>
              simp only [Bool.false_eq_true, if_false, Option.isSome_none, Nat.add_zero]
              cases engine.search c.activity.searches.length c.query <;> rfl

/-- The answer from the page that is at hand, or from none. -/
def atHand (c : Cursor) : List SearchHit :=
  ((c.page.filter (·.window == c.window)).map Page.hits).getD []

theorem pageFor_eq (c : Cursor) :
    c.pageFor c.window = match c.fetch? with
      | none => (.ok c.atHand, { c with page := some ⟨c.window, c.atHand⟩ })
      | some (.ok page) => (.ok (c.mapped page), c.paged page)
      | some (.error cause) => (.error (.searchFailed c.query.text cause), c.asked c.window) := by
  rw [pageFor, fetch?, atHand]
  cases kept : c.page.filter (·.window == c.window) with
  | some page =>
      obtain ⟨present, same⟩ := Option.filter_eq_some_iff.mp kept
      have page_eq : (⟨c.window, page.hits⟩ : Page) = page := by rw [← beq_iff_eq.mp same]
      simp only [Option.isSome_some, or_true, if_true, Option.map_some, Option.getD_some, page_eq]
      rw [← present]
  | none =>
      rw [fetch]
      cases found : c.hits with
      | none => simp [found]
      | some hits =>
          by_cases empty : c.window.limit = 0
          · simp [empty, found]
          · simp only [empty, Option.isSome_none, Bool.false_eq_true, or_false, if_false,
              Option.map_some]
            cases hits.page c.activity.fetches.length c.window <;> rfl

/-- A cursor that knows its hits, or that it has none to know, does not ask for them. -/
theorem search?_of_execute {answer : Unit} (h : c.execute = (.ok answer, d)) :
    d.search? = none := by
  rw [execute_eq] at h
  cases asks : c.search? with
  | none =>
      rw [asks] at h
      obtain rfl := (Prod.mk.inj h).2
      exact asks
  | some reply =>
      rw [asks] at h
      cases reply with
      | error cause => cases h
      | ok hits =>
          obtain rfl := (Prod.mk.inj h).2
          rfl

theorem execute_of_search? (h : c.search? = none) : c.execute = (.ok (), c) := by
  rw [execute_eq, h]

/-- The results in the window that is in effect, where the size that the window may need is
asked for by a call of its own. -/
def resultsBySize (c : Cursor) : Except Failure (List SearchHit) × Cursor :=
  match c.execute with
  | (.error e, c) => (.error e, c)
  | (.ok (), c) =>
    match c.limit with
    | some limit => c.pageFor ⟨c.offset.getD 0, limit⟩
    | none =>
      match c.size with
      | (.error e, c) => (.error e, c)
      | (.ok size, c) => c.pageFor ⟨c.offset.getD 0, size⟩

/-- To ask for the size once more changes nothing. -/
theorem resultsBySize_eq (c : Cursor) : c.resultsBySize = c.results := by
  rw [resultsBySize, results]
  rcases executed : c.execute with ⟨answer, d⟩
  cases answer with
  | error e => rfl
  | ok answer =>
      simp only [window]
      cases limit : d.limit with
      | some limit => rfl
      | none =>
          rw [size, execute_of_search? (search?_of_execute executed)]
          rfl

theorem reply?_of_hits {hits : EngineHits} (h : c.hits = some hits) (number : Nat) :
    c.reply? number = some (.ok hits) := by
  rw [reply?, h]

theorem execute_of_none (h : c.reply? 0 = none) : c.execute = (.ok (), c) ∧ c.hits = none := by
  cases hits : c.hits with
  | some hits =>
      rw [reply?, hits] at h
      cases h
  | none => exact ⟨execute_of_search? (by rw [search?, hits]; exact h), rfl⟩

theorem execute_of_error {cause : String} (h : c.reply? 0 = some (.error cause)) :
    c.execute = (.error (.searchFailed c.query.text cause), c.sent) := by
  cases hits : c.hits with
  | some hits =>
      rw [reply?, hits] at h
      cases h
  | none =>
      have asks : c.search? = some (.error cause) := by
        rw [search?, hits]
        exact h
      rw [execute_eq, asks]

/-- A cursor that is told about its hits, or was told before, knows them and keeps all else. -/
theorem execute_of_ok {hits : EngineHits} (h : c.reply? 0 = some (.ok hits)) :
    ∃ activity : Activity, c.execute = (.ok (), { c with hits := some hits, activity }) ∧
      activity.fetches = c.activity.fetches := by
  cases known : c.hits with
  | some kept =>
      rw [reply?, known] at h
      obtain rfl := Except.ok.inj (Option.some.inj h)
      refine ⟨c.activity, ?_, rfl⟩
      rw [execute_of_search? (by rw [search?, known]; rfl), ← known]
  | none =>
      have asks : c.search? = some (.ok hits) := by
        rw [search?, known]
        exact h
      refine ⟨c.sent.activity, ?_, rfl⟩
      rw [execute_eq, asks]
      rfl

theorem reply?_of_search? {reply : Except String EngineHits} (h : c.search? = some reply) :
    c.hits = none ∧ c.reply? 0 = some reply ∧ Text.isBlankText c.query.text = false ∧
      ∃ engine, c.engine = some engine ∧
        engine.search c.activity.searches.length c.query = reply := by
  cases hits : c.hits with
  | some hits =>
      rw [search?, hits] at h
      cases h
  | none =>
      have first : c.reply? 0 = some reply := by
        rw [search?, hits] at h
        exact h
      refine ⟨rfl, first, ?_⟩
      rw [reply?, hits] at first
      cases present : c.engine with
      | none =>
          rw [present] at first
          cases first
      | some engine =>
          rw [present] at first
          dsimp only at first
          split at first
          · cases first
          · next filled => exact ⟨Bool.eq_false_iff.mpr filled, engine, rfl, Option.some.inj first⟩

theorem search_of_search? : ∀ reply ∈ c.search?, c.hits = none ∧ ∃ engine, c.engine = some engine ∧
    engine.search c.activity.searches.length c.query = reply := by
  intro reply asks
  obtain ⟨unknown, -, -, asked⟩ := reply?_of_search? asks
  exact ⟨unknown, asked⟩

/-- The hits that a cursor knows after asking for them are those that it was told about. -/
theorem reply?_of_execute (executed : c.execute = (.ok (), d)) {hits : EngineHits}
    (known : d.hits = some hits) : c.reply? 0 = some (.ok hits) := by
  cases first : c.reply? 0 with
  | none =>
      obtain ⟨idle, unknown⟩ := execute_of_none first
      obtain rfl := (Prod.mk.inj (idle.symm.trans executed)).2
      rw [unknown] at known
      cases known
  | some told =>
      cases told with
      | error cause =>
          rw [execute_of_error first] at executed
          cases executed
      | ok found =>
          obtain ⟨activity, done, -⟩ := execute_of_ok first
          obtain rfl := (Prod.mk.inj (done.symm.trans executed)).2
          rw [Option.some.inj known]

/-- Asking for the hits changes nothing else that a cursor keeps. -/
theorem kept_of_execute (executed : c.execute = (.ok (), d)) :
    d = { c with hits := d.hits, activity := d.activity } ∧
      d.activity.fetches = c.activity.fetches := by
  rw [execute_eq] at executed
  cases asks : c.search? with
  | none =>
      rw [asks] at executed
      obtain rfl := (Prod.mk.inj executed).2
      exact ⟨rfl, rfl⟩
  | some reply =>
      rw [asks] at executed
      cases reply with
      | error cause => cases executed
      | ok hits =>
          obtain rfl := (Prod.mk.inj executed).2
          exact ⟨rfl, rfl⟩

/-- What a cursor did to know its hits, if that was no failure. -/
theorem searched_of_execute (executed : c.execute = (.ok (), d)) :
    d.activity.searches = c.activity.searches ++ c.search?.toList.map (fun _ => c.query) ∧
      (∀ hits, c.search? = some (.ok hits) → d.hits = some hits) ∧
      ((∀ hits, c.search? ≠ some (.ok hits)) → d.hits = c.hits) ∧
      ∀ cause, c.search? ≠ some (.error cause) := by
  rw [execute_eq] at executed
  cases asks : c.search? with
  | none =>
      rw [asks] at executed
      obtain rfl := (Prod.mk.inj executed).2
      exact ⟨by simp, nofun, fun _ => rfl, nofun⟩
  | some reply =>
      rw [asks] at executed
      cases reply with
      | error cause => cases executed
      | ok hits =>
          obtain rfl := (Prod.mk.inj executed).2
          exact ⟨rfl, fun _ same => congrArg some (Except.ok.inj (Option.some.inj same)),
            fun untold => absurd rfl (untold hits), nofun⟩

theorem fetch_of_fetch? : ∀ reply ∈ c.fetch?, ∃ hits, c.hits = some hits ∧
    hits.page c.activity.fetches.length c.window = reply := by
  intro reply asks
  rw [fetch?] at asks
  split at asks
  · cases asks
  · exact Option.map_eq_some_iff.mp asks

/-- What remains of a cursor behind a fetch of the window that is in effect. -/
theorem kept_of_pageFor (c : Cursor) :
    (c.pageFor c.window).2 =
        { c with
          page := (c.pageFor c.window).2.page
          activity := (c.pageFor c.window).2.activity } ∧
      (c.pageFor c.window).2.activity.searches = c.activity.searches ∧
      (c.pageFor c.window).2.activity.fetches =
        c.activity.fetches ++ c.fetch?.toList.map fun _ => c.window := by
  rw [pageFor_eq]
  cases c.fetch? with
  | none => exact ⟨rfl, rfl, by simp⟩
  | some reply =>
      cases reply with
      | error cause => exact ⟨rfl, rfl, rfl⟩
      | ok page =>
          simp only [paged, foldl_notify]
          exact ⟨rfl, rfl, rfl⟩

/-- A fetch fails with the query and the cause, and nothing else makes it fail. -/
theorem pageFor_eq_error_iff {failure : Failure} :
    (c.pageFor c.window).1 = .error failure ↔ ∃ cause, c.fetch? = some (.error cause) ∧
      failure = .searchFailed c.query.text cause := by
  rw [pageFor_eq]
  cases c.fetch? with
  | none => exact ⟨nofun, by rintro ⟨_, ⟨⟩, _⟩⟩
  | some reply =>
      cases reply with
      | ok page => exact ⟨nofun, by rintro ⟨_, ⟨⟩, _⟩⟩
      | error cause =>
          constructor
          · rintro ⟨⟩
            exact ⟨cause, rfl, rfl⟩
          · rintro ⟨_, ⟨⟩, rfl⟩
            rfl

/-- A call that is answered from the window is answered from the results in it. -/
theorem call_of_isRead {call : CursorCall} (h : call.isRead = true) :
    ∃ answer : List SearchHit → CursorAnswer,
      ∀ c : Cursor, c.call call = (c.results.1.map answer, c.results.2) := by
  cases call with
  | results => exact ⟨.results, fun _ => rfl⟩
  | references =>
      refine ⟨fun hits => .references (hits.map (·.reference)), fun c => ?_⟩
      rw [Cursor.call, references]
      rcases c.results with ⟨answer, next⟩
      cases answer <;> rfl
  | scores =>
      refine ⟨fun hits => .scores (SearchHit.scoreIn? (SearchHit.scoreMap hits)), fun c => ?_⟩
      rw [Cursor.call, scores]
      rcases c.results with ⟨answer, next⟩
      cases answer <;> rfl
  | _ => cases h

/-- A call that needs the hits, and fails or goes on behind asking for them. -/
theorem call_of_execute {call : CursorCall} (unset : call.isSetter = false) :
    (∀ failure, c.execute = (.error failure, d) → c.call call = (.error failure, d)) ∧
      (c.execute = (.ok (), d) → call.isRead = false → ∃ answer, c.call call = (.ok answer, d)) ∧
      (c.execute = (.ok (), d) → call.isRead = true → ∃ answer : List SearchHit → CursorAnswer,
        c.call call = ((d.pageFor d.window).1.map answer, (d.pageFor d.window).2)) := by
  cases kind : call.isRead with
  | true =>
      obtain ⟨answer, reads⟩ := call_of_isRead kind
      refine ⟨fun failure executed => ?_, by simp, fun executed _ => ⟨answer, ?_⟩⟩
      · rw [reads, results, executed]
        rfl
      · rw [reads, results, executed]
  | false =>
      cases call with
      | size =>
          refine ⟨fun failure executed => ?_, fun executed _ => ⟨.size d.count, ?_⟩, by simp⟩
          · rw [Cursor.call, size, executed]
            rfl
          · rw [Cursor.call, size, executed]
            rfl
      | setOffset => cases unset
      | setLimit => cases unset
      | _ => cases kind

/-- A call that needs the hits asks for them if that has to be done. -/
theorem searches_call {call : CursorCall} (unset : call.isSetter = false)
    {reply : Except String EngineHits} (asks : c.search? = some reply) :
    (c.call call).2.activity.searches = c.activity.searches ++ [c.query] := by
  have executed := execute_eq c
  rw [asks] at executed
  cases reply with
  | error cause => rw [(call_of_execute unset).1 _ executed]; rfl
  | ok hits =>
      obtain ⟨-, counts, reads⟩ := call_of_execute (c := c) (d := c.told hits) unset
      cases kind : call.isRead with
      | false =>
          obtain ⟨answer, called⟩ := counts executed kind
          rw [called]
          rfl
      | true =>
          obtain ⟨answer, called⟩ := reads executed kind
          rw [called]
          exact (kept_of_pageFor _).2.1

/-- A call that is answered from the window fetches it if that has to be done. -/
theorem fetches_call {call : CursorCall} (kind : call.isRead = true) (known : c.search? = none) :
    (c.call call).2.activity.searches = c.activity.searches ∧
      (c.call call).2.activity.fetches =
        c.activity.fetches ++ c.fetch?.toList.map fun _ => c.window := by
  have unset := CursorCall.isSetter_of_isRead kind
  obtain ⟨answer, called⟩ := (call_of_execute unset).2.2 (execute_of_search? known) kind
  rw [called]
  exact (kept_of_pageFor c).2

/-- The cursor after some calls, the first of them apart. -/
theorem callAll_cons (c : Cursor) (call : CursorCall) (calls : List CursorCall) :
    (c.callAll (call :: calls)).2 = ((c.call call).2.callAll calls).2 :=
  rfl

theorem callAll_append (c : Cursor) (calls others : List CursorCall) :
    (c.callAll (calls ++ others)).2 = ((c.callAll calls).2.callAll others).2 := by
  induction calls generalizing c with
  | nil => rfl
  | cons call calls ih => exact ih (c.call call).2

end Cursor

end SearchIndex
