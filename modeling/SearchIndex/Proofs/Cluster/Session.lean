import SearchIndex.Proofs.Cluster.Members

/-!
# Calls under way

A call on a node is not one step. It publishes its tasks one after the other, and between any
two of them a writer may be installed or removed, a subscription may read, or another call may
go on. A `Move` is what happens at once, and `Cluster.moves` takes a call apart into its moves;
made in a row, they are the call (`act_eq_run`).

A `Session` is a cluster with the calls that were made on it. A tick makes a call, takes one
of the calls further by a move, or lets something else happen in between, so a list of ticks is
a run in which calls are interleaved in any way. A run of whole actions is one of these
(`exists_ticks_run`).
-/

namespace SearchIndex

open Calendar (Instant)

/-- What happens in a cluster at once. Publishing an event includes that the listeners of the
node hear it and that it is sent on the link. -/
inductive Move where
  | note (notices : List QueueNotice)
  | heard (node : Nat) (tag : String) (change : ContentChange)
  | publish (node : Nat) (event : IndexEvent)
  | deliver (node : Nat) (envelope : Envelope)
  | setWriter (node : Nat) (writer : Option IndexWriter)
  | tapIndex (node : Nat) (side : Side) (tag : String)
  | tapContent (node : Nat) (side : Side) (tag : String)
  | spawn (node : Nat)
  | receive (number : Nat)
  | send (envelope : Envelope)
  | release

namespace Move

/-- The node that a call works for in a move. -/
def worksFor? : Move → Option Nat
  | .heard i _ _ | .publish i _ => some i
  | _ => none

/-- The node that subscribes to the link. -/
def spawned? : Move → Option Nat
  | .spawn node => some node
  | _ => none

/-- The envelope that is sent from outside. -/
def sent? : Move → Option Envelope
  | .send envelope => some envelope
  | _ => none

/-- What is published was queued at an instant that timestamps are kept for, and no envelope
is given to a node except through its subscription. -/
def IsOrdinary : Move → Prop
  | .publish _ event => event.queuedAt.IsKept
  | .deliver _ _ => False
  | _ => True

end Move

instance : Step Move where
  spawned? := Move.spawned?
  sent? := Move.sent?
  IsOrdinary := Move.IsOrdinary

/-- The moves to publish a batch on a node. -/
def TaskBatch.moves (i : Nat) (batch : TaskBatch) : List Move :=
  batch.ordered.flatMap fun t => [.note [.queueing t], .publish i (.ofTask t)]

/-- The moves to carry out a plan of a node. -/
def Plan.moves (i : Nat) (plan : Plan) : List Move :=
  .note plan.notices :: plan.batch.moves i

/-- The moves of a listener of the content channel of a node that hears a change. -/
def Node.contentMoves (n : Node) (now : Instant) (i : Nat) (change : ContentChange) :
    ContentListener → List Move
  | .converter => (n.planner.tasksFor now change.event change.context).moves i
  | .tap tag => [.heard i tag change]

/-- The dispatcher of a node hears every index event once. -/
structure Node.HearsOnce (n : Node) : Prop where
  localCount : n.index.localListeners.count .dispatcher = 0
  remoteCount : n.index.remoteListeners.count .dispatcher = 1

theorem Node.HearsOnce.register {n : Node} (h : n.HearsOnce) (side : Side) (tag : String) :
    HearsOnce { n with index := n.index.register side (.tap tag) } := by
  cases side with
  | localOnly => exact ⟨by simp [Channel.register, h.localCount], h.remoteCount⟩
  | remote => exact ⟨h.localCount, by simp [Channel.register, h.remoteCount]⟩

namespace Cluster

/-- The cluster after a move. -/
def move (c : Cluster) : Move → Cluster
  | .note notices => c.note notices
  | .heard i tag change => c.record (.heard i tag (.change change))
  | .publish i event => c.publishIndex i event
  | .deliver i envelope => (c.deliverIndex i envelope).2
  | .setWriter i writer => c.setWriter i writer
  | .tapIndex i side tag => c.tapIndex i side tag
  | .tapContent i side tag => c.tapContent i side tag
  | .spawn i => (c.spawn i).2
  | .receive number => c.receive number
  | .send envelope => (c.send envelope).2
  | .release => c.release

theorem goes_move (c : Cluster) {m : Move} (ordinary : m.IsOrdinary) :
    Goes c m.spawned? m.sent? (c.move m) := by
  cases m with
  | note notices => exact .works (Works.refl.note notices)
  | heard i tag change => exact .works (Works.refl.heard i tag change)
  | publish i event => exact .works (works_publishIndex c i ordinary)
  | deliver i envelope => cases ordinary
  | setWriter i writer => exact goes_setWriter c i writer
  | tapIndex i side tag => exact goes_tapIndex c i side tag
  | tapContent i side tag => exact goes_tapContent c i side tag
  | spawn i => exact goes_spawn c i
  | receive number => exact .receives (receives number c)
  | send envelope => exact goes_send c envelope
  | release => exact .releases

instance : Acts Move where
  act := move
  goes := goes_move
  act_of_spawned? c m i spawned := by
    cases m <;> cases spawned
    rfl

/-- The moves of an action. What is planned is planned when the action begins. -/
def moves (c : Cluster) : Action → List Move
  | .notify now i event context =>
    match c.node? i with
    | none => []
    | some n => n.content.audience.flatMap (n.contentMoves now i { event, context })
  | .convert now i event context => (c.planFor now i event context).moves i
  | .queueIndex now i target explicit context =>
    match c.node? i with
    | none => []
    | some n => (n.planner.addIndex now {} target explicit context).moves i
  | .queueDelete now i target explicit context =>
    match c.node? i with
    | none => []
    | some n => (n.planner.addDelete now {} target explicit context).moves i
  | .dispatch i batch => batch.moves i
  | .setWriter i writer => [.setWriter i writer]
  | .tapIndex i side tag => [.tapIndex i side tag]
  | .tapContent i side tag => [.tapContent i side tag]
  | .spawn i => [.spawn i]
  | .receive number => [.receive number]
  | .send envelope => [.send envelope]

/-! ### Actions are moves in a row -/

theorem layout_publishIndex (c : Cluster) (i : Nat) (event : IndexEvent) :
    (c.publishIndex i event).layout = c.layout := by
  cases present : c.node? i with
  | none => rw [publishIndex_of_absent present]
  | some n => exact (publishes_publishIndex present event).layout

theorem run_batch (c : Cluster) (i : Nat) (batch : TaskBatch) :
    c.run (batch.moves i) = c.publishBatch i batch := by
  rw [run, TaskBatch.moves, List.foldl_flatMap]
  rfl

theorem run_plan (c : Cluster) (i : Nat) (plan : Plan) :
    c.run (plan.moves i) = c.carryOut i plan :=
  run_batch (c.note plan.notices) i plan.batch

theorem layout_publishBatch (c : Cluster) (i : Nat) (batch : TaskBatch) :
    (c.publishBatch i batch).layout = c.layout := by
  rw [publishBatch]
  induction batch.ordered generalizing c with
  | nil => rfl
  | cons t ts ih => exact (ih _).trans (layout_publishIndex (c.note [.queueing t]) i (.ofTask t))

/-- A listener hears a change by its moves, and the nodes stay the same but for their
counters, so that the listeners behind it plan what they would have planned before. -/
theorem run_contentMoves {c c' : Cluster} {i : Nat} {n : Node} (hn : c.node? i = some n)
    (layout : c'.layout = c.layout) (now : Instant) (change : ContentChange)
    (listener : ContentListener) :
    c'.run (n.contentMoves now i change listener) = hearContent now i change c' listener ∧
      (hearContent now i change c' listener).layout = c.layout := by
  cases listener with
  | tap tag => exact ⟨rfl, layout⟩
  | converter =>
      obtain ⟨n', hn', same⟩ := exists_node?_of_layout_eq layout hn
      have planner : n'.planner = n.planner := congrArg (·.planner) same
      have plan : c'.planFor now i change.event change.context =
          n.planner.tasksFor now change.event change.context := by
        rw [planFor, hn']
        exact congrArg (·.tasksFor now change.event change.context) planner
      rw [hearContent, onContentEvent, plan]
      exact ⟨run_plan c' i _, (layout_publishBatch _ i _).trans layout⟩

theorem run_audience {c c' : Cluster} {i : Nat} {n : Node} (hn : c.node? i = some n)
    (layout : c'.layout = c.layout) (now : Instant) (change : ContentChange)
    (listeners : List ContentListener) :
    c'.run (listeners.flatMap (n.contentMoves now i change)) =
      listeners.foldl (hearContent now i change) c' := by
  induction listeners generalizing c' with
  | nil => rfl
  | cons l ls ih =>
      obtain ⟨first, kept⟩ := run_contentMoves hn layout now change l
      rw [List.flatMap_cons, run_append, first, ih kept, List.foldl_cons]

/-- An action is its moves in a row. -/
theorem act_eq_run (c : Cluster) (a : Action) : c.act a = c.run (c.moves a) := by
  cases a with
  | notify now i event context =>
      simp only [act, moves, notify]
      cases present : c.node? i with
      | none => rfl
      | some n => exact (run_audience present rfl now _ _).symm
  | convert now i event context => exact (run_plan c i _).symm
  | queueIndex now i target explicit context =>
      simp only [act, moves, queueIndex]
      cases c.node? i with
      | none => rfl
      | some n => exact (run_plan c i _).symm
  | queueDelete now i target explicit context =>
      simp only [act, moves, queueDelete]
      cases c.node? i with
      | none => rfl
      | some n => exact (run_plan c i _).symm
  | dispatch i batch => exact (run_batch c i batch).symm
  | setWriter | tapIndex | tapContent | spawn | receive | send => rfl

/-! ### What a move does -/

/-- A change of a node is harmless if the node keeps its counters, and its dispatcher goes on
hearing every index event once. -/
structure IsHarmless (f : Node → Node) : Prop where
  stats : ∀ n, (f n).stats = n.stats
  once : ∀ n : Node, n.HearsOnce → (f n).HearsOnce

theorem isHarmless_setWriter (writer : Option IndexWriter) :
    IsHarmless fun n => { n with writer } :=
  ⟨fun _ => rfl, fun _ h => ⟨h.localCount, h.remoteCount⟩⟩

theorem isHarmless_tapIndex (side : Side) (tag : String) :
    IsHarmless fun n => { n with index := n.index.register side (.tap tag) } :=
  ⟨fun _ => rfl, fun _ h => h.register side tag⟩

theorem isHarmless_tapContent (side : Side) (tag : String) :
    IsHarmless fun n => { n with content := n.content.register side (.tap tag) } :=
  ⟨fun _ => rfl, fun _ h => ⟨h.localCount, h.remoteCount⟩⟩

/-- What happens in a move: at most one of a few things, and before it the link may change or
be let go of. -/
inductive Happens : Cluster → Cluster → Prop where
  | idle (c : Cluster) : Happens c c
  | note (c : Cluster) (notices : List QueueNotice) : Happens c (c.note notices)
  | heard (c : Cluster) (i : Nat) (tag : String) (change : ContentChange) :
      Happens c (c.record (.heard i tag (.change change)))
  | publish (c : Cluster) (i : Nat) (event : IndexEvent) : Happens c (c.publishIndex i event)
  | deliver (c : Cluster) (i : Nat) (envelope : Envelope) :
      Happens c (c.deliverIndex i envelope).2
  | change (c : Cluster) (i : Nat) {f : Node → Node} (harmless : IsHarmless f) :
      Happens c (c.modify i f)
  | relink {c c' : Cluster} (link : Option (Link Receiver)) (held : Bool)
      (h : Happens { c with link, held } c') : Happens c c'

theorem happens_move (c : Cluster) (m : Move) : Happens c (c.move m) := by
  cases m with
  | note notices => exact .note c notices
  | heard i tag change => exact .heard c i tag change
  | publish i event => exact .publish c i event
  | deliver i envelope => exact .deliver c i envelope
  | setWriter i writer => exact .change c i (isHarmless_setWriter writer)
  | tapIndex i side tag => exact .change c i (isHarmless_tapIndex side tag)
  | tapContent i side tag => exact .change c i (isHarmless_tapContent side tag)
  | release => exact .relink c.link false (.idle _)
  | spawn i =>
      rw [move, spawn]
      split
      · split
        · exact .relink _ c.held (.idle _)
        · exact .idle c
      · exact .idle c
  | send envelope =>
      rw [move, send]
      split
      · exact .idle c
      · exact .relink _ c.held (.idle _)
  | receive number =>
      have read := receives number c
      rw [move]
      generalize c.receive number = c' at read ⊢
      cases read with
      | idle => exact .idle c
      | ends => exact .relink _ c.held (.note _ _)
      | @reads link s reception next =>
          -- The subscription moves on before its node gets what there is to read.
          refine .relink (some (link.moveTo number next)) c.held ?_
          cases reception with
          | lagged missed => exact .note _ _
          | received envelope => exact .deliver _ s.owner.node envelope

variable {c c' : Cluster}

/-- What happens adds something to the course. -/
theorem Happens.exists_course (h : Happens c c') : ∃ os, c'.course = c.course ++ os := by
  induction h with
  | idle | change => exact ⟨[], (List.append_nil _).symm⟩
  | note c notices => exact ⟨[], by rw [course_note, List.append_nil]⟩
  | heard => exact ⟨_, course_record _ rfl⟩
  | relink _ _ _ ih => exact ih
  | publish c i event =>
      cases present : c.node? i with
      | none => exact ⟨[], by rw [publishIndex_of_absent present, List.append_nil]⟩
      | some n => exact ⟨_, (publishes_publishIndex present event).course⟩
  | deliver c i envelope =>
      cases present : c.node? i with
      | none => exact ⟨[], by rw [deliverIndex, present, List.append_nil]⟩
      | some n => exact ⟨_, (adds_deliverIndex present envelope).course⟩

theorem length_publications_move (c : Cluster) (m : Move) :
    c.publications.length ≤ (c.move m).publications.length := by
  obtain ⟨os, course⟩ := (c.happens_move m).exists_course
  rw [publications, publications, course, List.filterMap_append, List.length_append]
  exact Nat.le_add_right _ _

theorem length_publications_run (c : Cluster) (moves : List Move) :
    c.publications.length ≤ (c.run moves).publications.length := by
  induction moves generalizing c with
  | nil => exact Nat.le_refl _
  | cons m moves ih => exact (c.length_publications_move m).trans (ih _)

/-- A node publishes as many events as there are tasks in a batch. -/
theorem length_publications_publishBatch {c : Cluster} {i : Nat} {n : Node}
    (hn : c.node? i = some n) (batch : TaskBatch) :
    (c.publishBatch i batch).publications.length = c.publications.length + batch.size := by
  have each (t : IndexTask) : (n.publishing i (.ofTask t)).filterMap Occurrence.publication? =
      [(i, .ofTask t)] := n.publication?_publishing i (.ofTask t)
  have size : batch.ordered.length = batch.size := (TaskBatch.ordered_perm batch).length_eq
  have course := course_publishTasks hn batch.ordered
  rw [publishBatch, publications, course, List.filterMap_append, List.length_append,
    List.filterMap_flatMap]
  simp only [each, List.length_flatMap, List.length_singleton, List.map_const',
    List.sum_replicate_nat]
  rw [size, Nat.mul_one, publications]

end Cluster

/-! ### Sessions -/

/-- What a call returns: nothing, or how many events it has published. -/
inductive Answer where
  | done
  | count (published : Nat)
  deriving DecidableEq, Repr

/-- A call: what was asked for, the moves that are still to be made, and how many events it
has published so far. -/
structure Call where
  action : Action
  todo : List Move
  published : Nat := 0

/-- What a call returns, once it does. -/
def Call.answer? (call : Call) : Option Answer :=
  if call.todo.isEmpty then
    match call.action with
    | .convert .. | .dispatch .. => some (.count call.published)
    | _ => some .done
  else none

/-- A cluster and the calls that were made on it, by their numbers. -/
structure Session where
  cluster : Cluster
  calls : List Call := []

/-- What happens next in a session: a call is made, a call goes on with its next move,
something else happens, or a node leaves, unless a call still works for it. -/
inductive Tick where
  | call (action : Action)
  | go (number : Nat)
  | move (move : Move)
  | leave (node : Nat)

namespace Session

/-- Whether a call still works for a node. -/
def isBusy (s : Session) (i : Nat) : Bool :=
  s.calls.any fun call => call.todo.any (·.worksFor? == some i)

/-- The session after a call has gone on with a move. -/
def advance (s : Session) (number : Nat) (action : Action) (m : Move) (todo : List Move)
    (published : Nat) : Session :=
  let cluster := s.cluster.move m
  let further := cluster.publications.length - s.cluster.publications.length
  { cluster, calls := s.calls.set number { action, todo, published := published + further } }

/-- The session after a tick. -/
def tick (s : Session) : Tick → Session
  | .call action => { s with calls := s.calls ++ [{ action, todo := s.cluster.moves action }] }
  | .go number =>
    match s.calls[number]? with
    | some ⟨action, m :: todo, published⟩ => s.advance number action m todo published
    | _ => s
  | .move m => { s with cluster := s.cluster.move m }
  | .leave i => if s.isBusy i then s else { s with cluster := s.cluster.leave i }

/-- The session after some ticks. -/
def run (s : Session) (ticks : List Tick) : Session :=
  ticks.foldl tick s

theorem run_append (s : Session) (first second : List Tick) :
    s.run (first ++ second) = (s.run first).run second :=
  List.foldl_append

/-- What a tick does to the cluster: nothing, a move, or that a node leaves. -/
theorem tick_cases (s : Session) (t : Tick) : (s.tick t).cluster = s.cluster ∨
    (∃ m, (s.tick t).cluster = s.cluster.move m) ∨
    ∃ i, (s.tick t).cluster = s.cluster.leave i := by
  cases t with
  | call action => exact .inl rfl
  | move m => exact .inr (.inl ⟨m, rfl⟩)
  | go number =>
      rw [tick]
      split
      · next action m todo published _ => exact .inr (.inl ⟨m, rfl⟩)
      · exact .inl rfl
  | leave i =>
      rw [tick]
      split
      · exact .inl rfl
      · exact .inr (.inr ⟨i, rfl⟩)

/-- A call that goes on without anything in between makes its moves in a row, and has then
published as many events more as there are more. -/
theorem run_go {s : Session} {number : Nat} {action : Action} {todo : List Move} {published : Nat}
    (found : s.calls[number]? = some ⟨action, todo, published⟩) :
    (s.run (List.replicate todo.length (.go number))).cluster = s.cluster.run todo ∧
    (s.run (List.replicate todo.length (.go number))).calls[number]? =
      some ⟨action, [], published +
        ((s.cluster.run todo).publications.length - s.cluster.publications.length)⟩ := by
  induction todo generalizing s published with
  | nil =>
      refine ⟨rfl, found.trans ?_⟩
      rw [Cluster.run, List.foldl_nil, Nat.sub_self, Nat.add_zero]
  | cons m todo ih =>
      let next := s.advance number action m todo published
      have there : number < s.calls.length := (List.getElem?_eq_some_iff.mp found).1
      have step : s.run (List.replicate (m :: todo).length (.go number)) =
          next.run (List.replicate todo.length (.go number)) := by
        rw [List.length_cons, List.replicate_succ, run, List.foldl_cons, tick, found]
        rfl
      obtain ⟨cluster, calls⟩ := ih (s := next) (List.getElem?_set_self there)
      have first := s.cluster.length_publications_move m
      have rest := (s.cluster.move m).length_publications_run todo
      rw [step]
      refine ⟨cluster, calls.trans ?_⟩
      rw [show next.cluster = s.cluster.move m from rfl,
        show s.cluster.run (m :: todo) = (s.cluster.move m).run todo from rfl]
      congr 2
      omega

/-- A batch that is dispatched without anything in between is answered with its size. -/
theorem answer?_dispatch (s : Session) {i : Nat} {n : Node} (hn : s.cluster.node? i = some n)
    (batch : TaskBatch) :
    let going := List.replicate (batch.moves i).length (Tick.go s.calls.length)
    (((s.tick (.call (.dispatch i batch))).run going).calls[s.calls.length]?).bind Call.answer? =
      some (.count batch.size) := by
  have made : (s.tick (.call (.dispatch i batch))).calls[s.calls.length]? =
      some { action := .dispatch i batch, todo := batch.moves i } := List.getElem?_concat_length
  have published := Cluster.length_publications_publishBatch hn batch
  intro going
  rw [(run_go made).2, show (s.tick (.call (.dispatch i batch))).cluster = s.cluster from rfl,
    Cluster.run_batch, published, Nat.zero_add, Nat.add_sub_cancel_left]
  rfl

/-- A run of whole actions is a session in which every call goes on to its end at once. -/
theorem exists_ticks_run (c : Cluster) (actions : List Action) :
    ∃ ticks, (run ⟨c, []⟩ ticks).cluster = c.run actions := by
  suffices all : ∀ s : Session, ∃ ticks, (s.run ticks).cluster = s.cluster.run actions from
    all ⟨c, []⟩
  induction actions with
  | nil => exact fun s => ⟨[], rfl⟩
  | cons a actions ih =>
      intro s
      let called := s.tick (.call a)
      have found : called.calls[s.calls.length]? =
          some { action := a, todo := s.cluster.moves a } := List.getElem?_concat_length
      let going := List.replicate (s.cluster.moves a).length (Tick.go s.calls.length)
      have whole : (called.run going).cluster = s.cluster.act a :=
        (run_go found).1.trans (s.cluster.act_eq_run a).symm
      obtain ⟨ticks, rest⟩ := ih (called.run going)
      refine ⟨.call a :: (going ++ ticks), ?_⟩
      calc (s.run (.call a :: (going ++ ticks))).cluster
          = ((called.run going).run ticks).cluster :=
            congrArg Session.cluster (run_append called going ticks)
        _ = (s.cluster.act a).run actions := by rw [rest, whole]

end Session

end SearchIndex
