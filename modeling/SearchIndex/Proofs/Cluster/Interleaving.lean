import SearchIndex.Proofs.Cluster.Delivery
import SearchIndex.Proofs.Cluster.Session

/-!
# Delivery while calls are under way

In a session calls take turns, so that what one node publishes may come between two events of a
batch of another. Whatever the turns are, the ticks make one move after the other, and the
cluster is what these moves make of it (`Session.cluster_run`). Each move was asked for by a
tick, by itself or as a part of a call, and what is asked for is made at most once
(`Session.perm_made`). So the moves of a session are a run like those that nodes are made for
if its ticks are, and index events are delivered in it as in a run of whole actions
(`Cluster.delivers_run`).
-/

namespace SearchIndex

open Calendar (Instant)

namespace Tick

/-- The node that subscribes to the link, once the tick or its call gets there. -/
def spawned? : Tick → Option Nat
  | .call action => action.spawned?
  | .move m => m.spawned?
  | .go _ | .leave _ => none

/-- The envelope that is sent from outside. -/
def sent? : Tick → Option Envelope
  | .call action => action.sent?
  | .move m => m.sent?
  | .go _ | .leave _ => none

/-- What is asked for is ordinary, and no node leaves. -/
def IsOrdinary : Tick → Prop
  | .call action => action.IsTimely
  | .move m => m.IsOrdinary
  | .go _ => True
  | .leave _ => False

end Tick

instance : Step Tick where
  spawned? := Tick.spawned?
  sent? := Tick.sent?
  IsOrdinary := Tick.IsOrdinary

/-! ### The moves of a step -/

/-- Moves that a step comes down to: they subscribe and send what the step does, and are
ordinary if it is. -/
structure Step.IsMadeOf {σ : Type} [Step σ] (s : σ) (moves : List Move) : Prop where
  spawned : moves.filterMap Move.spawned? = (spawned? s).toList
  sent : moves.filterMap Move.sent? = (sent? s).toList
  ordinary : IsOrdinary s → ∀ m ∈ moves, m.IsOrdinary

/-- A move that subscribes nobody and sends nothing from outside, and is ordinary if `kept`. -/
structure Move.IsInner (kept : Prop) (m : Move) : Prop where
  spawned : m.spawned? = none
  sent : m.sent? = none
  ordinary : kept → m.IsOrdinary

theorem Step.isMadeOf_of_isInner {a : Action} {moves : List Move} (spawned : a.spawned? = none)
    (sent : a.sent? = none) (inner : ∀ m ∈ moves, m.IsInner a.IsTimely) : IsMadeOf a moves where
  spawned := (List.filterMap_eq_nil_iff.mpr fun m hm => (inner m hm).spawned).trans
    (congrArg Option.toList spawned.symm)
  sent := (List.filterMap_eq_nil_iff.mpr fun m hm => (inner m hm).sent).trans
    (congrArg Option.toList sent.symm)
  ordinary timely m hm := (inner m hm).ordinary timely

theorem TaskBatch.isInner_moves {kept : Prop} {batch : TaskBatch}
    (h : kept → ∀ t ∈ batch.tasks, t.queuedAt.IsKept) (i : Nat) :
    ∀ m ∈ batch.moves i, m.IsInner kept := by
  intro m hm
  obtain ⟨t, ht, hm⟩ := List.mem_flatMap.mp hm
  rcases List.mem_cons.mp hm with rfl | hm
  · exact ⟨rfl, rfl, fun _ => trivial⟩
  · rw [List.mem_singleton.mp hm]
    exact ⟨rfl, rfl, fun all => h all t (batch.ordered_perm.mem_iff.mp ht)⟩

theorem Planner.PlannedAt.isInner_moves {now : Instant} {plan : Plan} (h : PlannedAt now plan)
    (i : Nat) : ∀ m ∈ plan.moves i, m.IsInner now.IsKept := by
  refine List.forall_mem_cons.mpr ⟨⟨rfl, rfl, fun _ => trivial⟩, ?_⟩
  exact TaskBatch.isInner_moves (fun kept t ht => (h t ht).symm ▸ kept) i

theorem Node.isInner_contentMoves (n : Node) (now : Instant) (i : Nat) (change : ContentChange)
    (listener : ContentListener) :
    ∀ m ∈ n.contentMoves now i change listener, m.IsInner now.IsKept := by
  cases listener with
  | converter =>
      exact (n.planner.plannedAt_tasksFor now change.event change.context).isInner_moves i
  | tap tag => exact List.forall_mem_singleton.mpr ⟨rfl, rfl, fun _ => trivial⟩

namespace Cluster

theorem isMadeOf_moves (c : Cluster) (a : Action) : Step.IsMadeOf a (c.moves a) := by
  cases a with
  | notify now i event context =>
      refine Step.isMadeOf_of_isInner rfl rfl ?_
      rw [moves]
      split
      · exact List.forall_mem_nil _
      · intro m hm
        obtain ⟨listener, -, hm⟩ := List.mem_flatMap.mp hm
        exact Node.isInner_contentMoves _ now i _ listener m hm
  | convert now i event context =>
      have planned := c.plannedAt_planFor now i event context
      exact Step.isMadeOf_of_isInner rfl rfl (planned.isInner_moves i)
  | queueIndex now i target explicit context =>
      refine Step.isMadeOf_of_isInner rfl rfl ?_
      rw [moves]
      split
      · exact List.forall_mem_nil _
      · exact (Planner.plannedAt_addIndex _ now target explicit context).isInner_moves i
  | queueDelete now i target explicit context =>
      refine Step.isMadeOf_of_isInner rfl rfl ?_
      rw [moves]
      split
      · exact List.forall_mem_nil _
      · exact (Planner.plannedAt_addDelete _ now target explicit context).isInner_moves i
  | dispatch i batch =>
      exact Step.isMadeOf_of_isInner rfl rfl (TaskBatch.isInner_moves (fun timely => timely) i)
  | setWriter | tapIndex | tapContent | spawn | receive | send =>
      exact ⟨rfl, rfl, fun _ => List.forall_mem_singleton.mpr trivial⟩

end Cluster

/-! ### The moves of a session -/

namespace Session

variable {ticks : List Tick}

/-- The moves that calls still have to make. -/
def pending (s : Session) : List Move :=
  s.calls.flatMap (·.todo)

/-- The moves that a tick asks for. -/
def asked (s : Session) : Tick → List Move
  | .call action => s.cluster.moves action
  | .move m => [m]
  | .go _ | .leave _ => []

/-- The move that a tick makes, if it makes one. -/
def makes? (s : Session) : Tick → Option Move
  | .go number => s.calls[number]?.bind (·.todo.head?)
  | .move m => some m
  | .call _ | .leave _ => none

/-- The moves that some ticks ask for. -/
def askedBy (s : Session) : List Tick → List Move
  | [] => []
  | t :: ticks => s.asked t ++ (s.tick t).askedBy ticks

/-- The moves that some ticks make, in order. -/
def made (s : Session) : List Tick → List Move
  | [] => []
  | t :: ticks => (s.makes? t).toList ++ (s.tick t).made ticks

/-- While no node leaves, a tick changes the cluster by the move that it makes. -/
theorem cluster_tick (s : Session) {t : Tick} (stays : ∀ i, t ≠ .leave i) :
    (s.tick t).cluster = s.cluster.run (s.makes? t).toList := by
  cases t with
  | call action => rfl
  | move m => rfl
  | leave i => exact absurd rfl (stays i)
  | go number =>
      rw [tick, makes?]
      rcases s.calls[number]? with _ | ⟨action, _ | ⟨m, todo⟩, published⟩ <;> rfl

theorem cluster_run (s : Session) (stays : ∀ i, .leave i ∉ ticks) :
    (s.run ticks).cluster = s.cluster.run (s.made ticks) := by
  induction ticks generalizing s with
  | nil => rfl
  | cons t ticks ih =>
      have here : ∀ i, t ≠ .leave i := fun i same => stays i (same ▸ List.mem_cons_self)
      have there : ∀ i, .leave i ∉ ticks := fun i mem => stays i (List.mem_cons_of_mem t mem)
      rw [made, Cluster.run_append, ← s.cluster_tick here]
      exact ih (s.tick t) there

theorem perm_advance {s : Session} {number : Nat} {action : Action} {m : Move} {todo : List Move}
    {published : Nat} (found : s.calls[number]? = some ⟨action, m :: todo, published⟩) :
    (m :: (s.advance number action m todo published).pending).Perm s.pending := by
  obtain ⟨bound, call⟩ := List.getElem?_eq_some_iff.mp found
  have calls : s.calls =
      s.calls.take number ++ ⟨action, m :: todo, published⟩ :: s.calls.drop (number + 1) := by
    rw [← call, ← List.drop_eq_getElem_cons bound, List.take_append_drop]
  have before : s.pending = (s.calls.take number).flatMap (·.todo) ++
      m :: (todo ++ (s.calls.drop (number + 1)).flatMap (·.todo)) := by
    refine (congrArg (List.flatMap (·.todo)) calls).trans ?_
    rw [List.flatMap_append, List.flatMap_cons, List.cons_append]
  rw [before, pending, advance, List.set_eq_take_append_cons_drop, if_pos bound,
    List.flatMap_append, List.flatMap_cons]
  exact List.perm_middle.symm

/-- A move that a tick asks for is made at once, or it is pending until it is made. -/
theorem perm_tick (s : Session) (t : Tick) :
    ((s.makes? t).toList ++ (s.tick t).pending).Perm (s.pending ++ s.asked t) := by
  cases t with
  | call action =>
      have more : (s.tick (.call action)).pending = s.pending ++ s.cluster.moves action := by
        rw [tick, pending, List.flatMap_append, List.flatMap_singleton, pending]
      exact .of_eq more
  | move m => exact (List.perm_append_singleton m s.pending).symm
  | leave i =>
      have same : (s.tick (.leave i)).pending = s.pending := by
        rw [tick]
        split <;> rfl
      rw [same]
      exact .of_eq (List.append_nil _).symm
  | go number =>
      rw [asked, List.append_nil, tick, makes?]
      cases found : s.calls[number]? with
      | none => exact .refl _
      | some call =>
          obtain ⟨action, _ | ⟨m, todo⟩, published⟩ := call
          case nil => exact .refl _
          case cons => exact perm_advance found

/-- What was pending or is asked for by some ticks is made by them once, or is pending then. -/
theorem perm_made (s : Session) (ticks : List Tick) :
    (s.made ticks ++ (s.run ticks).pending).Perm (s.pending ++ s.askedBy ticks) := by
  induction ticks generalizing s with
  | nil => exact .of_eq (List.append_nil _).symm
  | cons t ticks ih =>
      have rest := (ih (s.tick t)).append_left (s.makes? t).toList
      have first := (s.perm_tick t).append_right ((s.tick t).askedBy ticks)
      rw [← List.append_assoc, ← List.append_assoc, ← made] at rest
      rw [List.append_assoc s.pending, ← askedBy] at first
      exact rest.trans first

theorem isMadeOf_asked (s : Session) (t : Tick) : Step.IsMadeOf t (s.asked t) := by
  cases t with
  | call action =>
      obtain ⟨spawned, sent, ordinary⟩ := s.cluster.isMadeOf_moves action
      exact ⟨spawned, sent, ordinary⟩
  | move m =>
      have own {β : Type} (f : Move → Option β) : [m].filterMap f = (f m).toList := by
        rw [List.filterMap_eq_flatMap_toList, List.flatMap_singleton]
      exact ⟨own _, own _, fun ordinary => List.forall_mem_singleton.mpr ordinary⟩
  | go | leave => exact ⟨rfl, rfl, fun _ => List.forall_mem_nil _⟩

theorem filterMap_askedBy {β : Type} {f : Move → Option β} {label : Tick → Option β}
    (each : ∀ (s : Session) (t : Tick), (s.asked t).filterMap f = (label t).toList) (s : Session) :
    (s.askedBy ticks).filterMap f = ticks.filterMap label := by
  rw [List.filterMap_eq_flatMap_toList label]
  induction ticks generalizing s with
  | nil => rfl
  | cons t ticks ih => rw [askedBy, List.filterMap_append, each, ih, List.flatMap_cons]

theorem exists_of_mem_askedBy {s : Session} {m : Move} (h : m ∈ s.askedBy ticks) :
    ∃ t ∈ ticks, ∃ s' : Session, m ∈ s'.asked t := by
  induction ticks generalizing s with
  | nil => cases h
  | cons t ticks ih =>
      rcases List.mem_append.mp h with here | there
      · exact ⟨t, List.mem_cons_self, s, here⟩
      · obtain ⟨t', ht', found⟩ := ih there
        exact ⟨t', List.mem_cons_of_mem t ht', found⟩

end Session

namespace Regular

variable {members : List Member} {ticks : List Tick}

theorem perm {σ : Type} [Step σ] {steps steps' : List σ} (h : Regular members steps)
    (perm : steps.Perm steps') : Regular members steps' where
  ids := h.ids
  once := ((perm.filterMap Step.spawned?).nodup_iff).mp h.once
  ordinary s hs := h.ordinary s (perm.mem_iff.mpr hs)
  stray s hs := h.stray s (perm.mem_iff.mpr hs)

theorem of_append {σ : Type} [Step σ] {first second : List σ}
    (h : Regular members (first ++ second)) : Regular members first where
  ids := h.ids
  once := by
    have once := h.once
    rw [List.filterMap_append] at once
    exact once.of_append_left
  ordinary s hs := h.ordinary s (List.mem_append_left _ hs)
  stray s hs := h.stray s (List.mem_append_left _ hs)

/-- What the ticks ask for is a regular run if the ticks are one. -/
theorem askedBy (h : Regular members ticks) (s : Session) : Regular members (s.askedBy ticks) where
  ids := h.ids
  once := by
    have same : (s.askedBy ticks).filterMap Step.spawned? = ticks.filterMap Step.spawned? :=
      Session.filterMap_askedBy (fun s t => (s.isMadeOf_asked t).spawned) s
    rw [same]
    exact h.once
  ordinary m hm := by
    obtain ⟨t, ht, s', asked⟩ := Session.exists_of_mem_askedBy hm
    exact (s'.isMadeOf_asked t).ordinary (h.ordinary t ht) m asked
  stray m hm envelope sent := by
    obtain ⟨t, ht, s', asked⟩ := Session.exists_of_mem_askedBy hm
    have mem : envelope ∈ (s'.asked t).filterMap Move.sent? :=
      List.mem_filterMap.mpr ⟨m, asked, sent⟩
    rw [(s'.isMadeOf_asked t).sent, Option.mem_toList] at mem
    exact h.stray t ht envelope mem

/-- And so is what the ticks make, if no call was under way before. -/
theorem made (h : Regular members ticks) {s : Session} (idle : s.pending = []) :
    Regular members (s.made ticks) := by
  have perm := s.perm_made ticks
  rw [idle, List.nil_append] at perm
  exact ((h.askedBy s).perm perm.symm).of_append

end Regular

namespace Cluster

/-- Index events reach the nodes they are for, and nothing else does, in every run of whole
actions and in every session, however the calls of its nodes take turns. -/
theorem delivers_run (capacity : Nat) (members : List Member) :
    (∀ actions : List Action, Regular members actions →
      Delivers members (ofMembers capacity members) actions) ∧
    ∀ ticks : List Tick, Regular members ticks →
      let s : Session := ⟨ofMembers capacity members, []⟩
      (s.run ticks).cluster = s.cluster.run (s.made ticks) ∧
        Delivers members s.cluster (s.made ticks) := by
  refine ⟨fun actions regular => delivers_of_regular capacity regular, fun ticks regular => ?_⟩
  have stays : ∀ i, .leave i ∉ ticks := fun i mem => regular.ordinary (.leave i) mem
  exact ⟨Session.cluster_run _ stays, delivers_of_regular capacity (regular.made rfl)⟩

/-- Three members with the same channel names. -/
def trio : List Member :=
  [⟨⟨2, by decide⟩, {}, .ofList [], none⟩, ⟨⟨3, by decide⟩, {}, .ofList [], none⟩,
    ⟨⟨5, by decide⟩, {}, .ofList [], none⟩]

/-- Two nodes subscribe, one of them is asked to delete a document, somebody sends what is no
event and what is for others, and the nodes read what there is. -/
def exchange : List Action :=
  [.spawn 0, .spawn 1, .queueDelete .epoch 0 (.document ⟨"main", "a", "b", none⟩) none {},
    .send ⟨⟨4, by decide⟩, ({} : QueueSettings).indexChannel, "?"⟩,
    .send ⟨⟨4, by decide⟩, "elsewhere", "?"⟩,
    .receive 1, .receive 0, .receive 1, .receive 1, .receive 0, .receive 0]

/-- A task to index a partition. -/
def indexing (partition : String) : IndexTask :=
  ⟨.partition partition, .index, .default, false, .epoch⟩

/-- A node subscribes. Two others dispatch batches, and the second of them publishes its event
between the two of the first one. Then the node reads what there is. -/
def turns : List Tick :=
  [.move (.spawn 2), .call (.dispatch 0 ⟨[indexing "a", indexing "b"]⟩), .go 0, .go 0,
    .call (.dispatch 1 ⟨[indexing "c"]⟩), .go 1, .go 1, .go 0, .go 0,
    .move (.receive 0), .move (.receive 0), .move (.receive 0)]

/-- The moves that are made then. -/
def interleaved : List Move :=
  [.spawn 2, .note [.queueing (indexing "a")], .publish 0 (.ofTask (indexing "a")),
    .note [.queueing (indexing "c")], .publish 1 (.ofTask (indexing "c")),
    .note [.queueing (indexing "b")], .publish 0 (.ofTask (indexing "b")),
    .receive 0, .receive 0, .receive 0]

theorem moves_indexing (i : Nat) (partitions : List String) :
    TaskBatch.moves i ⟨partitions.map indexing⟩ = partitions.flatMap fun p =>
      [.note [.queueing (indexing p)], .publish i (.ofTask (indexing p))] := by
  have ordered : (⟨partitions.map indexing⟩ : TaskBatch).ordered = partitions.map indexing := by
    -- All of them have the same priority.
    refine List.mergeSort_of_pairwise (List.pairwise_map.mpr (List.pairwise_of_forall ?_))
    exact fun p q => decide_eq_true (Nat.le_refl _)
  rw [TaskBatch.moves, ordered, List.flatMap_map]

theorem made_turns (c : Cluster) : Session.made ⟨c, []⟩ turns = interleaved := by
  have first : TaskBatch.moves 0 ⟨[indexing "a", indexing "b"]⟩ = _ := moves_indexing 0 ["a", "b"]
  have second : TaskBatch.moves 1 ⟨[indexing "c"]⟩ = _ := moves_indexing 1 ["c"]
  simp [turns, interleaved, Session.made, Session.makes?, Session.tick, Session.advance,
    Cluster.moves, first, second]

theorem delivers_run_exchange :
    (Regular trio exchange ∧ ((ofMembers 4 trio).run exchange).publications.length = 1 ∧
      (((ofMembers 4 trio).run exchange).tasksHeard 1 .dispatcher).Perm
        (((ofMembers 4 trio).run exchange).publications.map (·.2.task))) ∧
    Regular trio turns ∧
      let c := (Session.run ⟨ofMembers 4 trio, []⟩ turns).cluster
      c.publications.map (·.1) = [0, 1, 0] ∧
      (c.tasksHeard 2 .dispatcher).Perm (c.publications.map (·.2.task)) := by
  have epoch : Instant.epoch.IsKept := ⟨by decide, by decide⟩
  have nothing : Wire.read? (α := IndexEvent) "?" = none := by decide +kernel
  have regular : Regular trio exchange := by
    constructor
    case ids => decide
    case once => decide
    case ordinary => simp [exchange, Step.IsOrdinary, Action.IsTimely, epoch]
    case stray => simp [exchange, Step.sent?, Action.sent?, Envelope.IsStray, nothing]
  have regular' : Regular trio turns := by
    constructor
    case ids => decide
    case once => decide
    case ordinary =>
      simp [turns, Step.IsOrdinary, Tick.IsOrdinary, Action.IsTimely, Move.IsOrdinary, indexing,
        epoch]
    case stray => simp [turns, Step.sent?, Tick.sent?, Action.sent?, Move.sent?]
  have ⟨published, never, drained⟩ :
      ((ofMembers 4 trio).run exchange).publications.length = 1 ∧
        NeverLags (ofMembers 4 trio) exchange 1 ∧ ((ofMembers 4 trio).run exchange).Drained 1 := by
    decide +kernel
  have ⟨order, never', drained'⟩ :
      ((ofMembers 4 trio).run interleaved).publications.map (·.1) = [0, 1, 0] ∧
        NeverLags (ofMembers 4 trio) interleaved 2 ∧
        ((ofMembers 4 trio).run interleaved).Drained 2 := by
    decide +kernel
  obtain ⟨actions, sessions⟩ := delivers_run 4 trio
  obtain ⟨cluster, delivers⟩ := sessions turns regular'
  rw [made_turns] at cluster delivers
  refine ⟨⟨regular, published, ?_⟩, regular', cluster ▸ order, cluster ▸ ?_⟩
  · exact (actions exchange regular).shared 1 _ [.spawn 0] _ _ rfl rfl rfl never drained
      (by decide) rfl
  · exact delivers.shared 2 _ [] _ _ rfl rfl rfl never' drained' (by decide) rfl

end Cluster

end SearchIndex
