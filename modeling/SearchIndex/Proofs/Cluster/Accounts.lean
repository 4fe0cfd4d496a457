import SearchIndex.Proofs.Cluster.Session

/-!
# Accounts of a dispatcher

Index events reach a node when it publishes one and when it accepts one of another node. An
`Arrival` is such an event together with the writer that the node had at that moment, so it
says what has to become of the task: it is dropped without a writer, failed if the writer
refuses it, and applied if the writer accepts it. `Session.ledger` lists the arrivals at a node
from what the nodes publish and accept alone.

The counters of the node and the tasks that its writers accepted agree with the ledger after
any ticks (`balanced_run`): every event is counted once, in the place where it belongs, and
nothing is tried again.
-/

namespace SearchIndex

/-- The task of an index event that reached a node, and the writer that the node had then. -/
structure Arrival where
  task : IndexTask
  writer : Option IndexWriter

namespace Arrival

/-- There was no writer. -/
def isDropped (a : Arrival) : Bool :=
  a.writer.isNone

/-- There was a writer, and it accepted the task. -/
def isApplied (a : Arrival) : Bool :=
  a.writer.any fun w => (w.apply a.task).isOk

/-- There was a writer, and it refused the task. -/
def isFailed (a : Arrival) : Bool :=
  a.writer.any fun w => !(w.apply a.task).isOk

/-- An arrival is one of the three. -/
theorem length_eq_countP (arrivals : List Arrival) :
    arrivals.countP isApplied + arrivals.countP isDropped + arrivals.countP isFailed =
      arrivals.length := by
  induction arrivals with
  | nil => rfl
  | cons a arrivals ih =>
      have one : (if a.isApplied then 1 else 0) + (if a.isDropped then 1 else 0) +
          (if a.isFailed then 1 else 0) = 1 := by
        unfold isApplied isDropped isFailed
        cases a.writer with
        | none => rfl
        | some w => cases h : (w.apply a.task).isOk <;> simp [h]
      simp only [List.countP_cons, List.length_cons]
      omega

end Arrival

/-- Counters with some arrivals counted. -/
def DispatchStats.add (s : DispatchStats) (arrivals : List Arrival) : DispatchStats where
  applied := s.applied + arrivals.countP Arrival.isApplied
  dropped := s.dropped + arrivals.countP Arrival.isDropped
  failed := s.failed + arrivals.countP Arrival.isFailed

theorem DispatchStats.add_append (s : DispatchStats) (first second : List Arrival) :
    s.add (first ++ second) = (s.add first).add second := by
  simp [add, Nat.add_assoc]

namespace Node

/-- A task is applied if its arrival says so. -/
theorem dispatch_eq_applied_iff (n : Node) (task : IndexTask) :
    n.dispatch task = .applied ↔ (Arrival.mk task n.writer).isApplied = true := by
  rw [dispatch, Arrival.isApplied]
  cases n.writer with
  | none => simp
  | some w =>
      simp only [Option.any_some]
      cases w.apply task <;> simp [Except.isOk, Except.toBool]

/-- The dispatcher counts a task as its arrival says. -/
theorem stats_counted (n : Node) (task : IndexTask) :
    (n.counted (n.dispatch task)).stats = n.stats.add [⟨task, n.writer⟩] := by
  rw [dispatch, DispatchStats.add]
  simp only [List.countP_singleton, Arrival.isApplied, Arrival.isDropped, Arrival.isFailed]
  cases n.writer with
  | none => rfl
  | some w => cases h : w.apply task <;> simp [counted, h, Except.isOk, Except.toBool]

theorem HearsOnce.count_audience {n : Node} (h : n.HearsOnce) :
    n.index.audience.count .dispatcher = 1 := by
  rw [Channel.audience, List.count_append, h.localCount, h.remoteCount]

end Node

/-- The task that the writer of a node accepts in an occurrence. -/
def Occurrence.application? (i : Nat) : Occurrence → Option IndexTask
  | .applied j task => if j = i then some task else none
  | _ => none

namespace Cluster

/-- The tasks that the writers of a node have accepted, in order. -/
def applications (c : Cluster) (i : Nat) : List IndexTask :=
  c.trace.filterMap (Occurrence.application? i)

@[simp] theorem applications_note (c : Cluster) (notices : List QueueNotice) (i : Nat) :
    (c.note notices).applications i = c.applications i := by
  have none : (notices.map Occurrence.noted).filterMap (Occurrence.application? i) = [] := by
    rw [List.filterMap_map, List.filterMap_eq_nil_iff]
    exact fun _ _ => rfl
  rw [applications, note, List.filterMap_append, none, List.append_nil, applications]

theorem applications_record (c : Cluster) (o : Occurrence) (i : Nat) :
    (c.record o).applications i = c.applications i ++ (o.application? i).toList := by
  rw [applications, record, List.filterMap_append, applications]
  cases h : o.application? i <;> simp [h]

/-- What some arrivals at a node do: the tasks that are to be applied are, in their order, and
all of them are counted. -/
structure Settles (i : Nat) (arrivals : List Arrival) (c c' : Cluster) : Prop where
  applied : c'.applications i =
    c.applications i ++ (arrivals.filter (·.isApplied)).map (·.task)
  stats : ∀ n', c'.node? i = some n' →
    ∃ n, c.node? i = some n ∧ n'.stats = n.stats.add arrivals

variable {i j : Nat} {c c' c'' : Cluster} {n : Node}

theorem Settles.trans {first second : List Arrival} (h : Settles i first c c')
    (h' : Settles i second c' c'') : Settles i (first ++ second) c c'' where
  applied := by
    rw [h'.applied, h.applied, List.append_assoc, List.filter_append, List.map_append]
  stats n'' hn'' := by
    obtain ⟨n', hn', later⟩ := h'.stats n'' hn''
    obtain ⟨n, hn, earlier⟩ := h.stats n' hn'
    exact ⟨n, hn, by rw [later, earlier, DispatchStats.add_append]⟩

/-- Nothing arrives where the nodes and what was applied stay as they are. -/
theorem settles_nil (nodes : c'.nodes = c.nodes)
    (applications : c'.applications i = c.applications i) : Settles i [] c c' where
  applied := by rw [applications, List.filter_nil, List.map_nil, List.append_nil]
  stats n' hn' := ⟨n', by rwa [node?, ← nodes], rfl⟩

theorem settles_note (c : Cluster) (notices : List QueueNotice) (i : Nat) :
    Settles i [] c (c.note notices) :=
  settles_nil rfl (applications_note c notices i)

theorem settles_record (c : Cluster) {o : Occurrence} (h : o.application? i = none) :
    Settles i [] c (c.record o) :=
  settles_nil rfl (by rw [applications_record, h]; exact List.append_nil _)

/-- The dispatcher settles the arrival of the task that it gets, and no other node's. -/
theorem settles_dispatchTask (hn : c.node? i = some n) (task : IndexTask) (j : Nat) :
    Settles j (if i = j then [⟨task, n.writer⟩] else []) c (c.dispatchTask i task) := by
  let counted := (c.record (.handed i task)).modify i (·.counted (n.dispatch task))
  have dispatched : c.dispatchTask i task =
      if n.dispatch task = .applied then
        (counted.note ((n.dispatch task).notices task)).record (.applied i task)
      else counted.note ((n.dispatch task).notices task) := by
    rw [dispatchTask, hn]
  have handed : (counted.note ((n.dispatch task).notices task)).applications j =
      c.applications j := by
    rw [applications_note]
    exact (applications_record c (.handed i task) j).trans (List.append_nil _)
  have applied : (c.dispatchTask i task).applications j = c.applications j ++
      (if n.dispatch task = .applied ∧ i = j then [task] else []) := by
    rw [dispatched]
    by_cases accepted : n.dispatch task = .applied
    · rw [if_pos accepted, applications_record, handed, Occurrence.application?]
      by_cases here : i = j <;> simp [accepted, here]
    · rw [if_neg accepted, if_neg fun both => accepted both.1, handed, List.append_nil]
  have node : (c.dispatchTask i task).node? j = counted.node? j := by
    rw [dispatched]
    split <;> rfl
  constructor
  · rw [applied]
    congr 1
    by_cases here : i = j
    · by_cases accepted : n.dispatch task = .applied
      · simp [here, accepted, (n.dispatch_eq_applied_iff task).mp accepted]
      · have refused := mt (n.dispatch_eq_applied_iff task).mpr accepted
        simp [here, accepted, refused]
    · simp [here]
  · intro n' hn'
    rw [node, node?_modify] at hn'
    by_cases here : i = j
    · subst here
      rw [if_pos rfl] at hn' ⊢
      have same : (c.record (.handed i task)).node? i = some n := hn
      rw [same, Option.map_some] at hn'
      obtain rfl := Option.some.inj hn'
      exact ⟨n, hn, n.stats_counted task⟩
    · rw [if_neg here] at hn' ⊢
      exact ⟨n', hn', rfl⟩

/-- The dispatcher settles the arrival of an event as often as it hears it. -/
theorem settles_hearAll (hn : c.node? i = some n) (event : IndexEvent)
    (listeners : List IndexListener) (j : Nat) :
    Settles j (if i = j then List.replicate (listeners.count .dispatcher) ⟨event.task, n.writer⟩
      else []) c (listeners.foldl (·.hearIndex i event) c) := by
  induction listeners generalizing c n with
  | nil =>
      rw [List.count_nil, List.replicate_zero, ite_self]
      exact settles_nil rfl rfl
  | cons l ls ih =>
      have first := adds_hearIndex (Option.isSome_of_mem hn) event l
      obtain ⟨n', hn', same⟩ := exists_node?_of_layout_eq first.layout hn
      have writer : n'.writer = n.writer := congrArg (·.writer) same
      have rest := ih hn'
      rw [writer] at rest
      rw [List.foldl_cons]
      cases l with
      | tap tag =>
          have heard := settles_record (i := j) c (o := .heard i tag (.task event.task)) rfl
          rw [List.count_cons_of_ne (by simp)]
          exact heard.trans rest
      | dispatcher =>
          have both := (settles_dispatchTask hn event.task j).trans rest
          rw [List.count_cons_self, List.replicate_succ]
          by_cases here : i = j
          · simpa [here] using both
          · simpa [here] using both

theorem settles_broadcast (c : Cluster) (n : Node) (event : IndexEvent) (i : Nat) :
    Settles i [] c (c.broadcast n event) := by
  rw [broadcast]
  split
  · exact settles_nil rfl rfl
  · exact settles_nil rfl (applications_note _ _ i)

/-! ### Accounts of moves -/

/-- Some arrivals are all that is new at a node: the events that reach it and the tasks that
its dispatcher gets are theirs, and they are settled. -/
structure Accounts (i : Nat) (arrivals : List Arrival) (c c' : Cluster) : Prop
    extends Settles i arrivals c c' where
  course : ∃ os, c'.course = c.course ++ os ∧
    os.filterMap (Occurrence.taskAt? i) = arrivals.map (·.task) ∧
    os.filterMap (Occurrence.heardBy? i .dispatcher) = arrivals.map (·.task)

theorem Accounts.trans {first second : List Arrival} (h : Accounts i first c c')
    (h' : Accounts i second c' c'') : Accounts i (first ++ second) c c'' where
  toSettles := h.toSettles.trans h'.toSettles
  course := by
    obtain ⟨os, course, tasks, heard⟩ := h.course
    obtain ⟨os', course', tasks', heard'⟩ := h'.course
    refine ⟨os ++ os', by rw [course', course, List.append_assoc], ?_, ?_⟩
    · rw [List.filterMap_append, tasks, tasks', List.map_append]
    · rw [List.filterMap_append, heard, heard', List.map_append]

theorem Settles.accounts (h : Settles i [] c c') (course : c'.course = c.course) :
    Accounts i [] c c' :=
  ⟨h, [], by rw [course, List.append_nil], rfl, rfl⟩

theorem Accounts.refl (i : Nat) (c : Cluster) : Accounts i [] c c :=
  Settles.accounts (settles_nil rfl rfl) rfl

/-- A node publishes an event: it arrives there, and nowhere else yet. -/
theorem accounts_publishIndex (hn : c.node? i = some n) (once : n.HearsOnce) (event : IndexEvent)
    (j : Nat) : Accounts j (if i = j then [⟨event.task, n.writer⟩] else []) c
      (c.publishIndex i event) where
  toSettles := by
    have published := settles_record (i := j) c (o := .published i event) rfl
    have here : (c.record (.published i event)).node? i = some n := hn
    have heard := settles_hearAll here event n.index.audience j
    rw [once.count_audience] at heard
    have whole := (published.trans heard).trans (settles_broadcast _ n event j)
    rw [publishIndex, hn]
    rwa [List.append_nil, List.nil_append] at whole
  course := by
    refine ⟨_, (publishes_publishIndex hn event).course, ?_, ?_⟩
    · rw [Node.taskAt?_publishing]
      by_cases same : i = j <;> simp [same]
    · by_cases same : i = j
      · subst same
        rw [Node.heardBy?_publishing, once.count_audience]
        simp
      · rw [Node.heardBy?_publishing_of_ne n same]
        simp [same]

/-- An envelope is handed to a node: its event arrives there if the node accepts it. -/
theorem accounts_deliverIndex (hn : c.node? i = some n) (once : n.HearsOnce)
    (envelope : Envelope) (j : Nat) : Accounts j
      (if i = j then (n.index.accepted? envelope).toList.map fun e => ⟨e.task, n.writer⟩ else [])
      c (c.deliverIndex i envelope).2 where
  toSettles := by
    rw [deliverIndex, hn, Channel.accepted?]
    cases examined : n.index.examine envelope with
    | ignored =>
        simp only [examined, Option.toList_none, List.map_nil, ite_self]
        exact settles_nil rfl rfl
    | malformed =>
        simp only [examined, Option.toList_none, List.map_nil, ite_self]
        exact settles_note c _ j
    | accepted event =>
        have delivered := settles_record (i := j) c (o := .delivered i event) rfl
        have here : (c.record (.delivered i event)).node? i = some n := hn
        have heard := settles_hearAll here event n.index.remoteListeners j
        rw [once.remoteCount] at heard
        simp only [examined]
        exact delivered.trans heard
  course := by
    refine ⟨_, (adds_deliverIndex hn envelope).course, ?_⟩
    cases n.index.accepted? envelope with
    | none => simp
    | some event =>
        rw [Option.elim_some, Node.taskAt?_receiving]
        by_cases same : i = j
        · subst same
          rw [Node.heardBy?_receiving, once.remoteCount]
          simp
        · rw [Node.heardBy?_receiving_of_ne n same]
          simp [same]

/-- The dispatcher of every node hears every index event once. -/
def IsWired (c : Cluster) : Prop :=
  ∀ i n, c.node? i = some n → n.HearsOnce

theorem IsWired.of_layout_eq (h : c.IsWired) (layout : c'.layout = c.layout) : c'.IsWired := by
  intro i n' hn'
  obtain ⟨n, hn, same⟩ := exists_node?_of_layout_eq layout.symm hn'
  have index : n'.index = n.index := (congrArg (·.index) same).symm
  obtain ⟨localCount, remoteCount⟩ := h i n hn
  exact ⟨index ▸ localCount, index ▸ remoteCount⟩

theorem IsWired.modify (h : c.IsWired) (i : Nat) {f : Node → Node} (harmless : IsHarmless f) :
    (c.modify i f).IsWired := by
  intro j n' hn'
  rw [node?_modify] at hn'
  split at hn'
  · obtain ⟨n, hn, rfl⟩ := Option.map_eq_some_iff.mp hn'
    exact harmless.once n (h j n hn)
  · exact h j n' hn'

theorem Happens.isWired (happens : Happens c c') (h : c.IsWired) : c'.IsWired := by
  induction happens with
  | idle | note | heard => exact h
  | relink _ _ _ ih => exact ih h
  | publish c i event => exact h.of_layout_eq (layout_publishIndex c i event)
  | change c i harmless => exact h.modify i harmless
  | deliver c i envelope =>
      cases present : c.node? i with
      | none => rwa [deliverIndex, present]
      | some n => exact h.of_layout_eq (adds_deliverIndex present envelope).layout

theorem node?_leave (c : Cluster) (i j : Nat) :
    (c.leave i).node? j = if i = j then none else c.node? j := by
  rw [node?, leave, List.getElem?_set, node?]
  by_cases same : i = j
  · subst same
    by_cases there : i < c.nodes.length <;> simp [there]
  · simp [same]

theorem IsWired.leave (h : c.IsWired) (i : Nat) : (c.leave i).IsWired := by
  intro j n hn
  rw [node?_leave] at hn
  split at hn
  · cases hn
  · exact h j n hn

/-- The writer of a node. -/
def writer? (c : Cluster) (i : Nat) : Option IndexWriter :=
  (c.node? i).bind (·.writer)

/-- The events that reached a node from one cluster to the next, with the writer that the
node had before. -/
def arrivals (c c' : Cluster) (i : Nat) : List Arrival :=
  ((c'.course.drop c.course.length).filterMap (Occurrence.taskAt? i)).map (⟨·, c.writer? i⟩)

/-- Arrivals that account for all that is new, with the writer of before, are the arrivals. -/
theorem Accounts.arrive {arrivals : List Arrival} (h : Accounts i arrivals c c')
    (writers : ∀ a ∈ arrivals, a.writer = c.writer? i) : Accounts i (c.arrivals c' i) c c' := by
  obtain ⟨os, course, tasks, -⟩ := h.course
  have same : ∀ a ∈ arrivals, Arrival.mk a.task (c.writer? i) = a := by
    intro a ha
    rw [← writers a ha]
  have all : c.arrivals c' i = arrivals := by
    rw [Cluster.arrivals, course, List.drop_left, tasks, List.map_map]
    exact (List.map_congr_left same).trans (List.map_id _)
  rwa [all]

/-- Where nothing arrives there is nothing to account for. -/
theorem Accounts.quiet (h : Accounts i [] c c') : Accounts i (c.arrivals c' i) c c' :=
  h.arrive (List.forall_mem_nil _)

theorem accounts_note (c : Cluster) (notices : List QueueNotice) (i : Nat) :
    Accounts i [] c (c.note notices) :=
  (settles_note c notices i).accounts (course_note c notices)

theorem accounts_modify (c : Cluster) (i : Nat) {f : Node → Node} (harmless : IsHarmless f)
    (j : Nat) : Accounts j [] c (c.modify i f) := by
  refine Settles.accounts ⟨(List.append_nil _).symm, fun n' hn' => ?_⟩ rfl
  rw [node?_modify] at hn'
  split at hn'
  · obtain ⟨n, hn, rfl⟩ := Option.map_eq_some_iff.mp hn'
    exact ⟨n, hn, harmless.stats n⟩
  · exact ⟨n', hn', rfl⟩

theorem accounts_leave (c : Cluster) (i j : Nat) : Accounts j [] c (c.leave i) := by
  refine Settles.accounts ⟨(List.append_nil _).symm, fun n' hn' => ?_⟩ rfl
  rw [node?_leave] at hn'
  split at hn'
  · cases hn'
  · exact ⟨n', hn', rfl⟩

theorem accounts_publish (wired : c.IsWired) (i : Nat) (event : IndexEvent) (j : Nat) :
    Accounts j (c.arrivals (c.publishIndex i event) j) c (c.publishIndex i event) := by
  cases present : c.node? i with
  | none =>
      rw [publishIndex_of_absent present]
      exact (Accounts.refl j c).quiet
  | some n =>
      refine (accounts_publishIndex present (wired i n present) event j).arrive fun a ha => ?_
      split at ha
      · next same =>
        rw [List.mem_singleton.mp ha, writer?, ← same, present]
        rfl
      · cases ha

theorem accounts_deliver (wired : c.IsWired) (i : Nat) (envelope : Envelope) (j : Nat) :
    Accounts j (c.arrivals (c.deliverIndex i envelope).2 j) c (c.deliverIndex i envelope).2 := by
  cases present : c.node? i with
  | none =>
      rw [deliverIndex, present]
      exact (Accounts.refl j c).quiet
  | some n =>
      refine (accounts_deliverIndex present (wired i n present) envelope j).arrive fun a ha => ?_
      split at ha
      · next same =>
        obtain ⟨event, -, rfl⟩ := List.mem_map.mp ha
        rw [writer?, ← same, present]
        rfl
      · cases ha

/-- What happens brings to a node what is accounted for there. -/
theorem Happens.accounts (happens : Happens c c') (wired : c.IsWired) (i : Nat) :
    Accounts i (c.arrivals c' i) c c' := by
  induction happens with
  | idle c => exact (Accounts.refl i c).quiet
  | note c notices => exact (accounts_note c notices i).quiet
  | heard c j tag change =>
      have settles := settles_record (i := i) c (o := .heard j tag (.change change)) rfl
      exact Accounts.quiet ⟨settles, _, course_record c rfl, rfl, rfl⟩
  | publish c j event => exact accounts_publish wired j event i
  | deliver c j envelope => exact accounts_deliver wired j envelope i
  | change c j harmless => exact (accounts_modify c j harmless i).quiet
  | relink link held _ ih =>
      -- The accounts do not depend on what is on the link.
      have accounts := ih wired
      exact ⟨⟨accounts.applied, accounts.stats⟩, accounts.course⟩

end Cluster

namespace Session

variable {s : Session}

/-- The events that reached a node in some ticks, in order, each with the writer that the node
had at that moment. -/
def ledger (i : Nat) : Session → List Tick → List Arrival
  | _, [] => []
  | s, t :: ticks => s.cluster.arrivals (s.tick t).cluster i ++ ledger i (s.tick t) ticks

theorem isWired_tick (wired : s.cluster.IsWired) (t : Tick) : (s.tick t).cluster.IsWired := by
  obtain same | ⟨m, same⟩ | ⟨i, same⟩ := s.tick_cases t <;> rw [same]
  · exact wired
  · exact (s.cluster.happens_move m).isWired wired
  · exact wired.leave i

theorem accounts_tick (wired : s.cluster.IsWired) (t : Tick) (i : Nat) :
    Cluster.Accounts i (s.cluster.arrivals (s.tick t).cluster i) s.cluster (s.tick t).cluster := by
  obtain same | ⟨m, same⟩ | ⟨j, same⟩ := s.tick_cases t <;> rw [same]
  · exact (Cluster.Accounts.refl i s.cluster).quiet
  · exact (s.cluster.happens_move m).accounts wired i
  · exact (Cluster.accounts_leave s.cluster j i).quiet

/-- The ledger of some ticks accounts for all that they brought. -/
theorem accounts_run (wired : s.cluster.IsWired) (ticks : List Tick) (i : Nat) :
    Cluster.Accounts i (s.ledger i ticks) s.cluster (s.run ticks).cluster := by
  induction ticks generalizing s with
  | nil => exact .refl i s.cluster
  | cons t ticks ih => exact (accounts_tick wired t i).trans (ih (isWired_tick wired t))

end Session

/-! ### The balance -/

namespace Cluster

/-- A cluster of new nodes, in which nothing has happened yet. -/
structure IsFresh (c : Cluster) : Prop where
  nodes : ∀ i n, c.node? i = some n →
    ∃ id settings store writer linked, n = .make id settings store writer linked
  trace : c.trace = []

theorem IsFresh.isWired {c : Cluster} (fresh : c.IsFresh) : c.IsWired := by
  intro i n hn
  obtain ⟨id, settings, store, writer, linked, rfl⟩ := fresh.nodes i n hn
  exact ⟨rfl, rfl⟩

theorem isFresh_ofMembers (capacity : Nat) (members : List Member) :
    (ofMembers capacity members).IsFresh where
  nodes i n hn := by
    rw [node?, ofMembers, List.getElem?_map] at hn
    cases found : members[i]? with
    | none =>
        rw [found] at hn
        cases hn
    | some m =>
        rw [found] at hn
        obtain rfl := Option.some.inj hn
        exact ⟨m.id, m.settings, m.store, m.writer, true, rfl⟩
  trace := rfl

/-- The events that reach a node are those that it publishes and those that it accepts. -/
theorem length_filterMap_taskAt? (c : Cluster) (i : Nat) :
    (c.course.filterMap (Occurrence.taskAt? i)).length =
      c.publications.countP (·.1 == i) + (c.deliveries i).length := by
  rw [publications, deliveries]
  induction c.course with
  | nil => rfl
  | cons o os ih =>
      cases o with
      | published j event =>
          have none : (Occurrence.published j event).delivery? i = none := rfl
          have one : (Occurrence.published j event).publication? = some (j, event) := rfl
          rw [List.filterMap_cons_none none, List.filterMap_cons_some one, List.countP_cons]
          by_cases here : j = i
          · simp only [List.filterMap_cons, Occurrence.taskAt?, here, if_true, beq_self_eq_true,
              List.length_cons, ih]
            omega
          · simp [Occurrence.taskAt?, here, ih]
      | delivered j event =>
          have none : (Occurrence.delivered j event).publication? = none := rfl
          rw [List.filterMap_cons_none none]
          by_cases here : j = i <;>
            simp [Occurrence.taskAt?, Occurrence.delivery?, here, ih, Nat.add_assoc]
      | handed | applied | heard | noted => exact ih

/-- The books of a node balance: the ledger has the events that reached the node, in order,
and the dispatcher got their tasks; its writers accepted those tasks that they were to accept,
in the same order; the counters say how many there are of each kind, which together are all
events that the node has published or accepted. -/
structure Balanced (c : Cluster) (i : Nat) (ledger : List Arrival) : Prop where
  reached : c.course.filterMap (Occurrence.taskAt? i) = ledger.map (·.task)
  handed : c.tasksHeard i .dispatcher = ledger.map (·.task)
  applied : c.applications i = (ledger.filter (·.isApplied)).map (·.task)
  stats : ∀ n, c.node? i = some n → n.stats =
    { applied := ledger.countP (·.isApplied)
      dropped := ledger.countP (·.isDropped)
      failed := ledger.countP (·.isFailed) }
  accepted : ∀ n, c.node? i = some n → n.stats.applied = (c.applications i).length
  total : ∀ n, c.node? i = some n → n.stats.applied + n.stats.dropped + n.stats.failed =
    c.publications.countP (·.1 == i) + (c.deliveries i).length

end Cluster

/-- After any ticks, the books of every node balance. -/
theorem Session.balanced_run {c : Cluster} (fresh : c.IsFresh) (ticks : List Tick) (i : Nat) :
    (run ⟨c, []⟩ ticks).cluster.Balanced i (ledger i ⟨c, []⟩ ticks) := by
  have accounts := accounts_run (s := ⟨c, []⟩) fresh.isWired ticks i
  have start : c.course = [] := by rw [Cluster.course, fresh.trace, List.filter_nil]
  obtain ⟨os, course, tasks, heard⟩ := accounts.course
  rw [start, List.nil_append] at course
  have applied := accounts.applied
  rw [Cluster.applications, Cluster.applications, fresh.trace, List.filterMap_nil,
    List.nil_append] at applied
  have stats : ∀ n, (run ⟨c, []⟩ ticks).cluster.node? i = some n →
      n.stats = ({} : DispatchStats).add (ledger i ⟨c, []⟩ ticks) := by
    intro n hn
    obtain ⟨old, hold, same⟩ := accounts.stats n hn
    obtain ⟨id, settings, store, writer, linked, rfl⟩ := fresh.nodes i old hold
    exact same
  have reached := Cluster.length_filterMap_taskAt? (run ⟨c, []⟩ ticks).cluster i
  rw [course, tasks, List.length_map] at reached
  constructor
  case reached => rw [course, tasks]
  case handed => rw [Cluster.tasksHeard, course, heard]
  case applied => exact applied
  case stats =>
    intro n hn
    rw [stats n hn]
    simp [DispatchStats.add]
  case accepted =>
    intro n hn
    rw [stats n hn, Cluster.applications, applied, List.length_map, ← List.countP_eq_length_filter]
    simp [DispatchStats.add]
  case total =>
    intro n hn
    rw [stats n hn, ← reached, ← Arrival.length_eq_countP]
    simp [DispatchStats.add]

/-- A writer that only deletes. -/
def deletingWriter : IndexWriter where
  apply t := if t.kind = .delete then .ok () else .error "not deleted"

/-- Two calls on a node at once, of which the second one publishes its task when the node has got
a writer; another node, which has that writer for the first task only, reads both. -/
def changingWriters : List Tick :=
  [.move (.spawn 1), .call (.queueIndex .epoch 0 (.partition "a") none {}),
    .call (.queueDelete .epoch 0 (.partition "b") none {}), .go 0, .go 1, .go 0, .go 0,
    .move (.setWriter 0 (some deletingWriter)), .go 1, .go 1,
    .move (.setWriter 1 (some deletingWriter)), .move (.receive 0),
    .move (.setWriter 1 none), .move (.receive 0)]

theorem Session.balanced_run_changingWriters :
    let start := Cluster.ofMembers 4
      [⟨⟨2, by decide⟩, {}, .ofList [], none⟩, ⟨⟨3, by decide⟩, {}, .ofList [], none⟩]
    let final := (run ⟨start, []⟩ changingWriters).cluster
    start.IsFresh ∧ (final.node? 0).map (·.stats) = some ⟨1, 1, 0⟩ ∧
      (final.node? 1).map (·.stats) = some ⟨0, 1, 1⟩ ∧
      ∀ i, final.Balanced i (ledger i ⟨start, []⟩ changingWriters) := by
  intro start final
  have fresh : start.IsFresh := Cluster.isFresh_ofMembers 4 _
  have stats : (final.node? 0).map (·.stats) = some ⟨1, 1, 0⟩ ∧
      (final.node? 1).map (·.stats) = some ⟨0, 1, 1⟩ := by
    decide +kernel
  exact ⟨fresh, stats.1, stats.2, fun i => balanced_run fresh changingWriters i⟩

end SearchIndex
