import SearchIndex.Proofs.Cluster.Course
import SearchIndex.Proofs.Indexing.Batch

/-!
# From requests to events

A node collects requests in a batch and publishes the batch. What is to be indexed is
what the store has for the given reference, and a request for what the store does not
have adds nothing. Everyone who listens on the index channel of the node then hears one
event for each entity and kind among the other requests, by the identity of the entity.
`Answers` says what the events have to do with the requests: which of them come in which
order, how urgent they are, and which of them are quiet.
-/

namespace SearchIndex

open Calendar (Instant)

/-- A request to index or to delete an entity, and when it is made. -/
structure TaskRequest where
  now : Instant
  kind : TaskKind
  target : EntityRef
  explicit : Option Priority := none
  context : RequestContext := {}
  deriving DecidableEq, Repr

/-- What a request is about. Partitions, and whatever is to be deleted, are taken as they
are given. A document or an attachment that is to be indexed is the one that the store
has for it, if it has one. -/
def TaskRequest.resolved? (store : ContentStore) (r : TaskRequest) : Option EntityRef :=
  match r.kind, r.target with
  | .delete, target => some target
  | .index, .partition name => some (.partition name)
  | .index, .document d => (store.get? d).map fun info => .document info.reference
  | .index, .attachment a => (store.get? a.document).bind fun info =>
    if a.filename ∈ info.attachments then
      some (.attachment { document := info.reference, filename := a.filename })
    else none

/-- A request and what it is about. -/
structure ResolvedRequest where
  request : TaskRequest
  target : EntityRef
  deriving DecidableEq, Repr

namespace ResolvedRequest

/-- What requests for one event have in common. -/
def key (r : ResolvedRequest) : String × TaskKind :=
  (r.target.identity, r.request.kind)

/-- Whether the target is the document that is being rendered, in whichever language. -/
def isRendered (r : ResolvedRequest) : Bool :=
  match r.target, r.request.context.rendered with
  | .document document, some rendered => document.withoutLanguage = rendered.withoutLanguage
  | _, _ => false

/-- The priority that is asked for: the one that is given, or else the highest for the
document being rendered, or else that of the context, or else a default. -/
def priority (standard : Priority) (r : ResolvedRequest) : Priority :=
  match r.request.explicit with
  | some explicit => explicit
  | none => if r.isRendered then .highest else r.request.context.priority.getD standard

/-- The task that is asked for. -/
def task (standard : Priority) (r : ResolvedRequest) : IndexTask where
  target := r.target
  kind := r.request.kind
  priority := r.priority standard
  quiet := r.request.context.quiet
  queuedAt := r.request.now

/-- The requests among some whose targets a store has. -/
def ofRequests (store : ContentStore) (rs : List TaskRequest) : List ResolvedRequest :=
  rs.filterMap fun r => (r.resolved? store).map (⟨r, ·⟩)

end ResolvedRequest

namespace Planner

/-- What becomes of a batch by a request. -/
def request (p : Planner) (b : TaskBatch) (r : TaskRequest) : Plan :=
  match r.kind with
  | .index => p.addIndex r.now b r.target r.explicit r.context
  | .delete => p.addDelete r.now b r.target r.explicit r.context

/-- The batch that collects some requests. -/
def requestAll (p : Planner) (rs : List TaskRequest) : TaskBatch :=
  rs.foldl (fun b r => (p.request b r).batch) {}

theorem resolve_eq (p : Planner) (r : TaskRequest) (target : EntityRef) :
    p.resolve r.explicit target r.context =
      (⟨r, target⟩ : ResolvedRequest).priority p.settings.defaultPriority := by
  have rendered : r.context.isRendered target = (⟨r, target⟩ : ResolvedRequest).isRendered := by
    cases target with
    | document d =>
        cases hr : r.context.rendered with
        | none => simp [RequestContext.isRendered, ResolvedRequest.isRendered, hr]
        | some other =>
            simp only [RequestContext.isRendered, ResolvedRequest.isRendered, hr, Option.any_some]
            rw [Bool.eq_iff_iff, DocumentRef.sameDocument_iff, decide_eq_true_eq]
    | partition name => rfl
    | attachment a => rfl
  rw [resolve, RequestContext.priorityFor, rendered, ResolvedRequest.priority]
  cases r.explicit with
  | some explicit => rfl
  | none => split <;> rfl

theorem task_eq (p : Planner) (r : TaskRequest) (target : EntityRef) :
    p.task r.now r.kind target r.explicit r.context =
      (⟨r, target⟩ : ResolvedRequest).task p.settings.defaultPriority := by
  rw [Planner.task, resolve_eq, ResolvedRequest.task]

theorem storedEntity_eq (p : Planner) (r : TaskRequest) (h : r.kind = .index) :
    (p.storedEntity r.target).toOption = r.resolved? p.store := by
  rw [TaskRequest.resolved?, h]
  cases r.target with
  | partition name => rfl
  | document d =>
      simp only [storedEntity]
      cases p.store.get? d <;> rfl
  | attachment a =>
      simp only [storedEntity, storedAttachment, DocumentInfo.hasAttachment]
      cases p.store.get? a.document with
      | none => rfl
      | some info =>
          by_cases h : a.filename ∈ info.attachments <;> simp [h, Except.map, Except.toOption]

/-- A request pushes the task that it asks for, or nothing. -/
theorem batch_request (p : Planner) (b : TaskBatch) (r : TaskRequest) :
    (p.request b r).batch = match r.resolved? p.store with
      | some target => b.push ((⟨r, target⟩ : ResolvedRequest).task p.settings.defaultPriority)
      | none => b := by
  cases kind : r.kind with
  | delete =>
      have resolved : r.resolved? p.store = some r.target := by rw [TaskRequest.resolved?, kind]
      simp only [request, kind, resolved, addDelete, ← task_eq]
  | index =>
      rw [request, ← storedEntity_eq p r kind, kind]
      simp only [addIndex]
      cases p.storedEntity r.target with
      | ok target =>
          simp only [Except.toOption, ← task_eq, kind]
      | error notice => rfl

theorem requestAll_eq (p : Planner) (rs : List TaskRequest) :
    p.requestAll rs = ({} : TaskBatch).pushAll
      ((ResolvedRequest.ofRequests p.store rs).map (·.task p.settings.defaultPriority)) := by
  rw [requestAll, TaskBatch.pushAll]
  generalize ({} : TaskBatch) = b
  induction rs generalizing b with
  | nil => rfl
  | cons r rs ih =>
      rw [List.foldl_cons, ih, batch_request, ResolvedRequest.ofRequests,
        ResolvedRequest.ofRequests, List.filterMap_cons]
      cases r.resolved? p.store <;> rfl

end Planner

/-- Some tasks answer some requests whose targets are known. -/
structure Answers (standard : Priority) (rs : List ResolvedRequest) (tasks : List IndexTask) :
    Prop where
  /-- No two tasks are for the same entity and of the same kind. -/
  nodup : (tasks.map (·.key)).Nodup
  /-- There is a task for whatever is asked for, and for nothing else. -/
  mem_iff : ∀ key, key ∈ tasks.map (·.key) ↔ key ∈ rs.map (·.key)
  /-- A task is about the target of the first request for it, and was queued then. -/
  first : ∀ t ∈ tasks, ∃ r, rs.find? (·.key = t.key) = some r ∧ t.target = r.target ∧
    t.queuedAt = r.request.now
  /-- A task is as urgent as the most urgent request for it. -/
  priority_le : ∀ t ∈ tasks, ∀ r ∈ rs, r.key = t.key → r.priority standard ≤ t.priority
  exists_priority : ∀ t ∈ tasks, ∃ r ∈ rs, r.key = t.key ∧ r.priority standard = t.priority
  /-- A task is quiet if all requests for it were made in a quiet context. -/
  quiet_iff : ∀ t ∈ tasks,
    (t.quiet = true ↔ ∀ r ∈ rs, r.key = t.key → r.request.context.quiet = true)
  /-- The more urgent come first, and among equals those that were asked for first. -/
  ordered : tasks.Pairwise fun t u => u.priority.value < t.priority.value ∨
    t.priority = u.priority ∧ (rs.map (·.key)).idxOf t.key < (rs.map (·.key)).idxOf u.key

/-- A batch, carried out in its order, answers the requests that it collects. -/
theorem answers_ordered (standard : Priority) (rs : List ResolvedRequest) :
    Answers standard rs
      (({} : TaskBatch).pushAll (rs.map (·.task standard))).ordered := by
  have collects := TaskBatch.collects_pushAll (rs.map (·.task standard))
  have keys : (rs.map (·.task standard)).map (·.key) = rs.map (·.key) := by
    rw [List.map_map]
    rfl
  have combines : ∀ t ∈ (({} : TaskBatch).pushAll (rs.map (·.task standard))).ordered,
      t.Combines ((rs.filter (·.key = t.key)).map (·.task standard)) := by
    intro t ht
    have := collects.combines t ht
    rwa [TaskBatch.ofKey, List.filter_map] at this
  constructor
  case nodup => exact collects.nodup
  case mem_iff =>
    intro key
    rw [((TaskBatch.ordered_perm _).map _).mem_iff, TaskBatch.tasks_pushAll,
      TaskBatch.keys_combinedTasks, TaskBatch.firstKeys, List.mem_eraseDups, keys]
  case first =>
    intro t ht
    obtain ⟨s, head, target, -, queuedAt⟩ := (combines t ht).first
    rw [List.head?_map, List.head?_filter] at head
    obtain ⟨r, found, rfl⟩ := Option.map_eq_some_iff.mp head
    exact ⟨r, found, target, queuedAt⟩
  case priority_le =>
    intro t ht r hr same
    have asked : r ∈ rs.filter (·.key = t.key) := List.mem_filter.mpr ⟨hr, decide_eq_true same⟩
    exact (combines t ht).le_priority _ (List.mem_map_of_mem asked)
  case exists_priority =>
    intro t ht
    obtain ⟨s, hs, equal⟩ := (combines t ht).exists_priority
    obtain ⟨r, hr, rfl⟩ := List.mem_map.mp hs
    obtain ⟨hr, same⟩ := List.mem_filter.mp hr
    exact ⟨r, hr, of_decide_eq_true same, equal⟩
  case quiet_iff =>
    intro t ht
    rw [(combines t ht).quiet_iff, List.forall_mem_map]
    constructor
    · exact fun all r hr same => all r (List.mem_filter.mpr ⟨hr, decide_eq_true same⟩)
    · intro all r hr
      obtain ⟨hr, same⟩ := List.mem_filter.mp hr
      exact all r hr (of_decide_eq_true same)
  case ordered =>
    have ordered := collects.ordered
    rwa [keys] at ordered

/-- What a node publishes when it carries out a batch of requests. -/
theorem answers_publishBatch (c : Cluster) (i : Nat) (n : Node) (hn : c.node? i = some n)
    (rs : List TaskRequest) :
    (∀ (b : TaskBatch) (r : TaskRequest), r.resolved? n.planner.store = none →
      (n.planner.request b r).batch = b) ∧
    ∃ tasks, Answers n.planner.settings.defaultPriority
        (ResolvedRequest.ofRequests n.planner.store rs) tasks ∧
      (c.publishBatch i (n.planner.requestAll rs)).publications =
        c.publications ++ tasks.map (fun t => (i, .ofTask t)) ∧
      ∀ listener, (c.publishBatch i (n.planner.requestAll rs)).tasksHeard i listener =
        c.tasksHeard i listener ++
          tasks.flatMap fun t => List.replicate (n.index.audience.count listener) t := by
  constructor
  · intro b r unknown
    rw [Planner.batch_request, unknown]
  refine ⟨(n.planner.requestAll rs).ordered, ?_, ?_, ?_⟩
  · rw [Planner.requestAll_eq]
    exact answers_ordered _ _
  · rw [Cluster.publications, Cluster.publishBatch, Cluster.course_publishTasks hn,
      List.filterMap_append, List.filterMap_flatMap]
    simp only [Node.publication?_publishing]
    rw [← List.map_eq_flatMap]
    rfl
  · intro listener
    rw [Cluster.tasksHeard, Cluster.publishBatch, Cluster.course_publishTasks hn,
      List.filterMap_append, List.filterMap_flatMap]
    simp only [Node.heardBy?_publishing, IndexEvent.task_ofTask]
    rfl

/-- A node that has one document in one language with one file, and somebody who listens. -/
def nodeWithLog : Node :=
  let store := ContentStore.ofList
    [{ reference := ⟨"main", "a", "b", some "en"⟩, attachments := ["c.txt"] }]
  let node := Node.make ⟨1, by decide⟩ {} store none false
  { node with index := node.index.register .remote (.tap "log") }

/-- Requests of which one is for a document that is not stored, and two are for one that is,
in different words. -/
def mixedRequests : List TaskRequest :=
  [{ now := .epoch, kind := .index, target := .document ⟨"main", "a", "z", none⟩ },
    { now := .epoch, kind := .index, target := .document ⟨"main", "a", "b", none⟩,
      context := { quiet := true } },
    { now := .epoch, kind := .delete, target := .document ⟨"main", "a", "b", none⟩ },
    { now := .epoch, kind := .index, target := .attachment ⟨⟨"main", "a", "b", none⟩, "c.txt"⟩,
      explicit := some .high },
    { now := .epoch, kind := .index, target := .document ⟨"main", "a", "b", some "de"⟩,
      context := { quiet := true, rendered := some ⟨"main", "a", "b", none⟩ } }]

/-- A cluster of that node alone. -/
def clusterWithLog : Cluster :=
  { nodes := [some nodeWithLog] }

theorem answers_publishBatch_mixedRequests :
    clusterWithLog.node? 0 = some nodeWithLog ∧
    ∃ tasks, Answers .default
        (ResolvedRequest.ofRequests nodeWithLog.planner.store mixedRequests) tasks ∧
      (clusterWithLog.publishBatch 0
        (nodeWithLog.planner.requestAll mixedRequests)).tasksHeard 0 (.tap "log") = tasks ∧
      ∃ t ∈ tasks, t.key = ("main:a.b.en", .index) ∧ t.quiet = true ∧ .highest ≤ t.priority := by
  have present : clusterWithLog.node? 0 = some nodeWithLog := rfl
  obtain ⟨-, tasks, answers, -, heard⟩ :=
    answers_publishBatch clusterWithLog 0 nodeWithLog present mixedRequests
  have once : nodeWithLog.index.audience.count (.tap "log") = 1 := by decide
  have asked : (("main:a.b.en", .index) : String × TaskKind) ∈ tasks.map (·.key) :=
    (answers.mem_iff _).mpr (by decide)
  obtain ⟨t, ht, key⟩ := List.mem_map.mp asked
  have quiet := (answers.quiet_iff t ht).mpr (by rw [key]; decide)
  refine ⟨present, tasks, answers, ?_, t, ht, key, quiet, ?_⟩
  · rw [heard, once, Cluster.tasksHeard]
    simp only [List.replicate_one, List.flatMap_singleton']
    rfl
  · exact answers.priority_le t ht ⟨mixedRequests[4], .document ⟨"main", "a", "b", some "en"⟩⟩
      (by decide) (by rw [key]; decide)

end SearchIndex
