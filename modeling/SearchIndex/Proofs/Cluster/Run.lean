import SearchIndex.Proofs.Calendar.Timestamp
import SearchIndex.Proofs.Cluster.Course

/-!
# Runs of a cluster

A cluster is made of members that share a link. An `Action` is what somebody does with it
at one moment: a change is reported or a task requested on a node, a listener or a writer
is installed, a node subscribes to the link, a subscription reads one thing, or something
is sent from outside. Actions are one kind of steps of a run (`Step`); another are the moves
that calls are made of.

Whatever is reported or requested on a node comes down to a few kinds of things (`Works`),
and so does what a subscription does when it reads (`Receives`).
-/

namespace SearchIndex

open Calendar (Instant)

/-- What a node of a cluster is made of. -/
structure Member where
  id : NodeId
  settings : QueueSettings
  store : ContentStore
  writer : Option IndexWriter

/-- The name of the channel on which the index events of a member travel. -/
def Member.channel (m : Member) : String :=
  m.settings.indexChannel

/-- The node of a member, on the link. -/
def Member.node (m : Member) : Node :=
  .make m.id m.settings m.store m.writer true

/-- The members of a cluster before anything has happened, on a link of some capacity. -/
def Cluster.ofMembers (capacity : Nat) (members : List Member) : Cluster where
  nodes := members.map fun m => some m.node
  link := some (.ofCapacity capacity)

/-- What somebody does with a cluster. -/
inductive Action where
  | notify (now : Instant) (node : Nat) (event : ContentEvent) (context : RequestContext)
  | convert (now : Instant) (node : Nat) (event : ContentEvent) (context : RequestContext)
  | queueIndex (now : Instant) (node : Nat) (target : EntityRef) (explicit : Option Priority)
      (context : RequestContext)
  | queueDelete (now : Instant) (node : Nat) (target : EntityRef) (explicit : Option Priority)
      (context : RequestContext)
  | dispatch (node : Nat) (batch : TaskBatch)
  | setWriter (node : Nat) (writer : Option IndexWriter)
  | tapIndex (node : Nat) (side : Side) (tag : String)
  | tapContent (node : Nat) (side : Side) (tag : String)
  | spawn (node : Nat)
  | receive (number : Nat)
  | send (envelope : Envelope)

namespace Action

/-- The node that subscribes to the link. -/
def spawned? : Action → Option Nat
  | .spawn node => some node
  | _ => none

/-- The envelope that is sent from outside. -/
def sent? : Action → Option Envelope
  | .send envelope => some envelope
  | _ => none

/-- The instants of what is done are ones that timestamps are kept for. -/
def IsTimely : Action → Prop
  | .notify now _ _ _ | .convert now _ _ _ | .queueIndex now _ _ _ _ | .queueDelete now _ _ _ _ =>
    now.IsKept
  | .dispatch _ batch => ∀ t ∈ batch.tasks, t.queuedAt.IsKept
  | _ => True

end Action

/-- A kind of steps that are taken with a cluster: which node a step subscribes to the link,
which envelope it sends from outside, and whether it is an ordinary one. Ordinary steps deal
in instants that timestamps are kept for, give no envelope to a node except through its
subscription, and let no node leave. -/
class Step (σ : Type) where
  spawned? : σ → Option Nat
  sent? : σ → Option Envelope
  IsOrdinary : σ → Prop

instance : Step Action where
  spawned? := Action.spawned?
  sent? := Action.sent?
  IsOrdinary := Action.IsTimely

/-! ### Plans -/

namespace TaskBatch

/-- A push adds no other instant than its own. -/
theorem forall_queuedAt_push {P : Instant → Prop} {b : TaskBatch} {task : IndexTask}
    (h : ∀ t ∈ b.tasks, P t.queuedAt) (ht : P task.queuedAt) :
    ∀ t ∈ (b.push task).tasks, P t.queuedAt := by
  intro t mem
  rw [push] at mem
  split at mem
  · obtain ⟨s, hs, rfl⟩ := List.mem_map.mp mem
    split <;> exact h s hs
  · rcases List.mem_append.mp mem with old | new
    · exact h t old
    · rw [List.mem_singleton.mp new]
      exact ht

theorem forall_queuedAt_pushAll {P : Instant → Prop} {b : TaskBatch} {tasks : List IndexTask}
    (h : ∀ t ∈ b.tasks, P t.queuedAt) (ht : ∀ t ∈ tasks, P t.queuedAt) :
    ∀ t ∈ (b.pushAll tasks).tasks, P t.queuedAt := by
  induction tasks generalizing b with
  | nil => exact h
  | cons task tasks ih =>
      rw [List.forall_mem_cons] at ht
      exact ih (forall_queuedAt_push h ht.1) ht.2

end TaskBatch

namespace Planner

variable (p : Planner) (now : Instant)

/-- What is planned at an instant is queued at that instant. -/
def PlannedAt (now : Instant) (plan : Plan) : Prop :=
  ∀ t ∈ plan.batch.tasks, t.queuedAt = now

theorem plannedAt_push (kind : TaskKind) (target : EntityRef) (explicit : Option Priority)
    (context : RequestContext) (notices : List QueueNotice) :
    PlannedAt now ⟨({} : TaskBatch).push (p.task now kind target explicit context), notices⟩ :=
  TaskBatch.forall_queuedAt_push (P := (· = now)) (List.forall_mem_nil _) rfl

theorem plannedAt_addIndex (target : EntityRef) (explicit : Option Priority)
    (context : RequestContext) : PlannedAt now (p.addIndex now {} target explicit context) := by
  rw [addIndex]
  split
  · exact p.plannedAt_push now _ _ _ _ _
  · exact List.forall_mem_nil _

theorem plannedAt_addDelete (target : EntityRef) (explicit : Option Priority)
    (context : RequestContext) : PlannedAt now (p.addDelete now {} target explicit context) :=
  p.plannedAt_push now _ _ _ _ _

theorem plannedAt_planDocument (d : DocumentRef) (context : RequestContext) :
    PlannedAt now (p.planDocument now d context) := by
  rw [planDocument]
  split
  · refine TaskBatch.forall_queuedAt_pushAll (P := (· = now)) (List.forall_mem_nil _) ?_
    simp [documentTasks, task]
  · exact List.forall_mem_nil _

theorem plannedAt_planAttachment (a : AttachmentRef) (context : RequestContext) :
    PlannedAt now (p.planAttachment now a context) := by
  rw [planAttachment]
  split
  · exact p.plannedAt_push now _ _ _ _ _
  · exact List.forall_mem_nil _

theorem plannedAt_tasksFor (event : ContentEvent) (context : RequestContext) :
    PlannedAt now (p.tasksFor now event context) := by
  cases event with
  | documentCreated d | documentUpdated d => exact p.plannedAt_planDocument now d context
  | attachmentAdded a | attachmentUpdated a => exact p.plannedAt_planAttachment now a context
  | partitionCreated name => exact p.plannedAt_addIndex now _ _ _
  | documentDeleted | attachmentDeleted | partitionDeleted =>
      exact p.plannedAt_addDelete now _ _ _

end Planner

namespace Cluster

/-- The cluster after something was done with it. -/
def act (c : Cluster) : Action → Cluster
  | .notify now i event context => c.notify now i event context
  | .convert now i event context => c.onContentEvent now i event context
  | .queueIndex now i target explicit context => c.queueIndex now i target explicit context
  | .queueDelete now i target explicit context => c.queueDelete now i target explicit context
  | .dispatch i batch => c.publishBatch i batch
  | .setWriter i writer => c.setWriter i writer
  | .tapIndex i side tag => c.tapIndex i side tag
  | .tapContent i side tag => c.tapContent i side tag
  | .spawn i => (c.spawn i).2
  | .receive number => c.receive number
  | .send envelope => (c.send envelope).2

/-! ### What is reported and requested -/

/-- What comes of a cluster when something is reported or requested on its nodes: there are
notices, listeners hear of changes, and nodes publish events, which were queued at instants
that timestamps are kept for. -/
inductive Works (c : Cluster) : Cluster → Prop where
  | refl : Works c c
  | note {c' : Cluster} (h : Works c c') (notices : List QueueNotice) : Works c (c'.note notices)
  | heard {c' : Cluster} (h : Works c c') (i : Nat) (tag : String) (change : ContentChange) :
      Works c (c'.record (.heard i tag (.change change)))
  | publish {c' : Cluster} (h : Works c c') {i : Nat} {n : Node} (present : c'.node? i = some n)
      {event : IndexEvent} (kept : event.queuedAt.IsKept) : Works c (c'.publishIndex i event)

theorem Works.trans {c c' c'' : Cluster} (h : Works c c') (h' : Works c' c'') : Works c c'' := by
  induction h' with
  | refl => exact h
  | note _ notices ih => exact ih.note notices
  | heard _ i tag change ih => exact ih.heard i tag change
  | publish _ present kept ih => exact ih.publish present kept

theorem works_foldl {α : Type} {f : Cluster → α → Cluster} {items : List α}
    (h : ∀ c, ∀ a ∈ items, Works c (f c a)) (c : Cluster) : Works c (items.foldl f c) := by
  induction items generalizing c with
  | nil => exact .refl
  | cons a items ih =>
      have first := h c a List.mem_cons_self
      exact first.trans (ih (fun c b hb => h c b (List.mem_cons_of_mem a hb)) (f c a))

/-- On a node that has left nothing comes of an event. -/
theorem publishIndex_of_absent {c : Cluster} {i : Nat} (absent : c.node? i = none)
    (event : IndexEvent) : c.publishIndex i event = c := by
  rw [publishIndex, absent]

theorem works_publishIndex (c : Cluster) (i : Nat) {event : IndexEvent}
    (kept : event.queuedAt.IsKept) : Works c (c.publishIndex i event) := by
  cases present : c.node? i with
  | some n => exact Works.refl.publish present kept
  | none =>
      rw [publishIndex_of_absent present]
      exact .refl

theorem works_publishTask (c : Cluster) (i : Nat) {task : IndexTask}
    (kept : task.queuedAt.IsKept) : Works c (c.publishTask i task) :=
  (Works.refl.note [.queueing task]).trans (works_publishIndex _ i kept)

theorem works_publishBatch (c : Cluster) (i : Nat) {batch : TaskBatch}
    (kept : ∀ t ∈ batch.tasks, t.queuedAt.IsKept) : Works c (c.publishBatch i batch) :=
  works_foldl (fun c t ht =>
    works_publishTask c i (kept t ((TaskBatch.ordered_perm batch).mem_iff.mp ht))) c

theorem works_carryOut (c : Cluster) (i : Nat) {plan : Plan}
    (kept : ∀ t ∈ plan.batch.tasks, t.queuedAt.IsKept) : Works c (c.carryOut i plan) :=
  (Works.refl.note plan.notices).trans (works_publishBatch _ i kept)

theorem plannedAt_planFor (c : Cluster) (now : Instant) (i : Nat) (event : ContentEvent)
    (context : RequestContext) : Planner.PlannedAt now (c.planFor now i event context) := by
  rw [planFor]
  split
  · exact List.forall_mem_nil _
  · exact Planner.plannedAt_tasksFor _ now event context

theorem works_onContentEvent (c : Cluster) {now : Instant} (kept : now.IsKept) (i : Nat)
    (event : ContentEvent) (context : RequestContext) :
    Works c (c.onContentEvent now i event context) :=
  works_carryOut c i fun t ht => (c.plannedAt_planFor now i event context t ht).symm ▸ kept

theorem works_notify (c : Cluster) {now : Instant} (kept : now.IsKept) (i : Nat)
    (event : ContentEvent) (context : RequestContext) :
    Works c (c.notify now i event context) := by
  rw [notify]
  split
  · exact .refl
  · refine works_foldl (fun c listener _ => ?_) c
    cases listener with
    | converter => exact works_onContentEvent c kept i event context
    | tap tag => exact Works.refl.heard i tag { event, context }

/-- Whatever is reported or requested at a kept instant comes down to such steps. -/
theorem works_queue (c : Cluster) {now : Instant} (kept : now.IsKept) (i : Nat)
    (target : EntityRef) (explicit : Option Priority) (context : RequestContext) :
    Works c (c.queueIndex now i target explicit context) ∧
      Works c (c.queueDelete now i target explicit context) := by
  rw [queueIndex, queueDelete]
  cases c.node? i with
  | none => exact ⟨.refl, .refl⟩
  | some n =>
      have index := n.planner.plannedAt_addIndex now target explicit context
      have delete := n.planner.plannedAt_addDelete now target explicit context
      exact ⟨works_carryOut c i fun t ht => (index t ht).symm ▸ kept,
        works_carryOut c i fun t ht => (delete t ht).symm ▸ kept⟩

/-! ### What subscriptions read -/

/-- What comes of a cluster when a subscription may read: it has nothing to read or is no
more, or it ends, or it reads one thing and moves on. -/
inductive Receives (c : Cluster) (number : Nat) : Cluster → Prop where
  | idle : Receives c number c
  | ends {link : Link Receiver} {s : Subscription Receiver} (linked : c.link = some link)
      (active : link.active? number = some s)
      (stops : c.endsWith s.owner ((link.readAt s.position).map Prod.fst) = true) :
      Receives c number
        ({ c with link := some (link.cancel number) }.note [.stopped s.owner.channel])
  | reads {link : Link Receiver} {s : Subscription Receiver} {reception : Reception} {next : Nat}
      (linked : c.link = some link) (active : link.active? number = some s)
      (found : link.readAt s.position = some (reception, next)) :
      Receives c number
        ({ c with link := some (link.moveTo number next) }.take s.owner reception)

theorem receives (number : Nat) (c : Cluster) : Receives c number (c.receive number) := by
  rw [receive]
  cases linked : c.link with
  | none => exact .idle
  | some link =>
      cases active : link.active? number with
      | none =>
          simp only [Option.bind_eq_bind, Option.bind_some, active, Option.bind_none]
          exact .idle
      | some s =>
          simp only [Option.bind_eq_bind, Option.bind_some, active]
          split
          · next stops => exact .ends linked active stops
          · cases found : link.readAt s.position with
            | none => exact .idle
            | some read => exact .reads linked active found

end Cluster

end SearchIndex
