import SearchIndex.Proofs.Cluster.Run

/-!
# What a run keeps

A cluster is `Staffed` by its members if each of them has its node and there are no other
nodes: whatever is done with it, a node keeps its channel, its identity and its dispatcher.
`Goes` says what an ordinary step may do to a cluster, so that a property of clusters is kept
by all runs if it is kept by each of these few kinds of steps (`keeps_run`). That holds of any
kind of steps that are known to do no more than that (`Acts`).

The first such property is that the dispatcher of a node gets the tasks of the events that
the node publishes or accepts, when it does, and no others (`dispatched_run`).
-/

namespace SearchIndex

/-- A node does what it should for a member: it is on the link by the name and the identity
of the member, and its dispatcher hears everything once. -/
structure Node.Serves (n : Node) (m : Member) : Prop where
  name : n.index.name = m.channel
  origin : n.index.origin = m.id
  linked : n.index.linked = true
  localCount : n.index.localListeners.count .dispatcher = 0
  remoteCount : n.index.remoteListeners.count .dispatcher = 1

theorem Member.serves_node (m : Member) : m.node.Serves m :=
  ⟨rfl, rfl, rfl, rfl, rfl⟩

namespace Occurrence

/-- The task that the dispatcher of a node should get in an occurrence: that of an event
which the node publishes or accepts. -/
def taskAt? (i : Nat) : Occurrence → Option IndexTask
  | .published j event | .delivered j event => if j = i then some event.task else none
  | _ => none

/-- An occurrence that is about content only. -/
inductive IsAside : Occurrence → Prop where
  | heard (i : Nat) (tag : String) (change : ContentChange) :
      IsAside (.heard i tag (.change change))

/-- What is about content only has nothing to do with index events. -/
theorem IsAside.filterMap_eq_nil {os : List Occurrence} (h : ∀ o ∈ os, o.IsAside) (i : Nat) :
    os.filterMap publication? = [] ∧ os.filterMap (delivery? i) = [] ∧
      os.filterMap (heardBy? i .dispatcher) = [] ∧ os.filterMap (taskAt? i) = [] := by
  have none : ∀ o ∈ os, o.publication? = none ∧ o.delivery? i = none ∧
      o.heardBy? i .dispatcher = none ∧ o.taskAt? i = none := by
    intro o ho
    cases h o ho
    exact ⟨rfl, rfl, rfl, rfl⟩
  simp only [List.filterMap_eq_nil_iff]
  exact ⟨fun o ho => (none o ho).1, fun o ho => (none o ho).2.1, fun o ho => (none o ho).2.2.1,
    fun o ho => (none o ho).2.2.2⟩

theorem filterMap_taskAt?_hears (i j : Nat) (event : IndexEvent) (listeners : List IndexListener) :
    (listeners.map (·.hears i event)).filterMap (taskAt? j) = [] := by
  rw [List.filterMap_map, List.filterMap_eq_nil_iff]
  intro listener _
  cases listener <;> rfl

end Occurrence

namespace Node

theorem taskAt?_publishing (n : Node) (i j : Nat) (event : IndexEvent) :
    (n.publishing i event).filterMap (Occurrence.taskAt? j) =
      if i = j then [event.task] else [] := by
  rw [publishing, List.filterMap_cons, Occurrence.filterMap_taskAt?_hears, Occurrence.taskAt?]
  by_cases same : i = j <;> simp [same]

theorem taskAt?_receiving (n : Node) (i j : Nat) (event : IndexEvent) :
    (n.receiving i event).filterMap (Occurrence.taskAt? j) =
      if i = j then [event.task] else [] := by
  rw [receiving, List.filterMap_cons, Occurrence.filterMap_taskAt?_hears, Occurrence.taskAt?]
  by_cases same : i = j <;> simp [same]

theorem Serves.of_index_eq {n n' : Node} {m : Member} (h : n.Serves m)
    (index : n'.index = n.index) : n'.Serves m := by
  obtain ⟨name, origin, linked, localCount, remoteCount⟩ := h
  constructor <;> rw [index] <;> assumption

theorem Serves.count_audience {n : Node} {m : Member} (h : n.Serves m) :
    n.index.audience.count .dispatcher = 1 := by
  rw [Channel.audience, List.count_append, h.localCount, h.remoteCount]

/-- A further listener does not make it another node. -/
theorem Serves.register {n : Node} {m : Member} (h : n.Serves m) (side : Side) (tag : String) :
    Node.Serves { n with index := n.index.register side (.tap tag) } m := by
  cases side with
  | localOnly => exact { h with localCount := by simp [Channel.register, h.localCount] }
  | remote => exact { h with remoteCount := by simp [Channel.register, h.remoteCount] }

end Node

namespace Cluster

/-- The nodes of a cluster are those of some members, which share a link. -/
structure Staffed (members : List Member) (c : Cluster) : Prop where
  node : ∀ i m, members[i]? = some m → ∃ n, c.node? i = some n ∧ n.Serves m
  member : ∀ i n, c.node? i = some n → ∃ m, members[i]? = some m ∧ n.Serves m
  linked : c.link.isSome = true

variable {members : List Member} {c c' : Cluster}

theorem staffed_ofMembers (capacity : Nat) (members : List Member) :
    Staffed members (ofMembers capacity members) := by
  have nodes (i : Nat) : (ofMembers capacity members).node? i = members[i]?.map (·.node) := by
    rw [node?, ofMembers, List.getElem?_map]
    cases members[i]? <;> rfl
  constructor
  case node =>
    intro i m hm
    exact ⟨m.node, by rw [nodes, hm, Option.map_some], m.serves_node⟩
  case member =>
    intro i n hn
    rw [nodes] at hn
    obtain ⟨m, hm, rfl⟩ := Option.map_eq_some_iff.mp hn
    exact ⟨m, hm, m.serves_node⟩
  case linked => rfl

theorem Staffed.of_layout_eq (h : Staffed members c) (layout : c'.layout = c.layout)
    (linked : c'.link.isSome = true) : Staffed members c' := by
  constructor
  case node =>
    intro i m hm
    obtain ⟨n, hn, serves⟩ := h.node i m hm
    obtain ⟨n', hn', same⟩ := exists_node?_of_layout_eq layout hn
    exact ⟨n', hn', serves.of_index_eq (congrArg (·.index) same)⟩
  case member =>
    intro i n' hn'
    obtain ⟨n, hn, same⟩ := exists_node?_of_layout_eq layout.symm hn'
    obtain ⟨m, hm, serves⟩ := h.member i n hn
    exact ⟨m, hm, serves.of_index_eq (congrArg (·.index) same).symm⟩
  case linked => exact linked

theorem Staffed.adds (h : Staffed members c) {os : List Occurrence} (adds : Adds os c c') :
    Staffed members c' :=
  h.of_layout_eq adds.layout (adds.link ▸ h.linked)

theorem Staffed.publishes (h : Staffed members c) {n : Node} {i : Nat} {task : IndexTask}
    (publishes : Publishes n i task c c') : Staffed members c' :=
  h.of_layout_eq publishes.layout (by
    rw [publishes.link, Option.isSome_map]
    exact h.linked)

theorem node?_modify (c : Cluster) (i j : Nat) (f : Node → Node) :
    (c.modify i f).node? j = if i = j then (c.node? j).map f else c.node? j := by
  rw [node?, modify, List.getElem?_modify, node?]
  split
  · cases c.nodes[j]? <;> rfl
  · simp

theorem Staffed.modify (h : Staffed members c) (i : Nat) {f : Node → Node}
    (serves : ∀ n m, n.Serves m → (f n).Serves m) : Staffed members (c.modify i f) := by
  constructor
  case node =>
    intro j m hm
    obtain ⟨n, hn, here⟩ := h.node j m hm
    rw [node?_modify, hn]
    split
    · exact ⟨f n, rfl, serves n m here⟩
    · exact ⟨n, rfl, here⟩
  case member =>
    intro j n' hn'
    rw [node?_modify] at hn'
    split at hn'
    · obtain ⟨n, hn, rfl⟩ := Option.map_eq_some_iff.mp hn'
      obtain ⟨m, hm, here⟩ := h.member j n hn
      exact ⟨m, hm, serves n m here⟩
    · exact h.member j n' hn'
  case linked => exact h.linked

/-! ### Steps -/

/-- What an ordinary step may do to a cluster, by the node that it subscribes and the envelope
that it sends from outside: something is reported or requested, a node is changed but goes on
serving its member, a node subscribes, a subscription may read, an envelope is sent from
outside, or the link is let go of there; or nothing happens. -/
inductive Goes (c : Cluster) (spawned? : Option Nat) (sent? : Option Envelope) :
    Cluster → Prop where
  | idle : Goes c spawned? sent? c
  | works {c' : Cluster} (works : Works c c') : Goes c spawned? sent? c'
  | changes (i : Nat) {f : Node → Node} (serves : ∀ n m, n.Serves m → (f n).Serves m) :
      Goes c spawned? sent? (c.modify i f)
  | subscribes {i : Nat} {n : Node} {link : Link Receiver} (spawned : spawned? = some i)
      (present : c.node? i = some n) (linked : c.link = some link) :
      Goes c spawned? sent? { c with link := some (link.subscribe ⟨i, n.index.name⟩) }
  | receives {c' : Cluster} {number : Nat} (receives : Receives c number c') :
      Goes c spawned? sent? c'
  | sends {envelope : Envelope} {link : Link Receiver} (sent : sent? = some envelope)
      (linked : c.link = some link) :
      Goes c spawned? sent? { c with link := some (link.send envelope) }
  | releases : Goes c spawned? sent? c.release

/-- A kind of steps with what they do to a cluster: an ordinary one does what `Goes` says, and
one that subscribes a node does just that. -/
class Acts (σ : Type) extends Step σ where
  act : Cluster → σ → Cluster
  goes : ∀ (c : Cluster) {s : σ}, IsOrdinary s → Goes c (spawned? s) (sent? s) (act c s)
  act_of_spawned? : ∀ (c : Cluster) {s : σ} {i : Nat}, spawned? s = some i →
    act c s = (c.spawn i).2

section Steps

variable {spawned? : Option Nat} {sent? : Option Envelope}

theorem goes_setWriter (c : Cluster) (i : Nat) (writer : Option IndexWriter) :
    Goes c spawned? sent? (c.setWriter i writer) :=
  .changes i fun _ _ h => h.of_index_eq rfl

theorem goes_tapIndex (c : Cluster) (i : Nat) (side : Side) (tag : String) :
    Goes c spawned? sent? (c.tapIndex i side tag) :=
  .changes i fun _ _ h => h.register side tag

theorem goes_tapContent (c : Cluster) (i : Nat) (side : Side) (tag : String) :
    Goes c spawned? sent? (c.tapContent i side tag) :=
  .changes i fun _ _ h => h.of_index_eq rfl

theorem goes_spawn (c : Cluster) (i : Nat) : Goes c (some i) sent? (c.spawn i).2 := by
  rw [spawn]
  split
  · next n link present linked =>
    split
    · exact .subscribes rfl present linked
    · exact .idle
  · exact .idle

theorem goes_send (c : Cluster) (envelope : Envelope) :
    Goes c spawned? (some envelope) (c.send envelope).2 := by
  rw [send]
  split
  · exact .idle
  · next link found =>
    split at found
    · exact .sends rfl found
    · cases found

end Steps

theorem goes_act (c : Cluster) {a : Action} (timely : a.IsTimely) :
    Goes c a.spawned? a.sent? (c.act a) := by
  cases a with
  | notify now i event context => exact .works (works_notify c timely i event context)
  | convert now i event context => exact .works (works_onContentEvent c timely i event context)
  | queueIndex now i target explicit context =>
      exact .works (works_queue c timely i target explicit context).1
  | queueDelete now i target explicit context =>
      exact .works (works_queue c timely i target explicit context).2
  | dispatch i batch => exact .works (works_publishBatch c i timely)
  | setWriter i writer => exact goes_setWriter c i writer
  | tapIndex i side tag => exact goes_tapIndex c i side tag
  | tapContent i side tag => exact goes_tapContent c i side tag
  | spawn i => exact goes_spawn c i
  | receive number => exact .receives (receives number c)
  | send envelope => exact goes_send c envelope

instance : Acts Action where
  act := act
  goes := goes_act
  act_of_spawned? c a i spawned := by
    cases a <;> cases spawned
    rfl

theorem Works.staffed (h : Works c c') (staffed : Staffed members c) : Staffed members c' := by
  induction h with
  | refl => exact staffed
  | note _ notices ih => exact ih.adds (adds_note _ notices)
  | heard _ i tag change ih => exact ih.adds (adds_record _ rfl)
  | publish _ present kept ih => exact ih.publishes (publishes_publishIndex present _)

/-- What is kept when content listeners hear something and when nodes publish events is kept
by all that is reported and requested. -/
theorem Works.keeps {P : Cluster → Prop} (h : Works c c') (staffed : Staffed members c)
    (aside : ∀ {c c' : Cluster} {os : List Occurrence}, (∀ o ∈ os, o.IsAside) → Adds os c c' →
      P c → P c')
    (publish : ∀ {c c' : Cluster} {i : Nat} {n : Node} {m : Member} {task : IndexTask},
      members[i]? = some m → n.Serves m → task.queuedAt.IsKept → Publishes n i task c c' →
      P c → P c') (start : P c) : P c' := by
  induction h with
  | refl => exact start
  | note _ notices ih => exact aside (by simp) (adds_note _ notices) ih
  | heard _ i tag change ih =>
      exact aside (List.forall_mem_singleton.mpr (.heard i tag change)) (adds_record _ rfl) ih
  | publish works present kept ih =>
      obtain ⟨m, hm, serves⟩ := (works.staffed staffed).member _ _ present
      exact publish hm serves kept (publishes_publishIndex present _) ih

/-- What a subscription adds to the course when it reads: what its node does with an
envelope that it accepts. -/
def taking (c : Cluster) (receiver : Receiver) : Reception → List Occurrence
  | .lagged _ => []
  | .received envelope => (c.node? receiver.node).elim [] fun n =>
      (n.index.accepted? envelope).elim [] (n.receiving receiver.node)

/-- Either a subscription adds nothing, or its node accepts the event of an envelope. -/
theorem taking_cases (c : Cluster) (receiver : Receiver) (reception : Reception) :
    c.taking receiver reception = [] ∨ ∃ n envelope event, c.node? receiver.node = some n ∧
      reception = .received envelope ∧ n.index.accepted? envelope = some event ∧
      c.taking receiver reception = n.receiving receiver.node event := by
  cases reception with
  | lagged => exact .inl rfl
  | received envelope =>
      rw [taking]
      cases present : c.node? receiver.node with
      | none => exact .inl rfl
      | some n =>
          cases accepted : n.index.accepted? envelope with
          | none => exact .inl (by rw [Option.elim_some, accepted]; rfl)
          | some event =>
              refine .inr ⟨n, envelope, event, rfl, rfl, accepted, ?_⟩
              rw [Option.elim_some, accepted, Option.elim_some]

theorem adds_take (c : Cluster) (receiver : Receiver) (reception : Reception) :
    Adds (c.taking receiver reception) c (c.take receiver reception) := by
  cases reception with
  | lagged missed => exact adds_note c _
  | received envelope =>
      rw [taking, take]
      cases present : c.node? receiver.node with
      | none =>
          rw [deliverIndex, present]
          exact .refl c
      | some n => exact adds_deliverIndex present envelope

theorem Receives.staffed {number : Nat} (h : Receives c number c') (staffed : Staffed members c) :
    Staffed members c' := by
  cases h with
  | idle => exact staffed
  | ends linked active stops =>
      exact staffed.of_layout_eq rfl rfl
  | @reads link s reception next linked active found =>
      have moved : Staffed members { c with link := some (link.moveTo number next) } :=
        staffed.of_layout_eq rfl rfl
      exact moved.adds (adds_take _ s.owner reception)

theorem Goes.staffed {spawned? : Option Nat} {sent? : Option Envelope}
    (h : Goes c spawned? sent? c') (staffed : Staffed members c) : Staffed members c' := by
  cases h with
  | idle => exact staffed
  | works works => exact works.staffed staffed
  | changes i serves => exact staffed.modify i serves
  | subscribes | sends => exact staffed.of_layout_eq rfl rfl
  | releases => exact staffed.of_layout_eq rfl staffed.linked
  | receives receives => exact receives.staffed staffed

/-! ### Runs -/

section Runs

variable {σ : Type} [Acts σ]

/-- The cluster after a run. -/
def run (c : Cluster) (steps : List σ) : Cluster :=
  steps.foldl Acts.act c

theorem run_append (c : Cluster) (first second : List σ) :
    c.run (first ++ second) = (c.run first).run second :=
  List.foldl_append

theorem run_concat (c : Cluster) (steps : List σ) (s : σ) :
    c.run (steps ++ [s]) = Acts.act (c.run steps) s :=
  c.run_append steps [s]

/-- What is kept by every step of a run is kept by the run. -/
theorem keeps_run {P : Cluster → Prop} {steps : List σ}
    (ordinary : ∀ s ∈ steps, Step.IsOrdinary s)
    (step : ∀ {c c' : Cluster} {s : σ}, s ∈ steps → Staffed members c →
      Goes c (Step.spawned? s) (Step.sent? s) c' → P c → P c')
    (staffed : Staffed members c) (start : P c) :
    Staffed members (c.run steps) ∧ P (c.run steps) := by
  induction steps generalizing c with
  | nil => exact ⟨staffed, start⟩
  | cons s steps ih =>
      rw [List.forall_mem_cons] at ordinary
      have goes := Acts.goes c ordinary.1
      exact ih ordinary.2 (fun hs => step (List.mem_cons_of_mem s hs)) (goes.staffed staffed)
        (step List.mem_cons_self staffed goes start)

end Runs

/-! ### The dispatcher -/

/-- Index events come from members, and the dispatcher of a node gets the tasks of those
events that the node publishes or accepts. -/
structure Dispatched (members : List Member) (c : Cluster) : Prop where
  publisher : ∀ p ∈ c.publications, p.1 < members.length
  tasks : ∀ i, c.tasksHeard i .dispatcher = c.course.filterMap (Occurrence.taskAt? i)

namespace Dispatched

variable {os : List Occurrence}

theorem of_course_eq (h : Dispatched members c) (course : c'.course = c.course) :
    Dispatched members c' := by
  obtain ⟨publisher, tasks⟩ := h
  constructor
  · rwa [publications, course]
  · intro i
    have here := tasks i
    rwa [tasksHeard, course]

theorem append (h : Dispatched members c) (course : c'.course = c.course ++ os)
    (publisher : ∀ p ∈ os.filterMap Occurrence.publication?, p.1 < members.length)
    (tasks : ∀ i, os.filterMap (Occurrence.heardBy? i .dispatcher) =
      os.filterMap (Occurrence.taskAt? i)) : Dispatched members c' := by
  constructor
  · rw [publications, course, List.filterMap_append, List.forall_mem_append]
    exact ⟨h.publisher, publisher⟩
  · intro i
    have here := h.tasks i
    rw [tasksHeard] at here
    rw [tasksHeard, course, List.filterMap_append, List.filterMap_append, here, tasks i]

theorem aside (aside : ∀ o ∈ os, o.IsAside) (adds : Adds os c c') (h : Dispatched members c) :
    Dispatched members c' := by
  refine h.append adds.course ?_ fun i => ?_
  · rw [(Occurrence.IsAside.filterMap_eq_nil aside 0).1]
    exact List.forall_mem_nil _
  · obtain ⟨-, -, heard, tasks⟩ := Occurrence.IsAside.filterMap_eq_nil aside i
    rw [heard, tasks]

theorem publishes {i : Nat} {n : Node} {m : Member} {task : IndexTask}
    (hm : members[i]? = some m) (serves : n.Serves m) (publishes : Publishes n i task c c')
    (h : Dispatched members c) : Dispatched members c' := by
  refine h.append publishes.course ?_ fun j => ?_
  · rw [Node.publication?_publishing]
    intro p hp
    rw [List.mem_singleton.mp hp]
    exact (List.getElem?_eq_some_iff.mp hm).1
  · rw [Node.taskAt?_publishing]
    by_cases same : i = j
    · subst same
      rw [Node.heardBy?_publishing, serves.count_audience, if_pos rfl]
      rfl
    · rw [Node.heardBy?_publishing_of_ne n same, if_neg same]

theorem takes {receiver : Receiver} {reception : Reception} (staffed : Staffed members c)
    (h : Dispatched members c) : Dispatched members (c.take receiver reception) := by
  have adds := adds_take c receiver reception
  rcases c.taking_cases receiver reception with
    none | ⟨n, envelope, event, present, -, -, accepts⟩
  case inl => exact h.aside (by simp) (none ▸ adds)
  case inr =>
    obtain ⟨m, hm, serves⟩ := staffed.member _ _ present
    refine h.append (accepts ▸ adds.course) ?_ fun j => ?_
    · rw [Node.publication?_receiving]
      simp
    · rw [Node.taskAt?_receiving]
      by_cases same : receiver.node = j
      · subst same
        rw [Node.heardBy?_receiving, serves.remoteCount, if_pos rfl]
        rfl
      · rw [Node.heardBy?_receiving_of_ne n same, if_neg same]

theorem goes {spawned? : Option Nat} {sent? : Option Envelope} (staffed : Staffed members c)
    (goes : Goes c spawned? sent? c') (h : Dispatched members c) : Dispatched members c' := by
  cases goes with
  | idle => exact h
  | works works => exact works.keeps staffed aside (fun hm serves _ => publishes hm serves) h
  | changes | subscribes | sends | releases => exact h.of_course_eq rfl
  | receives receives =>
      cases receives with
      | idle => exact h
      | ends => exact h.of_course_eq (course_note _ _)
      | reads => exact takes (staffed.of_layout_eq rfl rfl) (h.of_course_eq rfl)

end Dispatched

/-- The dispatcher of a node gets the tasks of the events that the node publishes or accepts,
when it does, and no others. -/
theorem dispatched_run {σ : Type} [Acts σ] {steps : List σ}
    (ordinary : ∀ s ∈ steps, Step.IsOrdinary s) (capacity : Nat) (members : List Member) :
    Dispatched members ((ofMembers capacity members).run steps) := by
  refine (keeps_run ordinary (fun _ => Dispatched.goes) (staffed_ofMembers capacity members) ?_).2
  exact ⟨List.forall_mem_nil _, fun _ => rfl⟩

end Cluster

end SearchIndex
