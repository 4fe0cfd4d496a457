import SearchIndex.Cluster

/-!
# The course of a cluster

Of what happens in a cluster the `course` keeps what its parts tell each other: which
events a node publishes or accepts, and who hears them. What a node reports, and what
becomes of a task at its writer, is left out. Publishing a task adds to the course that
the event is published and that each listener of the node hears it, in their order; it
puts the event on the link and changes nothing else, except for the counters of the node.
Reading an envelope adds that the event is accepted and that each remote listener hears it,
or nothing at all if it is none of the node's business; it puts nothing on the link.
-/

namespace SearchIndex

/-- Whether an occurrence belongs to the course. -/
def Occurrence.isShared : Occurrence → Bool
  | .noted _ | .applied _ _ => false
  | _ => true

/-- What it means for a listener of the index channel of a node to hear an event. -/
def IndexListener.hears (i : Nat) (event : IndexEvent) : IndexListener → Occurrence
  | .dispatcher => .handed i event.task
  | .tap tag => .heard i tag (.task event.task)

/-- A node without its counters. -/
def Node.uncounted (n : Node) : Node :=
  { n with stats := {} }

@[simp] theorem Node.uncounted_counted (n : Node) (d : Dispatch) :
    (n.counted d).uncounted = n.uncounted := by
  cases d <;> rfl

/-- What a node adds to the course when it publishes an event. -/
def Node.publishing (n : Node) (i : Nat) (event : IndexEvent) : List Occurrence :=
  .published i event :: n.index.audience.map (·.hears i event)

/-- What a node adds to the course when it accepts an event of another node. -/
def Node.receiving (n : Node) (i : Nat) (event : IndexEvent) : List Occurrence :=
  .delivered i event :: n.index.remoteListeners.map (·.hears i event)

/-- The event of an envelope that a channel accepts. -/
def Channel.accepted? {ε τ : Type} [Wire ε] (c : Channel ε τ) (envelope : Envelope) : Option ε :=
  match c.examine envelope with
  | .accepted event => some event
  | _ => none

theorem Channel.accepted?_eq {ε τ : Type} [Wire ε] (c : Channel ε τ) (envelope : Envelope) :
    c.accepted? envelope =
      if envelope.channel ≠ c.name ∨ envelope.origin = c.origin then none
      else Wire.read? envelope.payload := by
  rw [accepted?, examine]
  by_cases foreign : envelope.channel ≠ c.name ∨ envelope.origin = c.origin
  case pos => rw [if_pos foreign, if_pos foreign]
  case neg =>
    rw [if_neg foreign, if_neg foreign]
    cases Wire.read? (α := ε) envelope.payload <;> rfl

namespace Cluster

/-- What the parts of a cluster told each other, in order. -/
def course (c : Cluster) : List Occurrence :=
  c.trace.filter (·.isShared)

/-- The nodes without their counters. -/
def layout (c : Cluster) : List (Option Node) :=
  c.nodes.map (·.map Node.uncounted)

@[simp] theorem course_note (c : Cluster) (notices : List QueueNotice) :
    (c.note notices).course = c.course := by
  have none : (notices.map Occurrence.noted).filter (·.isShared) = [] := by
    simp [List.filter_map, Function.comp_def, Occurrence.isShared]
  rw [course, note, List.filter_append, none, List.append_nil, course]

theorem course_record (c : Cluster) {o : Occurrence} (h : o.isShared = true) :
    (c.record o).course = c.course ++ [o] := by
  rw [course, record, List.filter_append, List.filter_cons_of_pos h, course]
  rfl

theorem layout_modify (c : Cluster) (i : Nat) {f : Node → Node}
    (h : ∀ n, (f n).uncounted = n.uncounted) : (c.modify i f).layout = c.layout := by
  have same : Option.map Node.uncounted ∘ Option.map f = Option.map Node.uncounted := by
    funext n
    cases n <;> simp [h]
  apply List.ext_getElem?
  intro j
  rw [layout, layout, modify, List.getElem?_map, List.getElem?_map, List.getElem?_modify]
  split
  · rw [Option.map_eq_map, Option.map_map]
    exact congrArg (Option.map · _) same
  · simp

theorem node?_eq (c : Cluster) (i : Nat) :
    (c.node? i).map Node.uncounted = c.layout[i]?.join := by
  rw [node?, layout, List.getElem?_map]
  cases c.nodes[i]? <;> rfl

/-- Nodes are told from each other by the layout, apart from their counters. -/
theorem exists_node?_of_layout_eq {c c' : Cluster} (h : c'.layout = c.layout) {i : Nat} {n : Node}
    (hn : c.node? i = some n) : ∃ n', c'.node? i = some n' ∧ n'.uncounted = n.uncounted := by
  have same := node?_eq c' i
  rw [h, ← node?_eq, hn, Option.map_some] at same
  exact Option.map_eq_some_iff.mp same

/-- One cluster comes from another by some occurrences that neither put anything on the
link nor change a node, except for its counters. -/
structure Adds (occurrences : List Occurrence) (c c' : Cluster) : Prop where
  layout : c'.layout = c.layout
  link : c'.link = c.link
  held : c'.held = c.held
  course : c'.course = c.course ++ occurrences

theorem Adds.refl (c : Cluster) : Adds [] c c :=
  ⟨rfl, rfl, rfl, (List.append_nil _).symm⟩

theorem Adds.trans {os os' : List Occurrence} {c c' c'' : Cluster} (h : Adds os c c')
    (h' : Adds os' c' c'') : Adds (os ++ os') c c'' where
  layout := h'.layout.trans h.layout
  link := h'.link.trans h.link
  held := h'.held.trans h.held
  course := by rw [h'.course, h.course, List.append_assoc]

theorem adds_note (c : Cluster) (notices : List QueueNotice) : Adds [] c (c.note notices) :=
  ⟨rfl, rfl, rfl, by rw [course_note, List.append_nil]⟩

theorem adds_record (c : Cluster) {o : Occurrence} (h : o.isShared = true) :
    Adds [o] c (c.record o) :=
  ⟨rfl, rfl, rfl, course_record c h⟩

theorem adds_counted (c : Cluster) (i : Nat) (d : Dispatch) :
    Adds [] c (c.modify i (·.counted d)) :=
  ⟨layout_modify c i fun n => n.uncounted_counted d, rfl, rfl, (List.append_nil _).symm⟩

theorem adds_applied (c : Cluster) (i : Nat) (task : IndexTask) (d : Dispatch) :
    Adds [] c (if d = .applied then c.record (.applied i task) else c) := by
  split
  · refine ⟨rfl, rfl, rfl, ?_⟩
    rw [course, record, List.filter_append]
    rfl
  · exact .refl c

theorem adds_hearIndex {c : Cluster} {i : Nat} (present : (c.node? i).isSome = true)
    (event : IndexEvent) (listener : IndexListener) :
    Adds [listener.hears i event] c (c.hearIndex i event listener) := by
  cases listener with
  | tap tag => exact adds_record c rfl
  | dispatcher =>
      obtain ⟨n, hn⟩ := Option.isSome_iff_exists.mp present
      rw [hearIndex, dispatchTask, hn]
      have handed : Adds [.handed i event.task] c (c.record (.handed i event.task)) :=
        adds_record c rfl
      exact ((handed.trans (adds_counted _ i _)).trans (adds_note _ _)).trans
        (adds_applied _ i event.task _)

theorem Adds.isSome_node? {os : List Occurrence} {c c' : Cluster} (h : Adds os c c') {i : Nat}
    (present : (c.node? i).isSome = true) : (c'.node? i).isSome = true := by
  obtain ⟨n, hn⟩ := Option.isSome_iff_exists.mp present
  obtain ⟨n', hn', -⟩ := exists_node?_of_layout_eq h.layout hn
  rw [hn', Option.isSome_some]

theorem adds_hearAll {c : Cluster} {i : Nat} (present : (c.node? i).isSome = true)
    (event : IndexEvent) (listeners : List IndexListener) :
    Adds (listeners.map (·.hears i event)) c (listeners.foldl (·.hearIndex i event) c) := by
  induction listeners generalizing c with
  | nil => exact .refl c
  | cons l ls ih =>
      have first := adds_hearIndex present event l
      exact first.trans (ih (first.isSome_node? present))

theorem adds_deliverIndex {c : Cluster} {i : Nat} {n : Node} (hn : c.node? i = some n)
    (envelope : Envelope) : Adds ((n.index.accepted? envelope).elim [] (n.receiving i)) c
      (c.deliverIndex i envelope).2 := by
  rw [deliverIndex, hn, Channel.accepted?]
  cases examined : n.index.examine envelope with
  | ignored =>
      simp only [examined]
      exact .refl c
  | malformed =>
      simp only [examined]
      exact adds_note c _
  | accepted event =>
      have accepted : Adds [.delivered i event] c (c.record (.delivered i event)) :=
        adds_record c rfl
      have here : ((c.record (.delivered i event)).node? i).isSome := Option.isSome_of_mem hn
      simp only [examined]
      exact accepted.trans (adds_hearAll here event n.index.remoteListeners)

/-- What publishing a task on a node does: it adds to the course, and puts the event on
the link if the node uses it. -/
structure Publishes (n : Node) (i : Nat) (task : IndexTask) (c c' : Cluster) : Prop where
  layout : c'.layout = c.layout
  link : c'.link =
    c.link.map fun link =>
      if n.index.linked then link.send (n.index.envelope (.ofTask task)) else link
  held : c'.held = c.held
  course : c'.course = c.course ++ n.publishing i (.ofTask task)

theorem Adds.publishes {n : Node} {i : Nat} {task : IndexTask} {c c' : Cluster}
    (h : Adds (n.publishing i (.ofTask task)) c c') :
    Publishes n i task c (c'.broadcast n (.ofTask task)) := by
  rw [broadcast, h.link]
  cases linked : n.index.linked with
  | false =>
      refine ⟨h.layout, ?_, h.held, h.course⟩
      rw [linked]
      cases link : c.link <;> exact h.link.trans link
  | true =>
      cases link : c.link with
      | none => exact ⟨h.layout, (h.link.trans link).trans (by rw [link]; rfl), h.held, h.course⟩
      | some l =>
          refine ⟨h.layout, ?_, h.held, ?_⟩
          · rw [link, linked]
            rfl
          · exact (course_note _ _).trans h.course

theorem publishes_publishIndex {c : Cluster} {i : Nat} {n : Node} (hn : c.node? i = some n)
    (event : IndexEvent) : Publishes n i event.task c (c.publishIndex i event) := by
  have published : Adds [.published i event] c (c.record (.published i event)) :=
    adds_record c rfl
  have here : ((c.record (.published i event)).node? i).isSome := Option.isSome_of_mem hn
  have heard : Adds (n.publishing i (.ofTask event.task)) c
      (n.index.audience.foldl (·.hearIndex i event) (c.record (.published i event))) :=
    published.trans (adds_hearAll here event n.index.audience)
  rw [publishIndex, hn]
  exact heard.publishes

theorem publishes_publishTask {c : Cluster} {i : Nat} {n : Node} (hn : c.node? i = some n)
    (task : IndexTask) : Publishes n i task c (c.publishTask i task) := by
  have present : (c.note [.queueing task]).node? i = some n := hn
  obtain ⟨layout, link, held, course⟩ := publishes_publishIndex present (.ofTask task)
  exact ⟨layout, link, held, by rwa [course_note] at course⟩

theorem Publishes.exists_node? {n : Node} {i : Nat} {task : IndexTask} {c c' : Cluster}
    (h : Publishes n i task c c') {j : Nat} {m : Node} (hm : c.node? j = some m) :
    ∃ m', c'.node? j = some m' ∧ m'.index = m.index := by
  obtain ⟨m', hm', same⟩ := exists_node?_of_layout_eq h.layout hm
  exact ⟨m', hm', congrArg (·.index) same⟩

/-- Publishing tasks one after the other adds what each of them adds. -/
theorem course_publishTasks {c : Cluster} {i : Nat} {n : Node} (hn : c.node? i = some n)
    (tasks : List IndexTask) : (tasks.foldl (·.publishTask i ·) c).course =
      c.course ++ tasks.flatMap fun t => n.publishing i (.ofTask t) := by
  induction tasks generalizing c n with
  | nil => exact (List.append_nil _).symm
  | cons t ts ih =>
      have first := publishes_publishTask hn t
      obtain ⟨n', hn', index⟩ := first.exists_node? hn
      have same : n'.publishing i = n.publishing i := by
        funext event
        rw [Node.publishing, Node.publishing, index]
      rw [List.foldl_cons, ih hn', first.course, same, List.append_assoc, List.flatMap_cons]

end Cluster

/-- The event that is published in an occurrence, and the node that publishes it. -/
def Occurrence.publication? : Occurrence → Option (Nat × IndexEvent)
  | .published i event => some (i, event)
  | _ => none

/-- The event of another node that a node accepts in an occurrence. -/
def Occurrence.delivery? (i : Nat) : Occurrence → Option IndexEvent
  | .delivered j event => if j = i then some event else none
  | _ => none

/-- The task that a listener of the index channel of a node hears of in an occurrence. -/
def Occurrence.heardBy? (i : Nat) (listener : IndexListener) : Occurrence → Option IndexTask
  | .handed j task => if j = i ∧ listener = .dispatcher then some task else none
  | .heard j tag (.task task) => if j = i ∧ listener = .tap tag then some task else none
  | _ => none

namespace Cluster

/-- The index events that nodes have published, in order. -/
def publications (c : Cluster) : List (Nat × IndexEvent) :=
  c.course.filterMap Occurrence.publication?

/-- The events of other nodes that a node has accepted, in order. -/
def deliveries (c : Cluster) (i : Nat) : List IndexEvent :=
  c.course.filterMap (Occurrence.delivery? i)

/-- The tasks that a listener of the index channel of a node has heard of, in order. -/
def tasksHeard (c : Cluster) (i : Nat) (listener : IndexListener) : List IndexTask :=
  c.course.filterMap (Occurrence.heardBy? i listener)

end Cluster

@[simp] theorem IndexListener.publication?_hears (listener : IndexListener) (i : Nat)
    (event : IndexEvent) : (listener.hears i event).publication? = none := by
  cases listener <;> rfl

@[simp] theorem IndexListener.delivery?_hears (listener : IndexListener) (i j : Nat)
    (event : IndexEvent) : (listener.hears i event).delivery? j = none := by
  cases listener <;> rfl

/-- A listener hears what it hears, and no other listener does. -/
theorem IndexListener.heardBy?_hears (listener other : IndexListener) (i j : Nat)
    (event : IndexEvent) : (listener.hears i event).heardBy? j other =
      if i = j ∧ other = listener then some event.task else none := by
  cases listener <;> rfl

theorem filterMap_hears (i : Nat) (event : IndexEvent) (listener : IndexListener)
    (listeners : List IndexListener) :
    (listeners.map (·.hears i event)).filterMap (Occurrence.heardBy? i listener) =
      List.replicate (listeners.count listener) event.task := by
  induction listeners with
  | nil => rfl
  | cons l ls ih =>
      rw [List.map_cons, List.filterMap_cons, IndexListener.heardBy?_hears, ih, List.count_cons]
      by_cases same : listener = l
      · rw [if_pos ⟨rfl, same⟩, if_pos (beq_iff_eq.mpr same.symm), List.replicate_succ]
      · rw [if_neg fun eq => same eq.2, if_neg fun eq => same (beq_iff_eq.mp eq).symm, Nat.add_zero]

/-- Nobody else hears it. -/
theorem filterMap_hears_of_ne {i j : Nat} (other : i ≠ j) (event : IndexEvent)
    (listener : IndexListener) (listeners : List IndexListener) :
    (listeners.map (·.hears i event)).filterMap (Occurrence.heardBy? j listener) = [] := by
  rw [List.filterMap_map, List.filterMap_eq_nil_iff]
  intro l _
  rw [Function.comp_apply, IndexListener.heardBy?_hears, if_neg fun same => other same.1]

namespace Node

theorem publication?_publishing (n : Node) (i : Nat) (event : IndexEvent) :
    (n.publishing i event).filterMap Occurrence.publication? = [(i, event)] := by
  have heard : (n.index.audience.map (·.hears i event)).filterMap Occurrence.publication? = [] := by
    rw [List.filterMap_map, List.filterMap_eq_nil_iff]
    exact fun l _ => l.publication?_hears i event
  rw [publishing, List.filterMap_cons, heard]
  rfl

theorem delivery?_publishing (n : Node) (i j : Nat) (event : IndexEvent) :
    (n.publishing i event).filterMap (Occurrence.delivery? j) = [] := by
  rw [publishing, List.filterMap_cons, List.filterMap_map]
  exact List.filterMap_eq_nil_iff.mpr fun l _ => l.delivery?_hears i j event

theorem publication?_receiving (n : Node) (i : Nat) (event : IndexEvent) :
    (n.receiving i event).filterMap Occurrence.publication? = [] := by
  rw [receiving, List.filterMap_cons, List.filterMap_map]
  exact List.filterMap_eq_nil_iff.mpr fun l _ => l.publication?_hears i event

theorem delivery?_receiving (n : Node) (i j : Nat) (event : IndexEvent) :
    (n.receiving i event).filterMap (Occurrence.delivery? j) = if i = j then [event] else [] := by
  have heard : (n.index.remoteListeners.map (·.hears i event)).filterMap
      (Occurrence.delivery? j) = [] := by
    rw [List.filterMap_map, List.filterMap_eq_nil_iff]
    exact fun l _ => l.delivery?_hears i j event
  rw [receiving, List.filterMap_cons, heard, Occurrence.delivery?]
  by_cases same : i = j <;> simp [same]

/-- Each listener hears an event as often as it is registered. -/
theorem heardBy?_publishing (n : Node) (i : Nat) (event : IndexEvent) (listener : IndexListener) :
    (n.publishing i event).filterMap (Occurrence.heardBy? i listener) =
      List.replicate (n.index.audience.count listener) event.task :=
  filterMap_hears i event listener n.index.audience

theorem heardBy?_publishing_of_ne (n : Node) {i j : Nat} (other : i ≠ j) (event : IndexEvent)
    (listener : IndexListener) :
    (n.publishing i event).filterMap (Occurrence.heardBy? j listener) = [] :=
  filterMap_hears_of_ne other event listener n.index.audience

theorem heardBy?_receiving (n : Node) (i : Nat) (event : IndexEvent) (listener : IndexListener) :
    (n.receiving i event).filterMap (Occurrence.heardBy? i listener) =
      List.replicate (n.index.remoteListeners.count listener) event.task :=
  filterMap_hears i event listener n.index.remoteListeners

theorem heardBy?_receiving_of_ne (n : Node) {i j : Nat} (other : i ≠ j) (event : IndexEvent)
    (listener : IndexListener) :
    (n.receiving i event).filterMap (Occurrence.heardBy? j listener) = [] :=
  filterMap_hears_of_ne other event listener n.index.remoteListeners

end Node

end SearchIndex
