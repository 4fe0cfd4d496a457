import SearchIndex.Proofs.Cluster.Accounts

/-!
# Writers concern their own node

What becomes of a task at the writer of a node is counted by the node and reported, and that
is all: the listeners behind the dispatcher hear the event anyway, it is sent on the link
anyway, and the next task of a batch is published anyway. Two clusters are `Alike` but for a
node if they differ at most in its writer, in its counters and in what its writers accepted.
Every move keeps that, also when the clusters do not agree on the writer, and a writer can be
installed or removed in one of them only.

So two runs that differ only in how the writer of one node is installed, and when, and in what
it accepts, look the same from everywhere else (`sameElsewhere_run`).
-/

namespace SearchIndex

/-- A node without its writer and its counters. -/
def Node.bare (n : Node) : Node :=
  { n with writer := none, stats := {} }

@[simp] theorem Node.bare_counted (n : Node) (d : Dispatch) : (n.counted d).bare = n.bare := by
  cases d <;> rfl

namespace Cluster

/-- Two clusters that differ at most in the writer and the counters of a node, in what its
writers have accepted, and in what was reported. -/
structure Alike (a : Nat) (c c' : Cluster) : Prop where
  node : (c.node? a).map Node.bare = (c'.node? a).map Node.bare
  others : ∀ i, i ≠ a → c.node? i = c'.node? i
  link : c.link = c'.link
  held : c.held = c'.held
  course : c.course = c'.course
  applications : ∀ i, i ≠ a → c.applications i = c'.applications i

namespace Alike

variable {a : Nat} {c c' c'' : Cluster}

theorem refl (a : Nat) (c : Cluster) : Alike a c c :=
  ⟨rfl, fun _ _ => rfl, rfl, rfl, rfl, fun _ _ => rfl⟩

theorem symm (h : Alike a c c') : Alike a c' c :=
  ⟨h.node.symm, fun i hi => (h.others i hi).symm, h.link.symm, h.held.symm, h.course.symm,
    fun i hi => (h.applications i hi).symm⟩

theorem trans (h : Alike a c c') (h' : Alike a c' c'') : Alike a c c'' :=
  ⟨h.node.trans h'.node, fun i hi => (h.others i hi).trans (h'.others i hi), h.link.trans h'.link,
    h.held.trans h'.held, h.course.trans h'.course,
    fun i hi => (h.applications i hi).trans (h'.applications i hi)⟩

/-! ### Nodes -/

theorem bare_eq (h : Alike a c c') (i : Nat) :
    (c.node? i).map Node.bare = (c'.node? i).map Node.bare := by
  by_cases here : i = a
  · rw [here]
    exact h.node
  · rw [h.others i here]

/-- A node of one cluster has its like in the other one. -/
theorem exists_node? (h : Alike a c c') {i : Nat} {n : Node} (hn : c.node? i = some n) :
    ∃ n', c'.node? i = some n' ∧ n'.bare = n.bare ∧ (i ≠ a → n' = n) := by
  have same := h.bare_eq i
  rw [hn, Option.map_some] at same
  obtain ⟨n', hn', bare⟩ := Option.map_eq_some_iff.mp same.symm
  refine ⟨n', hn', bare, fun other => ?_⟩
  have equal := h.others i other
  rw [hn, hn'] at equal
  exact (Option.some.inj equal).symm

theorem absent (h : Alike a c c') {i : Nat} (hn : c.node? i = none) : c'.node? i = none := by
  have same := h.bare_eq i
  rw [hn, Option.map_none] at same
  exact Option.map_eq_none_iff.mp same.symm

theorem isNone_node? (h : Alike a c c') (i : Nat) : (c.node? i).isNone = (c'.node? i).isNone := by
  have same := congrArg Option.isNone (h.bare_eq i)
  rwa [Option.isNone_map, Option.isNone_map] at same

/-- Changing a node in both clusters. If it is not the one in which they differ, the change has
to be the same. -/
theorem modify (h : Alike a c c') (i : Nat) {f f' : Node → Node}
    (bare : ∀ n n' : Node, n.bare = n'.bare → (f n).bare = (f' n').bare)
    (same : i ≠ a → f = f') : Alike a (c.modify i f) (c'.modify i f') where
  node := by
    rw [node?_modify, node?_modify]
    by_cases here : i = a
    · rw [if_pos here, if_pos here]
      cases present : c.node? a with
      | none => rw [h.absent present]; rfl
      | some n =>
          obtain ⟨n', hn', like, -⟩ := h.exists_node? present
          rw [hn']
          exact congrArg some (bare n n' like.symm)
    · rw [if_neg here, if_neg here]
      exact h.node
  others j other := by
    rw [node?_modify, node?_modify, h.others j other]
    by_cases here : i = j
    · rw [if_pos here, if_pos here, same (here ▸ other)]
    · rw [if_neg here, if_neg here]
  link := h.link
  held := h.held
  course := h.course
  applications := h.applications

/-- A writer may be installed or removed in one of the clusters only. -/
theorem setWriter (h : Alike a c c') (writer : Option IndexWriter) :
    Alike a (c.setWriter a writer) c' := by
  have node : ((c.setWriter a writer).node? a).map Node.bare = (c.node? a).map Node.bare := by
    rw [Cluster.setWriter, node?_modify, if_pos rfl]
    cases c.node? a <;> rfl
  have others : ∀ i, i ≠ a → (c.setWriter a writer).node? i = c.node? i := by
    intro i other
    rw [Cluster.setWriter, node?_modify, if_neg (Ne.symm other)]
  exact trans ⟨node, others, rfl, rfl, rfl, fun _ _ => rfl⟩ h

theorem leave (h : Alike a c c') (i : Nat) : Alike a (c.leave i) (c'.leave i) where
  node := by
    rw [node?_leave, node?_leave]
    split
    · rfl
    · exact h.node
  others j other := by rw [node?_leave, node?_leave, h.others j other]
  link := h.link
  held := h.held
  course := h.course
  applications := h.applications

/-! ### What happens -/

/-- What is reported makes no difference. -/
theorem note (h : Alike a c c') (notices notices' : List QueueNotice) :
    Alike a (c.note notices) (c'.note notices') where
  node := h.node
  others := h.others
  link := h.link
  held := h.held
  course := by rw [course_note, course_note, h.course]
  applications i other := by rw [applications_note, applications_note, h.applications i other]

theorem record (h : Alike a c c') (o : Occurrence) : Alike a (c.record o) (c'.record o) where
  node := h.node
  others := h.others
  link := h.link
  held := h.held
  course := by
    have same := h.course
    rw [Cluster.course, Cluster.course] at same
    rw [Cluster.course, Cluster.course, Cluster.record, Cluster.record, List.filter_append,
      List.filter_append, same]
  applications i other := by rw [applications_record, applications_record, h.applications i other]

/-- That a writer of the node has accepted a task makes no difference either. -/
theorem applied (a : Nat) (c : Cluster) (task : IndexTask) :
    Alike a (c.record (.applied a task)) c where
  node := rfl
  others _ _ := rfl
  link := rfl
  held := rfl
  course := by
    rw [Cluster.course, Cluster.record, List.filter_append]
    exact List.append_nil _
  applications i other := by
    rw [applications_record, Occurrence.application?, if_neg (Ne.symm other)]
    exact List.append_nil _

theorem relink (h : Alike a c c') (link : Option (Link Receiver)) :
    Alike a { c with link } { c' with link } :=
  ⟨h.node, h.others, rfl, h.held, h.course, h.applications⟩

/-- The dispatcher of a node gets a task. If it is the node in which the clusters differ, they
may also differ in what becomes of the task. -/
theorem dispatchTask (h : Alike a c c') (i : Nat) (task : IndexTask) :
    Alike a (c.dispatchTask i task) (c'.dispatchTask i task) := by
  have ifApplied {c : Cluster} (d : Dispatch) :
      Alike a (if d = .applied then c.record (.applied a task) else c) c := by
    split
    · exact applied a c task
    · exact refl a c
  cases present : c.node? i with
  | none =>
      rw [Cluster.dispatchTask, Cluster.dispatchTask, present, h.absent present]
      exact h
  | some n =>
      obtain ⟨n', hn', -, equal⟩ := h.exists_node? present
      rw [Cluster.dispatchTask, Cluster.dispatchTask, present, hn']
      have handed := h.record (.handed i task)
      by_cases here : i = a
      · subst here
        have counted : Alike i
            ((c.record (.handed i task)).modify i (·.counted (n.dispatch task)))
            ((c'.record (.handed i task)).modify i (·.counted (n'.dispatch task))) :=
          handed.modify i (fun m m' like => by rw [Node.bare_counted, Node.bare_counted, like])
            (fun other => absurd rfl other)
        have noted := counted.note ((n.dispatch task).notices task)
          ((n'.dispatch task).notices task)
        exact (ifApplied _).trans (noted.trans (ifApplied _).symm)
      · rw [equal here]
        have counted := handed.modify i (f := (·.counted (n.dispatch task)))
          (fun m m' like => by rw [Node.bare_counted, Node.bare_counted, like]) (fun _ => rfl)
        have noted := counted.note ((n.dispatch task).notices task) ((n.dispatch task).notices task)
        simp only
        split
        · exact noted.record _
        · exact noted

theorem hearIndex (h : Alike a c c') (i : Nat) (event : IndexEvent) (listener : IndexListener) :
    Alike a (c.hearIndex i event listener) (c'.hearIndex i event listener) := by
  cases listener with
  | dispatcher => exact h.dispatchTask i event.task
  | tap tag => exact h.record _

theorem hearAll (h : Alike a c c') (i : Nat) (event : IndexEvent)
    (listeners : List IndexListener) : Alike a (listeners.foldl (·.hearIndex i event) c)
      (listeners.foldl (·.hearIndex i event) c') := by
  induction listeners generalizing c c' with
  | nil => exact h
  | cons l ls ih => exact ih (h.hearIndex i event l)

theorem broadcast (h : Alike a c c') {n n' : Node} (index : n'.index = n.index)
    (event : IndexEvent) : Alike a (c.broadcast n event) (c'.broadcast n' event) := by
  rw [Cluster.broadcast, Cluster.broadcast, index, ← h.link]
  split
  · exact h
  · exact (h.relink _).note _ _

theorem publishIndex (h : Alike a c c') (i : Nat) (event : IndexEvent) :
    Alike a (c.publishIndex i event) (c'.publishIndex i event) := by
  cases present : c.node? i with
  | none =>
      rw [publishIndex_of_absent present, publishIndex_of_absent (h.absent present)]
      exact h
  | some n =>
      obtain ⟨n', hn', like, -⟩ := h.exists_node? present
      have index : n'.index = n.index := congrArg (·.index) like
      have heard := (h.record (.published i event)).hearAll i event n.index.audience
      rw [Cluster.publishIndex, Cluster.publishIndex, present, hn']
      simp only [index]
      exact heard.broadcast index event

theorem deliverIndex (h : Alike a c c') (i : Nat) (envelope : Envelope) :
    Alike a (c.deliverIndex i envelope).2 (c'.deliverIndex i envelope).2 := by
  cases present : c.node? i with
  | none =>
      rw [Cluster.deliverIndex, Cluster.deliverIndex, present, h.absent present]
      exact h
  | some n =>
      obtain ⟨n', hn', like, -⟩ := h.exists_node? present
      have index : n'.index = n.index := congrArg (·.index) like
      rw [Cluster.deliverIndex, Cluster.deliverIndex, present, hn']
      simp only [index]
      cases n.index.examine envelope with
      | ignored => exact h
      | malformed => exact h.note _ _
      | accepted event => exact (h.record (.delivered i event)).hearAll i event _

theorem spawn (h : Alike a c c') (i : Nat) : Alike a (c.spawn i).2 (c'.spawn i).2 := by
  rw [Cluster.spawn, Cluster.spawn, ← h.link]
  cases present : c.node? i with
  | none =>
      rw [h.absent present]
      exact h
  | some n =>
      obtain ⟨n', hn', like, -⟩ := h.exists_node? present
      have index : n'.index = n.index := congrArg (·.index) like
      rw [hn']
      cases c.link with
      | none => exact h
      | some link =>
          simp only [index]
          by_cases linked : n.index.linked = true
          · simp only [linked, if_true]
            exact h.relink _
          · simp only [linked]
            exact h

theorem send (h : Alike a c c') (envelope : Envelope) :
    Alike a (c.send envelope).2 (c'.send envelope).2 := by
  have same : (if c'.held then c'.link else none) = if c.held then c.link else none := by
    rw [h.link, h.held]
  rw [Cluster.send, Cluster.send, same]
  cases if c.held then c.link else none with
  | none => exact h
  | some link => exact h.relink (some (link.send envelope))

theorem release (h : Alike a c c') : Alike a c.release c'.release :=
  ⟨h.node, h.others, h.link, rfl, h.course, h.applications⟩

end Alike

/-! ### Reading -/

theorem isOpen_iff (c : Cluster) : c.isOpen = true ↔ c.held = true ∨
    ∃ i n, c.node? i = some n ∧ n.index.linked = true := by
  rw [isOpen, Bool.or_eq_true, List.any_eq_true]
  refine or_congr_right ⟨?_, ?_⟩
  · rintro ⟨node, mem, linked⟩
    obtain ⟨i, hi⟩ := List.mem_iff_getElem?.mp mem
    cases node with
    | none => cases linked
    | some n => exact ⟨i, n, by rw [node?, hi, Option.join_some], linked⟩
  · rintro ⟨i, n, hn, linked⟩
    have found : c.nodes[i]? = some (some n) := Option.join_eq_some_iff.mp hn
    exact ⟨some n, List.mem_of_getElem? found, linked⟩

namespace Alike

variable {a : Nat} {c c' : Cluster}

theorem isOpen_of_isOpen (h : Alike a c c') (isOpen : c.isOpen = true) : c'.isOpen = true := by
  rw [isOpen_iff] at isOpen ⊢
  obtain held | ⟨i, n, hn, linked⟩ := isOpen
  · exact .inl (h.held ▸ held)
  · obtain ⟨n', hn', like, -⟩ := h.exists_node? hn
    have index : n'.index = n.index := congrArg (·.index) like
    exact .inr ⟨i, n', hn', index ▸ linked⟩

theorem endsWith_eq (h : Alike a c c') (receiver : Receiver) (found : Option Reception) :
    c.endsWith receiver found = c'.endsWith receiver found := by
  have isOpen : c.isOpen = c'.isOpen :=
    Bool.eq_iff_iff.mpr ⟨h.isOpen_of_isOpen, h.symm.isOpen_of_isOpen⟩
  cases found with
  | none => rw [endsWith, endsWith, isOpen]
  | some reception =>
      cases reception with
      | lagged => rfl
      | received => exact h.isNone_node? receiver.node

theorem take (h : Alike a c c') (receiver : Receiver) (reception : Reception) :
    Alike a (c.take receiver reception) (c'.take receiver reception) := by
  cases reception with
  | lagged => exact h.note _ _
  | received envelope => exact h.deliverIndex receiver.node envelope

theorem receive (h : Alike a c c') (number : Nat) :
    Alike a (c.receive number) (c'.receive number) := by
  rw [Cluster.receive, Cluster.receive, ← h.link]
  cases c.link with
  | none => exact h
  | some link =>
      cases active : link.active? number with
      | none =>
          simp only [Option.bind_eq_bind, Option.bind_some, active, Option.bind_none]
          exact h
      | some s =>
          simp only [Option.bind_eq_bind, Option.bind_some, active]
          rw [← h.endsWith_eq]
          split
          · exact (h.relink _).note _ _
          · cases link.readAt s.position with
            | none => exact h
            | some read => exact (h.relink _).take s.owner read.1

theorem move (h : Alike a c c') (m : Move) : Alike a (c.move m) (c'.move m) := by
  cases m with
  | note notices => exact h.note notices notices
  | heard i tag change => exact h.record _
  | publish i event => exact h.publishIndex i event
  | deliver i envelope => exact h.deliverIndex i envelope
  | spawn i => exact h.spawn i
  | receive number => exact h.receive number
  | send envelope => exact h.send envelope
  | release => exact h.release
  | setWriter i writer =>
      refine h.modify i (fun n n' like => ?_) fun _ => rfl
      exact like
  | tapIndex i side tag =>
      refine h.modify i (fun n n' like => ?_) fun _ => rfl
      have index : n.index = n'.index := congrArg (·.index) like
      rw [index]
      exact congrArg (fun m : Node => { m with index := n'.index.register side (.tap tag) }) like
  | tapContent i side tag =>
      refine h.modify i (fun n n' like => ?_) fun _ => rfl
      have content : n.content = n'.content := congrArg (·.content) like
      rw [content]
      exact congrArg
        (fun m : Node => { m with content := n'.content.register side (.tap tag) }) like

/-- A node plans the same, and has the same listeners for changes, in both clusters. -/
theorem planner_cases (h : Alike a c c') (i : Nat) : c.node? i = none ∧ c'.node? i = none ∨
    ∃ n n', c.node? i = some n ∧ c'.node? i = some n' ∧ n'.planner = n.planner ∧
      n'.content = n.content := by
  cases present : c.node? i with
  | none => exact .inl ⟨rfl, h.absent present⟩
  | some n =>
      obtain ⟨n', hn', like, -⟩ := h.exists_node? present
      exact .inr ⟨n, n', rfl, hn', congrArg (·.planner) like, congrArg (·.content) like⟩

/-- An action has the same moves. -/
theorem moves_eq (h : Alike a c c') (action : Action) : c.moves action = c'.moves action := by
  cases action with
  | notify now i event context =>
      obtain ⟨gone, gone'⟩ | ⟨n, n', hn, hn', planner, content⟩ := h.planner_cases i
      · rw [moves, moves, gone, gone']
      · have each : n'.contentMoves now i = n.contentMoves now i := by
          funext change listener
          cases listener with
          | converter => rw [Node.contentMoves, Node.contentMoves, planner]
          | tap tag => rfl
        rw [moves, moves, hn, hn']
        simp only [content, each]
  | convert now i event context =>
      obtain ⟨gone, gone'⟩ | ⟨n, n', hn, hn', planner, -⟩ := h.planner_cases i
      · rw [moves, moves, planFor, planFor, gone, gone']
      · rw [moves, moves, planFor, planFor, hn, hn']
        simp only [planner]
  | queueIndex now i target explicit context | queueDelete now i target explicit context =>
      obtain ⟨gone, gone'⟩ | ⟨n, n', hn, hn', planner, -⟩ := h.planner_cases i
      · rw [moves, moves, gone, gone']
      · rw [moves, moves, hn, hn']
        simp only [planner]
  | dispatch | setWriter | tapIndex | tapContent | spawn | receive | send => rfl

end Alike

end Cluster

/-! ### Sessions -/

namespace Session

/-- Two sessions with the same calls on clusters that are alike but for a node. -/
structure Alike (a : Nat) (s s' : Session) : Prop where
  cluster : Cluster.Alike a s.cluster s'.cluster
  calls : s.calls = s'.calls

namespace Alike

variable {a : Nat} {s s' s'' : Session}

theorem symm (h : Alike a s s') : Alike a s' s :=
  ⟨h.cluster.symm, h.calls.symm⟩

theorem trans (h : Alike a s s') (h' : Alike a s' s'') : Alike a s s'' :=
  ⟨h.cluster.trans h'.cluster, h.calls.trans h'.calls⟩

theorem tick (h : Alike a s s') (t : Tick) : Alike a (s.tick t) (s'.tick t) := by
  cases t with
  | move m => exact ⟨h.cluster.move m, h.calls⟩
  | call action =>
      refine ⟨h.cluster, ?_⟩
      rw [Session.tick, Session.tick, h.calls, h.cluster.moves_eq action]
  | go number =>
      rw [Session.tick, Session.tick, ← h.calls]
      split
      · next action m todo published _ =>
        have moved := h.cluster.move m
        refine ⟨moved, ?_⟩
        rw [advance, advance, Cluster.publications, Cluster.publications, Cluster.publications,
          Cluster.publications, moved.course, h.cluster.course, h.calls]
      · exact h
  | leave i =>
      have busy : s.isBusy i = s'.isBusy i := by rw [isBusy, isBusy, h.calls]
      rw [Session.tick, Session.tick, ← busy]
      split
      · exact h
      · exact ⟨h.cluster.leave i, h.calls⟩

end Alike

end Session

/-- Whether a tick installs or removes the writer of a node. -/
def Tick.setsWriter (a : Nat) : Tick → Bool
  | .move (.setWriter i _) => i == a
  | _ => false

theorem Tick.exists_of_setsWriter {a : Nat} {t : Tick} (h : t.setsWriter a = true) :
    ∃ writer, t = .move (.setWriter a writer) := by
  cases t with
  | move m =>
      cases m with
      | setWriter i writer => exact ⟨writer, by rw [beq_iff_eq.mp h]⟩
      | _ => cases h
  | _ => cases h

namespace Session

variable {a : Nat} {s s' : Session}

/-- The ticks that install or remove the writer of a node can be left out. -/
theorem alike_run_filter (h : Alike a s s') (ticks : List Tick) :
    Alike a (s.run ticks) (s'.run (ticks.filter (!·.setsWriter a))) := by
  induction ticks generalizing s s' with
  | nil => exact h
  | cons t ticks ih =>
      cases sets : t.setsWriter a with
      | false =>
          rw [List.filter_cons_of_pos (by simp [sets])]
          exact ih (h.tick t)
      | true =>
          obtain ⟨writer, rfl⟩ := Tick.exists_of_setsWriter sets
          rw [List.filter_cons_of_neg (by simp [sets])]
          exact ih ⟨h.cluster.setWriter writer, h.calls⟩

/-- Two sessions that look the same from everywhere but a node: all dispatchers and all other
listeners got the same tasks in the same order, the other nodes counted the same and their
writers accepted the same, the same envelopes are on the link, and all calls have been answered
in the same way. -/
structure SameElsewhere (a : Nat) (s s' : Session) : Prop where
  heard : ∀ i listener, s.cluster.tasksHeard i listener = s'.cluster.tasksHeard i listener
  stats : ∀ i, i ≠ a → (s.cluster.node? i).map (·.stats) = (s'.cluster.node? i).map (·.stats)
  applications : ∀ i, i ≠ a → s.cluster.applications i = s'.cluster.applications i
  link : s.cluster.link = s'.cluster.link
  answers : s.calls.map Call.answer? = s'.calls.map Call.answer?

/-- Two runs of a cluster that differ only in the writer that a node has to begin with, and in
when another one is installed or none, look the same from everywhere else. -/
theorem sameElsewhere_run {ticks ticks' : List Tick}
    (same : ticks.filter (!·.setsWriter a) = ticks'.filter (!·.setsWriter a)) (c : Cluster)
    (writer writer' : Option IndexWriter) :
    SameElsewhere a (run ⟨c.setWriter a writer, []⟩ ticks)
      (run ⟨c.setWriter a writer', []⟩ ticks') := by
  have start (writer : Option IndexWriter) : Alike a ⟨c.setWriter a writer, []⟩ ⟨c, []⟩ :=
    ⟨(Cluster.Alike.refl a c).setWriter writer, rfl⟩
  have first := alike_run_filter (start writer) ticks
  have second := alike_run_filter (start writer') ticks'
  rw [← same] at second
  have alike := first.trans second.symm
  constructor
  case heard =>
    intro i listener
    rw [Cluster.tasksHeard, Cluster.tasksHeard, alike.cluster.course]
  case stats =>
    intro i other
    rw [alike.cluster.others i other]
  case applications => exact alike.cluster.applications
  case link => exact alike.cluster.link
  case answers => rw [alike.calls]

/-- A node turns the end of a partition into a task, and may get a writer before it publishes
the task. -/
def lateWriter (writers : List Tick) : List Tick :=
  [.move (.spawn 1), .call (.convert .epoch 0 (.partitionDeleted "a") {}), .go 0, .go 0] ++
    writers ++ [.go 0]

theorem sameElsewhere_run_lateWriter :
    let start := Cluster.ofMembers 4
      [⟨⟨2, by decide⟩, {}, .ofList [], none⟩, ⟨⟨3, by decide⟩, {}, .ofList [], none⟩]
    let installed := run ⟨start.setWriter 0 none, []⟩
      (lateWriter [.move (.setWriter 0 (some deletingWriter))])
    let missing := run ⟨start.setWriter 0 none, []⟩ (lateWriter [])
    (installed.cluster.node? 0).map (·.stats) = some ⟨1, 0, 0⟩ ∧
      (missing.cluster.node? 0).map (·.stats) = some ⟨0, 1, 0⟩ ∧
      installed.calls.map Call.answer? = [some (.count 1)] ∧ SameElsewhere 0 installed missing := by
  intro start installed missing
  have same : (lateWriter [.move (.setWriter 0 (some deletingWriter))]).filter (!·.setsWriter 0) =
      (lateWriter []).filter (!·.setsWriter 0) := rfl
  have stats : (installed.cluster.node? 0).map (·.stats) = some ⟨1, 0, 0⟩ ∧
      (missing.cluster.node? 0).map (·.stats) = some ⟨0, 1, 0⟩ ∧
      installed.calls.map Call.answer? = [some (.count 1)] := by
    decide +kernel
  exact ⟨stats.1, stats.2.1, stats.2.2, sameElsewhere_run same start none none⟩

end Session

end SearchIndex
