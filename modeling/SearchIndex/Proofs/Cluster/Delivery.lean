import Mathlib.Data.List.Induction
import Mathlib.Data.List.Infix
import Mathlib.Data.List.Nodup
import SearchIndex.Proofs.Cluster.Subscription

/-!
# What reaches a node

A node that has subscribed to the link accepts a part of the index events that its peers
publish from then on, in their order and none of them twice; and all of them if it never
lags and there is nothing left to read. Their order is that of the link. What is its own, what
is of another channel and what is no event reaches nobody, and reading sends nothing. If all
nodes use one channel name, a node that has subscribed before the first event and has missed
nothing has got each task once, from itself or from another node.

The steps of a run may be of any kind (`Cluster.Acts`), whole actions as well as the moves that
calls are made of.
-/

namespace SearchIndex

/-- A run like those that nodes are made for: they have different identities, each
subscribes at most once, the steps are ordinary, and what is sent from outside says nothing to
any of the nodes. -/
structure Regular {σ : Type} [Step σ] (members : List Member) (steps : List σ) : Prop where
  ids : (members.map (·.id)).Nodup
  once : (steps.filterMap Step.spawned?).Nodup
  ordinary : ∀ s ∈ steps, Step.IsOrdinary s
  stray : ∀ s ∈ steps, ∀ envelope, Step.sent? s = some envelope → envelope.IsStray members

/-- A node that subscribes has not done so before and does not do so again. -/
theorem Regular.spawned?_ne {σ : Type} [Step σ] {members : List Member} {before after : List σ}
    {s : σ} {i : Nat} (h : Regular members (before ++ s :: after))
    (spawned : Step.spawned? s = some i) :
    ∀ s' ∈ before ++ after, Step.spawned? s' ≠ some i := by
  have once := h.once
  rw [List.filterMap_append, List.filterMap_cons_some spawned, List.nodup_middle,
    ← List.filterMap_append, List.nodup_cons] at once
  exact fun s' hs' same => once.1 (List.mem_filterMap.mpr ⟨s', hs', same⟩)

namespace Cluster

variable {σ : Type} [Acts σ] {members : List Member} {steps before after : List σ} {s : σ} {i : Nat}
  {m : Member} {c : Cluster}

/-- The events that the peers of a node publish in a run after a beginning of it. -/
def eventsAfter (members : List Member) (i : Nat) (c : Cluster) (before steps : List σ) :
    List IndexEvent :=
  eventsFor members i ((c.run steps).publications.drop (c.run before).publications.length)

/-- What is sent on the link in a run after a beginning of it, in order. -/
def sentAfter (c : Cluster) (before steps : List σ) : List Envelope :=
  (c.run steps).sent.drop (c.run before).sent.length

/-- The subscription of a node never falls behind what the link keeps. -/
def NeverLags (c : Cluster) (steps : List σ) (i : Nat) : Prop :=
  ∀ first, first <+: steps → ¬(c.run first).Lags i

instance (c : Cluster) (steps : List σ) (i : Nat) : Decidable (NeverLags c steps i) :=
  decidable_of_iff (∀ first ∈ steps.inits, ¬(c.run first).Lags i) (by
    simp only [List.mem_inits, NeverLags])

theorem staffed_run (staffed : Staffed members c) (ordinary : ∀ s ∈ steps, Step.IsOrdinary s) :
    Staffed members (c.run steps) :=
  (keeps_run (P := fun _ => True) ordinary (fun _ _ _ _ => trivial) staffed trivial).1

theorem unsubscribed_run (staffed : Staffed members c) (ordinary : ∀ s ∈ steps, Step.IsOrdinary s)
    (never : ∀ s ∈ steps, Step.spawned? s ≠ some i) (start : Unsubscribed i c) :
    Unsubscribed i (c.run steps) :=
  (keeps_run ordinary (fun hs staffed goes h => h.goes staffed goes (never _ hs)) staffed start).2

theorem unsubscribed_ofMembers (capacity : Nat) (members : List Member) (i : Nat) :
    Unsubscribed i (ofMembers capacity members) where
  owners := by
    intro link hl owner howner
    obtain rfl := Option.some.inj hl
    cases howner
  deliveries := rfl

/-- When a node subscribes, it has passed nothing, and nothing is waiting for it. -/
theorem exists_reads_spawn (staffed : Staffed members c) (hm : members[i]? = some m)
    (start : Unsubscribed i c) (whole : Prop) : ∃ p, Reads members i m c whole p (c.spawn i).2 := by
  obtain ⟨n, hn, serves⟩ := staffed.node i m hm
  obtain ⟨link, linked⟩ := Option.isSome_iff_exists.mp staffed.linked
  have spawned : (c.spawn i).2 = { c with link := some (link.subscribe ⟨i, m.channel⟩) } := by
    simp only [spawn, hn, linked, serves.linked, serves.name, if_true]
  have sent : c.sent = link.sent := by rw [Cluster.sent, linked, Option.elim_some]
  rw [spawned]
  constructor
  case w => exact ⟨link.subscribe ⟨i, m.channel⟩, link.subscriptions.length, [], [], []⟩
  case h =>
    constructor
    case link => rfl
    case sent => exact sent ▸ (List.append_nil _).symm
    case here => exact sent ▸ List.getElem?_concat_length
    case only =>
      intro k owner there same
      rw [Link.owners_subscribe, List.getElem?_append] at there
      split at there
      · exact absurd same (start.owners link linked owner (List.mem_of_getElem? there))
      · next past =>
        have last := (List.getElem?_eq_some_iff.mp there).1
        rw [Link.owners, List.length_map] at past last
        exact Nat.le_antisymm (Nat.le_of_sub_eq_zero (Nat.lt_one_iff.mp last))
          (Nat.le_of_not_lt past)
    case publications => exact (List.append_nil _).symm
    case accepted => rfl
    case sublist => exact (show deliveries _ i = [] from start.deliveries) ▸ List.nil_sublist _
    case whole => exact fun _ => start.deliveries

/-- What is said of a subscription stays true in a run. -/
theorem exists_reads_run (ids : (members.map (·.id)).Nodup) (hm : members[i]? = some m)
    (staffed : Staffed members c) (ordinary : ∀ s ∈ steps, Step.IsOrdinary s)
    (once : ∀ s ∈ steps, Step.spawned? s ≠ some i)
    (stray : ∀ s ∈ steps, ∀ envelope, Step.sent? s = some envelope → envelope.IsStray members)
    {old : Cluster} {p : Progress} (start : Reads members i m old True p c) :
    ∃ p', Reads members i m old (NeverLags c steps i) p' (c.run steps) := by
  -- From the end, since never lagging is about the beginnings of the run.
  induction steps using List.reverseRecOn with
  | nil => exact ⟨p, start.mono fun _ => trivial⟩
  | append_singleton steps s ih =>
      rw [List.forall_mem_append] at ordinary once stray
      obtain ⟨p', h⟩ := ih ordinary.1 once.1 stray.1
      have last : s ∈ [s] := List.mem_singleton_self s
      obtain ⟨p'', h'⟩ := h.goes ids hm (staffed_run staffed ordinary.1)
        (Acts.goes _ (ordinary.2 s last)) (once.2 s last) (stray.2 s last)
      rw [run_concat]
      refine ⟨p'', h'.mono fun never => ⟨?_, never steps (List.prefix_append _ _)⟩⟩
      exact fun first part => never first (part.trans (List.prefix_append _ _))

namespace Reads

variable {old : Cluster} {whole : Prop} {p : Progress}

theorem publications_drop (h : Reads members i m old whole p c) :
    c.publications.drop old.publications.length = p.events := by
  rw [h.publications, List.drop_left]

/-- What has been sent for a node since it subscribed is what its peers have published. -/
theorem sent_drop (h : Reads members i m old whole p c) :
    (c.sent.drop old.sent.length).filterMap m.accepted? =
      eventsFor members i (c.publications.drop old.publications.length) := by
  have since : c.sent.drop old.sent.length = p.passed ++ p.waiting := by
    have now : c.sent = p.link.sent := by rw [Cluster.sent, h.link, Option.elim_some]
    rw [now, h.sent, List.drop_left]
  rw [h.publications_drop, ← h.accepted, since]

/-- What a node has accepted since it subscribed is a part of what its peers have published. -/
theorem deliveries_sublist (h : Reads members i m old whole p c) : (c.deliveries i).Sublist
    (eventsFor members i (c.publications.drop old.publications.length)) := by
  rw [h.publications_drop, ← h.accepted, List.filterMap_append]
  exact h.sublist.trans (List.sublist_append_left _ _)

/-- The subscription stands behind everything that was sent if there is nothing left to read. -/
theorem waiting_eq_nil (h : Reads members i m old whole p c) (drained : c.Drained i) :
    p.waiting = [] := by
  have nothing : p.link.readAt (old.sent.length + p.passed.length) = none :=
    drained p.link h.link _ (List.mem_of_getElem? h.here) rfl
  rw [Link.readAt] at nothing
  split at nothing
  · cases nothing
  · have past := List.getElem?_eq_none_iff.mp (Option.map_eq_none_iff.mp nothing)
    rw [h.sent, List.length_append, List.length_append] at past
    exact List.eq_nil_of_length_eq_zero (by omega)

theorem deliveries_eq (h : Reads members i m old whole p c) (all : whole) (drained : c.Drained i) :
    c.deliveries i = eventsFor members i (c.publications.drop old.publications.length) := by
  rw [h.publications_drop, ← h.accepted, h.waiting_eq_nil drained, List.append_nil]
  exact h.whole all

end Reads

/-- What a node accepts that subscribes in a run after a beginning of it. -/
structure Accepts (members : List Member) (i : Nat) (m : Member) (c : Cluster)
    (before steps : List σ) : Prop where
  /-- What is sent for the node from then on is what its peers publish from then on: on the link
  it stands in the order in which it was published. -/
  order : (sentAfter c before steps).filterMap m.accepted? = eventsAfter members i c before steps
  /-- The node accepts a part of that, in order. -/
  sublist : ((c.run steps).deliveries i).Sublist (eventsAfter members i c before steps)
  /-- If it never lags and has read all there is, it accepts all of it. -/
  complete : NeverLags c steps i → (c.run steps).Drained i →
    (c.run steps).deliveries i = eventsAfter members i c before steps

theorem accepts_run (capacity : Nat) (regular : Regular members steps) (hm : members[i]? = some m)
    (split : steps = before ++ s :: after) (spawned : Step.spawned? s = some i) :
    Accepts members i m (ofMembers capacity members) before steps := by
  subst split
  have never := regular.spawned?_ne spawned
  have ordinary := regular.ordinary
  have stray := regular.stray
  rw [List.forall_mem_append] at never ordinary stray
  rw [List.forall_mem_cons] at ordinary stray
  have staffed := staffed_run (staffed_ofMembers capacity members) ordinary.1
  have silent := unsubscribed_run (staffed_ofMembers capacity members) ordinary.1 never.1
    (unsubscribed_ofMembers capacity members i)
  obtain ⟨p, start⟩ := exists_reads_spawn staffed hm silent True
  rw [← Acts.act_of_spawned? _ spawned] at start
  obtain ⟨p', h⟩ := exists_reads_run regular.ids hm ((Acts.goes _ ordinary.2.1).staffed staffed)
    ordinary.2.2 never.2 stray.2.2 start
  have here : (ofMembers capacity members).run (before ++ s :: after) =
      (Acts.act ((ofMembers capacity members).run before) s).run after :=
    run_append _ before (s :: after)
  constructor
  case order =>
    rw [sentAfter, eventsAfter, here]
    exact h.sent_drop
  case sublist =>
    rw [eventsAfter, here]
    exact h.deliveries_sublist
  case complete =>
    intro neverLags drained
    rw [here] at drained
    rw [eventsAfter, here]
    refine h.deliveries_eq (fun first part => ?_) drained
    have lags := neverLags (before ++ s :: first)
      ((List.prefix_append_right_inj _).mpr (List.cons_prefix_cons.mpr ⟨rfl, part⟩))
    rwa [run_append] at lags

/-- A node that does not subscribe accepts nothing. -/
theorem deliveries_eq_nil (capacity : Nat) (regular : Regular members steps)
    (never : ∀ s ∈ steps, Step.spawned? s ≠ some i) :
    ((ofMembers capacity members).run steps).deliveries i = [] :=
  (unsubscribed_run (staffed_ofMembers capacity members) regular.ordinary never
    (unsubscribed_ofMembers capacity members i)).deliveries

/-- What a node accepts, a peer has published after the node subscribed. -/
theorem exists_mem_publications (capacity : Nat) (regular : Regular members steps)
    (hm : members[i]? = some m) {event : IndexEvent}
    (accepted : event ∈ ((ofMembers capacity members).run steps).deliveries i) :
    ∃ j m', members[j]? = some m' ∧ j ≠ i ∧ m'.channel = m.channel ∧
      (j, event) ∈ ((ofMembers capacity members).run steps).publications := by
  by_cases spawned : ∃ s ∈ steps, Step.spawned? s = some i
  case neg =>
    rw [deliveries_eq_nil capacity regular fun s hs same => spawned ⟨s, hs, same⟩] at accepted
    cases accepted
  case pos =>
    obtain ⟨s, hs, spawned⟩ := spawned
    obtain ⟨before, after, split⟩ := List.append_of_mem hs
    have part := (accepts_run capacity regular hm split spawned).sublist.mem accepted
    obtain ⟨⟨j, _⟩, published, rfl⟩ := List.mem_map.mp part
    obtain ⟨since, peer⟩ := List.mem_filter.mp published
    rw [isPeer, hm, Bool.and_eq_true, bne_iff_ne, beq_iff_eq] at peer
    obtain ⟨m', hm', channel⟩ := Option.map_eq_some_iff.mp peer.2
    exact ⟨j, m', hm', peer.1, channel, List.mem_of_mem_drop since⟩

/-! ### What reaches listeners -/

/-- Reading sends nothing. -/
theorem Receives.sent_eq {c' : Cluster} {number : Nat} (h : Receives c number c') :
    c'.link.map (·.sent) = c.link.map (·.sent) := by
  cases h with
  | idle => rfl
  | ends linked =>
      rw [linked]
      rfl
  | @reads link s reception next linked active found =>
      rw [(adds_take _ s.owner reception).link, linked]
      rfl

/-- An envelope that a member does not accept reaches none of the listeners of its node. -/
theorem course_deliverIndex (staffed : Staffed members c) (hm : members[i]? = some m)
    {envelope : Envelope} (other : m.accepted? envelope = none) :
    (c.deliverIndex i envelope).2.course = c.course := by
  obtain ⟨n, hn, serves⟩ := staffed.node i m hm
  rw [(adds_deliverIndex hn envelope).course, serves.accepted?_eq, other]
  exact List.append_nil _

/-- The dispatcher of a node gets the task of an event when the node publishes it. -/
theorem Dispatched.mem_tasksHeard (h : Dispatched members c) {j : Nat} {event : IndexEvent}
    (published : (j, event) ∈ c.publications) : event.task ∈ c.tasksHeard j .dispatcher := by
  obtain ⟨o, ho, eq⟩ := List.mem_filterMap.mp published
  rw [h.tasks j]
  refine List.mem_filterMap.mpr ⟨o, ho, ?_⟩
  cases o <;> cases eq
  exact if_pos rfl

/-- The tasks that the dispatcher of a node should get are those of what the node publishes
and those of what it accepts. -/
theorem filterMap_taskAt?_perm (os : List Occurrence) (i : Nat) :
    (os.filterMap (Occurrence.taskAt? i)).Perm
      (((os.filterMap Occurrence.publication?).filter (·.1 == i)).map (·.2.task) ++
        (os.filterMap (Occurrence.delivery? i)).map (·.task)) := by
  induction os with
  | nil => exact .nil
  | cons o os ih =>
      rw [List.filterMap_cons, List.filterMap_cons, List.filterMap_cons]
      cases o with
      | published j event =>
          by_cases same : j = i <;>
            simpa [Occurrence.taskAt?, Occurrence.publication?, Occurrence.delivery?, same] using ih
      | delivered j event =>
          by_cases same : j = i
          case pos =>
            simpa [Occurrence.taskAt?, Occurrence.publication?, Occurrence.delivery?, same] using
              (ih.cons event.task).trans List.perm_middle.symm
          case neg =>
            simpa [Occurrence.taskAt?, Occurrence.publication?, Occurrence.delivery?, same] using ih
      | handed | applied | heard | noted => exact ih

/-- If all members use one channel name, the others are all peers. -/
theorem isPeer_eq (hm : members[i]? = some m) (shared : ∀ m' ∈ members, m'.channel = m.channel)
    {j : Nat} (hj : j < members.length) : isPeer members i j = !(j == i) := by
  have same := shared members[j] (List.getElem_mem hj)
  rw [isPeer, hm, List.getElem?_eq_getElem hj, Option.map_some, Option.map_some, same]
  simp [bne]

/-- A node that accepts all that is published on other nodes gets each task once. -/
theorem Dispatched.perm_tasksHeard (h : Dispatched members c) (hm : members[i]? = some m)
    (shared : ∀ m' ∈ members, m'.channel = m.channel)
    (all : c.deliveries i = eventsFor members i c.publications) :
    (c.tasksHeard i .dispatcher).Perm (c.publications.map (·.2.task)) := by
  have others : c.publications.filter (fun p => isPeer members i p.1) =
      c.publications.filter fun p => !(p.1 == i) :=
    List.filter_congr fun p hp => isPeer_eq hm shared (h.publisher p hp)
  have parts := filterMap_taskAt?_perm c.course i
  rw [← h.tasks i, ← publications, ← deliveries, all, eventsFor, others, List.map_map] at parts
  refine parts.trans ?_
  have whole := (List.filter_append_perm (·.1 == i) c.publications).map (·.2.task)
  rwa [List.map_append] at whole

/-! ### Runs -/

/-- How index events are delivered in a run. -/
structure Delivers (members : List Member) (start : Cluster) (steps : List σ) : Prop where
  /-- Handling what was received sends nothing. -/
  silent : ∀ number,
    ((start.run steps).receive number).link.map (·.sent) = (start.run steps).link.map (·.sent)
  /-- What is of another channel, is a node's own or holds no event reaches no listener. -/
  unheard : ∀ i m, members[i]? = some m → ∀ envelope : Envelope,
    (envelope.channel ≠ m.channel ∨ envelope.origin = m.id ∨
      Wire.read? (α := IndexEvent) envelope.payload = none) →
    ((start.run steps).deliverIndex i envelope).2.course = (start.run steps).course
  /-- A dispatcher gets the task of each event that its node publishes or accepts, at once. -/
  dispatched : ∀ i, (start.run steps).tasksHeard i .dispatcher =
    (start.run steps).course.filterMap (Occurrence.taskAt? i)
  /-- A node that does not subscribe accepts nothing. -/
  unsubscribed : ∀ i, (∀ s ∈ steps, Step.spawned? s ≠ some i) → (start.run steps).deliveries i = []
  /-- A node that subscribes accepts what its peers publish from then on, in the order of the
  link, as far as it reads it. -/
  accepts : ∀ i m before s after, members[i]? = some m → steps = before ++ s :: after →
    Step.spawned? s = some i → Accepts members i m start before steps
  /-- What a node accepts, another node with the same channel name has published, and the
  dispatcher there has got the same task. -/
  origin : ∀ i m, members[i]? = some m → ∀ event ∈ (start.run steps).deliveries i,
    ∃ j m', members[j]? = some m' ∧ j ≠ i ∧ m'.channel = m.channel ∧
      (j, event) ∈ (start.run steps).publications ∧
      event.task ∈ (start.run steps).tasksHeard j .dispatcher
  /-- If all use one channel name, a node that has subscribed before the first event, never
  lags and has read all there is has got the task of each event once. -/
  shared : ∀ i m before s after, members[i]? = some m → steps = before ++ s :: after →
    Step.spawned? s = some i → NeverLags start steps i → (start.run steps).Drained i →
    (∀ m' ∈ members, m'.channel = m.channel) → (start.run before).publications = [] →
    ((start.run steps).tasksHeard i .dispatcher).Perm
      ((start.run steps).publications.map (·.2.task))

/-- In every run index events reach the nodes they are for, and nothing else does. -/
theorem delivers_of_regular (capacity : Nat) (regular : Regular members steps) :
    Delivers members (ofMembers capacity members) steps := by
  have staffed := staffed_run (staffed_ofMembers capacity members) regular.ordinary
  have dispatched := dispatched_run regular.ordinary capacity members
  constructor
  case silent => exact fun number => (receives number _).sent_eq
  case unheard =>
    intro i m hm envelope other
    exact course_deliverIndex staffed hm (Member.accepted?_eq_none_iff.mpr other)
  case dispatched => exact dispatched.tasks
  case unsubscribed => exact fun i => deliveries_eq_nil capacity regular
  case accepts =>
    exact fun i m before s after hm split spawned => accepts_run capacity regular hm split spawned
  case origin =>
    intro i m hm event accepted
    obtain ⟨j, m', hm', other, channel, published⟩ :=
      exists_mem_publications capacity regular hm accepted
    exact ⟨j, m', hm', other, channel, published, dispatched.mem_tasksHeard published⟩
  case shared =>
    intro i m before s after hm split spawned never drained shared first
    refine dispatched.perm_tasksHeard hm shared ?_
    rw [(accepts_run capacity regular hm split spawned).complete never drained, eventsAfter, first]
    rfl

end Cluster

end SearchIndex
