import SearchIndex.Proofs.Cluster.Members
import SearchIndex.Proofs.Wire.Faithful

/-!
# What a subscription passes

Before a node subscribes to the link it accepts nothing (`Unsubscribed`). What has been sent
since then is what its subscription has passed and what is waiting for it (`Reads`). What
there is in it for the node is what its peers, the other nodes with the same channel name,
have published since then, in the order in which it stands on the link: an envelope of theirs
is read as the event that was published, and no other envelope is accepted. Of what the
subscription has passed, the node has accepted everything that was for it, except for what
was lost when the subscription lagged.
-/

namespace SearchIndex

namespace Link

variable {ω : Type}

/-- Whose the subscriptions are, by their numbers. -/
def owners (link : Link ω) : List ω :=
  link.subscriptions.map (·.owner)

@[simp] theorem owners_send (link : Link ω) (envelope : Envelope) :
    (link.send envelope).owners = link.owners := by
  rw [send]
  split <;> rfl

@[simp] theorem owners_subscribe (link : Link ω) (owner : ω) :
    (link.subscribe owner).owners = link.owners ++ [owner] := by
  simp [owners, subscribe]

theorem map_owner_modify (subscriptions : List (Subscription ω)) (number : Nat)
    {f : Subscription ω → Subscription ω} (h : ∀ s, (f s).owner = s.owner) :
    (subscriptions.modify number f).map (·.owner) = subscriptions.map (·.owner) := by
  apply List.ext_getElem?
  intro k
  rw [List.getElem?_map, List.getElem?_map, List.getElem?_modify]
  cases subscriptions[k]? with
  | none => rfl
  | some s => by_cases same : number = k <;> simp [same, h]

@[simp] theorem owners_moveTo (link : Link ω) (number position : Nat) :
    (link.moveTo number position).owners = link.owners :=
  map_owner_modify _ _ fun _ => rfl

@[simp] theorem owners_cancel (link : Link ω) (number : Nat) :
    (link.cancel number).owners = link.owners :=
  map_owner_modify _ _ fun _ => rfl

theorem owner_mem_of_active? {link : Link ω} {number : Nat} {s : Subscription ω}
    (active : link.active? number = some s) : s.owner ∈ link.owners :=
  List.mem_map_of_mem (List.mem_of_getElem? (Option.filter_eq_some_iff.mp active).1)

/-- What is sent is kept if somebody subscribes. -/
theorem sent_send {link : Link ω} {number : Nat} {s : Subscription ω}
    (active : link.active? number = some s) (envelope : Envelope) :
    (link.send envelope).sent = link.sent ++ [envelope] := by
  obtain ⟨here, reading⟩ := Option.filter_eq_some_iff.mp active
  have some : link.receivers ≠ 0 := by
    rw [receivers, Ne, List.countP_eq_zero]
    exact fun none => none s (List.mem_of_getElem? here) reading
  rw [send, if_neg some]

@[simp] theorem subscriptions_send (link : Link ω) (envelope : Envelope) :
    (link.send envelope).subscriptions = link.subscriptions := by
  rw [send]
  split <;> rfl

end Link

/-- The event of an envelope that a member accepts. -/
def Member.accepted? (m : Member) (envelope : Envelope) : Option IndexEvent :=
  if envelope.channel ≠ m.channel ∨ envelope.origin = m.id then none
  else Wire.read? envelope.payload

theorem Member.accepted?_eq_none_iff {m : Member} {envelope : Envelope} :
    m.accepted? envelope = none ↔ envelope.channel ≠ m.channel ∨ envelope.origin = m.id ∨
      Wire.read? (α := IndexEvent) envelope.payload = none := by
  rw [accepted?, ite_eq_left_iff, ← or_assoc]
  exact (or_iff_not_imp_left).symm

theorem Node.Serves.accepted?_eq {n : Node} {m : Member} (h : n.Serves m) (envelope : Envelope) :
    n.index.accepted? envelope = m.accepted? envelope := by
  rw [Channel.accepted?_eq, h.name, h.origin, Member.accepted?]

/-- Whether a member is another one than a given one and uses the same channel name. -/
def isPeer (members : List Member) (i j : Nat) : Bool :=
  j != i && members[j]?.map Member.channel == members[i]?.map Member.channel

/-- The events among some publications that the peers of a member have published. -/
def eventsFor (members : List Member) (i : Nat) (publications : List (Nat × IndexEvent)) :
    List IndexEvent :=
  (publications.filter fun p => isPeer members i p.1).map (·.2)

theorem eventsFor_append (members : List Member) (i : Nat)
    (first second : List (Nat × IndexEvent)) :
    eventsFor members i (first ++ second) =
      eventsFor members i first ++ eventsFor members i second := by
  rw [eventsFor, List.filter_append, List.map_append]
  rfl

/-- An envelope that says nothing to any member: it holds no event, or nobody uses its
channel name. -/
def Envelope.IsStray (members : List Member) (envelope : Envelope) : Prop :=
  Wire.read? (α := IndexEvent) envelope.payload = none ∨ ∀ m ∈ members, envelope.channel ≠ m.channel

variable {members : List Member} {i : Nat} {m : Member}

theorem Envelope.IsStray.accepted?_eq_none {envelope : Envelope} (h : envelope.IsStray members)
    (hm : m ∈ members) : m.accepted? envelope = none := by
  rw [Member.accepted?_eq_none_iff]
  rcases h with nothing | foreign
  · exact .inr (.inr nothing)
  · exact .inl (foreign m hm)

/-- A member accepts what is published on its peers, as it was published, and nothing else. -/
theorem accepted?_envelope (ids : (members.map (·.id)).Nodup) (hm : members[i]? = some m) {j : Nat}
    {n : Node} {m' : Member} (hm' : members[j]? = some m') (serves : n.Serves m')
    {event : IndexEvent} (kept : event.queuedAt.IsKept) :
    m.accepted? (n.index.envelope event) = if isPeer members i j then some event else none := by
  have payload : Wire.read? (n.index.envelope event).payload = some event :=
    (Wire.faithful_indexEvent kept).read?_write
  have channel : (n.index.envelope event).channel = m'.channel := serves.name
  have origin : (n.index.envelope event).origin = m'.id := serves.origin
  rw [Member.accepted?, payload, channel, origin, isPeer, hm, hm']
  by_cases same : j = i
  case pos =>
    subst same
    obtain rfl := Option.some.inj (hm.symm.trans hm')
    simp
  case neg =>
    have other : m'.id ≠ m.id := by
      intro id
      have ids' : (members.map (·.id))[j]? = (members.map (·.id))[i]? := by
        rw [List.getElem?_map, List.getElem?_map, hm, hm', Option.map_some, Option.map_some, id]
      have bound : j < (members.map (·.id)).length := by
        rw [List.length_map]
        exact (List.getElem?_eq_some_iff.mp hm').1
      exact same ((List.getElem?_inj bound ids).mp ids')
    by_cases name : m'.channel = m.channel <;> simp [same, other, name]

namespace Cluster

variable {c c' : Cluster} {os : List Occurrence}

/-- The subscription of a node has fallen behind what the link keeps: more envelopes than
that were sent since it last read. -/
def Lags (c : Cluster) (i : Nat) : Prop :=
  ∃ link ∈ c.link, ∃ s ∈ link.subscriptions, s.owner.node = i ∧ s.position < link.oldest

instance (c : Cluster) (i : Nat) : Decidable (c.Lags i) :=
  inferInstanceAs (Decidable (∃ link ∈ c.link, ∃ s ∈ link.subscriptions, _ ∧ _))

/-- There is nothing left to read for the subscription of a node. -/
def Drained (c : Cluster) (i : Nat) : Prop :=
  ∀ link ∈ c.link, ∀ s ∈ link.subscriptions, s.owner.node = i → link.readAt s.position = none

instance (c : Cluster) (i : Nat) : Decidable (c.Drained i) :=
  inferInstanceAs (Decidable (∀ link ∈ c.link, ∀ s ∈ link.subscriptions, _ → _))

theorem publications_append (course : c'.course = c.course ++ os) :
    c'.publications = c.publications ++ os.filterMap Occurrence.publication? := by
  rw [publications, course, List.filterMap_append]
  rfl

theorem deliveries_append (course : c'.course = c.course ++ os) (i : Nat) :
    c'.deliveries i = c.deliveries i ++ os.filterMap (Occurrence.delivery? i) := by
  rw [deliveries, course, List.filterMap_append]
  rfl

/-- What the subscription of one node reads is not accepted by another. -/
theorem deliveries_take_of_ne {receiver : Receiver} (other : receiver.node ≠ i)
    (reception : Reception) : (c.take receiver reception).deliveries i = c.deliveries i := by
  rw [deliveries_append (adds_take c receiver reception).course]
  rcases c.taking_cases receiver reception with none | ⟨n, envelope, event, -, -, -, accepts⟩
  · rw [none, List.filterMap_nil, List.append_nil]
  · rw [accepts, Node.delivery?_receiving, if_neg other, List.append_nil]

/-- Reading publishes nothing. -/
theorem publications_take (receiver : Receiver) (reception : Reception) :
    (c.take receiver reception).publications = c.publications := by
  rw [publications_append (adds_take c receiver reception).course]
  rcases c.taking_cases receiver reception with none | ⟨n, envelope, event, -, -, -, accepts⟩
  · rw [none, List.filterMap_nil, List.append_nil]
  · rw [accepts, Node.publication?_receiving, List.append_nil]

/-! ### Before a node subscribes -/

/-- A node that has not subscribed has accepted nothing. -/
structure Unsubscribed (i : Nat) (c : Cluster) : Prop where
  owners : ∀ link, c.link = some link → ∀ owner ∈ link.owners, owner.node ≠ i
  deliveries : c.deliveries i = []

namespace Unsubscribed

theorem aside (aside : ∀ o ∈ os, o.IsAside) (adds : Adds os c c') (h : Unsubscribed i c) :
    Unsubscribed i c' where
  owners := adds.link ▸ h.owners
  deliveries := by
    rw [deliveries_append adds.course, h.deliveries,
      (Occurrence.IsAside.filterMap_eq_nil aside i).2.1]
    rfl

theorem publishes {j : Nat} {n : Node} {task : IndexTask} (publishes : Publishes n j task c c')
    (h : Unsubscribed i c) : Unsubscribed i c' where
  owners := by
    intro link' linked owner howner
    rw [publishes.link] at linked
    obtain ⟨link, hl, rfl⟩ := Option.map_eq_some_iff.mp linked
    refine h.owners link hl owner ?_
    split at howner <;> simpa using howner
  deliveries := by
    rw [deliveries_append publishes.course, h.deliveries, Node.delivery?_publishing]
    rfl

theorem takes {receiver : Receiver} (other : receiver.node ≠ i) (reception : Reception)
    (h : Unsubscribed i c) : Unsubscribed i (c.take receiver reception) where
  owners := (adds_take c receiver reception).link ▸ h.owners
  deliveries := (deliveries_take_of_ne other reception).trans h.deliveries

/-- It does not matter which subscriptions end or move on. -/
theorem relink {link link' : Link Receiver} (linked : c.link = some link)
    (owners : link'.owners = link.owners) (h : Unsubscribed i c) :
    Unsubscribed i { c with link := some link' } where
  owners := by
    intro l hl
    obtain rfl := Option.some.inj hl
    rw [owners]
    exact h.owners link linked
  deliveries := h.deliveries

theorem goes {spawned? : Option Nat} {sent? : Option Envelope} (staffed : Staffed members c)
    (goes : Goes c spawned? sent? c') (other : spawned? ≠ some i) (h : Unsubscribed i c) :
    Unsubscribed i c' := by
  cases goes with
  | idle => exact h
  | works works => exact works.keeps staffed aside (fun _ _ _ => publishes) h
  | changes | releases => exact ⟨h.owners, h.deliveries⟩
  | @subscribes j n link spawned present linked =>
      refine ⟨fun link' hl owner howner => ?_, h.deliveries⟩
      obtain rfl := Option.some.inj hl
      rw [Link.owners_subscribe] at howner
      rcases List.mem_append.mp howner with old | new
      · exact h.owners link linked owner old
      · rw [List.mem_singleton.mp new]
        exact fun same => other (spawned.trans (congrArg some same))
  | sends _ linked => exact h.relink linked (Link.owners_send _ _)
  | receives receives =>
      cases receives with
      | idle => exact h
      | ends linked active stops =>
          exact (h.relink linked (Link.owners_cancel _ _)).aside (by simp) (adds_note _ _)
      | reads linked active found =>
          have other := h.owners _ linked _ (Link.owner_mem_of_active? active)
          exact (h.relink linked (Link.owners_moveTo _ _ _)).takes other _

end Unsubscribed

/-! ### Since a node subscribed -/

/-- What has been sent on the link, in order. -/
def sent (c : Cluster) : List Envelope :=
  c.link.elim [] (·.sent)

/-- How far the subscription of a node is: its number on the link, what it has passed since it
was made and what is waiting for it, and what has been published since then. -/
structure Progress where
  link : Link Receiver
  number : Nat
  passed : List Envelope := []
  waiting : List Envelope := []
  events : List (Nat × IndexEvent) := []

/-- A node has one subscription, made when the cluster was like `old`. What there is for the
node in what has been sent since then is what its peers have published, in the same order; of
what the subscription has passed, the node has accepted a part, and all of it if `whole`. -/
structure Reads (members : List Member) (i : Nat) (m : Member) (old : Cluster) (whole : Prop)
    (p : Progress) (c : Cluster) : Prop where
  link : c.link = some p.link
  sent : p.link.sent = old.sent ++ (p.passed ++ p.waiting)
  here : p.link.subscriptions[p.number]? =
    some { owner := ⟨i, m.channel⟩, position := old.sent.length + p.passed.length }
  only : ∀ k owner, p.link.owners[k]? = some owner → owner.node = i → k = p.number
  publications : c.publications = old.publications ++ p.events
  accepted : (p.passed ++ p.waiting).filterMap m.accepted? = eventsFor members i p.events
  sublist : (c.deliveries i).Sublist (p.passed.filterMap m.accepted?)
  whole : whole → c.deliveries i = p.passed.filterMap m.accepted?

namespace Reads

variable {old : Cluster} {whole whole' : Prop} {p : Progress}

theorem mono (h : Reads members i m old whole p c) (imp : whole' → whole) :
    Reads members i m old whole' p c :=
  { h with whole := fun w => h.whole (imp w) }

theorem active (h : Reads members i m old whole p c) : p.link.active? p.number =
    some { owner := ⟨i, m.channel⟩, position := old.sent.length + p.passed.length } := by
  rw [Link.active?, h.here]
  rfl

/-- Nothing changes for a node if its subscription stays and nothing is sent. -/
theorem relink (h : Reads members i m old whole p c) {link' : Link Receiver}
    (linked : c'.link = some link') (sent : link'.sent = p.link.sent)
    (here : link'.subscriptions[p.number]? = p.link.subscriptions[p.number]?)
    (only : ∀ k owner, link'.owners[k]? = some owner → owner.node = i → k = p.number)
    (publications : c'.publications = c.publications)
    (deliveries : c'.deliveries i = c.deliveries i) :
    Reads members i m old whole { p with link := link' } c' where
  link := linked
  sent := sent.trans h.sent
  here := here.trans h.here
  only := only
  publications := publications.trans h.publications
  accepted := h.accepted
  sublist := deliveries ▸ h.sublist
  whole := fun w => deliveries.trans (h.whole w)

/-- What is sent waits for the node. -/
theorem send (h : Reads members i m old whole p c) {envelope : Envelope}
    {more : List (Nat × IndexEvent)} (linked : c'.link = some (p.link.send envelope))
    (publications : c'.publications = c.publications ++ more)
    (deliveries : c'.deliveries i = c.deliveries i)
    (accepted : (m.accepted? envelope).toList = eventsFor members i more) :
    Reads members i m old whole
      { p with
        link := p.link.send envelope
        waiting := p.waiting ++ [envelope]
        events := p.events ++ more } c' where
  link := linked
  sent := by
    rw [Link.sent_send h.active, h.sent, List.append_assoc, List.append_assoc]
  here := by
    rw [Link.subscriptions_send, h.here]
  only := by
    rw [Link.owners_send]
    exact h.only
  publications := by
    rw [publications, h.publications, List.append_assoc]
  accepted := by
    rw [← List.append_assoc, List.filterMap_append, h.accepted, eventsFor_append, ← accepted]
    cases found : m.accepted? envelope <;> simp [found]
  sublist := deliveries ▸ h.sublist
  whole := fun w => deliveries.trans (h.whole w)

/-- The subscription of the node moves on. -/
theorem move (h : Reads members i m old whole p c) {first rest : List Envelope}
    {got : List IndexEvent} (split : p.waiting = first ++ rest)
    (linked : c'.link = some (p.link.moveTo p.number
      (old.sent.length + (p.passed ++ first).length)))
    (publications : c'.publications = c.publications)
    (deliveries : c'.deliveries i = c.deliveries i ++ got)
    (part : got.Sublist (first.filterMap m.accepted?))
    (all : whole' → whole ∧ got = first.filterMap m.accepted?) :
    Reads members i m old whole'
      { p with
        link := p.link.moveTo p.number (old.sent.length + (p.passed ++ first).length)
        passed := p.passed ++ first
        waiting := rest } c' where
  link := linked
  sent := by
    rw [List.append_assoc, ← split]
    exact h.sent
  here := by
    rw [Link.moveTo, List.getElem?_modify_eq, h.here]
    rfl
  only := by
    rw [Link.owners_moveTo]
    exact h.only
  publications := publications.trans h.publications
  accepted := by
    rw [List.append_assoc, ← split]
    exact h.accepted
  sublist := by
    rw [deliveries, List.filterMap_append]
    exact h.sublist.append part
  whole := by
    intro w
    obtain ⟨before, now⟩ := all w
    rw [deliveries, List.filterMap_append, h.whole before, now]

/-- While the node and the link are there, the subscription does not end: the node itself holds
the link. -/
theorem not_endsWith (staffed : Staffed members c) (hm : members[i]? = some m) (channel : String)
    (found : Option Reception) : c.endsWith ⟨i, channel⟩ found = false := by
  obtain ⟨n, hn, serves⟩ := staffed.node i m hm
  rcases found with none | missed | envelope
  · have there : some n ∈ c.nodes := List.mem_of_getElem? (Option.join_eq_some_iff.mp hn)
    have holds : (c.nodes.any fun n => n.any (·.index.linked)) = true :=
      List.any_eq_true.mpr ⟨some n, there, serves.linked⟩
    rw [endsWith, isOpen, holds, Bool.or_true]
    rfl
  · rfl
  · rw [endsWith, hn]
    rfl

/-- What there is to read: some of the envelopes that are waiting were missed, since the
subscription lags, or it is the first of them. -/
theorem readAt_cases (h : Reads members i m old whole p c) {reception : Reception} {next : Nat}
    (found : p.link.readAt (old.sent.length + p.passed.length) = some (reception, next)) :
    ∃ first rest, p.waiting = first ++ rest ∧
      next = old.sent.length + (p.passed ++ first).length ∧
      ((∃ missed, reception = .lagged missed ∧ c.Lags i) ∨
        ∃ envelope, reception = .received envelope ∧ first = [envelope]) := by
  rw [Link.readAt] at found
  split at found
  · next lags =>
    obtain ⟨rfl, rfl⟩ := Prod.mk.inj (Option.some.inj found)
    have oldest : p.link.oldest ≤ old.sent.length + (p.passed.length + p.waiting.length) := by
      rw [← List.length_append, ← List.length_append, ← h.sent]
      exact Nat.sub_le _ _
    refine ⟨p.waiting.take (p.link.oldest - (old.sent.length + p.passed.length)), _,
      (List.take_append_drop _ p.waiting).symm, ?_, .inl ⟨_, rfl, ?_⟩⟩
    · rw [List.length_append, List.length_take]
      omega
    · exact ⟨p.link, h.link, _, List.mem_of_getElem? h.here, rfl, lags⟩
  · obtain ⟨envelope, there, read⟩ := Option.map_eq_some_iff.mp found
    obtain ⟨rfl, rfl⟩ := Prod.mk.inj read
    rw [h.sent, ← List.append_assoc, ← List.length_append,
      List.getElem?_append_right (Nat.le_refl _), Nat.sub_self] at there
    obtain ⟨rest, waiting⟩ := List.head?_eq_some_iff.mp (List.head?_eq_getElem? ▸ there)
    exact ⟨[envelope], rest, waiting, by simp [Nat.add_assoc], .inr ⟨envelope, rfl, rfl⟩⟩

/-- What the subscription of the node reads, the node accepts if it is for it. -/
theorem takes (h : Reads members i m old whole p c) {n : Node} (hn : c.node? i = some n)
    (serves : n.Serves m) {reception : Reception} {next : Nat}
    (found : p.link.readAt (old.sent.length + p.passed.length) = some (reception, next))
    (node : c'.node? i = c.node? i) (linked : c'.link = some (p.link.moveTo p.number next))
    (course : c'.course = c.course) : ∃ p', Reads members i m old (whole ∧ ¬c.Lags i) p'
      (c'.take ⟨i, m.channel⟩ reception) := by
  obtain ⟨first, rest, waiting, rfl, read⟩ := h.readAt_cases found
  have adds := adds_take c' ⟨i, m.channel⟩ reception
  have delivered := deliveries_append (adds.course.trans (congrArg (· ++ _) course)) i
  have published : (c'.take ⟨i, m.channel⟩ reception).publications = c.publications := by
    rw [publications_take, Cluster.publications, course, Cluster.publications]
  rcases read with ⟨missed, rfl, lags⟩ | ⟨envelope, rfl, rfl⟩
  case inl =>
    -- What was missed is passed without being accepted, so it is not the whole any more.
    exact ⟨_, h.move waiting (adds.link.trans linked) published delivered (List.nil_sublist _)
      fun w => absurd lags w.2⟩
  case inr =>
    have got : (c'.taking ⟨i, m.channel⟩ (.received envelope)).filterMap
        (Occurrence.delivery? i) = [envelope].filterMap m.accepted? := by
      rw [taking, node, hn, Option.elim_some, serves.accepted?_eq]
      cases accepted : m.accepted? envelope with
      | none => simp [accepted]
      | some event => simp [accepted, Node.delivery?_receiving]
    exact ⟨_, h.move waiting (adds.link.trans linked) published delivered
      (got ▸ List.Sublist.refl _) fun w => ⟨w.1, got⟩⟩

theorem aside (aside : ∀ o ∈ os, o.IsAside) (adds : Adds os c c')
    (h : Reads members i m old whole p c) : Reads members i m old whole p c' := by
  obtain ⟨published, delivered, -⟩ := Occurrence.IsAside.filterMap_eq_nil aside i
  refine h.relink (adds.link.trans h.link) rfl rfl h.only ?_ ?_
  · rw [publications_append adds.course, published, List.append_nil]
  · rw [deliveries_append adds.course, delivered, List.append_nil]

theorem publishes (ids : (members.map (·.id)).Nodup) (hm : members[i]? = some m) {j : Nat}
    {n : Node} {m' : Member} {task : IndexTask} (hm' : members[j]? = some m')
    (serves : n.Serves m') (kept : task.queuedAt.IsKept) (publishes : Publishes n j task c c')
    (h : Reads members i m old whole p c) : ∃ p', Reads members i m old whole p' c' := by
  have linked : c'.link = some (p.link.send (n.index.envelope (.ofTask task))) := by
    rw [publishes.link, h.link, Option.map_some, if_pos serves.linked]
  have published : c'.publications = c.publications ++ [(j, .ofTask task)] := by
    rw [publications_append publishes.course, Node.publication?_publishing]
  have delivered : c'.deliveries i = c.deliveries i := by
    rw [deliveries_append publishes.course, Node.delivery?_publishing, List.append_nil]
  refine ⟨_, h.send linked published delivered ?_⟩
  rw [accepted?_envelope ids hm hm' serves kept, eventsFor]
  by_cases peer : isPeer members i j <;> simp [peer]

/-- A subscription that somebody has is the one of the node only if it has its number. -/
theorem node_ne (h : Reads members i m old whole p c) {number : Nat} (other : number ≠ p.number)
    {s : Subscription Receiver} (active : p.link.active? number = some s) : s.owner.node ≠ i := by
  intro same
  refine other (h.only number s.owner ?_ same)
  rw [Link.owners, List.getElem?_map, (Option.filter_eq_some_iff.mp active).1]
  rfl

theorem receives {number : Nat} (staffed : Staffed members c) (hm : members[i]? = some m)
    (receives : Receives c number c') (h : Reads members i m old whole p c) :
    ∃ p', Reads members i m old (whole ∧ ¬c.Lags i) p' c' := by
  have weak : Reads members i m old (whole ∧ ¬c.Lags i) p c := h.mono And.left
  -- Only what the node's own subscription reads moves it on.
  by_cases mine : number = p.number
  case pos =>
    subst mine
    cases receives with
    | idle => exact ⟨p, weak⟩
    | @ends link s linked active stops =>
        obtain rfl := Option.some.inj (h.link.symm.trans linked)
        obtain rfl := Option.some.inj (h.active.symm.trans active)
        rw [not_endsWith staffed hm] at stops
        cases stops
    | @reads link s reception next linked active found =>
        obtain rfl := Option.some.inj (h.link.symm.trans linked)
        obtain rfl := Option.some.inj (h.active.symm.trans active)
        obtain ⟨n, hn, serves⟩ := staffed.node i m hm
        exact h.takes hn serves found rfl rfl rfl
  case neg =>
    cases receives with
    | idle => exact ⟨p, weak⟩
    | @ends link s linked active stops =>
        obtain rfl := Option.some.inj (h.link.symm.trans linked)
        have still : Reads members i m old (whole ∧ ¬c.Lags i)
            { p with link := p.link.cancel number }
            { c with link := some (p.link.cancel number) } :=
          weak.relink rfl rfl (List.getElem?_modify_ne _ _ mine)
            (by rw [Link.owners_cancel]; exact h.only) rfl rfl
        exact ⟨_, still.aside (by simp) (adds_note _ _)⟩
    | @reads link s reception next linked active found =>
        obtain rfl := Option.some.inj (h.link.symm.trans linked)
        exact ⟨_, weak.relink (adds_take _ s.owner reception).link rfl
          (List.getElem?_modify_ne _ _ mine) (by rw [Link.owners_moveTo]; exact h.only)
          (publications_take _ _) (deliveries_take_of_ne (h.node_ne mine active) _)⟩

theorem goes {spawned? : Option Nat} {sent? : Option Envelope}
    (ids : (members.map (·.id)).Nodup) (hm : members[i]? = some m) (staffed : Staffed members c)
    (goes : Goes c spawned? sent? c') (once : spawned? ≠ some i)
    (stray : ∀ envelope, sent? = some envelope → envelope.IsStray members)
    (h : Reads members i m old whole p c) :
    ∃ p', Reads members i m old (whole ∧ ¬c.Lags i) p' c' := by
  have weak : Reads members i m old (whole ∧ ¬c.Lags i) p c := h.mono And.left
  cases goes with
  | idle => exact ⟨p, weak⟩
  | works works =>
      refine works.keeps (P := fun c' => ∃ p', Reads members i m old (whole ∧ ¬c.Lags i) p' c')
        staffed ?_ ?_ ⟨p, weak⟩
      · exact fun none adds ⟨p', h'⟩ => ⟨p', h'.aside none adds⟩
      · exact fun hm' serves kept publishes ⟨p', h'⟩ =>
          h'.publishes ids hm hm' serves kept publishes
  | changes | releases => exact ⟨p, weak.relink h.link rfl rfl h.only rfl rfl⟩
  | @subscribes j n link spawned present linked =>
      obtain rfl := Option.some.inj (h.link.symm.trans linked)
      have bound := (List.getElem?_eq_some_iff.mp h.here).1
      refine ⟨_, weak.relink rfl rfl (List.getElem?_append_left bound) ?_ rfl rfl⟩
      intro k owner there same
      rw [Link.owners_subscribe, List.getElem?_append] at there
      split at there
      · exact h.only k owner there same
      · obtain rfl := List.mem_singleton.mp (List.mem_of_getElem? there)
        exact absurd (spawned.trans (congrArg some same)) once
  | @sends envelope link sent linked =>
      obtain rfl := Option.some.inj (h.link.symm.trans linked)
      refine ⟨_, weak.send rfl (List.append_nil _).symm rfl ?_⟩
      rw [(stray envelope sent).accepted?_eq_none (List.mem_of_getElem? hm)]
      rfl
  | receives receives => exact h.receives staffed hm receives

end Reads

end Cluster

end SearchIndex
