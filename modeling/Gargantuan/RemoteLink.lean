import Gargantuan.RemoteSender

/-!
Two managers joined by a channel that hands every reliable message of a connection to the
receiver once, in the order in which the sender's scheduler took them. The receiver's
replay guard refuses a request whose number is not above the last one, so requests reach
their handlers only because they arrive in the order in which they were numbered.
-/
namespace Gargantuan.RemoteManager
open List SortedMap QueuedMessage Bool MonotonicSequence

section
variable {ε : Type} {s t : State ε} (host : Host ε)

structure Unseen (s : State ε) (queued : QueuedMessage) : Prop where
  latest : ∀ p, s.peers.find? queued.connection = some p → p.latestIncomingRequest.isValid = true →
    p.latestIncomingRequest.toNat < queued.message.request.toNat
  absent : (⟨queued.connection,queued.message.request⟩ : PendingKey) ∉ s.incomingRequests.keys

variable {queued : QueuedMessage}

section
variable (unseen : Unseen s queued)
include unseen

theorem Unseen.quiet (quiet : Quiet s t) : Unseen t queued where
  latest q found valid := by
    obtain ⟨p,before,books⟩ := quiet.peer_of found
    have latest := congrArg PeerState.latestIncomingRequest books
    change q.latestIncomingRequest = p.latestIncomingRequest at latest
    rw [latest] at valid ⊢
    exact unseen.latest p before valid
  absent := by
    rw [quiet.incoming]
    exact unseen.absent

theorem dispatchRequest_disposition {peer : PeerState}
    (found : s.peers.find? queued.connection = some peer) :
    (dispatchRequest host s peer queued).1 = .requestHandled ∨ (dispatchRequest host s peer queued).1.refuses := by
  simp only [dispatchRequest]
  split
  · rename_i replayed
    exfalso
    rw [and_eq_true] at replayed
    obtain ⟨valid,notNewer⟩ := replayed
    have newer : queued.message.request.isNewerThan peer.latestIncomingRequest :=
      isNewerThan_iff.mpr ⟨isValid_iff.mp valid,unseen.latest peer found valid⟩
    rw [newer] at notNewer
    cases notNewer
  split
  · rename_i duplicate
    exact absurd (contains_iff_mem_keys.mp duplicate) unseen.absent
  split
  · exact .inr rfl
  split
  · exact .inr rfl
  · exact .inl rfl

theorem dispatch_disposition (request : queued.message.kind = .request) :
    (dispatch host s queued).1 = .requestHandled ∨ (dispatch host s queued).1.refuses := by
  obtain ⟨n,quiet,cases⟩ := dispatch_cases host Quiet.refl (quiet_admitManagerCall host)
    (fun _ m c remote quiet => quiet.trans (quiet_admitPeerCall host m c remote)) s queued
  obtain ⟨d,refuses,same⟩ | ⟨d,code,text,refuses,same⟩ | ⟨p,found,same⟩ := cases
  · exact .inr (by rw [same,refuses])
  · exact .inr (by rw [same,refuses])
  · rw [same]
    simp only [dispatchAdmitted,request]
    exact dispatchRequest_disposition host (unseen.quiet quiet) found

end

def RequestFrom (origin : ConnectionId) (q : QueuedMessage) : Prop :=
  q.connection = origin ∧ q.message.kind = .request

structure Guarded (origin : ConnectionId) (s : State ε) : Prop where
  disposed : s.history.dispositions.map Prod.fst = s.history.dispatched
  latest : ∀ p, s.peers.find? origin = some p → p.latestIncomingRequest.isValid = true →
    ∃ q ∈ s.history.dispatched, RequestFrom origin q ∧ q.message.request = p.latestIncomingRequest
  incoming : ∀ key ∈ s.incomingRequests.keys, key.connection = origin →
    ∃ q ∈ s.history.dispatched, RequestFrom origin q ∧ q.message.request = key.request
  handled : ∀ e ∈ s.history.dispositions, RequestFrom origin e.1 → e.2 = .requestHandled ∨ e.2.refuses = true

variable {origin : ConnectionId}

theorem Guarded.passive (g : Guarded origin s) (passive : Passive s t) : Guarded origin t where
  disposed := by rw [passive.dispositions,passive.dispatched,g.disposed]
  latest q found valid := by
    rw [passive.dispatched]
    rcases passive.latest origin q found with ⟨p,before,same⟩ | ⟨fresh,_⟩
    · rw [same] at valid ⊢
      exact g.latest p before valid
    · rw [fresh] at valid
      cases valid
  incoming key member here := by
    rw [passive.dispatched]
    exact g.incoming key (passive.incoming key member) here
  handled e member := g.handled e (passive.dispositions ▸ member)

def ReceivedInOrder (origin : ConnectionId) (s : State ε) : Prop :=
  s.history.received.Pairwise fun p q => RequestFrom origin p → RequestFrom origin q →
    p.message.request.toNat < q.message.request.toNat

variable {p q : QueuedMessage} {rest : List QueuedMessage}

theorem pairwise_of_arrival {R : QueuedMessage → QueuedMessage → Prop} {received : List QueuedMessage}
    (numbered : received.map arrival = List.range received.length) (pairwise : received.Pairwise R)
    (first : p ∈ received) (second : q ∈ received) (earlier : p.arrival < q.arrival) : R p q := by
  obtain ⟨i,inI,rfl⟩ := mem_iff_getElem.mp first
  obtain ⟨j,inJ,rfl⟩ := mem_iff_getElem.mp second
  have arrival : ∀ k (inside : k < received.length), received[k].arrival = k := by
    intro k inside
    have same := congrArg (fun l : List Nat => l[k]?) numbered
    simpa [inside] using same
  rw [arrival i inI,arrival j inJ] at earlier
  exact pairwise_iff_getElem.mp pairwise i j inI inJ earlier

theorem DispatchedInOrder.received (o : DispatchedInOrder s) {q : QueuedMessage}
    (member : q ∈ s.history.dispatched ++ (s.dispatchQueue ++ s.history.dropped)) :
    ∃ r ∈ s.history.received, r.unmoved = q.unmoved := by
  have unmoved : q.unmoved ∈ s.history.received.map unmoved :=
    o.exactlyOnce.mem_iff.mpr (mem_map_of_mem member)
  exact mem_map.mp unmoved

theorem unmoved_parts (same : p.unmoved = q.unmoved) :
    p.connection = q.connection ∧ p.message = q.message ∧ p.arrival = q.arrival := by
  have connection := congrArg connection same
  have message := congrArg message same
  have arrival := congrArg arrival same
  exact ⟨connection,message,arrival⟩

theorem newer_of_front (o : DispatchedInOrder s) (inOrder : ReceivedInOrder origin s)
    (before : p ∈ s.history.dispatched) (queued : q ∈ s.dispatchQueue) (fromP : RequestFrom origin p)
    (fromQ : RequestFrom origin q) : p.message.request.toNat < q.message.request.toNat := by
  have reliable : ∀ k : QueuedMessage, RequestFrom origin k → isReliable k := by
    intro k here
    rw [isReliable,here.2]
    rfl
  have earlier := o.noneOvertaken p before q queued (reliable p fromP) (reliable q fromQ) (fromP.1.trans fromQ.1.symm)
  obtain ⟨a,receivedA,sameA⟩ := o.received (mem_append_left _ before)
  obtain ⟨b,receivedB,sameB⟩ := o.received (mem_append_right s.history.dispatched (mem_append_left _ queued))
  obtain ⟨connectionA,messageA,arrivalA⟩ := unmoved_parts sameA
  obtain ⟨connectionB,messageB,arrivalB⟩ := unmoved_parts sameB
  have ordered := pairwise_of_arrival o.numbered inOrder receivedA receivedB (by rw [arrivalA,arrivalB]; exact earlier)
    ⟨connectionA.trans fromP.1,by rw [messageA]; exact fromP.2⟩ ⟨connectionB.trans fromQ.1,by rw [messageB]; exact fromQ.2⟩
  rwa [messageA,messageB] at ordered

theorem find?_popFront {c : ConnectionId} {q : PeerState} (found : (popFront s queued rest).peers.find? c = some q) :
    ∃ p, s.peers.find? c = some p ∧ q.latestIncomingRequest = p.latestIncomingRequest := by
  simp only [popFront,releaseQueued,find?_modify] at found
  split at found
  · obtain ⟨p,before,rfl⟩ := Option.map_eq_some_iff.mp found
    exact ⟨p,before,rfl⟩
  · exact ⟨q,found,rfl⟩

theorem Guarded.unseen (g : Guarded origin s) (o : DispatchedInOrder s) (inOrder : ReceivedInOrder origin s)
    (front : s.dispatchQueue = queued :: rest) (fromQ : RequestFrom origin queued) :
    Unseen (popFront s queued rest) queued := by
  have queuedFirst : queued ∈ s.dispatchQueue := by simp [front]
  constructor
  · intro q found valid
    obtain ⟨p,before,latest⟩ := find?_popFront found
    rw [fromQ.1] at before
    rw [latest] at valid ⊢
    obtain ⟨k,inside,fromK,same⟩ := g.latest p before valid
    rw [← same]
    exact newer_of_front o inOrder inside queuedFirst fromK fromQ
  · intro member
    obtain ⟨k,inside,fromK,same⟩ := g.incoming _ member fromQ.1
    have newer := newer_of_front o inOrder inside queuedFirst fromK fromQ
    rw [same] at newer
    exact lt_irrefl _ newer

theorem Guarded.dispatched (g : Guarded origin s) {disposition : Disposition}
    (flow : Passive (popFront s queued rest) t ∨ Consumes (popFront s queued rest) t queued)
    (ends : RequestFrom origin queued → disposition = .requestHandled ∨ disposition.refuses) :
    Guarded origin (noteDisposition t queued disposition) := by
  have dispatched : t.history.dispatched = s.history.dispatched ++ [queued] := by
    rcases flow with passive | consumes
    · exact passive.dispatched
    · exact consumes.dispatched
  have dispositions : t.history.dispositions = s.history.dispositions := by
    rcases flow with passive | consumes
    · exact passive.dispositions
    · exact consumes.dispositions
  have kept : ∀ p : RemoteRequestId, (∃ q ∈ s.history.dispatched, RequestFrom origin q ∧ q.message.request = p) →
      ∃ q ∈ t.history.dispatched, RequestFrom origin q ∧ q.message.request = p := by
    rintro p ⟨q,inside,here⟩
    exact ⟨q,by rw [dispatched]; exact mem_append_left _ inside,here⟩
  have own : queued ∈ t.history.dispatched := by simp [dispatched]
  constructor
  · simp only [noteDisposition,map_append,dispositions,dispatched,g.disposed,map_cons,map_nil]
  · intro q found valid
    rcases flow with passive | consumes
    · rcases passive.latest origin q found with ⟨p,before,same⟩ | ⟨fresh,_⟩
      · obtain ⟨o,first,equal⟩ := find?_popFront before
        rw [same,equal] at valid ⊢
        exact kept _ (g.latest o first valid)
      · rw [fresh] at valid
        cases valid
    · obtain ⟨p,before,same⟩ := consumes.latest origin q found
      obtain ⟨o,first,equal⟩ := find?_popFront before
      split at same
      · rename_i here
        exact ⟨queued,own,⟨here.symm,consumes.request⟩,same.symm⟩
      · rw [same,equal] at valid ⊢
        exact kept _ (g.latest o first valid)
  · intro key member here
    rcases flow with passive | consumes
    · exact kept _ (g.incoming key (passive.incoming key member) here)
    · rcases consumes.incoming key member with before | rfl
      · exact kept _ (g.incoming key before here)
      · exact ⟨queued,own,⟨here,consumes.request⟩,rfl⟩
  · intro e member fromE
    simp only [noteDisposition,dispositions] at member
    rcases mem_append.mp member with before | new
    · exact g.handled e before fromE
    · rw [mem_singleton.mp new] at fromE ⊢
      exact ends fromE

theorem enqueue_eq (s : State ε) (c : ConnectionId) (message : RemoteMessage) (bytes : Nat) :
    ∃ m x, enqueue host s c message bytes = observeOwnership m c ∧ x.connection = c ∧ x.message = message ∧
      m.history = { s.history with received := s.history.received ++ [x] } ∧ m.incomingRequests = s.incomingRequests ∧
      m.peers = s.peers.modify c (.withQueued bytes) :=
  ⟨_,⟨c,message,bytes,s.history.received.length,movesOf s c⟩,rfl,rfl,rfl,rfl,rfl,rfl⟩

theorem Guarded.enqueue (g : Guarded origin s) (c : ConnectionId) (message : RemoteMessage) (bytes : Nat) :
    Guarded origin (enqueue host s c message bytes) := by
  obtain ⟨m,x,same,_,_,history,incoming,peers⟩ := enqueue_eq host s c message bytes
  rw [same]
  refine .passive ⟨by rw [history]; exact g.disposed,fun q found valid => ?_,?_,?_⟩
    (keeps_observeOwnership m c).toPassive
  · rw [peers,find?_modify] at found
    rw [history]
    split at found
    · obtain ⟨p,before,rfl⟩ := Option.map_eq_some_iff.mp found
      exact g.latest p before valid
    · exact g.latest q found valid
  · rw [history,incoming]
    exact g.incoming
  · rw [history]
    exact g.handled

theorem received_enqueue (s : State ε) (c : ConnectionId) (message : RemoteMessage) (bytes : Nat) :
    ∃ x, x.connection = c ∧ x.message = message ∧
      (enqueue host s c message bytes).history.received = s.history.received ++ [x] := by
  obtain ⟨m,x,same,connection,isMessage,history,_,_⟩ := enqueue_eq host s c message bytes
  refine ⟨x,connection,isMessage,?_⟩
  rw [same,(keeps_observeOwnership m c).toPassive.received,history]

theorem guarded_step {c d : Config ε} {event : Event ε} (b : Balanced c.state) (o : DispatchedInOrder c.state)
    (inOrder : ReceivedInOrder origin c.state) (g : Guarded origin c.state) (stepped : step host c event = some d) :
    Guarded origin d.state := by
  cases flow_step host b stepped with
  | passive passive => exact g.passive passive
  | received arrived found decoded matching queued =>
    rw [queued]
    exact g.enqueue host ..
  | turned below advanced next =>
    subst advanced next
    rename_i loop rest
    rcases pumpDispatch_cases host c.state loop with ended | ⟨queued,rest,front,moved | ⟨_,taken⟩⟩
    · rw [ended]
      exact { g with }
    · rw [moved]
      exact { g with }
    · rw [taken]
      exact g.dispatched (dispatches_dispatch host (popFront c.state queued rest) queued).flow fun fromQ =>
        dispatch_disposition host (g.unseen o inOrder front fromQ) fromQ.2

def receivedFrom (origin : ConnectionId) (s : State ε) : List RemoteMessage :=
  (s.history.received.filter fun q => q.connection == origin && isReliable q).map QueuedMessage.message

def dispatchedFrom (origin : ConnectionId) (s : State ε) : List RemoteMessage :=
  (s.history.dispatched.filter fun q => q.connection == origin && isReliable q).map QueuedMessage.message

theorem receivedInOrder_of_pairwise (pairwise : (receivedFrom origin s).Pairwise InOrder) : ReceivedInOrder origin s := by
  rw [receivedFrom,pairwise_map,pairwise_filter] at pairwise
  have reliable : ∀ q : QueuedMessage, RequestFrom origin q → (q.connection == origin && isReliable q) := by
    rintro q ⟨here,request⟩
    rw [isReliable,request,here,beq_self_eq_true]
    rfl
  refine pairwise.imp fun pair fromP fromQ => ?_
  exact pair (reliable _ fromP) (reliable _ fromQ) fromP.2 fromQ.2

theorem received_pumpDispatch (s : State ε) (loop : DispatchLoop) :
    (pumpDispatch host s loop).1.history.received = s.history.received := by
  rcases pumpDispatch_cases host s loop with ended | ⟨queued,rest,front,moved | ⟨_,taken⟩⟩
  · rw [ended]
    rfl
  · rw [moved]
    rfl
  · rw [taken]
    rcases (dispatches_dispatch host (popFront s queued rest) queued).flow with passive | consumes
    · exact passive.received
    · exact consumes.received

theorem DispatchedInOrder.sublist (o : DispatchedInOrder s) :
    (dispatchedFrom origin s).Sublist (receivedFrom origin s) := by
  have mapped : ∀ l : List QueuedMessage, (l.filter fun q => q.connection == origin && isReliable q).map
      message = ((l.filter fun q => q.connection == origin && isReliable q).map
        unmoved).map message := by
    intro l
    rw [map_map]
    rfl
  rw [dispatchedFrom,receivedFrom,mapped,mapped]
  have ordered : ∀ l : List QueuedMessage, (l.Pairwise fun p q => p.arrival < q.arrival) →
      (l.map unmoved).Pairwise fun p q => p.arrival < q.arrival := fun l pairwise =>
    pairwise_map.mpr pairwise
  have inOrder : (s.history.dispatched.filter fun q => q.connection == origin && isReliable q).Pairwise fun p q =>
      p.arrival < q.arrival := by
    rw [pairwise_filter]
    refine o.inOrder.imp fun precedes fromP fromQ => ?_
    rw [and_eq_true,beq_iff_eq] at fromP fromQ
    exact precedes fromP.2 fromQ.2 (fromP.1.trans fromQ.1.symm)
  have dispatched := ordered _ inOrder
  have received : s.history.received.Pairwise fun p q => p.arrival < q.arrival := by
    have numbers : (List.range s.history.received.length).Pairwise (· < ·) := pairwise_lt_range
    rwa [← o.numbered,pairwise_map] at numbers
  have antisymm : Std.Antisymm fun p q : QueuedMessage => p.arrival < q.arrival :=
    ⟨fun p q less greater => absurd less (Nat.lt_asymm greater)⟩
  have distinct : ((s.history.dispatched.filter fun q => q.connection == origin && isReliable q).map
      unmoved).Nodup := by
    refine dispatched.imp fun {p q} less same => ?_
    rw [same] at less
    exact lt_irrefl _ less
  refine (sublist_of_subperm_of_pairwise (subperm_of_subset distinct ?_) dispatched
    (ordered _ (received.filter _))).map message
  intro q member
  obtain ⟨p,inside,rfl⟩ := mem_map.mp member
  obtain ⟨before,here⟩ := mem_filter.mp inside
  obtain ⟨r,arrived,same⟩ := o.received (mem_append_left _ before)
  obtain ⟨connection,message,_⟩ := unmoved_parts same
  refine mem_map.mpr ⟨r,mem_filter.mpr ⟨arrived,?_⟩,same⟩
  rwa [isReliable,message,connection]

end

/-! ### The link -/

/-- A sender, a receiver, and how many messages of the connection were handed over. -/
structure Link (ω κ ε : Type) where
  sender : Config (Wire ω κ)
  receiver : Config ε
  delivered : Nat := 0

inductive LinkEvent (ω κ ε : Type) where
  | sender (event : Event (Wire ω κ))
  | receiver (event : Event ε)
  | deliver

section
variable {ω κ ε : Type} (around : Surroundings ω κ) (host : Host ε) (target origin : ConnectionId)

def receivedEvent (origin : ConnectionId) (intent : NetworkMessageIntent) : TransportEvent :=
  .received origin intent.delivery intent.traffic intent.order intent.payload

def linkStep (l : Link ω κ ε) : LinkEvent ω κ ε → Option (Link ω κ ε)
  | .sender event => (step around.host l.sender event).map fun c => { l with sender := c }
  | .receiver event => (step host l.receiver event).map fun c => { l with receiver := c }
  | .deliver =>
    match (outgoing target l.sender.state)[l.delivered]? with
    | none => none
    | some intent =>
      (step host l.receiver (.call (.handleTransportEvent (receivedEvent origin intent)))).map fun c =>
        { l with receiver := c, delivered := l.delivered + 1 }

def hasRoom (origin : ConnectionId) (s : State ε) (payload : List UInt8) : Bool :=
  s.active && (s.peers.find? origin).any fun peer => receiveFits s peer payload.length

def noneBeside (origin : ConnectionId) : Event ε → Bool
  | .call (.handleTransportEvent (.received connection delivery _ _ _)) =>
    connection != origin || delivery != .reliableOrdered
  | _ => true

/-- The setting: the sender sends and takes nothing away, reliable messages of the connection only come
    over the link, and none of them is refused. -/
def onLink (l : Link ω κ ε) : LinkEvent ω κ ε → Bool
  | .sender event => isSender l.sender event
  | .receiver event => noneBeside origin event
  | .deliver => (outgoing target l.sender.state)[l.delivered]?.all fun intent =>
      hasRoom origin l.receiver.state intent.payload

/-- No message overtakes another one of its connection: not one that waits at the sender, and not one
    in the receiver's queue that a pump moved to the back. -/
def linkInTurn (l : Link ω κ ε) : LinkEvent ω κ ε → Bool
  | .sender event => inTurn around target l.sender event
  | .receiver event => takesEvenly l.receiver event
  | .deliver => true

/-- Reliable messages arrive in the order in which they were accepted, and a request is handled or
    turned away for another reason than its number. -/
structure Delivered (l : Link ω κ ε) : Prop where
  submitted : ∃ submitted, List.Forall₂ Carries (outgoing target l.sender.state) submitted ∧
    submitted.Sublist (accepted target l.sender.state) ∧
    receivedFrom origin l.receiver.state = submitted.take l.delivered
  inOrder : (dispatchedFrom origin l.receiver.state).Sublist (accepted target l.sender.state)
  dispatched : DispatchedInOrder l.receiver.state
  disposed : l.receiver.state.history.dispositions.map Prod.fst = l.receiver.state.history.dispatched
  handled : ∀ e ∈ l.receiver.state.history.dispositions, RequestFrom origin e.1 →
    e.2 = .requestHandled ∨ e.2.refuses = true

structure Linked (l : Link ω κ ε) : Prop where
  lined : Lined [] target l.sender.state
  sound : Sound l.receiver
  ordered : Ordered l.receiver.state
  guarded : Guarded origin l.receiver.state
  arrived : List.Forall₂ Carries ((outgoing target l.sender.state).take l.delivered)
    (receivedFrom origin l.receiver.state)
  available : l.delivered ≤ (outgoing target l.sender.state).length

variable {around host target origin} {l : Link ω κ ε} {i : NetworkMessageIntent} {m : RemoteMessage}

theorem Carries.unique {n : RemoteMessage} (first : Carries i m) (second : Carries i n) : m = n := by
  obtain ⟨c,bytes,encodesM,rfl⟩ := first
  obtain ⟨_,_,encodesN,same⟩ := second
  have payload := congrArg NetworkMessageIntent.payload same
  change bytes = _ at payload
  subst payload
  have decodedM := decodeRemoteMessage_encodeRemoteMessage encodesM.1 encodesM.2
  have decodedN := decodeRemoteMessage_encodeRemoteMessage encodesN.1 encodesN.2
  rw [decodedM] at decodedN
  exact Except.ok.inj decodedN

variable {intents : List NetworkMessageIntent}

theorem forall₂_unique {first second : List RemoteMessage}
    (left : List.Forall₂ Carries intents first) (right : List.Forall₂ Carries intents second) : first = second := by
  induction left generalizing second with
  | nil =>
    cases right
    rfl
  | cons carries _ ih =>
    cases right with
    | cons carries' rest => rw [carries.unique carries',ih rest]

section
variable (linked : Linked target origin l)
include linked

theorem Linked.received : ∃ submitted, List.Forall₂ Carries (outgoing target l.sender.state) submitted ∧
      submitted.Sublist (accepted target l.sender.state) ∧
      receivedFrom origin l.receiver.state = submitted.take l.delivered := by
  obtain ⟨submitted,carried,sub⟩ := linked.lined.order
  refine ⟨submitted,carried,(sublist_append_left _ _).trans sub,?_⟩
  exact forall₂_unique linked.arrived (forall₂_take l.delivered carried)

theorem Linked.receivedInOrder : ReceivedInOrder origin l.receiver.state := by
  obtain ⟨submitted,_,sub,same⟩ := linked.received
  refine receivedInOrder_of_pairwise ?_
  rw [same]
  exact linked.lined.increasing.sublist ((take_sublist _ _).trans sub)

theorem Linked.delivered : Delivered target origin l := by
  obtain ⟨submitted,carried,sub,same⟩ := linked.received
  refine ⟨⟨submitted,carried,sub,same⟩,?_,linked.ordered.toDispatchedInOrder,linked.guarded.disposed,
    linked.guarded.handled⟩
  have received : (receivedFrom origin l.receiver.state).Sublist (accepted target l.sender.state) := by
    rw [same]
    exact (take_sublist _ _).trans sub
  exact linked.ordered.toDispatchedInOrder.sublist.trans received

theorem Linked.sender {c : Config (Wire ω κ)}
    (lined : Lined (outgoing target l.sender.state) target c.state) : Linked target origin { l with sender := c } := by
  obtain ⟨more,same⟩ := lined.grown
  refine ⟨{ lined with grown := List.nil_prefix },linked.sound,linked.ordered,linked.guarded,?_,?_⟩
  · rw [← same,take_append_of_le_length linked.available]
    exact linked.arrived
  · rw [← same,length_append]
    exact linked.available.trans (Nat.le_add_right _ _)

end

variable {c : Config ε}

theorem Linked.receiver (linked : Linked target origin l) {event : Event ε}
    (evenly : takesEvenly l.receiver event) (stepped : step host l.receiver event = some c) (delivered : Nat)
    (arrived : List.Forall₂ Carries ((outgoing target l.sender.state).take delivered) (receivedFrom origin c.state))
    (available : delivered ≤ (outgoing target l.sender.state).length) :
    Linked target origin { l with receiver := c, delivered } where
  lined := linked.lined
  sound := sound_step host linked.sound stepped
  ordered := ordered_step host linked.sound.balanced evenly linked.ordered stepped
  guarded := guarded_step host linked.sound.balanced linked.ordered.toDispatchedInOrder linked.receivedInOrder
    linked.guarded stepped
  arrived := arrived
  available := available

theorem receivedFrom_step {d : Config ε} {event : Event ε} (b : Balanced c.state)
    (stepped : step host c event = some d) (foreign : ∀ connection delivery traffic order payload,
      event = .call (.handleTransportEvent (.received connection delivery traffic order payload)) →
      connection ≠ origin ∨ delivery ≠ .reliableOrdered) :
    receivedFrom origin d.state = receivedFrom origin c.state := by
  cases flow_step host b stepped with
  | passive passive => rw [receivedFrom,passive.received,receivedFrom]
  | turned below advanced next =>
    subst next
    rw [receivedFrom,received_pumpDispatch,receivedFrom]
  | @received connection peer message delivery traffic order payload arrived found decoded matching queued =>
    obtain ⟨x,here,isMessage,received⟩ := received_enqueue host c.state connection message payload.length
    have refused : (x.connection == origin && isReliable x) = false := by
      rw [metadataMatches,Bool.and_eq_true,Bool.and_eq_true,beq_iff_eq] at matching
      rw [here,isReliable,isMessage,← matching.1.1]
      rcases foreign connection delivery traffic order payload arrived with other | unreliable
      · rw [beq_eq_false_iff_ne.mpr other,Bool.false_and]
      · rw [beq_eq_false_iff_ne.mpr unreliable,Bool.and_false]
    rw [receivedFrom,queued,received,filter_append,filter_cons_of_neg (by rw [refused]; exact nofun),
      filter_nil,append_nil,receivedFrom]

theorem receive_of_hasRoom (host : Host ε) {s : State ε} (carries : Carries i m)
    (room : hasRoom origin s i.payload) :
    receive host s origin i.delivery i.traffic i.order i.payload = (true,enqueue host s origin m i.payload.length) := by
  obtain ⟨c,bytes,encodes,rfl⟩ := carries
  rw [hasRoom,Bool.and_eq_true,Option.any_eq_true] at room
  obtain ⟨_,peer,found,fits⟩ := room
  have decoded := decodeRemoteMessage_encodeRemoteMessage encodes.1 encodes.2
  simp only [intentFor] at fits ⊢
  simp only [receive,found,fits,decoded,metadataMatches,beq_self_eq_true,Bool.and_self,Bool.not_true,
    Bool.false_eq_true,if_false]

theorem mem_outgoing {s : State (Wire ω κ)} (member : i ∈ outgoing target s) : i.delivery = .reliableOrdered := by
  have here := (mem_filter.mp member).2
  rw [and_eq_true,beq_iff_eq,beq_iff_eq] at here
  exact here.2

theorem exists_carried {messages : List RemoteMessage}
    (carried : List.Forall₂ Carries intents messages) (member : i ∈ intents) : ∃ m, Carries i m := by
  induction carried with
  | nil => cases member
  | cons carries _ ih =>
    rcases mem_cons.mp member with rfl | later
    · exact ⟨_,carries⟩
    · exact ih later

theorem Linked.deliver (linked : Linked target origin l)
    (first : (outgoing target l.sender.state)[l.delivered]? = some i)
    (room : hasRoom origin l.receiver.state i.payload)
    (stepped : step host l.receiver (.call (.handleTransportEvent (receivedEvent origin i))) = some c) :
    Linked target origin { l with receiver := c, delivered := l.delivered + 1 } := by
  obtain ⟨inside,isFirst⟩ := List.getElem?_eq_some_iff.mp first
  have member : i ∈ outgoing target l.sender.state := isFirst ▸ List.getElem_mem inside
  obtain ⟨submitted,carried,_,_⟩ := linked.received
  obtain ⟨m,carries⟩ := exists_carried carried member
  refine linked.receiver rfl stepped (l.delivered + 1) ?_ inside
  have taken := receive_of_hasRoom host carries room
  have active : l.receiver.state.active := by
    rw [hasRoom,Bool.and_eq_true] at room
    exact room.1
  have queued : c.state = enqueue host l.receiver.state origin m i.payload.length := by
    simp only [step,begin,handleTransportEvent,receivedEvent,active,taken,Bool.not_true] at stepped
    split at stepped
    · cases stepped
      rfl
    · cases stepped
  obtain ⟨x,here,isMessage,received⟩ := received_enqueue host l.receiver.state origin m i.payload.length
  have reliable : (x.connection == origin && isReliable x) := by
    have delivery := mem_outgoing member
    obtain ⟨_,_,_,same⟩ := carries
    rw [same] at delivery
    rw [isReliable,isMessage,here,beq_self_eq_true]
    exact beq_iff_eq.mpr delivery
  have arrived : receivedFrom origin c.state = receivedFrom origin l.receiver.state ++ [m] := by
    rw [receivedFrom,queued,received,filter_append,receivedFrom]
    simp [reliable,isMessage]
  rw [arrived,take_add_one,first]
  exact rel_append linked.arrived (.cons carries .nil)

theorem linked_step {m : Link ω κ ε} {event : LinkEvent ω κ ε} (setting : onLink target origin l event)
    (turn : linkInTurn around target l event) (linked : Linked target origin l)
    (stepped : linkStep around host target origin l event = some m) : Linked target origin m := by
  cases event with
  | sender event =>
    obtain ⟨c,after,rfl⟩ := Option.map_eq_some_iff.mp stepped
    have started : Lined (outgoing target l.sender.state) target l.sender.state :=
      { linked.lined with grown := prefix_rfl }
    exact linked.sender (lined_step around setting turn started after)
  | receiver event =>
    obtain ⟨c,after,rfl⟩ := Option.map_eq_some_iff.mp stepped
    have same : receivedFrom origin c.state = receivedFrom origin l.receiver.state := by
      refine receivedFrom_step linked.sound.balanced after ?_
      rintro connection delivery traffic order payload rfl
      simpa [onLink,noneBeside] using setting
    exact linked.receiver turn after l.delivered (by rw [same]; exact linked.arrived) linked.available
  | deliver =>
    simp only [linkStep] at stepped
    split at stepped
    · cases stepped
    · rename_i intent first
      obtain ⟨c,after,rfl⟩ := Option.map_eq_some_iff.mp stepped
      rw [onLink,first] at setting
      exact linked.deliver first setting after

def linkInitial (world : ω) (clock : κ) (environment : ε) : Link ω κ ε where
  sender := initial { world, clock }
  receiver := initial environment

theorem linked_initial (world : ω) (clock : κ) (environment : ε) :
    Linked target origin (linkInitial world clock environment) where
  lined := ⟨⟨[],.nil,.slnil⟩,nofun,.nil,nofun,rfl,List.nil_prefix⟩
  sound := sound_initial environment
  ordered := ordered_initial environment
  guarded := by
    refine ⟨rfl,fun _ found => ?_,fun _ member => ?_,fun _ member => ?_⟩
    · cases found
    · cases member
    · cases member
  arrived := .nil
  available := le_rfl

end

def plainSurroundings : Surroundings Unit Unit where
  isVisible _ _ _ := true
  resolveObject _ _ := true
  getTime _ := (0,())

def lateObject : ObjectId := ⟨8,1⟩

def atSender (operation : Operation) (turns : Nat) : List (LinkEvent Unit Unit Unit) :=
  .sender (.call operation) :: List.replicate turns (.sender .advance)

def atReceiver (operation : Operation) (turns : Nat) : List (LinkEvent Unit Unit Unit) :=
  .receiver (.call operation) :: List.replicate turns (.receiver .advance)

/-- Both sides know one function Remote; only the receiver has the late object materialized. -/
def linkSetUp : List (LinkEvent Unit Unit Unit) :=
  atSender (.registerRemote firstRemote .function) 1 ++ atReceiver (.registerRemote firstRemote .function) 1 ++
    atSender (.addPeer firstPeer ⟨1⟩ .nativeCeilings) 1 ++ atReceiver (.addPeer secondPeer ⟨1⟩ .nativeCeilings) 1 ++
    atSender (.publishRemote firstPeer firstRemote true) 1 ++
    atReceiver (.publishRemote secondPeer firstRemote true) 1 ++
    atReceiver (.setRequestHandler firstRemote (some 0)) 1 ++ atReceiver (.markMaterialized secondPeer lateObject) 1

def lateRequest : List (LinkEvent Unit Unit Unit) :=
  atSender (.startRequest firstPeer firstRemote [.objectReference lateObject] false 1000) 1

def plainRequest : List (LinkEvent Unit Unit Unit) := atSender (.startRequest firstPeer firstRemote [] false 1000) 1

def materialize : List (LinkEvent Unit Unit Unit) :=
  atSender (.markMaterialized firstPeer lateObject) 1 ++ atSender (.pump 10) 5

def handOver : List (LinkEvent Unit Unit Unit) := .deliver :: .receiver .advance :: atReceiver (.pump 10) 3

/-- The handler returns and the pump ends. -/
def finish : List (LinkEvent Unit Unit Unit) :=
  .receiver .return :: List.replicate 3 (.receiver .advance)

def ending (l : Link Unit Unit Unit) : List (Nat × Disposition) :=
  l.receiver.state.history.dispositions.map fun e => (e.1.message.request.toNat,e.2)

end Gargantuan.RemoteManager
