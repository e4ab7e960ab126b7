import Gargantuan.RemoteRuns

/-!
In which order messages leave the queue. Every step of a manager is passive, queues one
received message, or is one turn of a dispatch loop. A turn that moves a message to the
back overtakes it with the messages behind it, so the messages of a connection are only
in the order of their acceptance while all of them have been moved equally often.
-/
namespace Gargantuan.RemoteManager
open List QueuedMessage Bool

section
variable {ε : Type} {s t : State ε} (host : Host ε)

theorem passive_advance (s : State ε) {frame : Frame} (idle : frame.dispatching = false) :
    Passive s (advance host s frame).1 := by
  cases frame with
  | callback c => exact .refl s
  | completions rest =>
    cases rest with
    | nil => exact .refl s
    | cons pending rest =>
      simp only [advance]
      split
      · exact .refl s
      · exact .of_latest (.of_eq rfl rfl rfl rfl) rfl (fun _ member => member) fun _ => rfl
  | drainTerminals =>
    simp only [advance]
    split
    · exact .refl s
    · exact .of_latest (.of_eq rfl rfl rfl rfl) rfl (fun _ member => member) fun _ => rfl
  | removeTerminals rest =>
    cases rest with
    | nil => exact .refl s
    | cons c rest => exact (keeps_removePeerState s c).toPassive
  | notifyTerminals rest =>
    cases rest with
    | nil => exact .refl s
    | cons terminal rest =>
      simp only [advance]
      split <;> exact .refl s
  | sendCancellation key remote => exact (quiet_sendMessage ..).passive
  | pumpTimeouts now rest =>
    cases rest with
    | nil => exact .refl s
    | cons key rest =>
      simp only [advance]
      split
      · exact .refl s
      · exact (keeps_takePending key _).toPassive
  | pumpIncoming now maximumMessages => exact (keeps_pumpIncoming host s now maximumMessages).toPassive
  | pumpDispatch loop => cases idle
  | broadcast rest remote arguments results =>
    cases rest with
    | nil => exact .refl s
    | cons c rest => exact (keeps_sendEvent host s c remote arguments).toPassive
  | finish result => exact .refl s

theorem passive_begin (b : Balanced s) {operation : Operation} (notReceived : ∀ connection delivery traffic order payload,
    operation ≠ .handleTransportEvent (.received connection delivery traffic order payload)) :
    Passive s (begin host s operation).1 := by
  cases operation with
  | addPeer c epoch limits => exact passive_addPeer b c epoch limits
  | removePeer c => exact (keeps_removePeer s c).toPassive
  | registerRemote remote kind => exact (quiet_registerRemote s remote kind).passive
  | unregisterRemote remote => exact (keeps_unregisterRemote host s remote).toPassive
  | publishRemote c remote materialized => exact (keeps_publishRemote host s c remote materialized).toPassive
  | unpublishRemote c remote => exact (keeps_unpublishRemote host s c remote).toPassive
  | markMaterialized c object => exact (keeps_markMaterialized host s c object).toPassive
  | markUnmaterialized c object => exact (keeps_markUnmaterialized host s c object).toPassive
  | setEventHandler remote handler => exact (quiet_setEventHandler s remote handler).passive
  | setRequestHandler remote handler => exact (quiet_setRequestHandler s remote handler).passive
  | setTerminalHandler handler => exact .of_latest (.of_eq rfl rfl rfl rfl) rfl (fun _ member => member) fun _ => rfl
  | sendEvent c remote arguments => exact (keeps_sendEvent host s c remote arguments).toPassive
  | broadcast remote arguments => exact (keeps_startBroadcast host s remote arguments).toPassive
  | startRequest c remote arguments callable deadline =>
    exact (preserves_startRequest host s c remote arguments _ deadline fun _ r => freshFor_issuing r callable).2
  | cancelRequest c request => exact (keeps_cancelRequest s ⟨c,request⟩).toPassive
  | handleTransportEvent event =>
    have unchanged : Passive s s := .refl s
    simp only [begin,handleTransportEvent]
    split
    · exact unchanged
    split
    · exact (keeps_removePeer s _).toPassive
    · exact (keeps_removePeer s _).toPassive
    · exact unchanged
    · exact unchanged
    · exact absurd rfl (notReceived _ _ _ _ _)
  | pump maximumMessages => exact (keeps_pump host s maximumMessages).toPassive
  | reply key remote results error =>
    simp only [begin]
    split
    · exact (keeps_sendReply host s key remote results error).toPassive
    · exact .refl s
  | destroy => exact (keeps_destroy s).toPassive

/-- The three kinds of steps. -/
inductive Flow (c : Config ε) (event : Event ε) (d : Config ε) : Prop where
  | passive (passive : Passive c.state d.state)
  | received {connection : ConnectionId} {peer : PeerState} {message : RemoteMessage} {delivery : DeliveryMode}
      {traffic : TrafficClass} {order : MessageOrder} {payload : List UInt8}
      (arrived : event = .call (.handleTransportEvent (.received connection delivery traffic order payload)))
      (found : c.state.peers.find? connection = some peer) (decoded : decodeRemoteMessage payload = .ok message)
      (matching : metadataMatches message delivery traffic order = true)
      (queued : d.state = enqueue host c.state connection message payload.length)
  | turned {loop : DispatchLoop} {rest : List Frame} (below : c.stack = .pumpDispatch loop :: rest)
      (advanced : event = .advance)
      (next : d = ⟨(pumpDispatch host c.state loop).1,(pumpDispatch host c.state loop).2 ++ rest⟩)

variable {c : Config ε} {queued : QueuedMessage} {rest : List QueuedMessage}

theorem flow_step {d : Config ε} {event : Event ε} (b : Balanced c.state) (stepped : step host c event = some d) :
    Flow host c event d := by
  obtain ⟨s,stack⟩ := c
  cases event with
  | call operation =>
    simp only [step] at stepped
    split at stepped
    · cases stepped
      by_cases arrived : ∃ connection delivery traffic order payload,
          operation = .handleTransportEvent (.received connection delivery traffic order payload)
      · obtain ⟨connection,delivery,traffic,order,payload,rfl⟩ := arrived
        simp only [begin,handleTransportEvent]
        split
        · exact .passive (.refl s)
        rcases receive_cases host s connection delivery traffic order payload with
          same | ⟨peer,message,found,_,decoded,matching,queued⟩
        · rw [same]
          exact .passive (.refl s)
        · rw [queued]
          exact .received rfl found decoded matching rfl
      · refine .passive (passive_begin host b fun connection delivery traffic order payload same => arrived ?_)
        exact ⟨connection,delivery,traffic,order,payload,same⟩
    · cases stepped
  | «return» =>
    simp only [step] at stepped
    split at stepped
    · cases stepped
      exact .passive (.refl s)
    · cases stepped
  | throw =>
    simp only [step] at stepped
    split at stepped
    · obtain ⟨m,caughtState,rfl⟩ := Option.map_eq_some_iff.mp stepped
      exact .passive (keeps_caught host caughtState).toPassive
    · cases stepped
  | advance =>
    simp only [step] at stepped
    split at stepped
    · cases stepped
    · cases stepped
    · rename_i _ frame rest _
      cases stepped
      by_cases idle : frame.dispatching = false
      · exact .passive (passive_advance host s idle)
      · cases frame with
        | pumpDispatch loop => exact .turned rfl rfl rfl
        | _ => exact absurd rfl idle
  | environment value =>
    simp only [step] at stepped
    split at stepped
    · cases stepped
      exact .passive (.of_latest (.of_eq rfl rfl rfl rfl) rfl (fun _ member => member) fun _ => rfl)
    · cases stepped

def DispatchLoop.takes (loop : DispatchLoop) (queued : QueuedMessage) : Bool :=
  decide (loop.processed < loop.maximumMessages) && decide (loop.candidates ≠ 0) &&
    decide (loop.processedFor queued.connection < loop.perPeerLimit)

theorem pumpDispatch_cases (s : State ε) (loop : DispatchLoop) : (pumpDispatch host s loop).1 = refreshQueueMetric s ∨
      ∃ queued rest, s.dispatchQueue = queued :: rest ∧ ((pumpDispatch host s loop).1 = rotateFront s queued rest ∨
          loop.takes queued ∧ (pumpDispatch host s loop).1 =
            noteDisposition (dispatch host (popFront s queued rest) queued).2.1 queued
              (dispatch host (popFront s queued rest) queued).1) := by
  simp only [pumpDispatch]
  split
  · rename_i queued rest front
    split
    · rename_i going
      simp only [and_eq_true,decide_eq_true_eq] at going
      refine .inr ⟨queued,rest,front,?_⟩
      split
      · exact .inl rfl
      · rename_i share
        refine .inr ⟨?_,rfl⟩
        simp only [DispatchLoop.takes,and_eq_true,decide_eq_true_eq]
        exact ⟨going,not_le.mp share⟩
    · exact .inl rfl
  · exact .inl rfl

/-! ### The order of dispatch -/

def isReliable (q : QueuedMessage) : Bool := deliveryFor q.message.kind == .reliableOrdered

def QueuedMessage.unmoved (q : QueuedMessage) : QueuedMessage := { q with moves := 0 }

def Precedes (p q : QueuedMessage) : Prop :=
  isReliable p = true → isReliable q = true → p.connection = q.connection → p.arrival < q.arrival

/-- The reliable messages of every connection leave the queue in the order of their acceptance, each
    once unless it was dropped with its peer or its Remote. -/
structure DispatchedInOrder (s : State ε) : Prop where
  numbered : s.history.received.map QueuedMessage.arrival = List.range s.history.received.length
  exactlyOnce : (s.history.received.map QueuedMessage.unmoved).Perm
    ((s.history.dispatched ++ (s.dispatchQueue ++ s.history.dropped)).map QueuedMessage.unmoved)
  inOrder : s.history.dispatched.Pairwise Precedes
  noneOvertaken : ∀ p ∈ s.history.dispatched, ∀ q ∈ s.dispatchQueue, Precedes p q

def Rotated (p q : QueuedMessage) : Prop :=
  p.connection = q.connection →
    (p.moves = q.moves → p.arrival < q.arrival) ∧ (p.moves + 1 = q.moves → q.arrival < p.arrival)

structure Ordered (s : State ε) : Prop extends DispatchedInOrder s where
  rotated : s.dispatchQueue.Pairwise Rotated

theorem Ordered.thinned (o : Ordered s) (thinned : Thinned s t) : Ordered t := by
  obtain ⟨gone,split,sub,dropped⟩ := thinned.queue
  constructor
  · constructor
    · rw [thinned.received]
      exact o.numbered
    · rw [thinned.received,thinned.dispatched,dropped]
      refine o.exactlyOnce.trans (.map _ (.append_left _ ?_))
      have moved : (s.dispatchQueue ++ s.history.dropped).Perm (gone ++ t.dispatchQueue ++ s.history.dropped) :=
        split.append_right _
      refine moved.trans ?_
      rw [append_assoc]
      exact perm_append_comm.trans (by rw [append_assoc])
    · rw [thinned.dispatched]
      exact o.inOrder
    · intro p before q queued
      rw [thinned.dispatched] at before
      exact o.noneOvertaken p before q (sub.subset queued)
  · exact o.rotated.sublist sub

variable {q : QueuedMessage}

theorem DispatchedInOrder.arrival_lt (o : DispatchedInOrder s)
    (member : q ∈ s.history.dispatched ++ (s.dispatchQueue ++ s.history.dropped)) :
    q.arrival < s.history.received.length := by
  have unmoved : q.unmoved ∈ s.history.received.map QueuedMessage.unmoved :=
    o.exactlyOnce.mem_iff.mpr (mem_map_of_mem member)
  obtain ⟨p,received,same⟩ := mem_map.mp unmoved
  have arrival := congrArg QueuedMessage.arrival same
  change p.arrival = q.arrival at arrival
  have inside : p.arrival ∈ s.history.received.map QueuedMessage.arrival := mem_map_of_mem received
  rw [o.numbered,arrival] at inside
  exact mem_range.mp inside

/-- A message that goes to the back was as often moved as the younger ones it lets pass, once less
    than the older ones that let it pass before. -/
theorem Ordered.rotateFront (o : Ordered s) (front : s.dispatchQueue = queued :: rest) :
    Ordered (rotateFront s queued rest) := by
  obtain ⟨numbered,exactlyOnce,inOrder,noneOvertaken⟩ := o.toDispatchedInOrder
  have rotated := o.rotated
  rw [front] at rotated exactlyOnce noneOvertaken
  obtain ⟨ahead,behind⟩ := pairwise_cons.mp rotated
  constructor
  · refine ⟨numbered,?_,inOrder,?_⟩
    · refine exactlyOnce.trans ?_
      simp only [RemoteManager.rotateFront,map_append,map_cons,map_nil]
      exact ((perm_append_singleton _ _).symm.append_right _).append_left _
    · intro p before q member
      rcases mem_append.mp member with later | moved
      · exact noneOvertaken p before q (.tail _ later)
      · rw [mem_singleton.mp moved]
        exact noneOvertaken p before queued (by simp)
  · refine pairwise_append.mpr ⟨behind,pairwise_singleton _ _,?_⟩
    intro k inRest q isMoved same
    rw [mem_singleton.mp isMoved] at same ⊢
    obtain ⟨equally,once⟩ := ahead k inRest same.symm
    constructor
    · intro moves
      exact once moves.symm
    · intro moves
      exact equally (Nat.succ_injective moves).symm

theorem Ordered.popFront (o : Ordered s) (front : s.dispatchQueue = queued :: rest)
    (evenly : isReliable queued → ∀ k ∈ rest, isReliable k → k.connection = queued.connection →
      k.moves = queued.moves) : Ordered (popFront s queued rest) := by
  obtain ⟨numbered,exactlyOnce,inOrder,noneOvertaken⟩ := o.toDispatchedInOrder
  have rotated := o.rotated
  rw [front] at rotated exactlyOnce noneOvertaken
  obtain ⟨ahead,behind⟩ := pairwise_cons.mp rotated
  have first : ∀ k ∈ rest, Precedes queued k := by
    intro k inRest reliable reliableK same
    exact (ahead k inRest same).1 (evenly reliable k inRest reliableK same.symm).symm
  constructor
  · refine ⟨numbered,?_,?_,?_⟩
    · refine exactlyOnce.trans (.map _ (.of_eq ?_))
      simp [RemoteManager.popFront,RemoteManager.releaseQueued]
    · refine pairwise_append.mpr ⟨inOrder,pairwise_singleton _ _,?_⟩
      intro p before q isFront
      rw [mem_singleton.mp isFront]
      exact noneOvertaken p before queued (by simp)
    · intro p before q inRest
      rcases mem_append.mp before with earlier | isFront
      · exact noneOvertaken p earlier q (.tail _ inRest)
      · rw [mem_singleton.mp isFront]
        exact first q inRest
  · exact behind

theorem movesOf_le (queued : q ∈ s.dispatchQueue) : movesOf s q.connection ≤ q.moves := by
  have member : q.moves ∈ (s.dispatchQueue.filter fun k => k.connection == q.connection).map moves :=
    mem_map_of_mem (mem_filter.mpr ⟨queued,by simp⟩)
  rw [movesOf]
  cases fewest : ((s.dispatchQueue.filter fun k => k.connection == q.connection).map moves).min? with
  | none => simp
  | some n => exact (min?_eq_some_iff.mp fewest).2 q.moves member

theorem Ordered.enqueue (o : Ordered s) (connection : ConnectionId) (message : RemoteMessage) (bytes : Nat) :
    Ordered (enqueue host s connection message bytes) := by
  obtain ⟨numbered,exactlyOnce,inOrder,noneOvertaken⟩ := o.toDispatchedInOrder
  have earlier : ∀ q ∈ s.history.dispatched ++ s.dispatchQueue, q.arrival < s.history.received.length :=
    fun q member => o.arrival_lt (by rw [← append_assoc]; exact mem_append_left _ member)
  simp only [RemoteManager.enqueue]
  refine .thinned ?_ (keeps_observeOwnership _ connection).toThinned
  generalize arrived : (⟨connection,message,bytes,_,_⟩ : QueuedMessage) = x
  have arrival : x.arrival = s.history.received.length := by rw [← arrived]; rfl
  have moves : x.moves = movesOf s x.connection := by rw [← arrived]; rfl
  constructor
  · refine ⟨?_,?_,inOrder,?_⟩
    · change (s.history.received ++ [x]).map _ = List.range (s.history.received ++ [x]).length
      rw [map_append,numbered,length_append,map_singleton,arrival]
      exact range_succ.symm
    · change ((s.history.received ++ [x]).map _).Perm
        ((s.history.dispatched ++ (s.dispatchQueue ++ [x] ++ s.history.dropped)).map _)
      rw [map_append]
      refine (exactlyOnce.append_right _).trans ?_
      rw [← map_append]
      refine .map _ ?_
      simp only [append_assoc]
      exact ((perm_append_comm).append_left _).append_left _
    · intro p before q member reliable reliableQ same
      rcases mem_append.mp member with queued | new
      · exact noneOvertaken p before q queued reliable reliableQ same
      · rw [mem_singleton.mp new,arrival]
        exact earlier p (mem_append_left _ before)
  · refine pairwise_append.mpr ⟨o.rotated,pairwise_singleton _ _,?_⟩
    intro k queued q new same
    rw [mem_singleton.mp new] at same ⊢
    have fewest : movesOf s k.connection ≤ k.moves := movesOf_le queued
    rw [same] at fewest
    constructor
    · intro _
      rw [arrival]
      exact earlier k (mem_append_right _ queued)
    · intro more
      omega

/-- Pump takes a reliable message off the queue to dispatch it only while those of its connection
    have been moved to the back equally often. -/
def takesEvenly (c : Config ε) : Event ε → Bool
  | .advance =>
    match c.stack, c.state.dispatchQueue with
    | .pumpDispatch loop :: _, queued :: rest => !loop.takes queued || !isReliable queued || rest.all fun k =>
        !isReliable k || k.connection != queued.connection || k.moves == queued.moves
    | _, _ => true
  | _ => true

theorem evenly_of_takesEvenly {loop : DispatchLoop} {frames : List Frame}
    (below : c.stack = .pumpDispatch loop :: frames) (front : c.state.dispatchQueue = queued :: rest)
    (takes : loop.takes queued) (evenly : takesEvenly c .advance) (reliable : isReliable queued)
    {k : QueuedMessage} (inRest : k ∈ rest) (reliableK : isReliable k)
    (same : k.connection = queued.connection) : k.moves = queued.moves := by
  simp only [takesEvenly,below,front,takes,reliable,Bool.not_true,Bool.false_or,all_eq_true] at evenly
  simpa [reliableK,same] using evenly k inRest

theorem ordered_step {d : Config ε} {event : Event ε} (b : Balanced c.state) (evenly : takesEvenly c event)
    (o : Ordered c.state) (stepped : step host c event = some d) : Ordered d.state := by
  cases flow_step host b stepped with
  | passive passive => exact o.thinned passive.toThinned
  | received arrived found decoded matching queued =>
    rw [queued]
    exact o.enqueue host ..
  | @turned loop frames below advanced next =>
    subst advanced next
    rcases pumpDispatch_cases host c.state loop with ended | ⟨queued,rest,front,moved | ⟨takes,taken⟩⟩
    · exact o.thinned (by rw [ended]; exact .of_eq rfl rfl rfl rfl)
    · rw [moved]
      exact o.rotateFront front
    · have popped := o.popFront front fun reliable _ => evenly_of_takesEvenly below front takes evenly reliable
      have dispatched := dispatches_dispatch host (popFront c.state queued rest) queued
      have noted : ∀ (m : State ε) disposition, Thinned m (noteDisposition m queued disposition) :=
        fun _ _ => .of_eq rfl rfl rfl rfl
      rw [taken]
      rcases dispatched.flow with passive | consumes
      · exact (popped.thinned passive.toThinned).thinned (noted _ _)
      · exact (popped.thinned consumes.toThinned).thinned (noted _ _)

theorem ordered_initial (environment : ε) : Ordered (initial environment).state where
  numbered := rfl
  exactlyOnce := .refl _
  inOrder := .nil
  noneOvertaken := nofun
  rotated := .nil

end

def secondPeer : ConnectionId := ⟨2,1⟩

def receives (connection : ConnectionId) : List (Event Unit) :=
  [.call (.handleTransportEvent (.received connection .reliableOrdered .reliableApplication .none
    (payloadOf { remote := firstRemote }))),.advance]

def pumps (maximumMessages turns : Nat) : List (Event Unit) :=
  .call (.pump maximumMessages) :: List.replicate (turns + 5) .advance

def arrivals : List (Event Unit) :=
  setUp .reliableEvent ++ [.call (.addPeer secondPeer ⟨1⟩ .nativeCeilings),.advance] ++
    receives firstPeer ++ receives firstPeer ++ receives secondPeer ++ receives firstPeer

def dispatchedBy (c : Config Unit) : List (Bool × ConnectionId × Nat) :=
  c.state.history.dispatched.map fun q => (isReliable q,q.connection,q.arrival)

end Gargantuan.RemoteManager
