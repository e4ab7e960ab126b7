import Mathlib.Data.Finset.Basic
import Gargantuan.SortedMap
import Gargantuan.RemoteProtocol
import Gargantuan.MessageIntent

/-!
The state of a `RemoteManager` and those of its functions that call no user code.
The scheduler, the clock and the object lookups are a `Host` over an arbitrary
environment, so every behaviour of theirs is covered. Cumulative diagnostics
(high-water marks, residence times, outcome counters) are left out; `BoundViolations`
and the counters that admission decisions read are kept.
-/
namespace Gargantuan.RemoteManager
open MonotonicSequence

def maximumRemoteCallsPerPeerPerSecond : Nat := 1024
def maximumRemoteCallsPerRemotePerSecond : Nat := 256
def maximumRemoteCallsPerManagerPerSecond : Nat := 8192
def maximumConcurrentRemoteHandlersPerPeer : Nat := 64
def maximumConcurrentRemoteHandlersPerManager : Nat := 4096
def maximumRemoteInFlightRequestsPerManager : Nat := 8192
def maximumRemotePeers : Nat := 512
def maximumRemotePeerSlots : Nat := 16 * 1024
def maximumQueuedRemoteDispatchMessages : Nat := 8192
def maximumQueuedRemoteDispatchBytes : Nat := 32 * 1024 * 1024
def maximumRemoteBroadcastSubmissionsPerSecond : Nat := 4096
def maximumRemoteBroadcastBytesPerSecond : Nat := 16 * 1024 * 1024
def maximumRemoteGeneratedReliableMessagesPerSecond : Nat := 4096
def maximumRemoteGeneratedReliableBytesPerSecond : Nat := 32 * 1024 * 1024

/-- A point of the steady clock, in nanoseconds. -/
abbrev Time := Int
def second : Time := 1000000000
def milliseconds (n : Int) : Time := n * 1000000

/-- Unsigned subtraction as `std::size_t` does it. -/
def sizeSub (a b : Nat) : Nat := if b ≤ a then a - b else a + 2 ^ 64 - b

inductive DisconnectReason where
  | localShutdown | remoteShutdown | timeout | authenticationFailure | protocolViolation | resourceExhaustion
  | transportFailure | incompatibleVersion
deriving DecidableEq, Repr

structure DisconnectInfo where
  reason : DisconnectReason
  diagnostic : ByteString
deriving DecidableEq

inductive SchedulerSubmitStatus where
  | accepted | acceptedWithSupersession | droppedUnreliable | invalidConnection | intentRejected
  | reliableBacklogExhausted
deriving DecidableEq, Repr

structure SchedulerSubmitResult where
  status : SchedulerSubmitStatus
  terminalDisconnect : Option DisconnectInfo := none

def SchedulerSubmitResult.accepted (r : SchedulerSubmitResult) : Bool :=
  r.status == .accepted || r.status == .acceptedWithSupersession

/-- What a manager is constructed over. An empty callback behaves as one that always refuses. -/
structure Host (ε : Type) where
  isVisible : ε → ConnectionId → ObjectId → Bool
  resolveObject : ε → ObjectId → Bool
  getTime : ε → Time × ε
  submit : ε → NetworkMessageIntent → SchedulerSubmitResult × ε

inductive RemoteSendStatus where
  | accepted | deferredForMaterialization | droppedUnreliable | invalidPeer | unknownRemote | unpublishedRemote
  | wrongRemoteKind | invalidArguments | invisibleReference | referenceNotMaterialized | rateLimited
  | requestLimitExceeded | schedulerRejected
deriving DecidableEq, Repr

structure RemoteSendResult where
  status : RemoteSendStatus
  request : Option RemoteRequestId := none
  terminalDisconnect : Option DisconnectInfo := none
deriving DecidableEq

def RemoteSendResult.accepted (r : RemoteSendResult) : Bool :=
  r.status == .accepted || r.status == .deferredForMaterialization

/-- A fixed window of one second that starts with the first call after it ended. -/
structure RateWindow where
  start : Time := 0
  initialized : Bool := false
deriving DecidableEq

def RateWindow.restarts (w : RateWindow) (now : Time) : Bool :=
  !w.initialized || decide (now < w.start) || decide (now - w.start ≥ second)

structure PeerState where
  epoch : ReplicationEpoch
  limits : NetworkLimits
  publishedRemotes : Finset ObjectId := ∅
  materializedObjects : Finset ObjectId := ∅
  publications : SortedMap ObjectId RemotePublicationId := ∅
  nextOutgoingSequence : SortedMap ObjectId RemoteEventSequence := ∅
  latestIncomingSequence : SortedMap ObjectId RemoteEventSequence := ∅
  nextRequest : RemoteRequestId := ⟨1⟩
  latestIncomingRequest : RemoteRequestId := {}
  rateWindow : RateWindow := {}
  totalCalls : Nat := 0
  callsByRemote : SortedMap ObjectId Nat := ∅
  concurrentHandlers : Nat := 0
  pendingOutgoingRequests : Nat := 0
  queuedDispatchMessages : Nat := 0
  queuedDispatchBytes : Nat := 0
  deferredReliableBytes : Nat := 0

structure PendingKey where
  connection : ConnectionId
  request : RemoteRequestId
deriving DecidableEq

namespace PendingKey

def key (k : PendingKey) : Nat := k.connection.key * 2 ^ 64 + k.request.toNat

theorem key_injective : Function.Injective key := by
  rintro ⟨connectionA,requestA⟩ ⟨connectionB,requestB⟩ same
  simp only [key,MonotonicSequence.toNat] at same
  have boundA := requestA.value.toNat_lt
  have boundB := requestB.value.toNat_lt
  have connections : connectionA = connectionB := GenerationalId.key_injective (by omega)
  have requests : requestA = requestB :=
    toNat_injective (by simp only [MonotonicSequence.toNat]; omega)
  rw [connections,requests]

instance : LinearOrder PendingKey := LinearOrder.lift' key key_injective

end PendingKey

abbrev RequestCompletion := Option Nat

structure PendingRequest where
  remote : ObjectId
  deadline : Time
  completion : RequestCompletion
deriving DecidableEq

structure IncomingRequest where
  remote : ObjectId
  replyDeadline : Time
  workDeadline : Time
  acceptReply : Bool := true
deriving DecidableEq

/-- A received message that waits for dispatch. The last two fields are history only: its place in
    the order of acceptance, and how often a pump moved it to the back of the queue. -/
structure QueuedMessage where
  connection : ConnectionId
  message : RemoteMessage
  encodedBytes : Nat
  arrival : Nat
  moves : Nat := 0
deriving DecidableEq

structure DeferredMessage where
  connection : ConnectionId
  message : RemoteMessage
  encoded : List UInt8
  dependencies : List ObjectId
  deadline : Time
deriving DecidableEq

inductive RemoteRequestTerminalStatus where
  | success | timeout | cancelled | disconnected | remoteError | protocolRejected | resourceRejected
deriving DecidableEq, Repr

structure RemoteRequestResult where
  request : RemoteRequestId
  status : RemoteRequestTerminalStatus
  error : Option StructuredRemoteError := none
  results : List WireValue := []
deriving DecidableEq

structure PendingCompletion where
  completion : RequestCompletion
  result : RemoteRequestResult
deriving DecidableEq

structure RemoteMetrics where
  queuedDispatchMessages : Nat := 0
  queuedDispatchBytes : Nat := 0
  deferredReliableMessages : Nat := 0
  deferredReliableBytes : Nat := 0
  inFlightRequests : Nat := 0
  boundViolations : Nat := 0
deriving DecidableEq

structure AcceptedRequest where
  completion : Nat
  key : PendingKey
  remote : ObjectId
  publication : Option RemotePublicationId
deriving DecidableEq

/-- The way `Dispatch` was left for one message. -/
inductive Disposition where
  | managerRateLimited | unavailable | publicationMismatch | argumentsRejected | peerRateLimited | staleSequence
  | noEventHandler | eventHandled | unmatchedResponse | requestCompleted | cancellationSeen | replayedRequest
  | duplicateRequest | requestLimit | noRequestHandler | requestHandled
deriving DecidableEq, Repr

/-- What happened so far. Nothing in the code reads it. -/
structure History where
  underflowed : Bool := false
  issued : Nat := 0
  accepted : List AcceptedRequest := []
  invoked : List Nat := []
  received : List QueuedMessage := []
  dispatched : List QueuedMessage := []
  dropped : List QueuedMessage := []
  dispositions : List (QueuedMessage × Disposition) := []
  sent : List (ConnectionId × RemoteMessage) := []

structure State (ε : Type) where
  environment : ε
  active : Bool := true
  peers : SortedMap ConnectionId PeerState := ∅
  highestPeerGeneration : SortedMap Nat UInt32 := ∅
  remotes : SortedMap ObjectId RemoteInstanceKind := ∅
  eventHandlers : SortedMap ObjectId (Option Nat) := ∅
  requestHandlers : SortedMap ObjectId (Option Nat) := ∅
  pendingRequests : SortedMap PendingKey PendingRequest := ∅
  incomingRequests : SortedMap PendingKey IncomingRequest := ∅
  dispatchQueue : List QueuedMessage := []
  deferred : List DeferredMessage := []
  broadcastRateWindow : RateWindow := {}
  broadcastBytes : Nat := 0
  broadcastSubmissions : Nat := 0
  managerRateWindow : RateWindow := {}
  managerCalls : Nat := 0
  generatedRateWindow : RateWindow := {}
  generatedReliableMessages : Nat := 0
  generatedReliableBytes : Nat := 0
  terminalConnections : SortedMap ConnectionId DisconnectInfo := ∅
  onTerminal : Option Nat := none
  metrics : RemoteMetrics := {}
  history : History := {}

def remoteStateChannel (remote : ObjectId) : StateChannelId := ⟨remote.combined⟩

def isCall : RemoteMessageKind → Bool
  | .reliableEvent | .unreliableEvent | .sequencedEvent | .request => true
  | _ => false

def deliveryFor : RemoteMessageKind → DeliveryMode
  | .unreliableEvent => .unreliableUnordered
  | .sequencedEvent => .unreliableSequenced
  | _ => .reliableOrdered

def trafficFor : RemoteMessageKind → TrafficClass
  | .unreliableEvent => .ephemeralApplication
  | .sequencedEvent => .realtimeState
  | _ => .reliableApplication

def orderFor (m : RemoteMessage) : MessageOrder :=
  if m.kind ≠ .sequencedEvent then .none else .remoteEvent (remoteStateChannel m.remote) m.publication m.sequence

def terminalResult (request : RemoteRequestId) (status : RemoteRequestTerminalStatus) (results : List WireValue := [])
    (error : Option StructuredRemoteError := none) : RemoteRequestResult :=
  { request, status, error, results }

section
variable {ε : Type} (host : Host ε) (s : State ε)

/-! ### Admission -/

def readTime : Time × State ε :=
  let (now,environment) := host.getTime s.environment
  (now,{ s with environment })

/-- The bounds `ObserveOwnership` checks for one peer. -/
def exceedsBounds (peer : PeerState) : Bool :=
  decide (s.dispatchQueue.length > maximumQueuedRemoteDispatchMessages) ||
  decide (s.metrics.queuedDispatchBytes > maximumQueuedRemoteDispatchBytes) ||
  decide (s.deferred.length > maximumQueuedRemoteDispatchMessages) ||
  decide (s.metrics.deferredReliableBytes > maximumQueuedRemoteDispatchBytes) ||
  decide (s.pendingRequests.size > maximumRemoteInFlightRequestsPerManager) ||
  decide (s.incomingRequests.size > maximumConcurrentRemoteHandlersPerManager) ||
  decide (peer.queuedDispatchMessages > peer.limits.maximumMessagesPerTick) ||
  decide (peer.queuedDispatchBytes > peer.limits.maximumReceiveBytesPerTick) ||
  decide (peer.deferredReliableBytes > peer.limits.maximumQueuedReliableBytes) ||
  decide (peer.pendingOutgoingRequests > peer.limits.maximumInFlightRemoteRequests) ||
  decide (peer.concurrentHandlers > maximumConcurrentRemoteHandlersPerPeer) ||
  decide (peer.concurrentHandlers > peer.limits.maximumInFlightRemoteRequests)

def observeOwnership (connection : ConnectionId) : State ε :=
  if (s.peers.find? connection).any (exceedsBounds s) then
    { s with metrics := { s.metrics with boundViolations := s.metrics.boundViolations + 1 } }
  else s

/-- `none` is a refusal; otherwise the referenced objects the peer has not materialized yet, which
    are a refusal themselves unless the caller collects them. -/
def checkArguments (connection : ConnectionId) (peer : PeerState) (requireMaterialized collect : Bool) :
    List WireValue → Option (List ObjectId)
  | [] => some []
  | argument :: rest =>
    if !argumentValid argument then none
    else match argument with
      | .objectReference object =>
        if !object.isValid || !host.isVisible s.environment connection object ||
            !host.resolveObject s.environment object then none
        else if requireMaterialized && decide (object ∉ peer.materializedObjects) then
          if collect then (checkArguments connection peer requireMaterialized collect rest).map (object :: ·) else none
        else checkArguments connection peer requireMaterialized collect rest
      | _ => checkArguments connection peer requireMaterialized collect rest

def argumentsMissing (connection : ConnectionId) (arguments : List WireValue) (requireMaterialized collect : Bool) :
    Option (List ObjectId) :=
  if arguments.length > maximumRemoteArguments then none
  else match s.peers.find? connection with
    | none => none
    | some peer => checkArguments host s connection peer requireMaterialized collect arguments

def argumentsValid (connection : ConnectionId) (arguments : List WireValue) (requireMaterialized : Bool) : Bool :=
  (argumentsMissing host s connection arguments requireMaterialized false).isSome

def remoteAvailable (connection : ConnectionId) (remote : ObjectId) : Bool :=
  match s.peers.find? connection, s.remotes.find? remote with
  | some peer, some _ =>
    decide (remote ∈ peer.publishedRemotes) && decide (remote ∈ peer.materializedObjects) &&
      host.isVisible s.environment connection remote
  | _, _ => false

def storedPublication (connection : ConnectionId) (remote : ObjectId) : Option RemotePublicationId :=
  (s.peers.find? connection).bind fun peer => peer.publications.find? remote

def publicationOf (connection : ConnectionId) (remote : ObjectId) : Option RemotePublicationId :=
  (storedPublication s connection remote).filter MonotonicSequence.isValid

def admitManagerCall : Bool × State ε :=
  let (now,s) := readTime host s
  let s := if s.managerRateWindow.restarts now then
      { s with managerRateWindow := ⟨now,true⟩, managerCalls := 0 } else s
  if s.managerCalls ≥ maximumRemoteCallsPerManagerPerSecond then (false,s)
  else (true,{ s with managerCalls := s.managerCalls + 1 })

def restartPeerWindow (now : Time) (peer : PeerState) : PeerState :=
  if peer.rateWindow.restarts now then { peer with rateWindow := ⟨now,true⟩, totalCalls := 0, callsByRemote := ∅ }
  else peer

def admitPeerCall (connection : ConnectionId) (remote : ObjectId) : Bool × State ε :=
  let (now,s) := readTime host s
  let s := { s with peers := s.peers.modify connection (restartPeerWindow now) }
  match s.peers.find? connection with
  | none => (false,s)
  | some peer =>
    let remoteCalls := (peer.callsByRemote.find? remote).getD 0
    if peer.totalCalls ≥ maximumRemoteCallsPerPeerPerSecond ||
        remoteCalls ≥ maximumRemoteCallsPerRemotePerSecond then (false,s)
    else (true,{ s with peers := s.peers.modify connection fun peer =>
      { peer with totalCalls := peer.totalCalls + 1
                  callsByRemote := peer.callsByRemote.insert remote (remoteCalls + 1) } })

def admitCall (connection : ConnectionId) (remote : ObjectId) : Bool × State ε :=
  match admitManagerCall host s with
  | (false,s) => (false,s)
  | (true,s) => admitPeerCall host s connection remote

def admitGeneratedReliable (bytes : Nat) : Bool × State ε :=
  let (now,s) := readTime host s
  let s := if s.generatedRateWindow.restarts now then
      { s with generatedRateWindow := ⟨now,true⟩, generatedReliableMessages := 0, generatedReliableBytes := 0 } else s
  if s.generatedReliableMessages ≥ maximumRemoteGeneratedReliableMessagesPerSecond ||
      bytes > maximumRemoteGeneratedReliableBytesPerSecond - s.generatedReliableBytes then (false,s)
  else (true, { s with generatedReliableMessages := s.generatedReliableMessages + 1
                       generatedReliableBytes := s.generatedReliableBytes + bytes })

def PeerState.withDeferred (bytes : Nat) (peer : PeerState) : PeerState :=
  { peer with deferredReliableBytes := peer.deferredReliableBytes + bytes }

/-- Parks a message whose arguments are not materialized for the peer. -/
def deferMessage (connection : ConnectionId) (message : RemoteMessage) (encoded : List UInt8)
    (missing : List ObjectId) : State ε :=
  let (started,s) := readTime host s
  let wait := if message.kind = .request then message.deadline else maximumRemoteRequestDeadline
  let deferred := s.deferred ++ [⟨connection,message,encoded,missing,started + milliseconds wait⟩]
  let s := { s with
    deferred
    peers := s.peers.modify connection (PeerState.withDeferred encoded.length)
    metrics := { s.metrics with
      deferredReliableMessages := deferred.length
      deferredReliableBytes := s.metrics.deferredReliableBytes + encoded.length } }
  observeOwnership s connection

/-- The reason a rejected submission ends the connection for; a reliable message always has one. -/
def rejectionTerminal (delivery : DeliveryMode) : Option DisconnectInfo → Option DisconnectInfo
  | some info => some info
  | none =>
    if delivery = .reliableOrdered then
      some ⟨.resourceExhaustion,ascii "Reliable Remote message was rejected by the scheduler"⟩
    else none

/-- Remembers that a connection must end; the first reason stays. -/
def condemn (connection : ConnectionId) : Option DisconnectInfo → State ε
  | none => s
  | some info =>
    if s.terminalConnections.contains connection then s
    else { s with terminalConnections := s.terminalConnections.insert connection info }

def submitIntent (connection : ConnectionId) (delivery : DeliveryMode) (intent : NetworkMessageIntent) :
    RemoteSendResult × State ε :=
  let (submitted,environment) := host.submit s.environment intent
  let s := { s with environment }
  if submitted.status = .droppedUnreliable then ({ status := .droppedUnreliable },s)
  else if !submitted.accepted then
    let terminal := rejectionTerminal delivery submitted.terminalDisconnect
    ({ status := .schedulerRejected, terminalDisconnect := terminal },condemn s connection terminal)
  else ({ status := .accepted },s)

/-- The room checks before a message is parked. -/
def deferralFits (peer : PeerState) (bytes : Nat) : Bool :=
  decide (s.deferred.length < maximumQueuedRemoteDispatchMessages) &&
  decide (bytes ≤ maximumQueuedRemoteDispatchBytes) &&
  decide (s.metrics.deferredReliableBytes ≤ maximumQueuedRemoteDispatchBytes - bytes) &&
  decide (bytes ≤ peer.limits.maximumQueuedReliableBytes) &&
  decide (peer.deferredReliableBytes ≤ peer.limits.maximumQueuedReliableBytes - bytes)

def submitEncoded (connection : ConnectionId) (message : RemoteMessage) (encoded : List UInt8)
    (allowDependencyDeferral : Bool) : RemoteSendResult × State ε :=
  match s.peers.find? connection with
  | none => ({ status := .invalidPeer },s)
  | some peer =>
    match argumentsMissing host s connection message.arguments true true with
    | none => ({ status := .invisibleReference },s)
    | some [] =>
      let delivery := deliveryFor message.kind
      match makeNetworkMessageIntent connection delivery (trafficFor message.kind) (orderFor message) encoded
          peer.limits with
      | none => ({ status := .schedulerRejected },s)
      | some intent => submitIntent host s connection delivery intent
    | some missing =>
      if !allowDependencyDeferral || deliveryFor message.kind ≠ .reliableOrdered then
        ({ status := .referenceNotMaterialized },s)
      else if !deferralFits s peer encoded.length then ({ status := .schedulerRejected },s)
      else ({ status := .deferredForMaterialization },deferMessage host s connection message encoded missing)

def isGenerated : RemoteMessageKind → Bool
  | .response | .requestError | .cancellation => true
  | _ => false

def noteSent (connection : ConnectionId) (message : RemoteMessage) (result : RemoteSendResult) : State ε :=
  if result.accepted then
    { s with history := { s.history with sent := s.history.sent ++ [(connection,message)] } }
  else s

def sendMessage (connection : ConnectionId) (message : RemoteMessage) (allowDependencyDeferral : Bool) :
    RemoteSendResult × State ε :=
  match s.peers.find? connection with
  | none => ({ status := .invalidPeer },s)
  | some _ =>
    match publicationOf s connection message.remote with
    | none => ({ status := .unpublishedRemote },s)
    | some publication =>
      let message := { message with publication }
      match encodeRemoteMessage message with
      | .error _ => ({ status := .invalidArguments },s)
      | .ok encoded =>
        let (admitted,s) := if isGenerated message.kind then admitGeneratedReliable host s encoded.length else (true,s)
        if !admitted then ({ status := .rateLimited },s)
        else
          let (result,s) := submitEncoded host s connection message encoded allowDependencyDeferral
          (result,noteSent s connection message result)

/-! ### Releasing what is held -/

def PeerState.withoutQueued (bytes : Nat) (peer : PeerState) : PeerState :=
  { peer with queuedDispatchMessages := sizeSub peer.queuedDispatchMessages 1
              queuedDispatchBytes := sizeSub peer.queuedDispatchBytes bytes }

def PeerState.withoutDeferred (bytes : Nat) (peer : PeerState) : PeerState :=
  { peer with deferredReliableBytes := sizeSub peer.deferredReliableBytes bytes }

/-- Both decrements are guarded by a test for zero in the source. -/
def PeerState.endOutgoing (peer : PeerState) : PeerState :=
  { peer with pendingOutgoingRequests := peer.pendingOutgoingRequests - 1 }

def PeerState.endHandler (peer : PeerState) : PeerState :=
  { peer with concurrentHandlers := peer.concurrentHandlers - 1 }

def releaseQueued (q : QueuedMessage) : State ε :=
  { s with
    peers := s.peers.modify q.connection (PeerState.withoutQueued q.encodedBytes)
    metrics := { s.metrics with queuedDispatchBytes := sizeSub s.metrics.queuedDispatchBytes q.encodedBytes }
    history := { s.history with
      underflowed := s.history.underflowed || decide (s.metrics.queuedDispatchBytes < q.encodedBytes) ||
        (s.peers.find? q.connection).any fun peer =>
          decide (peer.queuedDispatchMessages < 1) || decide (peer.queuedDispatchBytes < q.encodedBytes) } }

def releaseDeferred (d : DeferredMessage) : State ε :=
  { s with
    peers := s.peers.modify d.connection (PeerState.withoutDeferred d.encoded.length)
    metrics := { s.metrics with deferredReliableBytes := sizeSub s.metrics.deferredReliableBytes d.encoded.length }
    history := { s.history with
      underflowed := s.history.underflowed || decide (s.metrics.deferredReliableBytes < d.encoded.length) ||
        (s.peers.find? d.connection).any fun peer => decide (peer.deferredReliableBytes < d.encoded.length) } }

/-- Erases the queued messages that satisfy a test, one after the other. -/
def dropQueued (gone : QueuedMessage → Bool) : State ε :=
  let dropped := s.dispatchQueue.filter gone
  let s := dropped.foldl releaseQueued { s with dispatchQueue := s.dispatchQueue.filter fun q => !gone q }
  { s with history := { s.history with dropped := s.history.dropped ++ dropped } }

/-- Erases the deferred messages that satisfy a test, one after the other. -/
def dropDeferred (gone : DeferredMessage → Bool) : State ε :=
  (s.deferred.filter gone).foldl releaseDeferred { s with deferred := s.deferred.filter fun d => !gone d }

def refreshQueueMetric : State ε :=
  { s with metrics := { s.metrics with queuedDispatchMessages := s.dispatchQueue.length } }

def refreshDeferredMetric : State ε :=
  { s with metrics := { s.metrics with deferredReliableMessages := s.deferred.length } }

/-- The two loops at the end of taking a Remote away, and the metrics after them. -/
def dropMessages (goneQueued : QueuedMessage → Bool) (goneDeferred : DeferredMessage → Bool) : State ε :=
  refreshDeferredMetric (refreshQueueMetric (dropDeferred (dropQueued s goneQueued) goneDeferred))

def isRequestOf (key : PendingKey) (d : DeferredMessage) : Bool :=
  d.connection == key.connection && d.message.kind == .request && d.message.request == key.request

def takePending (key : PendingKey) (result : RemoteRequestResult) : Option PendingCompletion × State ε :=
  match s.pendingRequests.find? key with
  | none => (none,s)
  | some pending =>
    let s := refreshDeferredMetric (dropDeferred s (isRequestOf key))
    let pendingRequests := s.pendingRequests.erase key
    let s := { s with
      peers := s.peers.modify key.connection PeerState.endOutgoing
      pendingRequests
      metrics := { s.metrics with inFlightRequests := pendingRequests.size } }
    (some ⟨pending.completion,result⟩,s)

def takeAll (status : RemoteRequestTerminalStatus) : State ε → List PendingKey → List PendingCompletion × State ε
  | s, [] => ([],s)
  | s, key :: rest =>
    let (pending,s) := takePending s key (terminalResult key.request status)
    let (others,s) := takeAll status s rest
    (pending.toList ++ others,s)

def pendingKeys (selected : PendingKey → PendingRequest → Bool) : List PendingKey :=
  (s.pendingRequests.filter selected).keys

def closeHandler (key : PendingKey) : State ε :=
  { s with
    incomingRequests := s.incomingRequests.erase key
    peers := s.peers.modify key.connection PeerState.endHandler }

/-- The totals lose the bytes of a removed peer's messages; its own counters go with it. -/
def forgetQueued (connection : ConnectionId) : State ε :=
  let dropped := s.dispatchQueue.filter fun q => q.connection == connection
  let bytes := (dropped.map QueuedMessage.encodedBytes).foldl sizeSub s.metrics.queuedDispatchBytes
  { s with
    dispatchQueue := s.dispatchQueue.filter fun q => q.connection != connection
    metrics := { s.metrics with queuedDispatchBytes := bytes }
    history := { s.history with
      underflowed := s.history.underflowed ||
        decide (s.metrics.queuedDispatchBytes < (dropped.map QueuedMessage.encodedBytes).sum)
      dropped := s.history.dropped ++ dropped } }

def forgetDeferred (connection : ConnectionId) : State ε :=
  let dropped := (s.deferred.filter fun d => d.connection == connection).map fun d => d.encoded.length
  { s with
    deferred := s.deferred.filter fun d => d.connection != connection
    metrics := { s.metrics with deferredReliableBytes := dropped.foldl sizeSub s.metrics.deferredReliableBytes }
    history := { s.history with
      underflowed := s.history.underflowed || decide (s.metrics.deferredReliableBytes < dropped.sum) } }

/-- Removes a peer with everything it owns. The completions are still to be run. -/
def removePeerState (connection : ConnectionId) : Bool × List PendingCompletion × State ε :=
  match s.peers.find? connection with
  | none => (false,[],s)
  | some _ =>
    let (completions,s) := takeAll .disconnected s (pendingKeys s fun key _ => key.connection == connection)
    let s := { s with incomingRequests := s.incomingRequests.filter fun key _ => key.connection != connection }
    let s := refreshQueueMetric (refreshDeferredMetric (forgetDeferred (forgetQueued s connection) connection))
    (true,completions,{ s with peers := s.peers.erase connection })

def requestErrorMessage (remote : ObjectId) (request : RemoteRequestId) (code text : String) : RemoteMessage :=
  { kind := .requestError, remote, request, error := some ⟨ascii code,ascii text⟩ }

def replyMessage (key : PendingKey) (remote : ObjectId) (results : List WireValue)
    (error : Option StructuredRemoteError) : RemoteMessage :=
  match error with
  | some error => { kind := .requestError, remote, request := key.request, error := some error }
  | none => { kind := .response, remote, request := key.request, arguments := results }

def replyInTime (incoming : IncomingRequest) : Bool × State ε :=
  if incoming.acceptReply then
    let (now,s) := readTime host s
    (decide (now < incoming.replyDeadline),s)
  else (false,s)

def sendReply (key : PendingKey) (remote : ObjectId) (results : List WireValue)
    (error : Option StructuredRemoteError) : Bool × State ε :=
  match s.incomingRequests.find? key with
  | none => (false,s)
  | some incoming =>
    if incoming.remote ≠ remote then (false,s)
    else match s.peers.find? key.connection with
      | none => (false,s)
      | some _ =>
        let (inTime,s) := replyInTime host s incoming
        let canReply := inTime && remoteAvailable host s key.connection remote
        let s := closeHandler s key
        if !canReply then (false,s)
        else
          let message := replyMessage key remote results error
          let message := if !message.isValid || !argumentsValid host s key.connection message.arguments false then
              requestErrorMessage remote key.request "invalid_result" "Remote handler returned unsupported values"
            else message
          let (result,s) := sendMessage host s key.connection message true
          (result.accepted,s)

def rejectRequest (connection : ConnectionId) (message : RemoteMessage) (code text : String) : State ε :=
  if !message.request.isValid then s
  else (sendMessage host s connection (requestErrorMessage message.remote message.request code text) false).2

def answerUnavailable (key : PendingKey) (incoming : IncomingRequest) : State ε :=
  if incoming.acceptReply then
    (sendMessage host s key.connection
      (requestErrorMessage incoming.remote key.request "remote_unavailable" "Remote is unavailable") false).2
  else s

def closeIncoming : State ε → List (PendingKey × IncomingRequest) → State ε
  | s, [] => s
  | s, (key,incoming) :: rest =>
    closeIncoming (closeHandler (answerUnavailable host s key incoming) key) rest

end
end Gargantuan.RemoteManager
