import Gargantuan.RemoteState
import Gargantuan.Runs

/-!
The `RemoteManager` as a machine that may be re-entered. An operation runs until it
calls user code; what is left of it stays on a stack of frames below the callback, and
while user code runs it may call any operation again. A run is a list of events: a
call, the return or the exception of the innermost callback, one step of the
innermost operation, or a change of the environment.
-/
namespace Gargantuan.RemoteManager

structure RemoteInvocation where
  connection : ConnectionId
  epoch : ReplicationEpoch
  remote : ObjectId
  arguments : List WireValue
deriving DecidableEq

/-- User code that is running. -/
inductive Callback where
  | event (handler : Nat) (invocation : RemoteInvocation)
  | request (handler : Nat) (invocation : RemoteInvocation) (key : PendingKey)
  | completion (completion : Nat) (result : RemoteRequestResult)
  | terminal (handler : Nat) (connection : ConnectionId) (information : DisconnectInfo)
deriving DecidableEq

inductive OperationResult where
  | done
  | success (value : Bool)
  | send (result : RemoteSendResult)
  | sends (results : List RemoteSendResult)
  | count (processed : Nat)
deriving DecidableEq

/-- The local variables of the dispatch loop of `Pump`. -/
structure DispatchLoop where
  maximumMessages : Nat
  perPeerLimit : Nat
  processedByPeer : SortedMap ConnectionId Nat := ∅
  processed : Nat := 0
  candidates : Nat
deriving DecidableEq

/-- What remains to be done of an operation. -/
inductive Frame where
  | callback (callback : Callback)
  | completions (rest : List PendingCompletion)
  | drainTerminals
  | removeTerminals (rest : List ConnectionId)
  | notifyTerminals (rest : List (ConnectionId × DisconnectInfo))
  | sendCancellation (key : PendingKey) (remote : ObjectId)
  | pumpTimeouts (now : Time) (rest : List PendingKey)
  | pumpIncoming (now : Time) (maximumMessages : Nat)
  | pumpDispatch (loop : DispatchLoop)
  | broadcast (rest : List ConnectionId) (remote : ObjectId) (arguments : List WireValue)
      (results : List RemoteSendResult)
  | finish (result : OperationResult)
deriving DecidableEq

inductive TransportEvent where
  | connectionState (connection : ConnectionId) (closed : Bool)
  | received (connection : ConnectionId) (delivery : DeliveryMode) (traffic : TrafficClass) (order : MessageOrder)
      (payload : List UInt8)
  | disconnected (connection : ConnectionId)
  | transportFailure
deriving DecidableEq

inductive Operation where
  | addPeer (connection : ConnectionId) (epoch : ReplicationEpoch) (limits : NetworkLimits)
  | removePeer (connection : ConnectionId)
  | registerRemote (remote : ObjectId) (kind : RemoteInstanceKind)
  | unregisterRemote (remote : ObjectId)
  | publishRemote (connection : ConnectionId) (remote : ObjectId) (materialized : Bool)
  | unpublishRemote (connection : ConnectionId) (remote : ObjectId)
  | markMaterialized (connection : ConnectionId) (object : ObjectId)
  | markUnmaterialized (connection : ConnectionId) (object : ObjectId)
  | setEventHandler (remote : ObjectId) (handler : Option Nat)
  | setRequestHandler (remote : ObjectId) (handler : Option Nat)
  | setTerminalHandler (handler : Option Nat)
  | sendEvent (connection : ConnectionId) (remote : ObjectId) (arguments : List WireValue)
  | broadcast (remote : ObjectId) (arguments : List WireValue)
  /-- The completion is a callback no other call uses, or empty. -/
  | startRequest (connection : ConnectionId) (remote : ObjectId) (arguments : List WireValue) (callable : Bool)
      (deadline : Int)
  | cancelRequest (connection : ConnectionId) (request : RemoteRequestId)
  | handleTransportEvent (event : TransportEvent)
  | pump (maximumMessages : Nat)
  | reply (key : PendingKey) (remote : ObjectId) (results : List WireValue) (error : Option StructuredRemoteError)
  | destroy
deriving DecidableEq

section
variable {ε : Type} (host : Host ε)

def PeerState.startHandler (peer : PeerState) : PeerState :=
  { peer with concurrentHandlers := peer.concurrentHandlers + 1 }

def dispatchRequest (s : State ε) (peer : PeerState) (queued : QueuedMessage) :
    Disposition × State ε × List Frame :=
  let message := queued.message
  let key : PendingKey := ⟨queued.connection,message.request⟩
  if peer.latestIncomingRequest.isValid && !message.request.isNewerThan peer.latestIncomingRequest then
    (.replayedRequest,
      rejectRequest host s queued.connection message "replayed_request" "Request ID was already consumed",[])
  else
    let s := { s with peers := s.peers.modify queued.connection fun peer =>
      { peer with latestIncomingRequest := message.request } }
    if s.incomingRequests.contains key then
      (.duplicateRequest,
        rejectRequest host s queued.connection message "duplicate_request" "Duplicate request ID",[])
    else if s.incomingRequests.size ≥ maximumConcurrentRemoteHandlersPerManager ||
        peer.concurrentHandlers ≥ maximumConcurrentRemoteHandlersPerPeer ||
        peer.concurrentHandlers ≥ peer.limits.maximumInFlightRemoteRequests then
      (.requestLimit,
        rejectRequest host s queued.connection message "request_limit" "Remote request limit exceeded",[])
    else match (s.requestHandlers.find? message.remote).join with
      | none =>
        (.noRequestHandler,
          rejectRequest host s queued.connection message "no_handler" "Remote request has no handler",[])
      | some handler =>
        let (startedAt,s) := readTime host s
        let s := { s with
          incomingRequests := s.incomingRequests.insert key
            { remote := message.remote
              replyDeadline := startedAt + milliseconds message.deadline
              workDeadline := startedAt + milliseconds maximumRemoteRequestDeadline }
          peers := s.peers.modify queued.connection PeerState.startHandler }
        (.requestHandled,observeOwnership s queued.connection,
          [.callback (.request handler ⟨queued.connection,peer.epoch,message.remote,message.arguments⟩ key)])

/-- Events: a sequenced one that is not newer than the last is dropped. -/
def dispatchEvent (s : State ε) (peer : PeerState) (queued : QueuedMessage) : Disposition × State ε × List Frame :=
  let message := queued.message
  let latest := (peer.latestIncomingSequence.find? message.remote).getD {}
  if message.kind == .sequencedEvent && latest.isValid && !message.sequence.isNewerThan latest then
    (.staleSequence,s,[])
  else
    let s := if message.kind == .sequencedEvent then
        { s with peers := s.peers.modify queued.connection fun peer =>
          { peer with latestIncomingSequence := peer.latestIncomingSequence.insert message.remote message.sequence } }
      else s
    match (s.eventHandlers.find? message.remote).join with
    | none => (.noEventHandler,s,[])
    | some handler =>
      (.eventHandled,s,
        [.callback (.event handler ⟨queued.connection,peer.epoch,message.remote,message.arguments⟩)])

def dispatchAnswer (s : State ε) (queued : QueuedMessage) : Disposition × State ε × List Frame :=
  let message := queued.message
  let key : PendingKey := ⟨queued.connection,message.request⟩
  match s.pendingRequests.find? key with
  | none => (.unmatchedResponse,s,[])
  | some pending =>
    if pending.remote ≠ message.remote then (.unmatchedResponse,s,[])
    else
      let result := if message.kind == .response then
          terminalResult message.request .success message.arguments
        else terminalResult message.request .remoteError [] message.error
      let (completion,s) := takePending s key result
      (.requestCompleted,s,[.completions completion.toList])

/-- Cancellations: the reply of a running request is no longer accepted. -/
def dispatchCancellation (s : State ε) (queued : QueuedMessage) : State ε :=
  let key : PendingKey := ⟨queued.connection,queued.message.request⟩
  match s.incomingRequests.find? key with
  | none => s
  | some incoming =>
    if incoming.remote ≠ queued.message.remote then s
    else { s with incomingRequests := s.incomingRequests.modify key fun r => { r with acceptReply := false } }

/-- The part of `Dispatch` behind the admission of the message. -/
def dispatchAdmitted (s : State ε) (peer : PeerState) (queued : QueuedMessage) : Disposition × State ε × List Frame :=
  match queued.message.kind with
  | .reliableEvent | .unreliableEvent | .sequencedEvent => dispatchEvent s peer queued
  | .response | .requestError => dispatchAnswer s queued
  | .cancellation => (.cancellationSeen,dispatchCancellation s queued,[])
  | .request => dispatchRequest host s peer queued

def dispatch (s : State ε) (queued : QueuedMessage) : Disposition × State ε × List Frame :=
  let message := queued.message
  let (admitted,s) := if (s.peers.find? queued.connection).isSome && isCall message.kind then admitManagerCall host s
    else (true,s)
  if !admitted then (.managerRateLimited,s,[])
  else
    let compatible := (s.remotes.find? message.remote).any (isRemoteMessageKindCompatible message.kind)
    match s.peers.find? queued.connection, publicationOf s queued.connection message.remote with
    | some _, some publication =>
      if !remoteAvailable host s queued.connection message.remote || !compatible then
        (.unavailable,if message.kind = .request then
            rejectRequest host s queued.connection message "remote_unavailable" "Remote is unavailable" else s,[])
      else if message.publication ≠ publication then (.publicationMismatch,s,[])
      else if !argumentsValid host s queued.connection message.arguments true then
        (.argumentsRejected,if message.kind = .request then
            rejectRequest host s queued.connection message "invalid_arguments" "Remote arguments were rejected"
          else s,[])
      else
        let (admitted,s) := if isCall message.kind then admitPeerCall host s queued.connection message.remote
          else (true,s)
        match admitted, s.peers.find? queued.connection with
        | true, some peer => dispatchAdmitted host s peer queued
        | _, _ => (.peerRateLimited,s,[])
    | _, _ =>
      (.unavailable,if message.kind = .request then
          rejectRequest host s queued.connection message "remote_unavailable" "Remote is unavailable" else s,[])

/-- Expired replies are answered, then expired handlers are closed. -/
def expireReplies : State ε → List PendingKey → State ε
  | s, [] => s
  | s, key :: rest =>
    match s.incomingRequests.find? key with
    | none => expireReplies s rest
    | some incoming =>
      let s := { s with incomingRequests := s.incomingRequests.modify key fun r => { r with acceptReply := false } }
      let s := (sendMessage host s key.connection
        (requestErrorMessage incoming.remote key.request "handler_timeout" "Remote handler deadline expired") false).2
      expireReplies s rest

def expireWork : State ε → List PendingKey → State ε
  | s, [] => s
  | s, key :: rest => expireWork (if s.incomingRequests.contains key then closeHandler s key else s) rest

/-- A deferred request is only worth sending while it is pending. -/
def isLive (s : State ε) (d : DeferredMessage) : Bool :=
  d.message.kind != .request ||
    (s.pendingRequests.find? ⟨d.connection,d.message.request⟩).any fun p => p.remote == d.message.remote

def isReady (s : State ε) (d : DeferredMessage) : Bool :=
  isLive s d && remoteAvailable host s d.connection d.message.remote &&
    (s.peers.find? d.connection).any fun peer => d.dependencies.all fun o => decide (o ∈ peer.materializedObjects)

def releaseDeferredLoop (now : Time) : State ε → List DeferredMessage → List DeferredMessage → State ε
  | s, _, [] => s
  | s, kept, d :: rest =>
    let ready := isReady host s d
    if isLive s d && !ready && decide (now < d.deadline) then releaseDeferredLoop now s (kept ++ [d]) rest
    else
      let s := if ready then (submitEncoded host s d.connection d.message d.encoded false).2 else s
      releaseDeferredLoop now { releaseDeferred s d with deferred := kept ++ rest } kept rest

def dispatchLoop (s : State ε) (maximumMessages : Nat) : DispatchLoop :=
  let activePeers := (s.dispatchQueue.map QueuedMessage.connection).dedup
  { maximumMessages
    perPeerLimit := max 1 (maximumMessages / max 1 activePeers.length)
    candidates := s.dispatchQueue.length }

/-- Everything in `Pump` between the timed out requests and the dispatch loop. -/
def pumpIncoming (s : State ε) (now : Time) (maximumMessages : Nat) : State ε × List Frame :=
  let replies := (s.incomingRequests.filter fun _ r => r.acceptReply && decide (now ≥ r.replyDeadline)).keys
  let work := (s.incomingRequests.filter fun _ r => decide (now ≥ r.workDeadline)).keys
  let s := expireWork (expireReplies host s replies) work
  let s := refreshDeferredMetric (releaseDeferredLoop host now s [] s.deferred)
  (s,[.pumpDispatch (dispatchLoop s maximumMessages)])

def DispatchLoop.processedFor (loop : DispatchLoop) (connection : ConnectionId) : Nat :=
  (loop.processedByPeer.find? connection).getD 0

def popFront (s : State ε) (queued : QueuedMessage) (rest : List QueuedMessage) : State ε :=
  let s := releaseQueued { s with dispatchQueue := rest } queued
  { s with history := { s.history with dispatched := s.history.dispatched ++ [queued] } }

def rotateFront (s : State ε) (queued : QueuedMessage) (rest : List QueuedMessage) : State ε :=
  { s with dispatchQueue := rest ++ [{ queued with moves := queued.moves + 1 }] }

def noteDisposition (s : State ε) (queued : QueuedMessage) (disposition : Disposition) : State ε :=
  { s with history := { s.history with dispositions := s.history.dispositions ++ [(queued,disposition)] } }

def DispatchLoop.count (loop : DispatchLoop) (connection : ConnectionId) : DispatchLoop :=
  { loop with
    processedByPeer := loop.processedByPeer.insert connection (loop.processedFor connection + 1)
    processed := loop.processed + 1 }

def pumpDispatch (s : State ε) (loop : DispatchLoop) : State ε × List Frame :=
  match s.dispatchQueue with
  | queued :: rest =>
    if loop.processed < loop.maximumMessages && loop.candidates ≠ 0 then
      let loop := { loop with candidates := loop.candidates - 1 }
      if loop.processedFor queued.connection ≥ loop.perPeerLimit then
        (rotateFront s queued rest,[.pumpDispatch loop])
      else
        let (disposition,s,frames) := dispatch host (popFront s queued rest) queued
        (noteDisposition s queued disposition,frames ++ [.pumpDispatch (loop.count queued.connection)])
    else (refreshQueueMetric s,[.drainTerminals,.finish (.count loop.processed)])
  | [] => (refreshQueueMetric s,[.drainTerminals,.finish (.count loop.processed)])

def pump (s : State ε) (maximumMessages : Nat) : State ε × List Frame :=
  if !s.active || maximumMessages = 0 || maximumMessages > nativeMaximumNetworkMessagesPerTick then
    (s,[.finish (.count 0)])
  else
    let (now,s) := readTime host s
    (s,[.pumpTimeouts now (pendingKeys s fun _ p => decide (now ≥ p.deadline)),.pumpIncoming now maximumMessages])

/-! ### Operations -/

/-- A slot only takes generations above every one it had, and there is a bound on known slots. -/
def generationRefused (s : State ε) (connection : ConnectionId) : Bool :=
  match s.highestPeerGeneration.find? connection.slot.toNat with
  | some highest => decide (connection.generation ≤ highest)
  | none => decide (s.highestPeerGeneration.size ≥ maximumRemotePeerSlots)

def addPeer (s : State ε) (connection : ConnectionId) (epoch : ReplicationEpoch) (limits : NetworkLimits) :
    Bool × State ε :=
  if !s.active || !connection.isValid || !epoch.isValid || !limits.isValid ||
      s.peers.size ≥ maximumRemotePeers then (false,s)
  else if generationRefused s connection ||
      s.peers.keys.any (fun existing => existing.slot == connection.slot) then (false,s)
  else (true,{ s with
    peers := s.peers.insert connection { epoch, limits }
    highestPeerGeneration := s.highestPeerGeneration.insert connection.slot.toNat connection.generation })

def registerRemote (s : State ε) (remote : ObjectId) (kind : RemoteInstanceKind) : Bool × State ε :=
  if s.active && remote.isValid && !s.remotes.contains remote then
    (true,{ s with remotes := s.remotes.insert remote kind })
  else (false,s)

def PeerState.withdraw (remote : ObjectId) (peer : PeerState) : PeerState :=
  { peer with
    publishedRemotes := peer.publishedRemotes.erase remote
    materializedObjects := peer.materializedObjects.erase remote
    nextOutgoingSequence := peer.nextOutgoingSequence.erase remote
    latestIncomingSequence := peer.latestIncomingSequence.erase remote }

def unregisterRemote (s : State ε) (remote : ObjectId) : State ε × List Frame :=
  if !s.remotes.contains remote then (s,[.finish (.success false)])
  else
    let s := { s with
      remotes := s.remotes.erase remote
      eventHandlers := s.eventHandlers.erase remote
      requestHandlers := s.requestHandlers.erase remote
      peers := s.peers.mapValues fun _ peer => peer.withdraw remote }
    let (completions,s) := takeAll .protocolRejected s (pendingKeys s fun _ p => p.remote == remote)
    let s := closeIncoming host s (s.incomingRequests.filter fun _ r => r.remote == remote).entries
    let s := { s with peers := s.peers.mapValues fun _ peer =>
      { peer with publications := peer.publications.erase remote } }
    let s := dropMessages s (fun q => q.message.remote == remote) fun d => d.message.remote == remote
    (s,[.drainTerminals,.completions completions,.finish (.success true)])

def publishRemote (s : State ε) (connection : ConnectionId) (remote : ObjectId) (materialized : Bool) :
    Bool × State ε :=
  match s.peers.find? connection with
  | none => (false,s)
  | some peer =>
    if !s.remotes.contains remote || !host.isVisible s.environment connection remote then (false,s)
    else
      let materialize (peer : PeerState) : PeerState :=
        if materialized then { peer with materializedObjects := insert remote peer.materializedObjects } else peer
      if remote ∈ peer.publishedRemotes then
        (true,{ s with peers := s.peers.modify connection materialize })
      else
        let current := (peer.publications.find? remote).getD {}
        match if current.isValid then current.tryNext else some ⟨1⟩ with
        | none => (false,s)
        | some publication =>
          (true,{ s with peers := s.peers.modify connection fun peer => materialize { peer with
            publishedRemotes := insert remote peer.publishedRemotes
            publications := peer.publications.insert remote publication
            nextOutgoingSequence := peer.nextOutgoingSequence.erase remote
            latestIncomingSequence := peer.latestIncomingSequence.erase remote } })

def isPublishedTo (s : State ε) (connection : ConnectionId) (remote : ObjectId) : Bool :=
  (s.peers.find? connection).any fun peer => decide (remote ∈ peer.publishedRemotes)

def unpublishRemote (s : State ε) (connection : ConnectionId) (remote : ObjectId) : State ε × List Frame :=
  if !isPublishedTo s connection remote then (s,[.finish (.success false)])
  else
    let s := { s with peers := s.peers.modify connection (PeerState.withdraw remote) }
    let (completions,s) := takeAll .protocolRejected s
      (pendingKeys s fun key p => key.connection == connection && p.remote == remote)
    let s := closeIncoming host s
      (s.incomingRequests.filter fun key r => key.connection == connection && r.remote == remote).entries
    let s := dropMessages s (fun q => q.connection == connection && q.message.remote == remote)
      fun d => d.connection == connection && d.message.remote == remote
    (s,[.drainTerminals,.completions completions,.finish (.success true)])

def markMaterialized (s : State ε) (connection : ConnectionId) (object : ObjectId) : Bool × State ε :=
  if !s.peers.contains connection || !object.isValid || !host.isVisible s.environment connection object then (false,s)
  else (true,{ s with peers := s.peers.modify connection fun peer =>
    { peer with materializedObjects := insert object peer.materializedObjects } })

def markUnmaterialized (s : State ε) (connection : ConnectionId) (object : ObjectId) : State ε × List Frame :=
  if s.remotes.contains object && isPublishedTo s connection object then unpublishRemote host s connection object
  else
    let erased := (s.peers.find? connection).any fun peer => decide (object ∈ peer.materializedObjects)
    ({ s with peers := s.peers.modify connection fun peer =>
        { peer with materializedObjects := peer.materializedObjects.erase object } },[.finish (.success erased)])

def setEventHandler (s : State ε) (remote : ObjectId) (handler : Option Nat) : Bool × State ε :=
  match s.remotes.find? remote with
  | none | some .function => (false,s)
  | some _ => (true,{ s with eventHandlers := s.eventHandlers.insert remote handler })

def setRequestHandler (s : State ε) (remote : ObjectId) (handler : Option Nat) : Bool × State ε :=
  match s.remotes.find? remote with
  | some .function => (true,{ s with requestHandlers := s.requestHandlers.insert remote handler })
  | _ => (false,s)

def eventKind : RemoteInstanceKind → Option RemoteMessageKind
  | .reliableEvent => some .reliableEvent
  | .unreliableEvent => some .unreliableEvent
  | .unreliableSequencedEvent => some .sequencedEvent
  | .function => none

/-- Takes the next sequence number of a sequenced Remote; the last number is never sent. -/
def takeSequence (s : State ε) (connection : ConnectionId) (remote : ObjectId) :
    Option RemoteEventSequence × State ε :=
  let stored := ((s.peers.find? connection).bind fun peer => peer.nextOutgoingSequence.find? remote).getD {}
  let next : RemoteEventSequence := if stored.isValid then stored else ⟨1⟩
  let store (value : RemoteEventSequence) : State ε := { s with peers := s.peers.modify connection fun peer =>
    { peer with nextOutgoingSequence := peer.nextOutgoingSequence.insert remote value } }
  match next.tryNext with
  | none => (none,store next)
  | some following => (some next,store following)

/-- The end of `SendEvent`; the terminals are drained after an attempt to send. -/
def sendEventMessage (s : State ε) (connection : ConnectionId) (message : RemoteMessage) :
    RemoteSendResult × State ε × List Frame :=
  if !message.isValid then ({ status := .invalidArguments },s,[])
  else
    match admitCall host s connection message.remote with
    | (false,s) => ({ status := .rateLimited },s,[])
    | (true,s) =>
      let (result,s) := sendMessage host s connection message true
      (result,s,[.drainTerminals])

def sendEvent (s : State ε) (connection : ConnectionId) (remote : ObjectId) (arguments : List WireValue) :
    RemoteSendResult × State ε × List Frame :=
  if !s.active then ({ status := .invalidPeer },s,[])
  else match s.peers.find? connection, s.remotes.find? remote with
    | none, _ => ({ status := .invalidPeer },s,[])
    | some _, none => ({ status := .unknownRemote },s,[])
    | some _, some kind =>
      if !remoteAvailable host s connection remote then ({ status := .unpublishedRemote },s,[])
      else match eventKind kind with
        | none => ({ status := .wrongRemoteKind },s,[])
        | some .sequencedEvent =>
          match takeSequence s connection remote with
          | (none,s) => ({ status := .schedulerRejected },s,[])
          | (some sequence,s) =>
            sendEventMessage host s connection { kind := .sequencedEvent, remote, sequence, arguments }
        | some kind => sendEventMessage host s connection { kind, remote, arguments }

/-- The admission of a broadcast to every peer. -/
def admitBroadcast (s : State ε) (fanout encodedBytes : Nat) : Bool × State ε :=
  let (now,s) := readTime host s
  let s := if s.broadcastRateWindow.restarts now then
      { s with broadcastRateWindow := ⟨now,true⟩, broadcastBytes := 0, broadcastSubmissions := 0 } else s
  if fanout > maximumRemoteBroadcastSubmissionsPerSecond - s.broadcastSubmissions ||
      encodedBytes > maximumRemoteBroadcastBytesPerSecond ||
      fanout > (maximumRemoteBroadcastBytesPerSecond - s.broadcastBytes) / encodedBytes then (false,s)
  else (true, { s with broadcastSubmissions := s.broadcastSubmissions + fanout
                       broadcastBytes := s.broadcastBytes + fanout * encodedBytes })

def startBroadcast (s : State ε) (remote : ObjectId) (arguments : List WireValue) : State ε × List Frame :=
  if !s.active then (s,[.finish (.sends [])])
  else
    let connections := s.peers.keys
    let refuse (status : RemoteSendStatus) : List Frame := [.finish (.sends (connections.map fun _ => { status }))]
    if connections.isEmpty then (s,[.finish (.sends [])])
    else match (s.remotes.find? remote).bind eventKind with
      | none => (s,refuse .wrongRemoteKind)
      | some kind =>
        let sequence : RemoteEventSequence := if kind = .sequencedEvent then ⟨1⟩ else {}
        match encodeRemoteMessage { kind, remote, sequence, arguments } with
        | .error _ => (s,refuse .invalidArguments)
        | .ok encoded =>
          match admitBroadcast host s connections.length encoded.length with
          | (false,s) => (s,refuse .schedulerRejected)
          | (true,s) => (s,[.broadcast connections remote arguments []])

def PeerState.startOutgoing (peer : PeerState) : PeerState :=
  { peer with pendingOutgoingRequests := peer.pendingOutgoingRequests + 1 }

/-- Records an accepted request; the scheduler or the deferred queue already has its message. -/
def recordRequest (s : State ε) (key : PendingKey) (remote : ObjectId) (completion : RequestCompletion)
    (deadline : Int) : State ε :=
  let (started,s) := readTime host s
  let pendingRequests := s.pendingRequests.insert key
    { remote, deadline := started + milliseconds deadline, completion }
  let accepted := completion.toList.map fun id =>
    ({ completion := id, key, remote, publication := storedPublication s key.connection remote } : AcceptedRequest)
  let s := { s with
    pendingRequests
    peers := s.peers.modify key.connection PeerState.startOutgoing
    metrics := { s.metrics with inFlightRequests := pendingRequests.size }
    history := { s.history with accepted := s.history.accepted ++ accepted } }
  observeOwnership s key.connection

def startRequest (s : State ε) (connection : ConnectionId) (remote : ObjectId) (arguments : List WireValue)
    (completion : RequestCompletion) (deadline : Int) : State ε × List Frame :=
  let refuse (s : State ε) (status : RemoteSendStatus) : State ε × List Frame :=
    (s,[.finish (.send { status })])
  if !s.active then refuse s .invalidPeer
  else match s.peers.find? connection, s.remotes.find? remote with
    | none, _ => refuse s .invalidPeer
    | some _, none => refuse s .unknownRemote
    | some peer, some kind =>
      if kind ≠ .function then refuse s .wrongRemoteKind
      else if !remoteAvailable host s connection remote then refuse s .unpublishedRemote
      else if deadline ≤ 0 || deadline > maximumRemoteRequestDeadline then refuse s .invalidArguments
      else if s.pendingRequests.size ≥ maximumRemoteInFlightRequestsPerManager ||
          peer.pendingOutgoingRequests ≥ peer.limits.maximumInFlightRemoteRequests then
        refuse s .requestLimitExceeded
      else match admitCall host s connection remote with
        | (false,s) => refuse s .rateLimited
        | (true,s) =>
          let request := peer.nextRequest
          match request.tryNext with
          | none => refuse s .requestLimitExceeded
          | some next =>
            let s := { s with peers := s.peers.modify connection fun peer => { peer with nextRequest := next } }
            let message : RemoteMessage := { kind := .request, remote, request, deadline, arguments }
            if !message.isValid then refuse s .invalidArguments
            else
              let (result,s) := sendMessage host s connection message true
              let result := { result with request := some request }
              if !result.accepted then (s,[.drainTerminals,.finish (.send result)])
              else (recordRequest host s ⟨connection,request⟩ remote completion deadline,[.finish (.send result)])

def cancelRequest (s : State ε) (key : PendingKey) : State ε × List Frame :=
  if !s.active then (s,[.finish (.success false)])
  else match s.pendingRequests.find? key with
    | none => (s,[.finish (.success false)])
    | some pending =>
      let (completion,s) := takePending s key (terminalResult key.request .cancelled)
      (s,[.completions completion.toList,.sendCancellation key pending.remote,.drainTerminals,
        .finish (.success true)])

def removePeer (s : State ε) (connection : ConnectionId) : State ε × List Frame :=
  let (removed,completions,s) := removePeerState s connection
  (s,[.completions completions,.finish (.success removed)])

/-- Whether the queue has room for a payload of this size from this peer. -/
def receiveFits (s : State ε) (peer : PeerState) (bytes : Nat) : Bool :=
  decide (bytes ≤ peer.limits.maximumDecodedMessageBytes) &&
  decide (peer.queuedDispatchMessages < peer.limits.maximumMessagesPerTick) &&
  decide (bytes ≤ peer.limits.maximumReceiveBytesPerTick) &&
  decide (peer.queuedDispatchBytes ≤ peer.limits.maximumReceiveBytesPerTick - bytes) &&
  decide (s.dispatchQueue.length < maximumQueuedRemoteDispatchMessages) &&
  decide (bytes ≤ maximumQueuedRemoteDispatchBytes) &&
  decide (s.metrics.queuedDispatchBytes ≤ maximumQueuedRemoteDispatchBytes - bytes)

/-- The transport's metadata must be what the sender of such a message uses. -/
def metadataMatches (message : RemoteMessage) (delivery : DeliveryMode) (traffic : TrafficClass)
    (order : MessageOrder) : Bool :=
  delivery == deliveryFor message.kind && traffic == trafficFor message.kind && order == orderFor message

def movesOf (s : State ε) (connection : ConnectionId) : Nat :=
  (((s.dispatchQueue.filter fun q => q.connection == connection).map QueuedMessage.moves).min?).getD 0

def PeerState.withQueued (bytes : Nat) (peer : PeerState) : PeerState :=
  { peer with queuedDispatchBytes := peer.queuedDispatchBytes + bytes
              queuedDispatchMessages := peer.queuedDispatchMessages + 1 }

def enqueue (s : State ε) (connection : ConnectionId) (message : RemoteMessage) (bytes : Nat) : State ε :=
  let (_,s) := readTime host s
  let queued : QueuedMessage :=
    ⟨connection,message,bytes,s.history.received.length,movesOf s connection⟩
  let dispatchQueue := s.dispatchQueue ++ [queued]
  let s := { s with
    dispatchQueue
    peers := s.peers.modify connection (PeerState.withQueued bytes)
    metrics := { s.metrics with
      queuedDispatchBytes := s.metrics.queuedDispatchBytes + bytes
      queuedDispatchMessages := dispatchQueue.length }
    history := { s.history with received := s.history.received ++ [queued] } }
  observeOwnership s connection

def receive (s : State ε) (connection : ConnectionId) (delivery : DeliveryMode) (traffic : TrafficClass)
    (order : MessageOrder) (payload : List UInt8) : Bool × State ε :=
  match s.peers.find? connection with
  | none => (false,s)
  | some peer =>
    if !receiveFits s peer payload.length then (false,s)
    else match decodeRemoteMessage payload with
      | .error _ => (false,s)
      | .ok message =>
        if !metadataMatches message delivery traffic order then (false,s)
        else (true,enqueue host s connection message payload.length)

def handleTransportEvent (s : State ε) (event : TransportEvent) : State ε × List Frame :=
  if !s.active then (s,[.finish (.success false)])
  else match event with
    | .disconnected connection | .connectionState connection true => removePeer s connection
    | .connectionState _ false | .transportFailure => (s,[.finish (.success false)])
    | .received connection delivery traffic order payload =>
      let (accepted,s) := receive host s connection delivery traffic order payload
      (s,[.finish (.success accepted)])

/-- The destructor: the state stops accepting work before the completions run. -/
def destroy (s : State ε) : State ε × List Frame :=
  let s := { s with active := false }
  let (completions,s) := takeAll .disconnected s s.pendingRequests.keys
  let s := { s with peers := ∅, incomingRequests := ∅, dispatchQueue := [], deferred := []
                    history := { s.history with dropped := s.history.dropped ++ s.dispatchQueue } }
  (s,[.completions completions])

/-- One step of the operation whose frame is on top of the stack. -/
def advance (s : State ε) : Frame → State ε × List Frame
  | .callback c => (s,[.callback c])
  | .completions [] => (s,[])
  | .completions (pending :: rest) =>
    match pending.completion with
    | none => (s,[.completions rest])
    | some id => ({ s with history := { s.history with invoked := s.history.invoked ++ [id] } },
        [.callback (.completion id pending.result),.completions rest])
  | .drainTerminals =>
    if s.terminalConnections.isEmpty then (s,[])
    else
      let terminals := s.terminalConnections.entries
      ({ s with terminalConnections := ∅ },
        [.removeTerminals (terminals.map Prod.fst),.notifyTerminals terminals,.drainTerminals])
  | .removeTerminals [] => (s,[])
  | .removeTerminals (connection :: rest) =>
    let (_,completions,s) := removePeerState s connection
    (s,[.completions completions,.removeTerminals rest])
  | .notifyTerminals [] => (s,[])
  | .notifyTerminals ((connection,information) :: rest) =>
    match s.onTerminal with
    | none => (s,[.notifyTerminals rest])
    | some handler => (s,[.callback (.terminal handler connection information),.notifyTerminals rest])
  | .sendCancellation key remote =>
    ((sendMessage host s key.connection { kind := .cancellation, remote, request := key.request } false).2,[])
  | .pumpTimeouts _ [] => (s,[])
  | .pumpTimeouts now (key :: rest) =>
    match s.pendingRequests.find? key with
    | none => (s,[.pumpTimeouts now rest])
    | some pending =>
      let (completion,s) := takePending s key (terminalResult key.request .timeout)
      (s,[.completions completion.toList,.sendCancellation key pending.remote,.pumpTimeouts now rest])
  | .pumpIncoming now maximumMessages => pumpIncoming host s now maximumMessages
  | .pumpDispatch loop => pumpDispatch host s loop
  | .broadcast [] _ _ results => (s,[.finish (.sends results)])
  | .broadcast (connection :: rest) remote arguments results =>
    let (result,s,frames) := sendEvent host s connection remote arguments
    (s,frames ++ [.broadcast rest remote arguments (results ++ [result])])
  | .finish _ => (s,[])

def begin (s : State ε) : Operation → State ε × List Frame
  | .addPeer connection epoch limits =>
    let (added,s) := addPeer s connection epoch limits
    (s,[.finish (.success added)])
  | .removePeer connection => removePeer s connection
  | .registerRemote remote kind =>
    let (registered,s) := registerRemote s remote kind
    (s,[.finish (.success registered)])
  | .unregisterRemote remote => unregisterRemote host s remote
  | .publishRemote connection remote materialized =>
    let (published,s) := publishRemote host s connection remote materialized
    (s,[.finish (.success published)])
  | .unpublishRemote connection remote => unpublishRemote host s connection remote
  | .markMaterialized connection object =>
    let (marked,s) := markMaterialized host s connection object
    (s,[.finish (.success marked)])
  | .markUnmaterialized connection object => markUnmaterialized host s connection object
  | .setEventHandler remote handler =>
    let (stored,s) := setEventHandler s remote handler
    (s,[.finish (.success stored)])
  | .setRequestHandler remote handler =>
    let (stored,s) := setRequestHandler s remote handler
    (s,[.finish (.success stored)])
  | .setTerminalHandler handler => ({ s with onTerminal := handler },[.finish .done])
  | .sendEvent connection remote arguments =>
    let (result,s,frames) := sendEvent host s connection remote arguments
    (s,frames ++ [.finish (.send result)])
  | .broadcast remote arguments => startBroadcast host s remote arguments
  | .startRequest connection remote arguments callable deadline =>
    let completion := if callable then some s.history.issued else none
    startRequest host { s with history := { s.history with issued := s.history.issued + 1 } } connection remote
      arguments completion deadline
  | .cancelRequest connection request => cancelRequest s ⟨connection,request⟩
  | .handleTransportEvent event => handleTransportEvent host s event
  | .pump maximumMessages => pump host s maximumMessages
  | .reply key remote results error =>
    let (sent,s) := if s.active then sendReply host s key remote results error else (false,s)
    (s,[.finish (.success sent)])
  | .destroy => destroy s

structure Config (ε : Type) where
  state : State ε
  stack : List Frame := []

def Config.inUserCode (c : Config ε) : Bool :=
  match c.stack with
  | [] | .callback _ :: _ => true
  | _ => false

inductive Event (ε : Type) where
  | call (operation : Operation)
  | return
  | throw
  | advance
  | environment (value : ε)

/-- The handling of an exception that leaves a handler; other callbacks do not throw. -/
def caught (s : State ε) : Callback → Option (State ε)
  | .event .. => some s
  | .request _ invocation key => some (sendReply host s key invocation.remote []
      (some ⟨ascii "handler_error",ascii "Remote handler failed"⟩)).2
  | _ => none

def step (c : Config ε) : Event ε → Option (Config ε)
  | .call operation =>
    if c.inUserCode then
      let (state,frames) := begin host c.state operation
      some { state, stack := frames ++ c.stack }
    else none
  | .return =>
    match c.stack with
    | .callback _ :: rest => some { c with stack := rest }
    | _ => none
  | .throw =>
    match c.stack with
    | .callback callback :: rest => (caught host c.state callback).map fun state => { state, stack := rest }
    | _ => none
  | .advance =>
    match c.stack with
    | [] | .callback _ :: _ => none
    | frame :: rest =>
      let (state,frames) := advance host c.state frame
      some { state, stack := frames ++ rest }
  | .environment value =>
    if c.inUserCode then some { c with state := { c.state with environment := value } } else none

/-- A newly constructed manager. -/
def initial (environment : ε) : Config ε := { state := { environment } }

def Reachable (c : Config ε) : Prop := ∃ environment events, run (step host) (initial environment) events = some c

end
end Gargantuan.RemoteManager
