import Gargantuan.IndexedQueues
import Gargantuan.RemoteState

/-!
The `NetworkScheduler`: every connection has six queues, one for each traffic class, and
counters kept by hand about what is in them. Byte and message counters wrap as
`std::size_t` does; the other counters only count events. Work samples, service times and
the ordinary-service policy are diagnostics no decision reads, and are left out.
-/
namespace Gargantuan.NetworkScheduler
open RemoteManager (DisconnectInfo DisconnectReason SchedulerSubmitStatus SchedulerSubmitResult sizeSub)

def maximumConsecutiveStructuralReplicationMessages : Nat := 8
def reliableServiceEnvelopeBytes : Nat := 32

/-- Unsigned addition as `std::size_t` does it. -/
def sizeAdd (a b : Nat) : Nat := (a + b) % 2 ^ 64

inductive TransportOperationStatus where
  | succeeded | wouldBlock | invalidState | invalidConnection | messageRejected | resourceExhausted | transportFailure
deriving DecidableEq, Repr

structure TransportOperationResult where
  status : TransportOperationStatus
  terminalDisconnect : Option DisconnectInfo := none
deriving DecidableEq

inductive WorkProducer where
  | other | structural | bootstrap | sessionControl | characterReliable | gchr | ownerAction | remoteEventReliable
  | remoteEventUnreliable | rpcRequest | rpcResponse | remoteControl | characterInput
deriving DecidableEq, Repr

structure SchedulerTickBudget where
  maximumBytes : Nat := 0
  maximumMessages : Nat := 0
deriving DecidableEq

def SchedulerTickBudget.isValidFor (budget : SchedulerTickBudget) (limits : NetworkLimits) : Bool :=
  limits.isValid &&
  decide (max limits.maximumReliableMessageBytes limits.maximumUnreliableMessageBytes ≤ budget.maximumBytes) &&
  decide (budget.maximumBytes ≤ limits.maximumSendBytesPerTick) &&
  decide (0 < budget.maximumMessages) && decide (budget.maximumMessages ≤ limits.maximumMessagesPerTick)

inductive SchedulerFlushStatus where
  | drained | budgetLimited | transportBackpressured | invalidConnection | invalidBudget | terminalFailure
deriving DecidableEq, Repr

structure SchedulerFlushResult where
  status : SchedulerFlushStatus
  messagesSubmitted : Nat := 0
  bytesSubmitted : Nat := 0
  terminalDisconnect : Option DisconnectInfo := none
deriving DecidableEq

structure SchedulerStatistics where
  intentsAccepted : Nat := 0
  intentsRejected : Nat := 0
  reliableBacklogExhaustions : Nat := 0
  unreliableMessagesDroppedBeforeTransport : Nat := 0
  sequencedStatesSuperseded : Nat := 0
  messagesSubmittedToTransport : Nat := 0
  batchesProduced : Nat := 0
  budgetLimitedFlushes : Nat := 0
  transportBackpressureEvents : Nat := 0
  queuedReliableBytes : Nat := 0
  queuedReliableMessages : Nat := 0
  queuedUnreliableBytes : Nat := 0
  queuedUnreliableMessages : Nat := 0
  queuedMessages : Nat := 0
deriving DecidableEq

def minimumQueuedMessageBytes : Nat := 1

def messageCountFitsQueuedBytes (messages bytes : Nat) : Bool := decide (messages ≤ bytes / minimumQueuedMessageBytes)

def SchedulerStatistics.isValidFor (t : SchedulerStatistics) (limits : NetworkLimits) : Bool :=
  limits.isValid &&
  decide (t.queuedReliableBytes ≤ limits.maximumQueuedReliableBytes) &&
  decide (t.queuedUnreliableBytes ≤ limits.maximumSendBytesPerTick) &&
  decide (t.queuedUnreliableMessages ≤ limits.maximumMessagesPerTick) &&
  messageCountFitsQueuedBytes t.queuedReliableMessages t.queuedReliableBytes &&
  messageCountFitsQueuedBytes t.queuedUnreliableMessages t.queuedUnreliableBytes &&
  decide (t.queuedReliableMessages ≤ 2 ^ 64 - 1 - t.queuedUnreliableMessages) &&
  decide (t.queuedMessages = t.queuedReliableMessages + t.queuedUnreliableMessages) &&
  decide (t.messagesSubmittedToTransport ≤ t.intentsAccepted) &&
  decide (t.reliableBacklogExhaustions ≤ t.intentsRejected)

def schedulerTrafficPrecedence : TrafficClass → Fin 6
  | .control => 0
  | .structuralReplication => 1
  | .reliableApplication => 2
  | .realtimeState => 3
  | .ephemeralApplication => 4
  | .background => 5

structure SequencedQueueKey where
  domain : UInt8
  channel : UInt64
  publication : UInt64
deriving DecidableEq

def getSequencedQueueKey : MessageOrder → Option (SequencedQueueKey × UInt64)
  | .realtimeState channel sequence => some (⟨1,channel.value,0⟩,sequence.value)
  | .remoteEvent channel publication sequence => some (⟨2,channel.value,publication.value⟩,sequence.value)
  | _ => none

/-- A message in a queue. The serial is history only: the number of messages accepted before it. -/
structure QueuedMessage where
  intent : NetworkMessageIntent
  reliableRetirementToken : UInt64 := 0
  reliableGrantActivatedAtMicroseconds : UInt64 := 0
  producer : WorkProducer := .other
  serial : Nat := 0
deriving DecidableEq

namespace QueuedMessage

def size (m : QueuedMessage) : Nat := m.intent.payload.length
def reliable (m : QueuedMessage) : Bool := m.intent.delivery == .reliableOrdered
def precedence (m : QueuedMessage) : Fin 6 := schedulerTrafficPrecedence m.intent.traffic
def sequenced (m : QueuedMessage) : Option (SequencedQueueKey × UInt64) := getSequencedQueueKey m.intent.order

end QueuedMessage

structure ReliableServiceAcceptedBytes where
  all : Nat := 0
  structural : Nat := 0
  gameplay : Nat := 0
deriving DecidableEq

structure Handover where
  message : QueuedMessage
  controlEmpty : Bool
  applicationQueued : Bool
deriving DecidableEq

/-- The last three fields are history only. -/
structure ConnectionQueue where
  limits : NetworkLimits
  queues : Fin 6 → List QueuedMessage := fun _ => []
  producerDepths : WorkProducer → Nat := fun _ => 0
  statistics : SchedulerStatistics := {}
  serviceAccepted : ReliableServiceAcceptedBytes := {}
  consecutiveStructuralReplicationMessages : Nat := 0
  active : Bool := true
  accepted : List QueuedMessage := []
  superseded : List QueuedMessage := []
  handed : List Handover := []

/-- What the connections share; the flag is history only and notes a subtraction below zero. -/
structure Aggregate where
  totalQueuedReliableBytes : Nat := 0
  underflowed : Bool := false
deriving DecidableEq

/-- The subtractions a branch makes are noted before it makes them. -/
def Aggregate.note (a : Aggregate) (subtractions : List (Nat × Nat)) : Aggregate :=
  { a with underflowed := a.underflowed || subtractions.any fun s => decide (s.1 < s.2) }

structure Scheduler where
  maximumTotalQueuedReliableBytes : UInt64
  connections : SortedMap ConnectionId ConnectionQueue := ∅
  aggregate : Aggregate := {}

/-- The constructor throws without a positive limit. -/
def create (maximumTotalQueuedReliableBytes : UInt64) : Option Scheduler :=
  if maximumTotalQueuedReliableBytes = 0 then none else some { maximumTotalQueuedReliableBytes }

def SchedulerStatistics.enqueued (t : SchedulerStatistics) (reliable : Bool) : SchedulerStatistics :=
  { t with
    queuedReliableMessages := if reliable then sizeAdd t.queuedReliableMessages 1 else t.queuedReliableMessages
    queuedUnreliableMessages := if reliable then t.queuedUnreliableMessages else sizeAdd t.queuedUnreliableMessages 1
    queuedMessages := sizeAdd t.queuedMessages 1 }

/-- `Queue`: the message goes to the back of the queue of its traffic class. -/
def ConnectionQueue.push (c : ConnectionQueue) (m : QueuedMessage) : ConnectionQueue :=
  let m := { m with serial := c.accepted.length }
  { c with
    statistics := c.statistics.enqueued m.reliable
    queues := Function.update c.queues m.precedence (c.queues m.precedence ++ [m])
    producerDepths := Function.update c.producerDepths m.producer (sizeAdd (c.producerDepths m.producer) 1)
    accepted := c.accepted ++ [m] }

def clear (c : ConnectionQueue) (a : Aggregate) : ConnectionQueue × Aggregate :=
  let a := a.note [(a.totalQueuedReliableBytes,c.statistics.queuedReliableBytes)]
  ({ c with
      queues := fun _ => []
      producerDepths := fun _ => 0
      consecutiveStructuralReplicationMessages := 0
      statistics := { c.statistics with
        queuedReliableBytes := 0, queuedReliableMessages := 0, queuedUnreliableBytes := 0
        queuedUnreliableMessages := 0, queuedMessages := 0 } },
    { a with totalQueuedReliableBytes := sizeSub a.totalQueuedReliableBytes c.statistics.queuedReliableBytes })

def rejectUnreliable (c : ConnectionQueue) : SchedulerSubmitResult × ConnectionQueue :=
  ({ status := .droppedUnreliable },
    { c with statistics := { c.statistics with
        intentsRejected := c.statistics.intentsRejected + 1
        unreliableMessagesDroppedBeforeTransport := c.statistics.unreliableMessagesDroppedBeforeTransport + 1 } })

def findExisting (queues : Fin 6 → List QueuedMessage) (key : SequencedQueueKey) :
    Option (Fin 6 × List QueuedMessage × QueuedMessage × List QueuedMessage) :=
  (List.finRange 6).findSome? fun i =>
    (splitFirst (fun m => m.sequenced.any fun k => k.1 == key) (queues i)).map fun found => (i,found)

def backlogExhausted : DisconnectInfo := ⟨.resourceExhaustion,ascii "Reliable scheduler backlog exhausted"⟩

def ReliableServiceAcceptedBytes.accept (s : ReliableServiceAcceptedBytes) (traffic : TrafficClass) (bytes : Nat) :
    ReliableServiceAcceptedBytes :=
  { all := s.all + bytes
    structural := if traffic = .structuralReplication then s.structural + bytes else s.structural
    gameplay := if traffic = .reliableApplication then s.gameplay + bytes else s.gameplay }

def submitReliable (maximumTotal : Nat) (c : ConnectionQueue) (a : Aggregate) (m : QueuedMessage) :
    SchedulerSubmitResult × ConnectionQueue × Aggregate :=
  let bytes := m.size
  let completeBytes := bytes + reliableServiceEnvelopeBytes
  let a := a.note [(c.limits.maximumQueuedReliableBytes,c.statistics.queuedReliableBytes),
    (maximumTotal,a.totalQueuedReliableBytes),(2 ^ 64 - 1,c.serviceAccepted.all)]
  if bytes > sizeSub c.limits.maximumQueuedReliableBytes c.statistics.queuedReliableBytes ||
      bytes > sizeSub maximumTotal a.totalQueuedReliableBytes ||
      completeBytes > sizeSub (2 ^ 64 - 1) c.serviceAccepted.all then
    let c := { c with statistics := { c.statistics with
      intentsRejected := c.statistics.intentsRejected + 1
      reliableBacklogExhaustions := c.statistics.reliableBacklogExhaustions + 1 } }
    let (c,a) := clear c a
    ({ status := .reliableBacklogExhausted, terminalDisconnect := some backlogExhausted },{ c with active := false },a)
  else
    let c := c.push m
    ({ status := .accepted },
      { c with
        serviceAccepted := c.serviceAccepted.accept m.intent.traffic completeBytes
        statistics := { c.statistics with
          queuedReliableBytes := sizeAdd c.statistics.queuedReliableBytes bytes
          intentsAccepted := c.statistics.intentsAccepted + 1 } },
      { a with totalQueuedReliableBytes := sizeAdd a.totalQueuedReliableBytes bytes })

def ConnectionQueue.supersede (c : ConnectionQueue) (i : Fin 6) (before : List QueuedMessage) (existing : QueuedMessage)
    (after : List QueuedMessage) : ConnectionQueue :=
  { c with
    producerDepths := Function.update c.producerDepths existing.producer (sizeSub (c.producerDepths existing.producer) 1)
    queues := Function.update c.queues i (before ++ after)
    statistics := { c.statistics with
      queuedUnreliableBytes := sizeSub c.statistics.queuedUnreliableBytes existing.size
      queuedUnreliableMessages := sizeSub c.statistics.queuedUnreliableMessages 1
      queuedMessages := sizeSub c.statistics.queuedMessages 1 }
    superseded := c.superseded ++ [existing] }

def ConnectionQueue.acceptUnreliable (c : ConnectionQueue) (m : QueuedMessage) : ConnectionQueue :=
  let c := c.push m
  { c with statistics := { c.statistics with
      queuedUnreliableBytes := sizeAdd c.statistics.queuedUnreliableBytes m.size
      intentsAccepted := c.statistics.intentsAccepted + 1 } }

def submitUnreliable (c : ConnectionQueue) (a : Aggregate) (m : QueuedMessage) :
    SchedulerSubmitResult × ConnectionQueue × Aggregate :=
  if c.statistics.queuedUnreliableMessages ≥ c.limits.maximumMessagesPerTick then
    let (result,c) := rejectUnreliable c
    (result,c,a)
  else
    let a := a.note [(c.limits.maximumSendBytesPerTick,c.statistics.queuedUnreliableBytes)]
    if m.size > sizeSub c.limits.maximumSendBytesPerTick c.statistics.queuedUnreliableBytes then
      let (result,c) := rejectUnreliable c
      (result,c,a)
    else ({ status := .accepted },c.acceptUnreliable m,a)

/-- What `Submit` does about the queued message of the same key. -/
def submitOver (c : ConnectionQueue) (a : Aggregate) (m : QueuedMessage) (sequence : UInt64) (i : Fin 6)
    (before : List QueuedMessage) (existing : QueuedMessage) (after : List QueuedMessage) :
    SchedulerSubmitResult × ConnectionQueue × Aggregate :=
  if sequence ≤ (existing.sequenced.map Prod.snd).getD 0 then
    let (result,c) := rejectUnreliable c
    (result,c,a)
  else
    let others := sizeSub c.statistics.queuedUnreliableBytes existing.size
    let a := a.note [(c.statistics.queuedUnreliableBytes,existing.size),(c.limits.maximumSendBytesPerTick,others)]
    if m.size > sizeSub c.limits.maximumSendBytesPerTick others then
      let (result,c) := rejectUnreliable c
      (result,c,a)
    else
      let a := a.note [(c.producerDepths existing.producer,1),(c.statistics.queuedUnreliableBytes,existing.size),
        (c.statistics.queuedUnreliableMessages,1),(c.statistics.queuedMessages,1)]
      let c := (c.supersede i before existing after).acceptUnreliable m
      ({ status := .acceptedWithSupersession },
        { c with statistics := { c.statistics with
            sequencedStatesSuperseded := c.statistics.sequencedStatesSuperseded + 1 } },a)

def submitSequenced (c : ConnectionQueue) (a : Aggregate) (m : QueuedMessage) :
    SchedulerSubmitResult × ConnectionQueue × Aggregate :=
  match m.sequenced with
  | none =>
    let (result,c) := rejectUnreliable c
    (result,c,a)
  | some (key,sequence) =>
    match findExisting c.queues key with
    | some (i,before,existing,after) => submitOver c a m sequence i before existing after
    | none => submitUnreliable c a m

def submitTo (maximumTotal : Nat) (c : ConnectionQueue) (a : Aggregate) (m : QueuedMessage) :
    SchedulerSubmitResult × ConnectionQueue × Aggregate :=
  if !isNetworkMessageIntentValid m.intent c.limits then
    ({ status := .intentRejected },
      { c with statistics := { c.statistics with intentsRejected := c.statistics.intentsRejected + 1 } },a)
  else match m.intent.delivery with
    | .reliableOrdered => submitReliable maximumTotal c a m
    | .unreliableSequenced => submitSequenced c a m
    | .unreliableUnordered => submitUnreliable c a m

def submit (s : Scheduler) (intent : NetworkMessageIntent) (token : UInt64) (producer : WorkProducer) :
    SchedulerSubmitResult × Scheduler :=
  match s.connections.find? intent.destination with
  | none => ({ status := .invalidConnection },s)
  | some c =>
    if !c.active then ({ status := .invalidConnection },s)
    else
      let (result,c,aggregate) := submitTo s.maximumTotalQueuedReliableBytes.toNat c s.aggregate
        { intent, reliableRetirementToken := token, producer }
      (result,{ s with connections := s.connections.insert intent.destination c, aggregate })

/-- The queue whose front goes next. Without a queued message there is none. -/
def chooseQueue (c : ConnectionQueue) : Option (Fin 6) :=
  if !(c.queues 0).isEmpty then some 0
  else if !(c.queues 1).isEmpty && !(c.queues 2).isEmpty then
    some (if c.consecutiveStructuralReplicationMessages ≥ maximumConsecutiveStructuralReplicationMessages then 2 else 1)
  else (List.finRange 6).find? fun i => !(c.queues i).isEmpty

/-- The locals of `Flush`. -/
structure Flushing (τ : Type) where
  connection : ConnectionQueue
  aggregate : Aggregate
  transport : τ
  result : SchedulerFlushResult

def submissionRejected : DisconnectInfo := ⟨.transportFailure,ascii "Transport rejected scheduler submission"⟩

def SchedulerStatistics.handed (t : SchedulerStatistics) (reliable : Bool) (bytes : Nat) : SchedulerStatistics :=
  { t with
    queuedReliableBytes := if reliable then sizeSub t.queuedReliableBytes bytes else t.queuedReliableBytes
    queuedReliableMessages := if reliable then sizeSub t.queuedReliableMessages 1 else t.queuedReliableMessages
    queuedUnreliableBytes := if reliable then t.queuedUnreliableBytes else sizeSub t.queuedUnreliableBytes bytes
    queuedUnreliableMessages := if reliable then t.queuedUnreliableMessages else sizeSub t.queuedUnreliableMessages 1
    queuedMessages := sizeSub t.queuedMessages 1
    messagesSubmittedToTransport := t.messagesSubmittedToTransport + 1 }

/-- The run of structural messages after one more from a queue; the counter saturates. -/
def consecutiveAfter (i : Fin 6) (consecutive : Nat) : Nat :=
  if i = 1 then if consecutive ≠ 2 ^ 32 - 1 then consecutive + 1 else consecutive
  else if i = 2 then 0 else consecutive

def ConnectionQueue.handOver (c : ConnectionQueue) (i : Fin 6) (m : QueuedMessage) (rest : List QueuedMessage) :
    ConnectionQueue :=
  { c with
    statistics := c.statistics.handed m.reliable m.size
    producerDepths := Function.update c.producerDepths m.producer (sizeSub (c.producerDepths m.producer) 1)
    queues := Function.update c.queues i rest
    consecutiveStructuralReplicationMessages := consecutiveAfter i c.consecutiveStructuralReplicationMessages
    handed := c.handed ++ [⟨m,(c.queues 0).isEmpty,!(c.queues 2).isEmpty⟩] }

def handedSubtractions (c : ConnectionQueue) (a : Aggregate) (m : QueuedMessage) : List (Nat × Nat) :=
  (if m.reliable then [(c.statistics.queuedReliableBytes,m.size),(a.totalQueuedReliableBytes,m.size),
      (c.statistics.queuedReliableMessages,1)]
    else [(c.statistics.queuedUnreliableBytes,m.size),(c.statistics.queuedUnreliableMessages,1)]) ++
  [(c.producerDepths m.producer,1),(c.statistics.queuedMessages,1)]

def handedAggregate (c : ConnectionQueue) (a : Aggregate) (m : QueuedMessage) : Aggregate :=
  { a.note (handedSubtractions c a m) with
    totalQueuedReliableBytes := if m.reliable then sizeSub a.totalQueuedReliableBytes m.size
      else a.totalQueuedReliableBytes }

section
variable {τ : Type} (send : τ → QueuedMessage → TransportOperationResult × τ) (budget : SchedulerTickBudget)

/-- One turn of the loop of `Flush`, and whether the loop goes on. -/
def flushTurn (f : Flushing τ) : Flushing τ × Bool :=
  if f.connection.statistics.queuedMessages = 0 then (f,false)
  else match chooseQueue f.connection with
  | none => (f,false)
  | some i =>
    match f.connection.queues i with
    | [] => (f,false)
    | message :: rest =>
      let bytes := message.size
      let a := f.aggregate.note [(budget.maximumBytes,f.result.bytesSubmitted)]
      if f.result.messagesSubmitted = budget.maximumMessages ||
          bytes > sizeSub budget.maximumBytes f.result.bytesSubmitted then
        ({ f with
            aggregate := a
            connection := { f.connection with statistics := { f.connection.statistics with
              budgetLimitedFlushes := f.connection.statistics.budgetLimitedFlushes + 1 } }
            result := { f.result with status := .budgetLimited } },false)
      else
        let (submission,transport) := send f.transport message
        if submission.status = .wouldBlock then
          ({ connection := { f.connection with statistics := { f.connection.statistics with
               transportBackpressureEvents := f.connection.statistics.transportBackpressureEvents + 1 } }
             aggregate := a, transport, result := { f.result with status := .transportBackpressured } },false)
        else if submission.status ≠ .succeeded then
          let (c,a) := clear f.connection a
          ({ connection := { c with active := false }
             aggregate := a, transport
             result := { f.result with
               status := .terminalFailure
               terminalDisconnect := some (submission.terminalDisconnect.getD submissionRejected) } },false)
        else
          ({ connection := f.connection.handOver i message rest
             aggregate := handedAggregate f.connection a message
             transport
             result := { f.result with
               messagesSubmitted := f.result.messagesSubmitted + 1
               bytesSubmitted := f.result.bytesSubmitted + bytes } },true)

/-- The loop of `Flush`; every turn that goes on has one queued message less. -/
def flushLoop : Nat → Flushing τ → Flushing τ
  | 0, f => f
  | queued + 1, f =>
    match flushTurn send budget f with
    | (f,true) => flushLoop queued f
    | (f,false) => f

def flush (s : Scheduler) (transport : τ) (connection : ConnectionId) : SchedulerFlushResult × Scheduler × τ :=
  match s.connections.find? connection with
  | none => ({ status := .invalidConnection },s,transport)
  | some c =>
    if !c.active then ({ status := .invalidConnection },s,transport)
    else if !budget.isValidFor c.limits then ({ status := .invalidBudget },s,transport)
    else
      let f := flushLoop send budget c.statistics.queuedMessages
        { connection := c, aggregate := s.aggregate, transport, result := { status := .drained } }
      (f.result,{ s with connections := s.connections.insert connection f.connection, aggregate := f.aggregate },
        f.transport)

end

def registerConnection (s : Scheduler) (connection : ConnectionId) (limits : NetworkLimits) : Bool × Scheduler :=
  if !connection.isValid || !limits.isValid then (false,s)
  else if s.connections.entries.any fun e => e.1.slot == connection.slot && e.2.active then (false,s)
  else if s.connections.contains connection then (false,s)
  else (true,{ s with connections := s.connections.insert connection { limits } })

def cancelConnection (s : Scheduler) (connection : ConnectionId) : Bool × Scheduler :=
  match s.connections.find? connection with
  | none => (false,s)
  | some c => (true,{ s with connections := s.connections.erase connection, aggregate := (clear c s.aggregate).2 })

def activateIn (token time : UInt64) : List QueuedMessage → Option (Bool × List QueuedMessage)
  | [] => none
  | m :: rest =>
    if m.reliableRetirementToken = token then
      if m.reliableGrantActivatedAtMicroseconds ≠ 0 then some (false,m :: rest)
      else some (true,{ m with reliableGrantActivatedAtMicroseconds := time } :: rest)
    else (activateIn token time rest).map fun found => (found.1,m :: found.2)

def activateReliableGrant (s : Scheduler) (connection : ConnectionId) (token time : UInt64) : Bool × Scheduler :=
  if !connection.isValid || token = 0 || time = 0 then (false,s)
  else match s.connections.find? connection with
    | none => (false,s)
    | some c =>
      if !c.active then (false,s)
      else match (List.finRange 6).findSome? fun i => (activateIn token time (c.queues i)).map fun found => (i,found) with
        | none => (false,s)
        | some (i,activated,queue) =>
          let c := { c with queues := Function.update c.queues i queue }
          (activated,{ s with connections := s.connections.insert connection c })

/-- A scheduler over a transport, which may change on its own between two operations. -/
structure System (τ : Type) where
  scheduler : Scheduler
  transport : τ

inductive Event (τ : Type) where
  | register (connection : ConnectionId) (limits : NetworkLimits)
  | submit (intent : NetworkMessageIntent) (token : UInt64) (producer : WorkProducer)
  | flush (connection : ConnectionId) (budget : SchedulerTickBudget)
  | cancel (connection : ConnectionId)
  | activate (connection : ConnectionId) (token time : UInt64)
  | transport (value : τ)

def step {τ : Type} (send : τ → QueuedMessage → TransportOperationResult × τ) (x : System τ) :
    Event τ → Option (System τ)
  | .register connection limits => some { x with scheduler := (registerConnection x.scheduler connection limits).2 }
  | .submit intent token producer => some { x with scheduler := (submit x.scheduler intent token producer).2 }
  | .flush connection budget =>
    let (_,scheduler,transport) := flush send budget x.scheduler x.transport connection
    some { scheduler, transport }
  | .cancel connection => some { x with scheduler := (cancelConnection x.scheduler connection).2 }
  | .activate connection token time =>
    some { x with scheduler := (activateReliableGrant x.scheduler connection token time).2 }
  | .transport value => some { x with transport := value }

end Gargantuan.NetworkScheduler
