import Mathlib.Data.Prod.Lex
import Gargantuan.Scheduler

/-!
The simulated network: transports with numbered connections, links between two of them,
and one schedule of activations, messages and disconnections in order of time. A
probability is the number of the 2^53 samples that hit, which is all the comparison with
a random sample sees of it; the source of random numbers is a parameter. The loss ratio
and the round-trip estimate are diagnostics and left out.
-/
namespace Gargantuan.SimulatedTransport
open RemoteManager (DisconnectInfo DisconnectReason)
open NetworkScheduler (TransportOperationStatus TransportOperationResult)

/-- Microseconds, within 64 bits. -/
abbrev SimulatedTime := Int
def maximumTime : Int := 2 ^ 63 - 1
def maximumSimulatedDuration : Int := 24 * 365 * 3600 * 1000000
def maximumSimulatedBandwidthBytesPerSecond : Nat := 1024 * 1024 * 1024
def maximumSimulatedTransports : Nat := 1024
def maximumSimulatedConnections : Nat := 16 * 1024
def maximumSimulatedScheduledEvents : Nat := 1024 * 1024
def maximumSimulatedPendingEvents : Nat := 1024 * 1024
def maximumUnsigned : Nat := 2 ^ 64 - 1

structure SimulatedTransportConfiguration where
  seed : UInt64 := 1
  baseLatency : Int := 0
  maximumJitter : Int := 0
  maximumReorderDelay : Int := 0
  unreliableLossProbability : Nat := 0
  unreliableDuplicationProbability : Nat := 0
  unreliableReorderProbability : Nat := 0
  bandwidthBytesPerSecond : Nat := 1024 * 1024
  maximumReliableQueueBytes : Nat := nativeMaximumQueuedReliableBytes
  maximumQueuedUnreliableMessages : Nat := 1024
  maximumUnreliableDatagramBytes : Nat := 1200
  maximumTransports : Nat := 64
  maximumConnections : Nat := 1024
  maximumScheduledEvents : Nat := 16 * 1024
  maximumPendingEventsPerTransport : Nat := 4096
  connectionLifetime : Option Int := none

def isValidProbability (p : Nat) : Bool := decide (p ≤ 2 ^ 53)

def isValidDuration (duration : Int) (permitZero : Bool := true) : Bool :=
  decide ((if permitZero then 0 else 1) ≤ duration) && decide (duration ≤ maximumSimulatedDuration)

def SimulatedTransportConfiguration.isValid (c : SimulatedTransportConfiguration) : Bool :=
  isValidDuration c.baseLatency && isValidDuration c.maximumJitter && isValidDuration c.maximumReorderDelay &&
  c.connectionLifetime.all (isValidDuration · false) &&
  isValidProbability c.unreliableLossProbability && isValidProbability c.unreliableDuplicationProbability &&
  isValidProbability c.unreliableReorderProbability &&
  decide (0 < c.bandwidthBytesPerSecond) &&
  decide (c.bandwidthBytesPerSecond ≤ maximumSimulatedBandwidthBytesPerSecond) &&
  decide (0 < c.maximumReliableQueueBytes) && decide (c.maximumReliableQueueBytes ≤ nativeMaximumQueuedReliableBytes) &&
  decide (0 < c.maximumQueuedUnreliableMessages) &&
  decide (c.maximumQueuedUnreliableMessages ≤ nativeMaximumNetworkMessagesPerTick) &&
  decide (0 < c.maximumUnreliableDatagramBytes) &&
  decide (c.maximumUnreliableDatagramBytes ≤ nativeMaximumUnreliableMessageBytes) &&
  decide (0 < c.maximumTransports) && decide (c.maximumTransports ≤ maximumSimulatedTransports) &&
  decide (0 < c.maximumConnections) && decide (c.maximumConnections ≤ maximumSimulatedConnections) &&
  decide (c.maximumConnections * 2 < c.maximumScheduledEvents) &&
  decide (c.maximumScheduledEvents ≤ maximumSimulatedScheduledEvents) &&
  decide (c.maximumConnections * 4 ≤ c.maximumPendingEventsPerTransport) &&
  decide (c.maximumPendingEventsPerTransport ≤ maximumSimulatedPendingEvents)

inductive TransportRole where
  | client | server
deriving DecidableEq

structure TransportEndpoint where
  host : ByteString
  port : UInt16
deriving DecidableEq

inductive ConnectionState where
  | connecting | authenticating | connected | closing | closed
deriving DecidableEq

inductive TransportEvent where
  | connectionState (connection : ConnectionId) (previous current : ConnectionState)
  | received (connection : ConnectionId) (delivery : DeliveryMode) (traffic : TrafficClass) (order : MessageOrder)
      (payload : List UInt8)
  | disconnected (connection : ConnectionId) (information : DisconnectInfo)
deriving DecidableEq

def TransportEvent.connection : TransportEvent → ConnectionId
  | .connectionState connection _ _ | .received connection _ _ _ _ | .disconnected connection _ => connection

structure SequenceKey where
  domain : UInt8
  channel : UInt64
deriving DecidableEq

namespace SequenceKey

def key (k : SequenceKey) : Nat := k.domain.toNat * 2 ^ 64 + k.channel.toNat

theorem key_injective : Function.Injective key := by
  rintro ⟨domainA,channelA⟩ ⟨domainB,channelB⟩ same
  simp only [key] at same
  have boundA := channelA.toNat_lt
  have boundB := channelB.toNat_lt
  have domains : domainA = domainB := UInt8.toNat_inj.mp (by omega)
  have channels : channelA = channelB := UInt64.toNat_inj.mp (by omega)
  rw [domains,channels]

instance : LinearOrder SequenceKey := LinearOrder.lift' key key_injective

end SequenceKey

def getSequenceKey : MessageOrder → Option (SequenceKey × UInt64)
  | .realtimeState channel sequence => some (⟨1,channel.value⟩,sequence.value)
  | .remoteEvent channel _ sequence => some (⟨2,channel.value⟩,sequence.value)
  | _ => none

/-- The latest sequence of a key. The order it came with is history only. -/
structure ReceivedSequence where
  sequence : UInt64
  order : MessageOrder
deriving DecidableEq

structure NetworkStatistics where
  bytesSent : Nat := 0
  bytesReceived : Nat := 0
  messagesSent : Nat := 0
  messagesDelivered : Nat := 0
  messagesReceived : Nat := 0
  droppedUnreliableMessages : Nat := 0
  duplicatedUnreliableMessages : Nat := 0
  queuedReliableBytes : Nat := 0
deriving DecidableEq

def saturatingAdd (value amount : Nat) : Nat := min maximumUnsigned (value + amount)

structure SimulatedConnection where
  linkId : Nat
  remoteConnection : ConnectionId
  remoteTransportId : Nat
  currentState : ConnectionState := .connecting
  limits : NetworkLimits
  reliableQueueBytes : Nat := 0
  queuedUnreliableMessages : Nat := 0
  unreliableAttempts : Nat := 0
  nextSendAvailable : SimulatedTime := 0
  lastReliableDelivery : SimulatedTime := 0
  statistics : NetworkStatistics := {}
  latestReceivedSequences : SortedMap SequenceKey ReceivedSequence := ∅

structure SimulatedLink where
  id : Nat
  firstTransportId : Nat
  firstConnection : ConnectionId
  secondTransportId : Nat
  secondConnection : ConnectionId
deriving DecidableEq

inductive ScheduledKind where
  | activate | message | disconnect
deriving DecidableEq

structure ScheduledItem where
  kind : ScheduledKind
  time : SimulatedTime
  linkId : Nat
  sourceTransportId : Nat := 0
  sourceConnection : ConnectionId := {}
  destinationTransportId : Nat := 0
  destinationConnection : ConnectionId := {}
  delivery : DeliveryMode := .reliableOrdered
  traffic : TrafficClass := .control
  order : MessageOrder := .none
  payload : List UInt8 := []
  duplicate : Bool := false
  disconnect : DisconnectInfo := ⟨.transportFailure,[]⟩
deriving DecidableEq

/-- The time first, then the tie breaker. -/
abbrev ScheduledKey := Int ×ₗ Nat

/-- The last three fields are history only: the connections ever issued, those of them that got a link, and the
    events handed out. -/
structure SimulatedTransportState where
  id : Nat
  started : Bool := false
  role : TransportRole := .client
  endpoint : TransportEndpoint := ⟨[],0⟩
  advertisedLimits : NetworkLimits := {}
  connections : SortedMap ConnectionId SimulatedConnection := ∅
  generations : List UInt32 := [0]
  freeSlots : List UInt32 := []
  events : List TransportEvent := []
  issued : List ConnectionId := []
  linked : List ConnectionId := []
  polled : List TransportEvent := []

/-- What happened so far. Nothing in the code reads it. A discard is a sequenced message that was dropped,
    with the one whose sequence was the cause. -/
structure NetworkHistory where
  accepted : List ScheduledItem := []
  discards : List (MessageOrder × MessageOrder) := []
  assertFailed : Bool := false
  underflowed : Bool := false

structure SimulatedNetworkState where
  configuration : SimulatedTransportConfiguration
  currentTime : SimulatedTime := 0
  randomState : UInt64
  nextTransportId : Nat := 1
  nextLinkId : Nat := 1
  nextTieBreaker : Nat := 1
  transports : SortedMap Nat SimulatedTransportState := ∅
  servers : List (TransportEndpoint × Nat) := []
  links : SortedMap Nat SimulatedLink := ∅
  scheduled : SortedMap ScheduledKey ScheduledItem := ∅
  history : NetworkHistory := {}

abbrev Network := SimulatedNetworkState

def addTime (first second : SimulatedTime) : Option SimulatedTime :=
  if second < 0 || first > maximumTime - second then none else some (first + second)

def transmissionDuration (bytes bytesPerSecond : Nat) : Option SimulatedTime :=
  if bytes = 0 || bytesPerSecond = 0 then none
  else if bytes > maximumUnsigned / 1000000 then none
  else
    let scaled := bytes * 1000000
    let duration := scaled / bytesPerSecond + if scaled % bytesPerSecond ≠ 0 then 1 else 0
    if duration = 0 || duration > 2 ^ 63 - 1 then none else some duration

/-- The generator of the source: the value drawn and the next state. -/
def nextRandom (state : UInt64) : UInt64 × UInt64 :=
  let state := state + 0x9e3779b97f4a7c15
  let value := (state ^^^ (state >>> 30)) * 0xbf58476d1ce4e5b9
  let value := (value ^^^ (value >>> 27)) * 0x94d049bb133111eb
  (value ^^^ (value >>> 31),state)

section
variable (draw : UInt64 → UInt64 × UInt64)

/-- Without chance and with certainty nothing is drawn. -/
def probabilityHit (state : UInt64) (probability : Nat) : Bool × UInt64 :=
  if probability = 0 then (false,state)
  else if probability ≥ 2 ^ 53 then (true,state)
  else
    let (value,state) := draw state
    (decide ((value >>> 11).toNat < probability),state)

def randomDuration (state : UInt64) (maximum : SimulatedTime) : SimulatedTime × UInt64 :=
  if maximum = 0 then (0,state)
  else
    let (value,state) := draw state
    ((value.toNat % (maximum.toNat + 1) : Nat),state)

def computeDeliveryTime (n : Network) (state : UInt64) (nextSendAvailable : SimulatedTime) (payloadBytes : Nat)
    (reorder : Bool) : Option (SimulatedTime × SimulatedTime × UInt64) := do
  let transmission ← transmissionDuration payloadBytes n.configuration.bandwidthBytesPerSecond
  let start := max n.currentTime nextSendAvailable
  let finish ← addTime start transmission
  let time ← addTime finish n.configuration.baseLatency
  let (jitter,state) := randomDuration draw state n.configuration.maximumJitter
  let time ← addTime time jitter
  if reorder then
    let (delay,state) := randomDuration draw state n.configuration.maximumReorderDelay
    let time ← addTime time delay
    some (time,finish,state)
  else some (time,finish,state)

end

def reservedFor (c : SimulatedConnection) : Nat := if c.currentState = .connecting then 4 else 2

def reservedLifecycleEventCapacity (t : SimulatedTransportState) : Nat :=
  (t.connections.entries.map fun e => reservedFor e.2).sum

def hasEventCapacityWithReservations (n : Network) (t : SimulatedTransportState) (required : Nat) : Bool :=
  let reserved := reservedLifecycleEventCapacity t
  let maximum := n.configuration.maximumPendingEventsPerTransport
  decide (required ≤ maximum) && decide (reserved ≤ maximum - required) &&
    decide (t.events.length ≤ maximum - required - reserved)

def removeConnectionEvents (t : SimulatedTransportState) (connection : ConnectionId) : SimulatedTransportState :=
  { t with events := t.events.filter fun e => e.connection != connection }

def allocateFrom (generations : List UInt32) : List UInt32 → Option (ConnectionId × List UInt32 × List UInt32)
  | [] =>
    if generations.length > 2 ^ 32 - 1 then none
    else some (⟨UInt32.ofNat generations.length,1⟩,generations ++ [1],[])
  | slot :: free =>
    let generation := generations.getD slot.toNat 0
    if generation = 0xffffffff then allocateFrom generations free
    else some (⟨slot,generation + 1⟩,generations.set slot.toNat (generation + 1),free)

/-- The slots that wore out are not kept, also when no connection is left to issue. -/
def allocateConnection (t : SimulatedTransportState) : Option ConnectionId × SimulatedTransportState :=
  match allocateFrom t.generations t.freeSlots with
  | none => (none,{ t with freeSlots := [] })
  | some (connection,generations,freeSlots) =>
    (some connection,{ t with generations, freeSlots, issued := t.issued ++ [connection] })

def releaseConnection (t : SimulatedTransportState) (connection : ConnectionId) : SimulatedTransportState :=
  if connection.slot.toNat < t.generations.length && t.generations.getD connection.slot.toNat 0 == connection.generation &&
      connection.generation != 0xffffffff then
    { t with freeSlots := t.freeSlots ++ [connection.slot] }
  else t

def schedule (n : Network) (item : ScheduledItem) : Bool × Network :=
  if n.scheduled.size ≥ n.configuration.maximumScheduledEvents || n.nextTieBreaker = maximumUnsigned then (false,n)
  else (true,{ n with
    scheduled := n.scheduled.insert (toLex (item.time,n.nextTieBreaker)) item
    nextTieBreaker := n.nextTieBreaker + 1 })

def canSchedule (n : Network) (count : Nat) : Bool :=
  decide (count ≤ n.configuration.maximumScheduledEvents) &&
  decide (n.scheduled.size ≤ n.configuration.maximumScheduledEvents - count) &&
  decide (count < maximumUnsigned) && decide (n.nextTieBreaker ≤ maximumUnsigned - count)

def canScheduleMessages (n : Network) (count : Nat) : Bool :=
  let reservedControlEvents := n.configuration.maximumConnections * 2
  if reservedControlEvents ≥ n.configuration.maximumScheduledEvents then false
  else
    let messageCapacity := n.configuration.maximumScheduledEvents - reservedControlEvents
    decide (count ≤ messageCapacity) && decide (n.scheduled.size ≤ messageCapacity - count) && canSchedule n count

def cancelScheduledLink (n : Network) (linkId : Nat) : Network :=
  { n with scheduled := n.scheduled.filter fun _ item => item.linkId != linkId }

def remoteDisconnectInformation (information : DisconnectInfo) : DisconnectInfo :=
  if information.reason = .localShutdown then ⟨.remoteShutdown,information.diagnostic⟩ else information

def SimulatedTransportState.dropConnection (t : SimulatedTransportState) (connection : ConnectionId) :
    SimulatedTransportState :=
  let t := removeConnectionEvents t connection
  releaseConnection { t with connections := t.connections.erase connection } connection

def closeOneSide (n : Network) (transportId : Nat) (connection : ConnectionId) (information : DisconnectInfo) : Network :=
  match n.transports.find? transportId with
  | none => n
  | some t =>
    match t.connections.find? connection with
    | none => n
    | some c =>
      let t := t.dropConnection connection
      { n with
        history := { n.history with
          assertFailed := n.history.assertFailed || !hasEventCapacityWithReservations n t 2 }
        transports := n.transports.insert transportId { t with events := t.events ++
          [.connectionState connection c.currentState .closed,.disconnected connection information] } }

def closeLink (n : Network) (linkId initiatorTransportId : Nat) (information : DisconnectInfo) : Network :=
  match n.links.find? linkId with
  | none => n
  | some link =>
    let n := cancelScheduledLink { n with links := n.links.erase linkId } linkId
    let toSide (transportId : Nat) :=
      if initiatorTransportId = transportId || initiatorTransportId = 0 then information
      else remoteDisconnectInformation information
    let n := closeOneSide n link.firstTransportId link.firstConnection (toSide link.firstTransportId)
    closeOneSide n link.secondTransportId link.secondConnection (toSide link.secondTransportId)

/-! ### Scheduled items -/

def modifyConnection (n : Network) (transportId : Nat) (connection : ConnectionId)
    (f : SimulatedConnection → SimulatedConnection) : Network :=
  { n with transports := n.transports.modify transportId fun t =>
      { t with connections := t.connections.modify connection f } }

def findConnection (n : Network) (transportId : Nat) (connection : ConnectionId) : Option SimulatedConnection :=
  (n.transports.find? transportId).bind fun t => t.connections.find? connection

/-- One side of an activated link. -/
def activateSide (n : Network) (transportId : Nat) (connection : ConnectionId) : Network :=
  match n.transports.find? transportId with
  | none => n
  | some t =>
    let t := { t with connections := t.connections.modify connection fun c => { c with currentState := .connected } }
    { n with
      history := { n.history with
        assertFailed := n.history.assertFailed || !hasEventCapacityWithReservations n t 2 }
      transports := n.transports.insert transportId { t with events := t.events ++
        [.connectionState connection .connecting .authenticating,
          .connectionState connection .authenticating .connected] } }

def endpointDisappeared : DisconnectInfo := ⟨.transportFailure,ascii "Simulated endpoint disappeared"⟩

def activateLink (n : Network) (item : ScheduledItem) : Network :=
  match n.links.find? item.linkId with
  | none => n
  | some link =>
    match n.transports.find? link.firstTransportId, n.transports.find? link.secondTransportId with
    | some first, some second =>
      match first.connections.find? link.firstConnection, second.connections.find? link.secondConnection with
      | some firstConnection, some secondConnection =>
        if firstConnection.currentState ≠ .connecting || secondConnection.currentState ≠ .connecting then n
        else activateSide (activateSide n link.firstTransportId link.firstConnection) link.secondTransportId
          link.secondConnection
      | _, _ => n
    | _, _ => closeLink n link.id 0 endpointDisappeared

def recordUnreliableDrop (c : SimulatedConnection) : SimulatedConnection :=
  { c with statistics := { c.statistics with
      droppedUnreliableMessages := saturatingAdd c.statistics.droppedUnreliableMessages 1 } }

def receivedEvent (item : ScheduledItem) : TransportEvent :=
  .received item.destinationConnection item.delivery item.traffic item.order item.payload

def pushEvent (n : Network) (id : Nat) (t : SimulatedTransportState) (e : TransportEvent) : Network :=
  { n with transports := n.transports.insert id { t with events := t.events ++ [e] } }

def SimulatedConnection.countDelivered (item : ScheduledItem) (c : SimulatedConnection) : SimulatedConnection :=
  { c with statistics := { c.statistics with
      messagesDelivered := saturatingAdd c.statistics.messagesDelivered 1
      duplicatedUnreliableMessages := (if item.duplicate then
        saturatingAdd c.statistics.duplicatedUnreliableMessages 1
        else c.statistics.duplicatedUnreliableMessages) } }

def SimulatedConnection.countReceived (item : ScheduledItem) (c : SimulatedConnection) : SimulatedConnection :=
  { c with statistics := { c.statistics with
      messagesReceived := saturatingAdd c.statistics.messagesReceived 1
      bytesReceived := saturatingAdd c.statistics.bytesReceived item.payload.length } }

/-- The end of `DeliverMessage`: the event is queued if there is room for it. -/
def queueReceived (n : Network) (item : ScheduledItem) : Network :=
  match n.transports.find? item.destinationTransportId with
  | none => n
  | some t =>
    if !hasEventCapacityWithReservations n t 1 then
      if item.delivery = .reliableOrdered then
        closeLink n item.linkId item.destinationTransportId
          ⟨.resourceExhaustion,ascii "Simulated receive queue exhausted"⟩
      else modifyConnection n item.sourceTransportId item.sourceConnection recordUnreliableDrop
    else
      let n := pushEvent n item.destinationTransportId t (receivedEvent item)
      let n := modifyConnection n item.sourceTransportId item.sourceConnection (·.countDelivered item)
      modifyConnection n item.destinationTransportId item.destinationConnection (·.countReceived item)

/-- A message no longer waits at its source. -/
def SimulatedConnection.released (c : SimulatedConnection) (item : ScheduledItem) : SimulatedConnection :=
  if item.delivery = .reliableOrdered then
    { c with
      reliableQueueBytes := c.reliableQueueBytes - item.payload.length
      statistics := { c.statistics with queuedReliableBytes := c.reliableQueueBytes - item.payload.length } }
  else { c with queuedUnreliableMessages := c.queuedUnreliableMessages - 1 }

def noteDiscard (n : Network) (lost cause : MessageOrder) : Network :=
  { n with history := { n.history with discards := n.history.discards ++ [(lost,cause)] } }

def filterSequenced (n : Network) (destination : SimulatedConnection) (item : ScheduledItem) : Network :=
  match getSequenceKey item.order with
  | none => modifyConnection n item.sourceTransportId item.sourceConnection recordUnreliableDrop
  | some (key,sequence) =>
    match destination.latestReceivedSequences.find? key with
    | some existing =>
      if existing.sequence ≥ sequence then
        modifyConnection (noteDiscard n item.order existing.order) item.sourceTransportId item.sourceConnection
          recordUnreliableDrop
      else queueReceived (modifyConnection n item.destinationTransportId item.destinationConnection fun c =>
        { c with latestReceivedSequences := c.latestReceivedSequences.insert key ⟨sequence,item.order⟩ }) item
    | none => queueReceived (modifyConnection n item.destinationTransportId item.destinationConnection fun c =>
        { c with latestReceivedSequences := c.latestReceivedSequences.insert key ⟨sequence,item.order⟩ }) item

def accountingUnderflow (n : Network) (item : ScheduledItem) (diagnostic : String) : Network :=
  closeLink { n with history := { n.history with underflowed := true } } item.linkId item.sourceTransportId
    ⟨.transportFailure,ascii diagnostic⟩

def deliverMessage (n : Network) (item : ScheduledItem) : Network :=
  if (n.links.find? item.linkId).isNone then n
  else match findConnection n item.sourceTransportId item.sourceConnection,
      findConnection n item.destinationTransportId item.destinationConnection with
    | some source, some destination =>
      if source.linkId ≠ item.linkId || destination.linkId ≠ item.linkId || source.currentState ≠ .connected ||
          destination.currentState ≠ .connected then n
      else if item.delivery = .reliableOrdered && decide (item.payload.length > source.reliableQueueBytes) then
        accountingUnderflow n item "Simulated reliable accounting underflow"
      else if item.delivery ≠ .reliableOrdered && decide (source.queuedUnreliableMessages = 0) then
        accountingUnderflow n item "Simulated unreliable accounting underflow"
      else
        let n := modifyConnection n item.sourceTransportId item.sourceConnection (·.released item)
        if item.delivery = .unreliableSequenced then filterSequenced n destination item else queueReceived n item
    | _, _ => n

def processScheduledItem (n : Network) (item : ScheduledItem) : Network :=
  match item.kind with
  | .activate => activateLink n item
  | .message => deliverMessage n item
  | .disconnect => closeLink n item.linkId item.sourceTransportId item.disconnect

def create (configuration : SimulatedTransportConfiguration) : Option Network :=
  if !configuration.isValid then none else some { configuration, randomState := configuration.seed }

def createTransport (n : Network) : Option Nat × Network :=
  if n.transports.size ≥ n.configuration.maximumTransports || n.nextTransportId = maximumUnsigned then (none,n)
  else (some n.nextTransportId,{ n with
    nextTransportId := n.nextTransportId + 1
    transports := n.transports.insert n.nextTransportId { id := n.nextTransportId } })

def advance (n : Network) (delta : SimulatedTime) : Bool × Network :=
  if delta < 0 then (false,n)
  else match addTime n.currentTime delta with
    | none => (false,n)
    | some next => (true,{ n with currentTime := next })

/-- One turn of the loop of `Pump`: the first item that is due. -/
def pumpTurn (n : Network) : Option Network :=
  match n.scheduled.entries with
  | [] => none
  | (key,item) :: _ =>
    if (ofLex key).1 ≤ n.currentTime then
      some (processScheduledItem { n with scheduled := n.scheduled.erase key } item)
    else none

/-- The loop of `Pump`; every turn takes one item off the schedule and none adds one. -/
def pumpLoop : Nat → Network → Network
  | 0, n => n
  | turns + 1, n =>
    match pumpTurn n with
    | none => n
    | some n => pumpLoop turns n

def pump (n : Network) : Network := pumpLoop n.scheduled.size n

/-! ### A transport -/

structure TransportStartConfiguration where
  role : TransportRole
  endpoint : TransportEndpoint
  advertisedLimits : NetworkLimits
  /-- The endpoint is well formed and the opaque material is within its bound. -/
  wellFormed : Bool := true

def TransportStartConfiguration.isValid (c : TransportStartConfiguration) : Bool :=
  c.wellFormed && c.advertisedLimits.isValid

def negotiateNetworkLimits (first second : NetworkLimits) : Option NetworkLimits :=
  if !first.isValid || !second.isValid then none
  else
    let result : NetworkLimits := {
      maximumReliableMessageBytes := min first.maximumReliableMessageBytes second.maximumReliableMessageBytes
      maximumUnreliableMessageBytes := min first.maximumUnreliableMessageBytes second.maximumUnreliableMessageBytes
      maximumQueuedReliableBytes := min first.maximumQueuedReliableBytes second.maximumQueuedReliableBytes
      maximumInFlightRemoteRequests := min first.maximumInFlightRemoteRequests second.maximumInFlightRemoteRequests
      maximumDecodedMessageBytes := min first.maximumDecodedMessageBytes second.maximumDecodedMessageBytes
      maximumSendBytesPerTick := min first.maximumSendBytesPerTick second.maximumSendBytesPerTick
      maximumReceiveBytesPerTick := min first.maximumReceiveBytesPerTick second.maximumReceiveBytesPerTick
      maximumMessagesPerTick := min first.maximumMessagesPerTick second.maximumMessagesPerTick }
    if result.isValid then some result else none

def operation (status : TransportOperationStatus) : TransportOperationResult := { status }

def serverOf (n : Network) (endpoint : TransportEndpoint) : Option Nat :=
  (n.servers.find? fun e => e.1 == endpoint).map Prod.snd

def SimulatedTransportState.begin (t : SimulatedTransportState) (configuration : TransportStartConfiguration) :
    SimulatedTransportState :=
  { t with
    started := true, role := configuration.role, endpoint := configuration.endpoint
    advertisedLimits := configuration.advertisedLimits }

def scheduleExhausted : DisconnectInfo := ⟨.resourceExhaustion,ascii "Simulated schedule exhausted"⟩

def SimulatedTransportState.link (t : SimulatedTransportState) (connection : ConnectionId) (c : SimulatedConnection) :
    SimulatedTransportState :=
  { t with connections := t.connections.insert connection c, linked := t.linked ++ [connection] }

def lifetimeExpired : DisconnectInfo := ⟨.timeout,ascii "Simulated connection lifetime expired"⟩

/-- The two sides of a new link and the schedule of its activation. -/
def linkUp (n : Network) (id serverId : Nat) (client server : ConnectionId) (limits : NetworkLimits)
    (timeoutAt : SimulatedTime) : TransportOperationResult × Network :=
  let linkId := n.nextLinkId
  let near : SimulatedConnection := { linkId, remoteConnection := server, remoteTransportId := serverId, limits }
  let far : SimulatedConnection := { linkId, remoteConnection := client, remoteTransportId := id, limits }
  let transports := (n.transports.modify id (·.link client near)).modify serverId (·.link server far)
  let links := n.links.insert linkId ⟨linkId,id,client,serverId,server⟩
  let n := { n with nextLinkId := n.nextLinkId + 1, links, transports }
  match schedule n { kind := .activate, time := n.currentTime, linkId } with
  | (false,n) => (operation .resourceExhausted,closeLink n linkId 0 scheduleExhausted)
  | (true,n) =>
    if n.configuration.connectionLifetime.isSome then
      match schedule n { kind := .disconnect, time := timeoutAt, linkId, disconnect := lifetimeExpired } with
      | (false,n) => (operation .resourceExhausted,closeLink n linkId 0 scheduleExhausted)
      | (true,n) => (operation .succeeded,n)
    else (operation .succeeded,n)

/-- The connections of both sides are issued before the link is numbered. -/
def allocateBoth (n : Network) (id serverId : Nat) : Option (ConnectionId × ConnectionId) × Network :=
  match n.transports.find? id, n.transports.find? serverId with
  | some t, some s =>
    let (client,t) := allocateConnection t
    let (server,s) := allocateConnection s
    match client, server with
    | some client, some server =>
      if n.nextLinkId = maximumUnsigned then
        let transports := n.transports.insert id (releaseConnection t client)
        (none,{ n with transports := transports.insert serverId (releaseConnection s server) })
      else (some (client,server),{ n with transports := (n.transports.insert id t).insert serverId s })
    | client, server =>
      let t := (client.map (releaseConnection t)).getD t
      let s := (server.map (releaseConnection s)).getD s
      (none,{ n with transports := (n.transports.insert id t).insert serverId s })
  | _, _ => (none,n)

def requiredSchedules (n : Network) : Nat := if n.configuration.connectionLifetime.isSome then 2 else 1

def timeoutTime (n : Network) : Option SimulatedTime :=
  match n.configuration.connectionLifetime with
  | none => some n.currentTime
  | some lifetime => addTime n.currentTime lifetime

def startClient (n : Network) (id : Nat) (t : SimulatedTransportState) (configuration : TransportStartConfiguration) :
    TransportOperationResult × Network :=
  match serverOf n configuration.endpoint with
  | none => (operation .transportFailure,n)
  | some serverId =>
    match n.transports.find? serverId with
    | none => (operation .transportFailure,n)
    | some server =>
      if !server.started || server.role ≠ .server then (operation .transportFailure,n)
      else match negotiateNetworkLimits configuration.advertisedLimits server.advertisedLimits with
        | none => (operation .resourceExhausted,n)
        | some limits =>
          if n.configuration.maximumReliableQueueBytes < limits.maximumReliableMessageBytes then
            (operation .resourceExhausted,n)
          else
            match timeoutTime n with
            | none => (operation .resourceExhausted,n)
            | some timeoutAt =>
              if !canSchedule n (requiredSchedules n) || n.links.size ≥ n.configuration.maximumConnections ||
                  !hasEventCapacityWithReservations n t 4 || !hasEventCapacityWithReservations n server 4 then
                (operation .resourceExhausted,n)
              else match allocateBoth n id serverId with
                | (none,n) => (operation .resourceExhausted,n)
                | (some (client,serverConnection),n) =>
                  match linkUp n id serverId client serverConnection limits timeoutAt with
                  | (result,n) =>
                    if result.status = .succeeded then
                      (result,{ n with transports := n.transports.modify id (·.begin configuration) })
                    else (result,n)

def start (n : Network) (id : Nat) (configuration : TransportStartConfiguration) : TransportOperationResult × Network :=
  match n.transports.find? id with
  | none => (operation .invalidState,n)
  | some t =>
    if !configuration.isValid then (operation .messageRejected,n)
    else if t.started || !t.connections.isEmpty then (operation .invalidState,n)
    else if n.configuration.maximumReliableQueueBytes < configuration.advertisedLimits.maximumReliableMessageBytes then
      (operation .resourceExhausted,n)
    else match configuration.role with
      | .server =>
        if (serverOf n configuration.endpoint).isSome then (operation .invalidState,n)
        else (operation .succeeded,{ n with
          servers := n.servers ++ [(configuration.endpoint,id)]
          transports := n.transports.modify id (·.begin configuration) })
      | .client => startClient n id t configuration

def eraseServer (n : Network) (endpoint : TransportEndpoint) : Network :=
  { n with servers := n.servers.filter fun e => e.1 != endpoint }

def disconnectItem (id linkId : Nat) (connection : ConnectionId) (information : DisconnectInfo)
    (time : SimulatedTime) : ScheduledItem :=
  { kind := .disconnect, time, linkId, sourceTransportId := id, sourceConnection := connection, disconnect := information }

def isValidDisconnect (information : DisconnectInfo) : Bool :=
  (validateProtocolString information.diagnostic 4096 "Disconnect diagnostic").isOk

def scheduleAll (n : Network) (items : List ScheduledItem) : Network :=
  items.foldl (fun n item => (schedule n item).2) n

def SimulatedConnection.close (c : SimulatedConnection) : SimulatedConnection := { c with currentState := .closing }

def stop (n : Network) (id : Nat) (information : DisconnectInfo) : TransportOperationResult × Network :=
  match n.transports.find? id with
  | none => (operation .succeeded,n)
  | some t =>
    if !isValidDisconnect information then (operation .messageRejected,n)
    else if !t.started then (operation .succeeded,n)
    else if !canSchedule n t.connections.size then (operation .resourceExhausted,n)
    else
      let n := if t.role = .server then eraseServer n t.endpoint else n
      let n := { n with transports := n.transports.modify id fun t =>
        { t with started := false, connections := t.connections.mapValues fun _ c => c.close } }
      (operation .succeeded,scheduleAll n (t.connections.entries.map fun e =>
        disconnectItem id e.2.linkId e.1 information n.currentTime))

def disconnect (n : Network) (id : Nat) (connection : ConnectionId) (information : DisconnectInfo) :
    TransportOperationResult × Network :=
  if !isValidDisconnect information then (operation .messageRejected,n)
  else match findConnection n id connection with
  | none => (operation .invalidConnection,n)
  | some c =>
    if c.currentState = .closing then (operation .succeeded,n)
    else if !canSchedule n 1 then (operation .resourceExhausted,n)
    else (operation .succeeded,(schedule (modifyConnection n id connection SimulatedConnection.close)
        (disconnectItem id c.linkId connection information n.currentTime)).2)

def scheduleDisconnect (n : Network) (id : Nat) (connection : ConnectionId) (delay : SimulatedTime)
    (information : DisconnectInfo) : TransportOperationResult × Network :=
  if !isValidDuration delay || !isValidDisconnect information then (operation .messageRejected,n)
  else match findConnection n id connection with
    | none => (operation .invalidConnection,n)
    | some c =>
      match addTime n.currentTime delay with
      | none => (operation .resourceExhausted,n)
      | some time =>
        if !canSchedule n 1 then (operation .resourceExhausted,n)
        else match schedule n (disconnectItem id c.linkId connection information time) with
          | (false,n) => (operation .resourceExhausted,n)
          | (true,n) => (operation .succeeded,n)

def messageItem (id : Nat) (c : SimulatedConnection) (message : NetworkMessageIntent) (time : SimulatedTime)
    (duplicate : Bool) : ScheduledItem :=
  { kind := .message, time, linkId := c.linkId, sourceTransportId := id, sourceConnection := message.destination
    destinationTransportId := c.remoteTransportId, destinationConnection := c.remoteConnection
    delivery := message.delivery, traffic := message.traffic, order := message.order, payload := message.payload
    duplicate }

def SimulatedConnection.countSent (c : SimulatedConnection) (bytes : Nat) : SimulatedConnection :=
  { c with statistics := { c.statistics with
      messagesSent := saturatingAdd c.statistics.messagesSent 1
      bytesSent := saturatingAdd c.statistics.bytesSent bytes } }

def SimulatedConnection.attempt (c : SimulatedConnection) (bytes : Nat) : SimulatedConnection :=
  { c.countSent bytes with unreliableAttempts := saturatingAdd c.unreliableAttempts 1 }

def SimulatedConnection.queueReliable (c : SimulatedConnection) (bytes : Nat)
    (nextSendAvailable lastReliableDelivery : SimulatedTime) : SimulatedConnection :=
  let c := c.countSent bytes
  { c with
    nextSendAvailable, lastReliableDelivery
    reliableQueueBytes := c.reliableQueueBytes + bytes
    statistics := { c.statistics with queuedReliableBytes := c.reliableQueueBytes + bytes } }

def SimulatedConnection.queueCopies (c : SimulatedConnection) (bytes copies : Nat) (nextSendAvailable : SimulatedTime) :
    SimulatedConnection :=
  { c.attempt bytes with nextSendAvailable, queuedUnreliableMessages := c.queuedUnreliableMessages + copies }

def copiesOf (duplicate : Bool) : Nat := if duplicate then 2 else 1

/-- An unreliable message that is lost counts as sent. -/
def dropSend (n : Network) (id : Nat) (message : NetworkMessageIntent) : TransportOperationResult × Network :=
  (operation .succeeded,modifyConnection n id message.destination fun c =>
    recordUnreliableDrop (c.attempt message.payload.length))

def reliableQueueExhausted : DisconnectInfo := ⟨.resourceExhaustion,ascii "Simulated reliable queue exhausted"⟩

section
variable (draw : UInt64 → UInt64 × UInt64)

/-- A refused send leaves everything as it was. -/
def sendReliable (n : Network) (id : Nat) (c : SimulatedConnection) (message : NetworkMessageIntent) :
    TransportOperationResult × Network :=
  let bytes := message.payload.length
  let queueLimit := min n.configuration.maximumReliableQueueBytes c.limits.maximumQueuedReliableBytes
  if bytes > queueLimit || c.reliableQueueBytes > queueLimit - bytes || !canScheduleMessages n 1 then
    let n := modifyConnection n id message.destination SimulatedConnection.close
    match schedule n (disconnectItem id c.linkId message.destination reliableQueueExhausted n.currentTime) with
    | (true,n) => (⟨.resourceExhausted,some reliableQueueExhausted⟩,n)
    | (false,n) => (⟨.resourceExhausted,some reliableQueueExhausted⟩,closeLink n c.linkId id reliableQueueExhausted)
  else match computeDeliveryTime draw n n.randomState c.nextSendAvailable bytes false with
    | none => (operation .resourceExhausted,n)
    | some (time,nextSendAvailable,randomState) =>
      let time := max time c.lastReliableDelivery
      let item := messageItem id c message time false
      match schedule { n with randomState } item with
      | (false,n) => (⟨.resourceExhausted,some scheduleExhausted⟩,closeLink n c.linkId id scheduleExhausted)
      | (true,n) =>
        let n := modifyConnection n id message.destination (·.queueReliable bytes nextSendAvailable time)
        (operation .succeeded,{ n with history := { n.history with accepted := n.history.accepted ++ [item] } })

/-- The delivery times of the copies of an unreliable message. -/
def copyTimes (n : Network) (bytes : Nat) : Nat → UInt64 → SimulatedTime →
    Option (List SimulatedTime × SimulatedTime × UInt64)
  | 0, state, nextSendAvailable => some ([],nextSendAvailable,state)
  | copies + 1, state, nextSendAvailable => do
    let (reorder,state) := probabilityHit draw state n.configuration.unreliableReorderProbability
    let (time,nextSendAvailable,state) ← computeDeliveryTime draw n state nextSendAvailable bytes reorder
    let (times,nextSendAvailable,state) ← copyTimes n bytes copies state nextSendAvailable
    some (time :: times,nextSendAvailable,state)

def scheduleItems : Network → List ScheduledItem → Bool × Network
  | n, [] => (true,n)
  | n, item :: rest =>
    match schedule n item with
    | (false,n) => (false,n)
    | (true,n) => scheduleItems n rest

def sendUnreliable (n : Network) (id : Nat) (c : SimulatedConnection) (message : NetworkMessageIntent) :
    TransportOperationResult × Network :=
  let bytes := message.payload.length
  let (lost,randomState) := probabilityHit draw n.randomState n.configuration.unreliableLossProbability
  if lost then dropSend { n with randomState } id message
  else
    let (duplicate,randomState) := probabilityHit draw randomState n.configuration.unreliableDuplicationProbability
    let copies := copiesOf duplicate
    if copies > n.configuration.maximumQueuedUnreliableMessages - c.queuedUnreliableMessages ||
        !canScheduleMessages n copies then dropSend { n with randomState } id message
    else match copyTimes draw n bytes copies randomState c.nextSendAvailable with
      | none => (operation .resourceExhausted,n)
      | some (times,nextSendAvailable,randomState) =>
        let items := times.mapIdx fun index time => messageItem id c message time (index != 0)
        match scheduleItems { n with randomState } items with
        | (false,n) =>
          dropSend (modifyConnection n id message.destination fun c => { c with nextSendAvailable }) id message
        | (true,n) => (operation .succeeded,
            modifyConnection n id message.destination (·.queueCopies bytes copies nextSendAvailable))

def messageLimit (c : SimulatedConnection) (delivery : DeliveryMode) : Nat :=
  if delivery = .reliableOrdered then c.limits.maximumReliableMessageBytes else c.limits.maximumUnreliableMessageBytes

def send (n : Network) (id : Nat) (message : NetworkMessageIntent) : TransportOperationResult × Network :=
  match findConnection n id message.destination with
  | none => (operation .invalidConnection,n)
  | some c =>
    if c.currentState ≠ .connected then (operation .invalidState,n)
    else
      let bytes := message.payload.length
      let reliable := message.delivery == .reliableOrdered
      if bytes = 0 || bytes > messageLimit c message.delivery || bytes > c.limits.maximumDecodedMessageBytes then
        (operation .messageRejected,n)
      else if reliable then sendReliable draw n id c message
      else if bytes > min n.configuration.maximumUnreliableDatagramBytes c.limits.maximumUnreliableMessageBytes then
        (operation .messageRejected,n)
      else sendUnreliable draw n id c message

end

def pollEvents (n : Network) (id capacity : Nat) : List TransportEvent × Network :=
  match n.transports.find? id with
  | none => ([],n)
  | some t =>
    let events := t.events.take capacity
    let t := { t with events := t.events.drop capacity, polled := t.polled ++ events }
    (events,{ n with transports := n.transports.insert id t })

def transportDestroyed : DisconnectInfo := ⟨.transportFailure,ascii "Simulated transport destroyed"⟩

/-- The destructor. -/
def destroy (n : Network) (id : Nat) : Network :=
  match n.transports.find? id with
  | none => n
  | some t =>
    let links := t.connections.entries.map fun e => e.2.linkId
    let n := links.foldl (fun n linkId => closeLink n linkId id transportDestroyed) n
    let n := if t.started && t.role == .server then eraseServer n t.endpoint else n
    { n with transports := n.transports.erase id }

inductive Event where
  | createTransport
  | start (id : Nat) (configuration : TransportStartConfiguration)
  | stop (id : Nat) (information : DisconnectInfo)
  | disconnect (id : Nat) (connection : ConnectionId) (information : DisconnectInfo)
  | scheduleDisconnect (id : Nat) (connection : ConnectionId) (delay : SimulatedTime) (information : DisconnectInfo)
  | send (id : Nat) (message : NetworkMessageIntent)
  | poll (id capacity : Nat)
  | destroy (id : Nat)
  | advance (delta : SimulatedTime)
  | pump

def step (draw : UInt64 → UInt64 × UInt64) (n : Network) : Event → Option Network
  | .createTransport => some (createTransport n).2
  | .start id configuration => some (start n id configuration).2
  | .stop id information => some (stop n id information).2
  | .disconnect id connection information => some (disconnect n id connection information).2
  | .scheduleDisconnect id connection delay information =>
    some (scheduleDisconnect n id connection delay information).2
  | .send id message => some (send draw n id message).2
  | .poll id capacity => some (pollEvents n id capacity).2
  | .destroy id => some (destroy n id)
  | .advance delta => some (advance n delta).2
  | .pump => some (pump n)

end Gargantuan.SimulatedTransport
