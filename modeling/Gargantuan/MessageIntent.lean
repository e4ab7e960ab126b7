import Gargantuan.WireValue

/-!
What a subsystem asks the network to send: a destination, a delivery mode, a
traffic class, an order and a payload, checked against the negotiated limits of
the connection when the intent is made.
-/
namespace Gargantuan
open Bool

structure NetworkLimits where
  maximumReliableMessageBytes : Nat := 0
  maximumUnreliableMessageBytes : Nat := 0
  maximumQueuedReliableBytes : Nat := 0
  maximumInFlightRemoteRequests : Nat := 0
  maximumDecodedMessageBytes : Nat := 0
  maximumSendBytesPerTick : Nat := 0
  maximumReceiveBytesPerTick : Nat := 0
  maximumMessagesPerTick : Nat := 0
deriving DecidableEq, Repr

def nativeMaximumNetworkMessageBytes : Nat := 8 * 1024 * 1024
def nativeMaximumUnreliableMessageBytes : Nat := 64 * 1024
def nativeMaximumQueuedReliableBytes : Nat := 64 * 1024 * 1024
def nativeMaximumInFlightRemoteRequests : Nat := 4096
def nativeMaximumNetworkBytesPerTick : Nat := 16 * 1024 * 1024
def nativeMaximumNetworkMessagesPerTick : Nat := 4096

def NetworkLimits.isValid (l : NetworkLimits) : Bool :=
  l.maximumReliableMessageBytes > 0 &&
  l.maximumReliableMessageBytes ≤ nativeMaximumNetworkMessageBytes &&
  l.maximumUnreliableMessageBytes > 0 &&
  l.maximumUnreliableMessageBytes ≤ nativeMaximumUnreliableMessageBytes &&
  l.maximumQueuedReliableBytes ≥ l.maximumReliableMessageBytes &&
  l.maximumQueuedReliableBytes ≤ nativeMaximumQueuedReliableBytes &&
  l.maximumInFlightRemoteRequests > 0 &&
  l.maximumInFlightRemoteRequests ≤ nativeMaximumInFlightRemoteRequests &&
  l.maximumDecodedMessageBytes ≥ l.maximumReliableMessageBytes &&
  l.maximumDecodedMessageBytes ≥ l.maximumUnreliableMessageBytes &&
  l.maximumDecodedMessageBytes ≤ nativeMaximumNetworkMessageBytes &&
  l.maximumSendBytesPerTick ≥ l.maximumReliableMessageBytes &&
  l.maximumSendBytesPerTick ≥ l.maximumUnreliableMessageBytes &&
  l.maximumSendBytesPerTick ≤ nativeMaximumNetworkBytesPerTick &&
  l.maximumReceiveBytesPerTick ≥ l.maximumDecodedMessageBytes &&
  l.maximumReceiveBytesPerTick ≤ nativeMaximumNetworkBytesPerTick &&
  l.maximumMessagesPerTick > 0 && l.maximumMessagesPerTick ≤ nativeMaximumNetworkMessagesPerTick

def NetworkLimits.nativeCeilings : NetworkLimits where
  maximumReliableMessageBytes := nativeMaximumNetworkMessageBytes
  maximumUnreliableMessageBytes := nativeMaximumUnreliableMessageBytes
  maximumQueuedReliableBytes := nativeMaximumQueuedReliableBytes
  maximumInFlightRemoteRequests := nativeMaximumInFlightRemoteRequests
  maximumDecodedMessageBytes := nativeMaximumNetworkMessageBytes
  maximumSendBytesPerTick := nativeMaximumNetworkBytesPerTick
  maximumReceiveBytesPerTick := nativeMaximumNetworkBytesPerTick
  maximumMessagesPerTick := nativeMaximumNetworkMessagesPerTick

inductive DeliveryMode where
  | reliableOrdered | unreliableUnordered | unreliableSequenced
deriving DecidableEq, Repr

inductive TrafficClass where
  | control | structuralReplication | reliableApplication | realtimeState | ephemeralApplication | background
deriving DecidableEq, Repr

inductive MessageOrder where
  | none
  | realtimeState (channel : StateChannelId) (sequence : RealtimeStateSequence)
  | remoteEvent (channel : StateChannelId) (publication : RemotePublicationId) (sequence : RemoteEventSequence)
  | reliableReplication (sequence : ReliableReplicationSequence)
deriving DecidableEq

def isValidMessageOrder : MessageOrder → Bool
  | .none => true
  | .realtimeState channel sequence => channel.isValid && sequence.isValid
  | .remoteEvent channel publication sequence => channel.isValid && publication.isValid && sequence.isValid
  | .reliableReplication sequence => sequence.isValid

structure NetworkMessageIntent where
  destination : ConnectionId
  delivery : DeliveryMode
  traffic : TrafficClass
  order : MessageOrder
  payload : List UInt8
deriving DecidableEq

def orderFitsDelivery : DeliveryMode → MessageOrder → Bool
  | .unreliableSequenced, .none => false
  | .unreliableSequenced, .reliableReplication _ => false
  | .unreliableUnordered, .none => true
  | .unreliableUnordered, _ => false
  | _, _ => true

def validateIntent (destination : ConnectionId) (delivery : DeliveryMode) (order : MessageOrder)
    (payload : List UInt8) (limits : NetworkLimits) : Bool :=
  destination.isValid && limits.isValid && !payload.isEmpty && isValidMessageOrder order &&
  orderFitsDelivery delivery order &&
  decide (payload.length ≤ if delivery = .reliableOrdered then limits.maximumReliableMessageBytes
    else limits.maximumUnreliableMessageBytes) &&
  decide (payload.length ≤ limits.maximumDecodedMessageBytes) &&
  decide (payload.length ≤ limits.maximumSendBytesPerTick)

def makeNetworkMessageIntent (destination : ConnectionId) (delivery : DeliveryMode) (traffic : TrafficClass)
    (order : MessageOrder) (payload : List UInt8) (limits : NetworkLimits) : Option NetworkMessageIntent :=
  if !validateIntent destination delivery order payload limits then Option.none
  else some { destination, delivery, traffic, order, payload }

def isNetworkMessageIntentValid (intent : NetworkMessageIntent) (limits : NetworkLimits) : Bool :=
  validateIntent intent.destination intent.delivery intent.order intent.payload limits

theorem makeNetworkMessageIntent_eq_some {destination : ConnectionId} {delivery : DeliveryMode}
    {traffic : TrafficClass} {order : MessageOrder} {payload : List UInt8} {limits : NetworkLimits}
    {intent : NetworkMessageIntent} :
    makeNetworkMessageIntent destination delivery traffic order payload limits = some intent ↔
      validateIntent destination delivery order payload limits ∧
        intent = { destination, delivery, traffic, order, payload } := by
  simp only [makeNetworkMessageIntent]
  split_ifs with refused
  · simp only [not_eq_true'] at refused
    simp [refused]
  · simp only [not_eq_true',not_eq_false] at refused
    simp [refused,eq_comm]

end Gargantuan
