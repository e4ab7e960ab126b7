import Mathlib.Tactic.Ring
import Gargantuan.MessageIntent

/-!
The profile of the reliable service: rates, bursts and backlogs that a server is
deployed with, in two modes. The pooled mode accepts one set of numbers only.
-/
namespace Gargantuan
open Bool Nat

def maximumUInt64 : Nat := 2 ^ 64 - 1
def maximumBackendRate : Nat := 2 ^ 31 - 1
def reliableServiceEnvelopeBytes : Nat := 32
def maximumReliableServiceGroupBytes : Nat := 512 * 1024
def maximumServiceRemoteFrameBytes : Nat := 256 * 1024
def nativeMaximumSchedulerQueuedReliableBytes : Nat := 256 * 1024 * 1024

inductive ReliableServiceMode where
  | fullReservation | pooledService
deriving DecidableEq

structure PooledReliableServiceProfile where
  separateNativeCapacity : Bool := false
  diagnosticPerformance : Bool := false
  backendCap : Nat := 96 * 1024 * 1024
  structuralPool : Nat := 64 * 1024 * 1024
  gameplayReserve : Nat := 8 * 1024 * 1024
  controlRealtimeReserve : Nat := 4 * 1024 * 1024
  requiredTransportReserve : Nat := 8 * 1024 * 1024
  peerDrainFloor : Nat := 16 * 1024 * 1024
  peerCreditRate : Nat := 2 * 1024 * 1024
  globalCreditRate : Nat := 64 * 1024 * 1024
  peerBurstCap : Nat := maximumReliableServiceGroupBytes
  globalBurstCap : Nat := 4 * maximumReliableServiceGroupBytes
  peerPendingCap : Nat := maximumReliableServiceGroupBytes
  globalPendingCap : Nat := 32 * maximumReliableServiceGroupBytes
  maximumDrainGrants : Nat := 4
  feedbackFreshnessMicroseconds : Nat := 50000
  requalificationMicroseconds : Nat := 1000000
deriving DecidableEq

namespace PooledReliableServiceProfile

def peerActiveGrantDrainCapacityFloor : Nat := 16 * 1024 * 1024
def serviceQuantumBytes : Nat := 1248
def finiteGrantInterceptByteMicroseconds : Nat :=
  serviceQuantumBytes * 1000000 + peerActiveGrantDrainCapacityFloor * (5000 + 1000)
def queueWindowMicroseconds : Nat := 50000
def peerGameplayBurst : Nat := 20 * 1024
def gameplayBurst : Nat := 160 * 1024
def controlBurst : Nat := 64 * 1024
def peerOrdinaryUnsentLimit : Nat :=
  (peerActiveGrantDrainCapacityFloor * queueWindowMicroseconds -
    (finiteGrantInterceptByteMicroseconds + maximumReliableServiceGroupBytes * 1000000)) / 1000000 -
    peerGameplayBurst - controlBurst

/-- Whether the numbers are the accepted ones; only a longer requalification is left free. -/
def accepted (p : PooledReliableServiceProfile) : Bool :=
  decide (1000000 ≤ p.requalificationMicroseconds) &&
    decide (p = { separateNativeCapacity := p.separateNativeCapacity
                  diagnosticPerformance := p.diagnosticPerformance
                  requalificationMicroseconds := p.requalificationMicroseconds })

end PooledReliableServiceProfile

structure ReliableServiceProfile where
  connectionRate : Nat := 256 * 1024
  aggregateRate : Nat := 256 * 1024
  backendRate : Nat := 512 * 1024
  maximumConnections : Nat := 1
  structuralPermille : Nat := 750
  peerBurst : Nat := maximumReliableServiceGroupBytes
  globalBurst : Nat := maximumReliableServiceGroupBytes
  gameplayBurst : Nat := 256 * 1024 + reliableServiceEnvelopeBytes
  peerBacklog : Nat := maximumReliableServiceGroupBytes + 2 * (256 * 1024 + reliableServiceEnvelopeBytes)
  globalBacklog : Nat := maximumReliableServiceGroupBytes + 2 * (256 * 1024 + reliableServiceEnvelopeBytes)
  nonQueueAllowanceMilliseconds : Nat := 100
  requireLatencyCompatibility : Bool := false
  mode : ReliableServiceMode := .fullReservation
  pooled : PooledReliableServiceProfile := {}
deriving DecidableEq

namespace ReliableServiceProfile

def isPooled (p : ReliableServiceProfile) : Bool := p.mode = .pooledService
def peerStructuralRate (p : ReliableServiceProfile) : Nat := p.connectionRate * p.structuralPermille / 1000
def globalStructuralRate (p : ReliableServiceProfile) : Nat := p.aggregateRate * p.structuralPermille / 1000

def pooledService (separateNativeCapacity : Bool) : ReliableServiceProfile :=
  { mode := .pooledService, maximumConnections := 32, pooled := { separateNativeCapacity } }

/-- Why the rates and bounds of a full reservation are refused, if they are. -/
def resourceError (p : ReliableServiceProfile) : Option String :=
  if p.connectionRate = 0 ∨ maximumBackendRate < p.connectionRate then
    some "ConnectionRate must fit the positive backend rate range"
  else if p.maximumConnections = 0 ∨ 4096 < p.maximumConnections then
    some "MaximumConnections must be in 1..4096"
  else if p.backendRate < p.connectionRate ∨ maximumBackendRate < p.backendRate then
    some "BackendRate must cover ConnectionRate and fit the positive backend rate range"
  else if p.aggregateRate / p.maximumConnections < p.connectionRate ∨
      maximumBackendRate * p.maximumConnections < p.aggregateRate then
    some "AggregateRate must fund MaximumConnections times ConnectionRate"
  else if p.structuralPermille = 0 ∨ 750 < p.structuralPermille ∨ p.peerStructuralRate = 0 then
    some "StructuralPermille must reserve at least 25 percent for gameplay and permit structural progress"
  else if p.peerBurst < maximumReliableServiceGroupBytes ∨ p.globalBurst < maximumReliableServiceGroupBytes then
    some "Burst credit must hold a complete 512 KiB supported atomic group"
  else if nativeMaximumQueuedReliableBytes < p.peerBacklog ∨
      nativeMaximumSchedulerQueuedReliableBytes < p.globalBacklog then
    some "Reliable service backlog exceeds the native finite memory ceiling"
  else if p.gameplayBurst < maximumServiceRemoteFrameBytes + reliableServiceEnvelopeBytes ∨
      p.peerBacklog / 2 < p.gameplayBurst ∨ p.peerBacklog - 2 * p.gameplayBurst < p.peerBurst then
    some "PeerBacklog must fund structural burst, existing gameplay burst and fresh gameplay reserve"
  else if p.globalBacklog < p.peerBacklog ∨ p.globalBacklog / p.maximumConnections / 2 < p.gameplayBurst ∨
      p.globalBacklog - 2 * p.gameplayBurst * p.maximumConnections < p.globalBurst then
    some "GlobalBacklog must fund the structural burst and gameplay headroom for every admitted peer"
  else if p.nonQueueAllowanceMilliseconds = 0 ∨ 250 ≤ p.nonQueueAllowanceMilliseconds then
    some "NonQueueAllowanceMilliseconds must leave positive time within the 250 ms Event/action target"
  else none

def isLatencyCompatible (p : ReliableServiceProfile) : Bool :=
  if p.isPooled then
    decide (p.maximumConnections = 32) && decide (p.nonQueueAllowanceMilliseconds = 100) &&
      !p.pooled.separateNativeCapacity && !p.pooled.diagnosticPerformance && p.pooled.accepted
  else
    p.resourceError.isNone &&
      let queueMilliseconds := 250 - p.nonQueueAllowanceMilliseconds
      decide (p.connectionRate ≤ p.backendRate / 2) &&
        decide (p.peerBacklog * 1000 ≤ p.connectionRate * queueMilliseconds) &&
        decide (p.globalBacklog * 1000 ≤ p.aggregateRate * queueMilliseconds)

/-- Why a profile is refused, if it is. -/
def validationError (p : ReliableServiceProfile) : Option String :=
  if p.isPooled then
    if p.pooled.diagnosticPerformance && !p.pooled.separateNativeCapacity then
      some "Non-real-time pooled service requires separate native capacity and exact retained ACK ownership"
    else if p.maximumConnections ≠ 32 ∨ p.nonQueueAllowanceMilliseconds ≠ 100 then
      some "POOLED_SERVICE requires the accepted 32-peer, 100 ms nonqueue candidate"
    else if p.requireLatencyCompatibility && p.pooled.separateNativeCapacity then
      some (if p.pooled.diagnosticPerformance then "Non-real-time service cannot satisfy RequireLatencyCompatibility"
        else "Separated native capacity is unqualified for retained-retry ordinary FIFO service")
    else if p.pooled.accepted then none
    else some "POOLED_SERVICE parameters differ from the accepted Option C candidate"
  else
    match p.resourceError with
    | some error => some error
    | none =>
      if p.requireLatencyCompatibility && !p.isLatencyCompatible then
        some ("Unqualified reliable rate/backlog profile: the full atomic-group envelope cannot fit " ++
          "the approved latency target")
      else none

def isValid (p : ReliableServiceProfile) : Bool := p.validationError.isNone

/-! The credit of a peer and of all peers: how fast it grows and where it stops. -/

def peerRate (p : ReliableServiceProfile) : Nat := if p.isPooled then p.pooled.peerCreditRate else p.peerStructuralRate
def globalRate (p : ReliableServiceProfile) : Nat :=
  if p.isPooled then p.pooled.globalCreditRate else p.globalStructuralRate
def peerCap (p : ReliableServiceProfile) : Nat := if p.isPooled then p.pooled.peerBurstCap else p.peerBurst
def globalCap (p : ReliableServiceProfile) : Nat := if p.isPooled then p.pooled.globalBurstCap else p.globalBurst

variable {p : ReliableServiceProfile}

theorem pooled_of_isValid (valid : p.isValid) (pooled : p.isPooled) :
    p.pooled.maximumDrainGrants = 4 ∧ p.pooled.globalPendingCap = 32 * maximumReliableServiceGroupBytes ∧
      p.pooled.peerCreditRate = 2 * 1024 * 1024 ∧ p.pooled.globalCreditRate = 64 * 1024 * 1024 ∧
      p.pooled.peerBurstCap = maximumReliableServiceGroupBytes ∧
      p.pooled.globalBurstCap = 4 * maximumReliableServiceGroupBytes := by
  unfold isValid validationError at valid
  have accepted : p.pooled.accepted := by
    split_ifs at valid
    all_goals first | assumption | cases valid
  simp only [PooledReliableServiceProfile.accepted,and_eq_true,decide_eq_true_eq] at accepted
  have same := accepted.2
  refine ⟨?_,?_,?_,?_,?_,?_⟩ <;> rw [same]

theorem reserved_of_isValid (valid : p.isValid) (reserved : p.isPooled = false) :
    0 < p.peerStructuralRate ∧ p.connectionRate ≤ p.aggregateRate ∧
      p.aggregateRate ≤ maximumBackendRate * 4096 ∧ p.structuralPermille ≤ 750 ∧
      p.peerBurst ≤ nativeMaximumQueuedReliableBytes ∧ p.globalBurst ≤ nativeMaximumSchedulerQueuedReliableBytes := by
  unfold isValid validationError at valid
  rw [if_neg (by rw [reserved]; exact nofun)] at valid
  cases refused : p.resourceError with
  | some error =>
    rw [refused] at valid
    cases valid
  | none =>
    unfold resourceError at refused
    split_ifs at refused with h1 h2 h3 h4 h5 h6 h7 h8 h9 h10
    push Not at h2 h4 h5 h7 h8 h9
    have fewer : p.aggregateRate / p.maximumConnections ≤ p.aggregateRate := div_le_self _ _
    have larger : maximumBackendRate * p.maximumConnections ≤ maximumBackendRate * 4096 :=
      mul_le_mul_left _ h2.2
    refine ⟨pos_of_ne_zero h5.2.2,h4.1.trans fewer,h4.2.trans larger,h5.2.1,?_,?_⟩
    · exact h8.2.2.trans ((sub_le _ _).trans h7.1)
    · exact h9.2.2.trans ((sub_le _ _).trans h7.2)

theorem rates_of_isValid (valid : p.isValid) :
    0 < p.peerRate ∧ 0 < p.globalRate ∧ p.peerRate * 999999 + 999999 ≤ maximumUInt64 ∧
      p.globalRate * 999999 + 999999 ≤ maximumUInt64 := by
  cases pooled : p.isPooled with
  | true =>
    obtain ⟨-,-,peer,all,-,-⟩ := pooled_of_isValid valid pooled
    simp only [peerRate,globalRate,pooled,if_true,peer,all]
    decide
  | false =>
    obtain ⟨positive,fewer,bounded,permille,-,-⟩ := reserved_of_isValid valid pooled
    simp only [peerRate,globalRate,pooled,false_eq_true,if_false]
    have monotone : p.peerStructuralRate ≤ p.globalStructuralRate :=
      Nat.div_le_div_right (Nat.mul_le_mul_right _ fewer)
    have largest : p.aggregateRate * p.structuralPermille ≤ maximumBackendRate * 4096 * 750 :=
      Nat.mul_le_mul bounded permille
    have small : p.globalStructuralRate ≤ maximumBackendRate * 4096 * 750 / 1000 := Nat.div_le_div_right largest
    simp only [maximumBackendRate,maximumUInt64] at small ⊢
    omega

end ReliableServiceProfile
end Gargantuan
