import Gargantuan.Ledger
import Gargantuan.RemoteFrames

/-!
The books a manager keeps by hand. Five columns charge queued messages, deferred
messages, outgoing requests and running handlers to their peers; `Accounts` says that
every counter and total is what is held, and that every bound `ObserveOwnership` checks
holds. The held items are parameters, so that the loops, which take items out of a
container before or after they correct its counters, are described by the same rules.
-/
namespace Gargantuan.RemoteManager
open SortedMap PeerState Option Nat
open List (length_cons map_cons sum_cons)

theorem sizeSub_of_le {a b : Nat} (le : b ≤ a) : sizeSub a b = a - b := if_pos le

theorem foldl_sizeSub {amounts : List Nat} {total : Nat} (covered : amounts.sum ≤ total) :
    amounts.foldl sizeSub total = total - amounts.sum := by
  induction amounts generalizing total with
  | nil => simp
  | cons a rest ih =>
    rw [sum_cons] at covered
    rw [List.foldl_cons,sizeSub_of_le (by omega),ih (by omega),sum_cons]
    omega

/-! ### Columns -/

def messageColumn : Column QueuedMessage ConnectionId PeerState :=
  ⟨QueuedMessage.connection,fun _ => 1,PeerState.queuedDispatchMessages⟩

def byteColumn : Column QueuedMessage ConnectionId PeerState :=
  ⟨QueuedMessage.connection,QueuedMessage.encodedBytes,PeerState.queuedDispatchBytes⟩

def deferredColumn : Column DeferredMessage ConnectionId PeerState :=
  ⟨DeferredMessage.connection,fun d => d.encoded.length,PeerState.deferredReliableBytes⟩

def outgoingColumn : Column PendingKey ConnectionId PeerState :=
  ⟨PendingKey.connection,fun _ => 1,PeerState.pendingOutgoingRequests⟩

def handlerColumn : Column PendingKey ConnectionId PeerState :=
  ⟨PendingKey.connection,fun _ => 1,PeerState.concurrentHandlers⟩

/-- The bounds `ObserveOwnership` checks on a peer's own counters. -/
structure WithinLimits (p : PeerState) : Prop where
  messages : p.queuedDispatchMessages ≤ p.limits.maximumMessagesPerTick
  bytes : p.queuedDispatchBytes ≤ p.limits.maximumReceiveBytesPerTick
  deferred : p.deferredReliableBytes ≤ p.limits.maximumQueuedReliableBytes
  outgoing : p.pendingOutgoingRequests ≤ p.limits.maximumInFlightRemoteRequests
  handlers : p.concurrentHandlers ≤ maximumConcurrentRemoteHandlersPerPeer
  handlersNegotiated : p.concurrentHandlers ≤ p.limits.maximumInFlightRemoteRequests

def PeerState.counters (p : PeerState) : PeerState :=
  { p.books with publishedRemotes := ∅, publications := ∅, nextRequest := {}, materializedObjects := ∅
                 nextOutgoingSequence := ∅, latestIncomingSequence := ∅, latestIncomingRequest := {} }

theorem withinLimits_counters {p : PeerState} : WithinLimits p.counters ↔ WithinLimits p :=
  ⟨fun ⟨m,b,d,o,h,n⟩ => ⟨m,b,d,o,h,n⟩,fun ⟨m,b,d,o,h,n⟩ => ⟨m,b,d,o,h,n⟩⟩

section
variable {ε : Type}

structure Accounts (s : State ε) (queue : List QueuedMessage) (deferred : List DeferredMessage)
    (outgoing handlers : List PendingKey) : Prop where
  live : ∀ c p, s.peers.find? c = some p → s.active = true
  queueMessages : Settled messageColumn s.peers queue
  queueBytes : Settled byteColumn s.peers queue
  deferredBytes : Settled deferredColumn s.peers deferred
  requests : Settled outgoingColumn s.peers outgoing
  running : Settled handlerColumn s.peers handlers
  queueTotal : s.active = true → s.metrics.queuedDispatchBytes = (queue.map QueuedMessage.encodedBytes).sum
  deferredTotal : s.active = true → s.metrics.deferredReliableBytes = (deferred.map fun d => d.encoded.length).sum
  noUnderflow : s.history.underflowed = false
  noViolation : s.metrics.boundViolations = 0
  limits : ∀ c p, s.peers.find? c = some p → WithinLimits p
  queueLength : queue.length ≤ maximumQueuedRemoteDispatchMessages
  queueSum : (queue.map QueuedMessage.encodedBytes).sum ≤ maximumQueuedRemoteDispatchBytes
  deferredLength : deferred.length ≤ maximumQueuedRemoteDispatchMessages
  deferredSum : (deferred.map fun d => d.encoded.length).sum ≤ maximumQueuedRemoteDispatchBytes
  outgoingLength : outgoing.length ≤ maximumRemoteInFlightRequestsPerManager
  handlersLength : handlers.length ≤ maximumConcurrentRemoteHandlersPerManager

structure SameBooks (s t : State ε) : Prop where
  active : t.active = s.active
  queueBytes : t.metrics.queuedDispatchBytes = s.metrics.queuedDispatchBytes
  deferredBytes : t.metrics.deferredReliableBytes = s.metrics.deferredReliableBytes
  violations : t.metrics.boundViolations = s.metrics.boundViolations
  underflowed : t.history.underflowed = s.history.underflowed
  peers : ∀ c, (t.peers.find? c).map PeerState.counters = (s.peers.find? c).map PeerState.counters

theorem Quiet.sameBooks {s t : State ε} (quiet : Quiet s t) : SameBooks s t where
  active := quiet.active
  queueBytes := by rw [quiet.metrics]
  deferredBytes := by rw [quiet.metrics]
  violations := by rw [quiet.metrics]
  underflowed := by
    change t.history.core.underflowed = s.history.core.underflowed
    rw [quiet.history]
  peers c := map_of_map (quiet.peers c) fun p =>
    ({ p with publishedRemotes := ∅, publications := ∅, nextRequest := {}, materializedObjects := ∅
              nextOutgoingSequence := ∅, latestIncomingSequence := ∅, latestIncomingRequest := {} } : PeerState)

theorem SameBooks.of_eq {s t : State ε} (peers : t.peers = s.peers) (active : t.active = s.active)
    (queue : t.metrics.queuedDispatchBytes = s.metrics.queuedDispatchBytes)
    (deferred : t.metrics.deferredReliableBytes = s.metrics.deferredReliableBytes)
    (violations : t.metrics.boundViolations = s.metrics.boundViolations)
    (underflowed : t.history.underflowed = s.history.underflowed) : SameBooks s t :=
  ⟨active,queue,deferred,violations,underflowed,fun c => by rw [peers]⟩

namespace Accounts
variable {s t : State ε} {queue queue' : List QueuedMessage} {deferred deferred' : List DeferredMessage}
  {outgoing outgoing' handlers handlers' : List PendingKey}

section
variable (a : Accounts s queue deferred outgoing handlers)
include a

theorem perm (sameQueue : queue.Perm queue')
    (sameDeferred : deferred.Perm deferred') (sameOutgoing : outgoing.Perm outgoing')
    (sameHandlers : handlers.Perm handlers') : Accounts s queue' deferred' outgoing' handlers' := { a with
  queueMessages := a.queueMessages.perm sameQueue
  queueBytes := a.queueBytes.perm sameQueue
  deferredBytes := a.deferredBytes.perm sameDeferred
  requests := a.requests.perm sameOutgoing
  running := a.running.perm sameHandlers
  queueTotal on := by rw [a.queueTotal on,(sameQueue.map _).sum_nat]
  deferredTotal on := by rw [a.deferredTotal on,(sameDeferred.map _).sum_nat]
  queueLength := sameQueue.length_eq ▸ a.queueLength
  queueSum := (sameQueue.map QueuedMessage.encodedBytes).sum_nat ▸ a.queueSum
  deferredLength := sameDeferred.length_eq ▸ a.deferredLength
  deferredSum := (sameDeferred.map fun d => d.encoded.length).sum_nat ▸ a.deferredSum
  outgoingLength := sameOutgoing.length_eq ▸ a.outgoingLength
  handlersLength := sameHandlers.length_eq ▸ a.handlersLength }

theorem congr (same : SameBooks s t) :
    Accounts t queue deferred outgoing handlers := { a with
  live c p found := by
    obtain ⟨q,before,_⟩ := map_eq_some_iff.mp ((same.peers c).symm.trans (by rw [found]; rfl))
    rw [same.active,a.live c q before]
  queueMessages := a.queueMessages.congr fun c => map_of_map (same.peers c) queuedDispatchMessages
  queueBytes := a.queueBytes.congr fun c => map_of_map (same.peers c) queuedDispatchBytes
  deferredBytes := a.deferredBytes.congr fun c => map_of_map (same.peers c) deferredReliableBytes
  requests := a.requests.congr fun c => map_of_map (same.peers c) pendingOutgoingRequests
  running := a.running.congr fun c => map_of_map (same.peers c) concurrentHandlers
  queueTotal on := by rw [same.queueBytes,a.queueTotal (same.active ▸ on)]
  deferredTotal on := by rw [same.deferredBytes,a.deferredTotal (same.active ▸ on)]
  noUnderflow := same.underflowed.trans a.noUnderflow
  noViolation := same.violations.trans a.noViolation
  limits c p found := by
    obtain ⟨q,before,books⟩ := map_eq_some_iff.mp ((same.peers c).symm.trans (by rw [found]; rfl))
    exact withinLimits_counters.mp (books ▸ withinLimits_counters.mpr (a.limits c q before)) }

theorem whole (same : SameBooks s t) (sameQueue : t.dispatchQueue = queue) (sameDeferred : t.deferred = deferred)
    (sameOutgoing : t.pendingRequests.keys = outgoing) (sameHandlers : t.incomingRequests.keys = handlers) :
    Accounts t t.dispatchQueue t.deferred t.pendingRequests.keys t.incomingRequests.keys := by
  rw [sameQueue,sameDeferred,sameOutgoing,sameHandlers]
  exact a.congr same

private theorem limits_modify (c : ConnectionId)
    {f : PeerState → PeerState} (keeps : ∀ p, s.peers.find? c = some p → WithinLimits p → WithinLimits (f p)) :
    ∀ c' p, (s.peers.modify c f).find? c' = some p → WithinLimits p := by
  intro c' p found
  rw [find?_modify] at found
  split_ifs at found with here
  · subst here
    obtain ⟨q,before,rfl⟩ := map_eq_some_iff.mp found
    exact keeps q before (a.limits _ q before)
  · exact a.limits c' p found

private theorem live_modify (c : ConnectionId)
    (f : PeerState → PeerState) : ∀ c' p, (s.peers.modify c f).find? c' = some p → s.active := by
  intro c' p found
  rw [find?_modify] at found
  split_ifs at found
  · obtain ⟨q,before,_⟩ := map_eq_some_iff.mp found
    exact a.live c' q before
  · exact a.live c' p found

end

theorem nothing (peers : s.peers = ∅) (queue : s.active → s.metrics.queuedDispatchBytes = 0)
    (deferred : s.active → s.metrics.deferredReliableBytes = 0) (noUnderflow : s.history.underflowed = false)
    (noViolation : s.metrics.boundViolations = 0) : Accounts s [] [] [] [] where
  live c p found := by simp [peers] at found
  queueMessages := by rw [peers]; exact .nothing _
  queueBytes := by rw [peers]; exact .nothing _
  deferredBytes := by rw [peers]; exact .nothing _
  requests := by rw [peers]; exact .nothing _
  running := by rw [peers]; exact .nothing _
  queueTotal := queue
  deferredTotal := deferred
  noUnderflow := noUnderflow
  noViolation := noViolation
  limits c p found := by simp [peers] at found
  queueLength := zero_le _
  queueSum := zero_le _
  deferredLength := zero_le _
  deferredSum := zero_le _
  outgoingLength := zero_le _
  handlersLength := zero_le _

theorem replaceQueued {x y : QueuedMessage} (a : Accounts s (x :: queue) deferred outgoing handlers)
    (connection : y.connection = x.connection) (bytes : y.encodedBytes = x.encodedBytes) :
    Accounts s (y :: queue) deferred outgoing handlers := { a with
  queueMessages := a.queueMessages.replace connection rfl
  queueBytes := a.queueBytes.replace connection bytes
  queueTotal on := by rw [a.queueTotal on,map_cons,map_cons,bytes]
  queueSum := by
    have sum := a.queueSum
    rw [map_cons] at sum ⊢
    rwa [bytes] }

theorem releaseQueued {x : QueuedMessage} (a : Accounts s (x :: queue) deferred outgoing handlers) :
    Accounts (releaseQueued s x) queue deferred outgoing handlers := by
  obtain ⟨p,owner⟩ := contains_iff.mp (a.queueMessages.owned x (by simp))
  have found : s.peers.find? x.connection = some p := owner
  have on := a.live _ p found
  have total := a.queueTotal on
  rw [map_cons,sum_cons] at total
  have messages : 1 ≤ p.queuedDispatchMessages := a.queueMessages.weight_le found
  have bytes : x.encodedBytes ≤ p.queuedDispatchBytes := a.queueBytes.weight_le found
  have sum := a.queueSum
  have length := a.queueLength
  rw [map_cons,sum_cons] at sum
  rw [length_cons] at length
  exact { a with
    live := a.live_modify x.connection _
    queueMessages := a.queueMessages.remove (.withoutQueued x.encodedBytes) fun p le => sizeSub_of_le le
    queueBytes := a.queueBytes.remove (.withoutQueued x.encodedBytes) fun p le => sizeSub_of_le le
    deferredBytes := a.deferredBytes.modify _ _ fun _ => rfl
    requests := a.requests.modify _ _ fun _ => rfl
    running := a.running.modify _ _ fun _ => rfl
    queueTotal := fun _ => by
      change sizeSub s.metrics.queuedDispatchBytes x.encodedBytes = _
      rw [sizeSub_of_le (by omega)]
      omega
    noUnderflow := by
      change (s.history.underflowed || decide _ || Option.any _ _) = false
      rw [a.noUnderflow,found]
      simp [total]
      omega
    limits := a.limits_modify x.connection fun q before within => by
      rw [found] at before
      cases before
      obtain ⟨m,b,d,o,h,n⟩ := within
      refine ⟨?_,?_,d,o,h,n⟩
      · change sizeSub p.queuedDispatchMessages 1 ≤ p.limits.maximumMessagesPerTick
        rw [sizeSub_of_le messages]
        omega
      · change sizeSub p.queuedDispatchBytes x.encodedBytes ≤ p.limits.maximumReceiveBytesPerTick
        rw [sizeSub_of_le bytes]
        omega
    queueLength := by omega
    queueSum := by omega }

variable {x : DeferredMessage}

theorem releaseDeferred (a : Accounts s queue (x :: deferred) outgoing handlers) :
    Accounts (releaseDeferred s x) queue deferred outgoing handlers := by
  obtain ⟨p,owner⟩ := contains_iff.mp (a.deferredBytes.owned x (by simp))
  have found : s.peers.find? x.connection = some p := owner
  have on := a.live _ p found
  have total := a.deferredTotal on
  rw [map_cons,sum_cons] at total
  have bytes : x.encoded.length ≤ p.deferredReliableBytes := a.deferredBytes.weight_le found
  have sum := a.deferredSum
  have length := a.deferredLength
  rw [map_cons,sum_cons] at sum
  rw [length_cons] at length
  exact { a with
    live := a.live_modify x.connection _
    queueMessages := a.queueMessages.modify _ _ fun _ => rfl
    queueBytes := a.queueBytes.modify _ _ fun _ => rfl
    deferredBytes := a.deferredBytes.remove (.withoutDeferred x.encoded.length) fun p le => sizeSub_of_le le
    requests := a.requests.modify _ _ fun _ => rfl
    running := a.running.modify _ _ fun _ => rfl
    deferredTotal := fun _ => by
      change sizeSub s.metrics.deferredReliableBytes x.encoded.length = _
      rw [sizeSub_of_le (by omega)]
      omega
    noUnderflow := by
      change (s.history.underflowed || decide _ || Option.any _ _) = false
      rw [a.noUnderflow,found]
      simp [total]
      omega
    limits := a.limits_modify x.connection fun q before within => by
      rw [found] at before
      cases before
      obtain ⟨m,b,d,o,h,n⟩ := within
      refine ⟨m,b,?_,o,h,n⟩
      change sizeSub p.deferredReliableBytes x.encoded.length ≤ p.limits.maximumQueuedReliableBytes
      rw [sizeSub_of_le bytes]
      omega
    deferredLength := by omega
    deferredSum := by omega }

variable {key : PendingKey} {p : PeerState}

theorem endOutgoing (a : Accounts s queue deferred (key :: outgoing) handlers) :
    Accounts { s with peers := s.peers.modify key.connection PeerState.endOutgoing } queue deferred outgoing
      handlers := { a with
  live := a.live_modify key.connection _
  queueMessages := a.queueMessages.modify _ _ fun _ => rfl
  queueBytes := a.queueBytes.modify _ _ fun _ => rfl
  deferredBytes := a.deferredBytes.modify _ _ fun _ => rfl
  requests := a.requests.remove PeerState.endOutgoing fun _ _ => rfl
  running := a.running.modify _ _ fun _ => rfl
  limits := a.limits_modify key.connection fun q _ within =>
    { within with outgoing := (Nat.sub_le ..).trans within.outgoing }
  outgoingLength := by have := a.outgoingLength; rw [length_cons] at this; omega }

theorem endHandler (a : Accounts s queue deferred outgoing (key :: handlers)) :
    Accounts { s with peers := s.peers.modify key.connection PeerState.endHandler } queue deferred outgoing
      handlers := { a with
  live := a.live_modify key.connection _
  queueMessages := a.queueMessages.modify _ _ fun _ => rfl
  queueBytes := a.queueBytes.modify _ _ fun _ => rfl
  deferredBytes := a.deferredBytes.modify _ _ fun _ => rfl
  requests := a.requests.modify _ _ fun _ => rfl
  running := a.running.remove PeerState.endHandler fun _ _ => rfl
  limits := a.limits_modify key.connection fun q _ within =>
    { within with
      handlers := (Nat.sub_le ..).trans within.handlers
      handlersNegotiated := (Nat.sub_le ..).trans within.handlersNegotiated }
  handlersLength := by have := a.handlersLength; rw [length_cons] at this; omega }

section
variable (a : Accounts s queue deferred outgoing handlers)
include a

theorem addQueued {x : QueuedMessage}
    (found : s.peers.find? x.connection = some p)
    (messages : p.queuedDispatchMessages < p.limits.maximumMessagesPerTick)
    (bytes : p.queuedDispatchBytes + x.encodedBytes ≤ p.limits.maximumReceiveBytesPerTick)
    (length : queue.length < maximumQueuedRemoteDispatchMessages)
    (sum : s.metrics.queuedDispatchBytes + x.encodedBytes ≤ maximumQueuedRemoteDispatchBytes) :
    Accounts { s with
      peers := s.peers.modify x.connection (.withQueued x.encodedBytes)
      metrics := { s.metrics with queuedDispatchBytes := s.metrics.queuedDispatchBytes + x.encodedBytes } }
      (x :: queue) deferred outgoing handlers := by
  have present : s.peers.contains x.connection := contains_iff.mpr ⟨p,found⟩
  have total := a.queueTotal (a.live _ p found)
  exact { a with
    live := a.live_modify x.connection _
    queueMessages := a.queueMessages.add x (.withQueued x.encodedBytes) present fun _ => rfl
    queueBytes := a.queueBytes.add x (.withQueued x.encodedBytes) present fun _ => rfl
    deferredBytes := a.deferredBytes.modify _ _ fun _ => rfl
    requests := a.requests.modify _ _ fun _ => rfl
    running := a.running.modify _ _ fun _ => rfl
    queueTotal := fun _ => by
      rw [map_cons,sum_cons,← total]
      exact add_comm ..
    limits := a.limits_modify x.connection fun q before within => by
      rw [found] at before
      cases before
      exact { within with messages := messages, bytes := bytes }
    queueLength := by rw [length_cons]; omega
    queueSum := by rw [map_cons,sum_cons]; omega }

theorem addDeferred
    (found : s.peers.find? x.connection = some p)
    (bytes : p.deferredReliableBytes + x.encoded.length ≤ p.limits.maximumQueuedReliableBytes)
    (length : deferred.length < maximumQueuedRemoteDispatchMessages)
    (sum : s.metrics.deferredReliableBytes + x.encoded.length ≤ maximumQueuedRemoteDispatchBytes) :
    Accounts { s with
      peers := s.peers.modify x.connection (.withDeferred x.encoded.length)
      metrics := { s.metrics with deferredReliableBytes := s.metrics.deferredReliableBytes + x.encoded.length } }
      queue (x :: deferred) outgoing handlers := by
  have present : s.peers.contains x.connection := contains_iff.mpr ⟨p,found⟩
  have total := a.deferredTotal (a.live _ p found)
  exact { a with
    live := a.live_modify x.connection _
    queueMessages := a.queueMessages.modify _ _ fun _ => rfl
    queueBytes := a.queueBytes.modify _ _ fun _ => rfl
    deferredBytes := a.deferredBytes.add x (.withDeferred x.encoded.length) present fun _ => rfl
    requests := a.requests.modify _ _ fun _ => rfl
    running := a.running.modify _ _ fun _ => rfl
    deferredTotal := fun _ => by
      rw [map_cons,sum_cons,← total]
      exact add_comm ..
    limits := a.limits_modify x.connection fun q before within => by
      rw [found] at before
      cases before
      exact { within with deferred := bytes }
    deferredLength := by rw [length_cons]; omega
    deferredSum := by rw [map_cons,sum_cons]; omega }

variable (found : s.peers.find? key.connection = some p)
include found

theorem addOutgoing
    (room : p.pendingOutgoingRequests < p.limits.maximumInFlightRemoteRequests)
    (length : outgoing.length < maximumRemoteInFlightRequestsPerManager) :
    Accounts { s with peers := s.peers.modify key.connection startOutgoing } queue deferred
      (key :: outgoing) handlers := { a with
  live := a.live_modify key.connection _
  queueMessages := a.queueMessages.modify _ _ fun _ => rfl
  queueBytes := a.queueBytes.modify _ _ fun _ => rfl
  deferredBytes := a.deferredBytes.modify _ _ fun _ => rfl
  requests := a.requests.add key startOutgoing (contains_iff.mpr ⟨p,found⟩) fun _ => rfl
  running := a.running.modify _ _ fun _ => rfl
  limits := a.limits_modify key.connection fun q before within => by
    rw [found] at before
    cases before
    exact { within with outgoing := room }
  outgoingLength := by rw [length_cons]; omega }

theorem addHandler
    (room : p.concurrentHandlers < maximumConcurrentRemoteHandlersPerPeer)
    (negotiated : p.concurrentHandlers < p.limits.maximumInFlightRemoteRequests)
    (length : handlers.length < maximumConcurrentRemoteHandlersPerManager) :
    Accounts { s with peers := s.peers.modify key.connection startHandler } queue deferred outgoing
      (key :: handlers) := { a with
  live := a.live_modify key.connection _
  queueMessages := a.queueMessages.modify _ _ fun _ => rfl
  queueBytes := a.queueBytes.modify _ _ fun _ => rfl
  deferredBytes := a.deferredBytes.modify _ _ fun _ => rfl
  requests := a.requests.modify _ _ fun _ => rfl
  running := a.running.add key startHandler (contains_iff.mpr ⟨p,found⟩) fun _ => rfl
  limits := a.limits_modify key.connection fun q before within => by
    rw [found] at before
    cases before
    exact { within with handlers := room, handlersNegotiated := negotiated }
  handlersLength := by rw [length_cons]; omega }

end

variable (a : Accounts s s.dispatchQueue s.deferred s.pendingRequests.keys s.incomingRequests.keys)
include a

theorem within {c : ConnectionId} (found : s.peers.find? c = some p) : exceedsBounds s p = false := by
  have on := a.live c p found
  obtain ⟨m,b,d,o,h,n⟩ := a.limits c p found
  have queueSum := a.queueSum
  have deferredSum := a.deferredSum
  have outgoing := a.outgoingLength
  have handlers := a.handlersLength
  rw [← a.queueTotal on] at queueSum
  rw [← a.deferredTotal on] at deferredSum
  rw [length_keys] at outgoing handlers
  have queueLength := a.queueLength
  have deferredLength := a.deferredLength
  simp only [exceedsBounds,Bool.or_eq_false_iff,decide_eq_false_iff_not]
  omega

theorem observeOwnership_eq (c : ConnectionId) : observeOwnership s c = s := by
  rw [observeOwnership,if_neg]
  intro violated
  obtain ⟨p,found,exceeds⟩ := (any_eq_true _ _).mp violated
  rw [a.within found] at exceeds
  cases exceeds

end Accounts

structure Balanced (s : State ε) : Prop where
  accounts : Accounts s s.dispatchQueue s.deferred s.pendingRequests.keys s.incomingRequests.keys
  deferredMetric : s.active = true → s.metrics.deferredReliableMessages = s.deferred.length
  inFlight : s.metrics.inFlightRequests = s.pendingRequests.size

theorem Balanced.quiet {s t : State ε} (b : Balanced s) (quiet : Quiet s t) : Balanced t where
  accounts := by
    rw [quiet.queue,quiet.deferred,quiet.pending,quiet.incoming]
    exact b.accounts.congr quiet.sameBooks
  deferredMetric on := by rw [quiet.metrics,quiet.deferred,b.deferredMetric (quiet.active ▸ on)]
  inFlight := by rw [quiet.metrics,quiet.pending,b.inFlight]

end
end Gargantuan.RemoteManager
