import Gargantuan.SchedulerAccounts

/-!
Supersession. Of the sequenced messages of a key at most one waits on a connection, and it
is the newest of those accepted since one of them was last handed over: a message is only
accepted if none of its key waits, or by taking the place of an older one. The one exception
is again a reliable message with the same key: where it is found first, it is replaced in
place of the unreliable one behind it.
-/
namespace Gargantuan.NetworkScheduler
open QueuedMessage SortedMap Bool
open List Option
open RemoteManager (SchedulerSubmitStatus SchedulerSubmitResult)

variable {key : SequencedQueueKey} {m : QueuedMessage}

namespace QueuedMessage

def states (key : SequencedQueueKey) (m : QueuedMessage) : Bool :=
  m.intent.delivery == .unreliableSequenced && m.sequenced.any fun k => k.1 == key

def sequence (m : QueuedMessage) : UInt64 := (m.sequenced.map Prod.snd).getD 0

theorem states_iff :
    m.states key ↔ m.intent.delivery = .unreliableSequenced ∧ m.sequenced = some (key,m.sequence) := by
  simp only [states,sequence,and_eq_true,beq_iff_eq]
  refine and_congr_right fun _ => ?_
  cases m.sequenced with
  | none => simp
  | some k => simp [Prod.ext_iff]

end QueuedMessage

def waiting (key : SequencedQueueKey) (queues : Fin 6 → List QueuedMessage) : Nat :=
  held (fun m => if m.states key then 1 else 0) queues

def sinceHanded (c : ConnectionQueue) (key : SequencedQueueKey) : List QueuedMessage :=
  c.accepted.filter fun m =>
    m.states key && c.handed.all fun h => !h.message.states key || decide (h.message.serial < m.serial)

def ConnectionQueue.load (c : ConnectionQueue) :
    (Fin 6 → List QueuedMessage) × (WorkProducer → Nat) × Nat × Nat × Nat × Nat × Nat × ReliableServiceAcceptedBytes :=
  (c.queues,c.producerDepths,c.statistics.queuedReliableBytes,c.statistics.queuedReliableMessages,
    c.statistics.queuedUnreliableBytes,c.statistics.queuedUnreliableMessages,c.statistics.queuedMessages,
    c.serviceAccepted)

variable {i : Fin 6} {queues : Fin 6 → List QueuedMessage}

section
variable {c d : ConnectionQueue} {m : QueuedMessage}

theorem findExisting_eq_none
    (none : findExisting queues key = none) (member : m ∈ queues i) : m.states key = false := by
  have split := findSome?_eq_none_iff.mp none i (mem_finRange i)
  have unkeyed := splitFirst_eq_none.mp (map_eq_none_iff.mp split) m member
  rw [states,unkeyed,Bool.and_false]

def ConnectionQueue.seen (c : ConnectionQueue) :
    (Fin 6 → List QueuedMessage) × List QueuedMessage × List QueuedMessage × List Handover × Bool :=
  (c.queues,c.accepted,c.superseded,c.handed,c.active)

inductive Submitted (c : ConnectionQueue) (a : Aggregate) (m : QueuedMessage) :
    SchedulerSubmitStatus → ConnectionQueue → Aggregate → Prop where
  | refused {status d a'} (refused : status = .intentRejected ∨ status = .droppedUnreliable) (load : d.load = c.load)
      (seen : d.seen = c.seen) (total : a'.totalQueuedReliableBytes = a.totalQueuedReliableBytes) :
      Submitted c a m status d a'
  | ended {d a'} (queues : d.queues = fun _ => []) (accepted : d.accepted = c.accepted)
      (superseded : d.superseded = c.superseded) (handed : d.handed = c.handed) (off : d.active = false) :
      Submitted c a m .reliableBacklogExhausted d a'
  | queued {d a'} (valid : isNetworkMessageIntentValid m.intent c.limits = true)
      (free : ∀ key, m.states key = true → ∀ i, ∀ n ∈ c.queues i, n.states key = false) (seen : d.seen = (c.push m).seen) :
      Submitted c a m .accepted d a'
  | superseding {d a'} {key : SequencedQueueKey} {sequence : UInt64} {i : Fin 6} {before after : List QueuedMessage}
      {existing : QueuedMessage} (valid : isNetworkMessageIntentValid m.intent c.limits = true)
      (delivery : m.intent.delivery = .unreliableSequenced) (sequenced : m.sequenced = some (key,sequence))
      (found : findExisting c.queues key = some (i,before,existing,after)) (newer : existing.sequence < sequence)
      (seen : d.seen = ((c.supersede i before existing after).push m).seen) :
      Submitted c a m .acceptedWithSupersession d a'

theorem submitted_unreliable (a : Aggregate) (valid : isNetworkMessageIntentValid m.intent c.limits)
    (free : ∀ key, m.states key → ∀ i, ∀ n ∈ c.queues i, n.states key = false) :
    Submitted c a m (submitUnreliable c a m).1.status (submitUnreliable c a m).2.1 (submitUnreliable c a m).2.2 := by
  unfold submitUnreliable
  split
  · exact .refused (.inr rfl) rfl rfl rfl
  split
  · exact .refused (.inr rfl) rfl rfl rfl
  · exact .queued valid free rfl

theorem submitTo_submitted (maximumTotal : Nat) (c : ConnectionQueue) (a : Aggregate) (m : QueuedMessage) :
    Submitted c a m (submitTo maximumTotal c a m).1.status (submitTo maximumTotal c a m).2.1
      (submitTo maximumTotal c a m).2.2 := by
  unfold submitTo
  split
  · exact .refused (.inl rfl) rfl rfl rfl
  next invalid =>
  have valid : isNetworkMessageIntentValid m.intent c.limits := by simpa using invalid
  have unstated : m.intent.delivery ≠ .unreliableSequenced →
      ∀ key, m.states key = true → ∀ i, ∀ n ∈ c.queues i, n.states key = false :=
    fun other key states => absurd (states_iff.mp states).1 other
  split
  next delivery =>
    unfold submitReliable
    dsimp only
    split
    · exact .ended rfl rfl rfl rfl rfl
    · exact .queued valid (unstated (by rw [delivery]; exact DeliveryMode.noConfusion)) rfl
  next delivery =>
    unfold submitSequenced
    split
    · exact .refused (.inr rfl) rfl rfl rfl
    next key sequence sequenced =>
    split
    next i before existing after found =>
      unfold submitOver
      split
      · exact .refused (.inr rfl) rfl rfl rfl
      next newer =>
      dsimp only
      split
      · exact .refused (.inr rfl) rfl rfl rfl
      · exact .superseding valid delivery sequenced found (UInt64.not_le.mp newer) rfl
    next none =>
      refine submitted_unreliable a valid ?_
      intro key' states i n member
      have own := (states_iff.mp states).2
      rw [sequenced] at own
      cases own
      exact findExisting_eq_none none member
  next delivery =>
    exact submitted_unreliable a valid (unstated (by rw [delivery]; exact DeliveryMode.noConfusion))

end


structure Newest (c : ConnectionQueue) : Prop where
  serials : ∀ m ∈ c.accepted, m.serial < c.accepted.length
  queued : ∀ i, ∀ m ∈ c.queues i, ∃ o ∈ c.accepted, o.unstamped = m.unstamped
  handed : ∀ h ∈ c.handed, h.message.serial < c.accepted.length
  ordered : ∀ i, ∀ m ∈ c.queues i, m.intent.delivery = .unreliableUnordered → m.sequenced = none
  one : ∀ key, waiting key c.queues ≤ 1
  later : ∀ key, ∀ h ∈ c.handed, h.message.states key = true → ∀ i, ∀ m ∈ c.queues i, m.states key = true →
    h.message.serial < m.serial
  newest : c.active = true → ∀ key, ∀ m ∈ c.accepted, m.states key = true →
    (∃ h ∈ c.handed, h.message.states key = true ∧ m.serial ≤ h.message.serial) ∨
      ∃ i, ∃ n ∈ c.queues i, n.states key = true ∧ m.sequence ≤ n.sequence ∧ m.serial ≤ n.serial
  off : c.active = false → ∀ i, c.queues i = []

variable {n : QueuedMessage}

section
variable {c d : ConnectionQueue} {m : QueuedMessage}

theorem newest_new (limits : NetworkLimits) : Newest { limits } where
  serials _ member := absurd member not_mem_nil
  queued _ _ member := absurd member not_mem_nil
  handed _ member := absurd member not_mem_nil
  ordered _ _ member := absurd member not_mem_nil
  one key := by
    exact Nat.zero_le 1
  later _ _ member := absurd member not_mem_nil
  newest _ _ _ member := absurd member not_mem_nil
  off _ _ := rfl

theorem Newest.congr (newest : Newest c) (same : d.seen = c.seen) : Newest d := by
  simp only [ConnectionQueue.seen,Prod.mk.injEq] at same
  obtain ⟨queues,accepted,-,handed,active⟩ := same
  obtain ⟨serials,queued,handedBefore,ordered,one,later,newest,off⟩ := newest
  rw [← accepted] at serials queued handedBefore newest
  rw [← queues] at queued ordered one later newest off
  rw [← handed] at handedBefore later newest
  rw [← active] at newest off
  exact ⟨serials,queued,handedBefore,ordered,one,later,newest,off⟩

theorem Newest.ended (newest : Newest c) (queues : d.queues = fun _ => []) (accepted : d.accepted = c.accepted)
    (handed : d.handed = c.handed) (off : d.active = false) : Newest d := by
  refine ⟨?_,?_,?_,?_,?_,?_,?_,fun _ i => by rw [queues]⟩
  · rw [accepted]
    exact newest.serials
  · intro i m member
    rw [queues] at member
    exact absurd member not_mem_nil
  · rw [accepted,handed]
    exact newest.handed
  · intro i m member
    rw [queues] at member
    exact absurd member not_mem_nil
  · intro key
    rw [waiting,queues]
    exact Nat.zero_le 1
  · intro key h _ _ i m member
    rw [queues] at member
    exact absurd member not_mem_nil
  · intro on
    rw [off] at on
    cases on

variable {i : Fin 6} {queues : Fin 6 → List QueuedMessage} {key : SequencedQueueKey}

theorem waiting_pos (member : m ∈ queues i) (states : m.states key) : 1 ≤ waiting key queues := by
  have own := weight_le_held (fun m : QueuedMessage => if m.states key then 1 else 0) member
  simp only [states,if_true] at own
  exact own

theorem waiting_zero (none : ∀ i, ∀ n ∈ queues i, n.states key = false) : waiting key queues = 0 := by
  rw [waiting,held_congr (v := fun _ => 0)]
  · simp [held]
  · intro i n member
    rw [none i n member]
    rfl

theorem mem_push :
    n ∈ (c.push m).queues i ↔ n ∈ c.queues i ∨ i = m.precedence ∧ n = { m with serial := c.accepted.length } := by
  change n ∈ Function.update c.queues m.precedence (c.queues m.precedence ++ [{ m with serial := c.accepted.length }]) i ↔ _
  by_cases here : i = m.precedence
  · rw [here,Function.update_self,mem_append]
    simp
  · rw [Function.update_of_ne here]
    simp [here]

theorem unordered_of_valid {l : NetworkLimits} (valid : isNetworkMessageIntentValid m.intent l)
    (unordered : m.intent.delivery = .unreliableUnordered) : m.sequenced = none := by
  simp only [isNetworkMessageIntentValid,validateIntent,and_eq_true] at valid
  have fits := valid.1.1.1.2
  rw [unordered] at fits
  rw [sequenced]
  cases order : m.intent.order with
  | none => rfl
  | realtimeState channel sequence => rw [order] at fits; cases fits
  | remoteEvent channel publication sequence => rw [order] at fits; cases fits
  | reliableReplication sequence => rfl

variable (newest : Newest c)
include newest

/-- A message is queued after its older one was taken out, if there was one: no other of its key waits then. -/
theorem Newest.push (on : c.active) (queues : ∀ i, ∀ n ∈ d.queues i, n ∈ c.queues i)
    (fewer : ∀ key, waiting key d.queues ≤ waiting key c.queues)
    (kept : ∀ key, m.states key = false → ∀ i, ∀ n ∈ c.queues i, n.states key → n ∈ d.queues i)
    (free : ∀ key, m.states key → waiting key d.queues = 0)
    (newer : ∀ key, m.states key → ∀ i, ∀ n ∈ c.queues i, n.states key → n.sequence ≤ m.sequence)
    (ordered : m.intent.delivery = .unreliableUnordered → m.sequenced = none)
    (accepted : d.accepted = c.accepted) (handed : d.handed = c.handed) (active : d.active = c.active) :
    Newest (d.push m) := by
  let stored : QueuedMessage := { m with serial := d.accepted.length }
  have acceptedNow : (d.push m).accepted = d.accepted ++ [stored] := rfl
  have length : (d.push m).accepted.length = c.accepted.length + 1 := by
    rw [acceptedNow,length_append,accepted]
    rfl
  have storedSerial : stored.serial = c.accepted.length := by rw [← accepted]
  refine ⟨?_,?_,?_,?_,?_,?_,?_,fun off => ?_⟩
  · intro n member
    rw [acceptedNow,mem_append,mem_singleton,accepted] at member
    rcases member with old | rfl
    · have below := newest.serials n old
      omega
    · rw [storedSerial]
      omega
  · intro i n member
    rw [acceptedNow,accepted]
    rcases mem_push.mp member with old | ⟨-,rfl⟩
    · obtain ⟨o,there,same⟩ := newest.queued i n (queues i n old)
      exact ⟨o,mem_append_left _ there,same⟩
    · exact ⟨stored,mem_append_right _ (mem_singleton.mpr rfl),rfl⟩
  · intro h member
    change h ∈ d.handed at member
    rw [handed] at member
    have below := newest.handed h member
    omega
  · intro i n member
    rcases mem_push.mp member with old | ⟨-,rfl⟩
    · exact newest.ordered i n (queues i n old)
    · exact ordered
  · intro key
    have grown : waiting key (d.push m).queues = waiting key d.queues + if m.states key then 1 else 0 :=
      held_push _ d.queues m.precedence stored
    rw [grown]
    cases states : m.states key with
    | false => exact (fewer key).trans (newest.one key)
    | true => rw [free key states]; exact le_rfl
  · intro key h member states i n queuedNow states'
    change h ∈ d.handed at member
    rw [handed] at member
    rcases mem_push.mp queuedNow with old | ⟨-,rfl⟩
    · exact newest.later key h member states i n (queues i n old) states'
    · have below := newest.handed h member
      rwa [storedSerial]
  · intro _ key n member states
    have own : stored ∈ (d.push m).queues m.precedence := mem_push.mpr (.inr ⟨rfl,rfl⟩)
    change (∃ h ∈ d.handed, _) ∨ _
    rw [handed]
    rw [acceptedNow,mem_append,mem_singleton,accepted] at member
    rcases member with old | rfl
    · rcases newest.newest on key n old states with behind | ⟨i,x,waits,states',smaller,before⟩
      · exact .inl behind
      · refine .inr ?_
        cases same : m.states key with
        | false => exact ⟨i,x,mem_push.mpr (.inl (kept key same i x waits states')),states',smaller,before⟩
        | true =>
          refine ⟨m.precedence,stored,own,same,UInt64.le_trans smaller (newer key same i x waits states'),?_⟩
          have below := newest.serials n old
          omega
    · exact .inr ⟨m.precedence,stored,own,states,UInt64.le_refl _,le_rfl⟩
  · change d.active = false at off
    rw [active,on] at off
    cases off

theorem Newest.handOver (on : c.active) {rest : List QueuedMessage}
    (front : c.queues i = m :: rest) : Newest (c.handOver i m rest) := by
  have here : m ∈ c.queues i := by
    rw [front]
    exact (.head _)
  have queues : (c.handOver i m rest).queues = Function.update c.queues i rest := rfl
  have handed : ∀ h, h ∈ (c.handOver i m rest).handed ↔
      h ∈ c.handed ∨ h = ⟨m,(c.queues 0).isEmpty,!(c.queues 2).isEmpty⟩ := by
    intro h
    change h ∈ c.handed ++ _ ↔ _
    rw [mem_append,mem_singleton]
  have before : ∀ j, ∀ n ∈ (c.handOver i m rest).queues j, n ∈ c.queues j := by
    intro j n member
    rw [queues] at member
    by_cases same : j = i
    · rw [same,Function.update_self] at member
      rw [same,front]
      exact .tail _ member
    · rwa [Function.update_of_ne same] at member
  have less : ∀ key, waiting key (c.handOver i m rest).queues + (if m.states key then 1 else 0) = waiting key c.queues :=
    fun key => held_remove _ (show c.queues i = [] ++ m :: rest from front)
  obtain ⟨o,accepted,same⟩ := newest.queued i m here
  have serial : m.serial < c.accepted.length := by
    have serials := congrArg serial same
    change o.serial = m.serial at serials
    rw [← serials]
    exact newest.serials o accepted
  refine ⟨newest.serials,fun j n member => newest.queued j n (before j n member),?_,
    fun j n member => newest.ordered j n (before j n member),?_,?_,?_,fun off => ?_⟩
  · intro h member
    rcases (handed h).mp member with old | rfl
    · exact newest.handed h old
    · exact serial
  · intro key
    have one := newest.one key
    have := less key
    omega
  · intro key h member states j n queuedNow states'
    rcases (handed h).mp member with old | rfl
    · exact newest.later key h old states j n (before j n queuedNow) states'
    · have some := waiting_pos queuedNow states'
      have one := newest.one key
      have less := less key
      simp only [states,if_true] at less
      omega
  · intro on' key n member states
    rcases newest.newest on key n member states with ⟨h,old,states',behind⟩ | ⟨j,x,waits,states',smaller,earlier⟩
    · exact .inl ⟨h,(handed h).mpr (.inl old),states',behind⟩
    · by_cases still : x ∈ (c.handOver i m rest).queues j
      · exact .inr ⟨j,x,still,states',smaller,earlier⟩
      · have gone : x = m := by
          rw [queues] at still
          by_cases same : j = i
          · rw [same,front] at waits
            rw [same,Function.update_self] at still
            exact (mem_cons.mp waits).resolve_right still
          · rw [Function.update_of_ne same] at still
            exact absurd waits still
        rw [gone] at states' earlier
        exact .inl ⟨_,(handed _).mpr (.inr rfl),states',earlier⟩
  · change c.active = false at off
    rw [on] at off
    cases off

theorem Newest.restamped (on : c.active) {queue : List QueuedMessage}
    (same : queue.map unstamped = (c.queues i).map unstamped) :
    Newest { c with queues := Function.update c.queues i queue } := by
  have back : ∀ j, ∀ n ∈ Function.update c.queues i queue j, ∃ o ∈ c.queues j, o.unstamped = n.unstamped := by
    intro j n member
    by_cases here : j = i
    · rw [here,Function.update_self] at member
      rw [here]
      exact mem_unstamped same member
    · rw [Function.update_of_ne here] at member
      exact ⟨n,member,rfl⟩
  have forth : ∀ j, ∀ o ∈ c.queues j, ∃ n ∈ Function.update c.queues i queue j, n.unstamped = o.unstamped := by
    intro j o member
    by_cases here : j = i
    · rw [here] at member
      rw [here,Function.update_self]
      exact mem_unstamped same.symm member
    · exact ⟨o,by rwa [Function.update_of_ne here],rfl⟩
  have parts : ∀ {o n : QueuedMessage}, o.unstamped = n.unstamped →
      o.intent = n.intent ∧ o.serial = n.serial := by
    intro o n equal
    have intents := congrArg intent equal
    have serials := congrArg serial equal
    exact ⟨intents,serials⟩
  have stateOf : ∀ {o n : QueuedMessage} (key : SequencedQueueKey), o.intent = n.intent →
      o.states key = n.states key ∧ o.sequence = n.sequence := by
    intro o n key intents
    rw [QueuedMessage.states,QueuedMessage.states,QueuedMessage.sequence,QueuedMessage.sequence,
      QueuedMessage.sequenced,QueuedMessage.sequenced,intents]
    exact ⟨rfl,rfl⟩
  refine ⟨newest.serials,?_,newest.handed,?_,?_,?_,?_,fun off => ?_⟩
  · intro j n member
    obtain ⟨o,before,equal⟩ := back j n member
    obtain ⟨p,accepted,equal'⟩ := newest.queued j o before
    exact ⟨p,accepted,equal'.trans equal⟩
  · intro j n member unordered
    obtain ⟨o,before,equal⟩ := back j n member
    have intents := (parts equal).1
    have none := newest.ordered j o before (by rw [intents]; exact unordered)
    rwa [sequenced,← intents]
  · intro key
    rw [waiting,held_unstamped _ (fun _ => rfl) same]
    exact newest.one key
  · intro key h member states j n queuedNow states'
    obtain ⟨o,before,equal⟩ := back j n queuedNow
    obtain ⟨intents,serials⟩ := parts equal
    rw [← serials]
    exact newest.later key h member states j o before ((stateOf key intents).1.trans states')
  · intro on key n member states
    rcases newest.newest on key n member states with behind | ⟨j,x,waits,states',smaller,earlier⟩
    · exact .inl behind
    · obtain ⟨y,there,equal⟩ := forth j x waits
      obtain ⟨intents,serials⟩ := parts equal
      obtain ⟨statesY,sequenceY⟩ := stateOf key intents
      exact .inr ⟨j,y,there,statesY.trans states',by rw [sequenceY]; exact smaller,earlier.trans_eq serials.symm⟩
  · change c.active = false at off
    rw [on] at off
    cases off

end

def Unmasked (c : ConnectionQueue) (intent : NetworkMessageIntent) : Prop :=
  ∀ existing, displaced c intent = some existing → existing.reliable = true →
    ∀ k, getSequencedQueueKey intent.order = some k → ∀ i, ∀ n ∈ c.queues i, n.states k.1 = false

variable {before after : List QueuedMessage} {existing : QueuedMessage} {sequence : UInt64}

section
variable {c : ConnectionQueue} {m : QueuedMessage}

theorem Newest.supersede (newest : Newest c) (on : c.active)
    (valid : isNetworkMessageIntentValid m.intent c.limits) (delivery : m.intent.delivery = .unreliableSequenced)
    (sequenced : m.sequenced = some (key,sequence))
    (found : findExisting c.queues key = some (i,before,existing,after)) (newer : existing.sequence < sequence)
    (unmasked : existing.reliable → ∀ j, ∀ n ∈ c.queues j, n.states key = false) :
    Newest ((c.supersede i before existing after).push m) := by
  obtain ⟨split,older,keyed⟩ := findExisting_eq_some found
  have here : existing ∈ c.queues i := by
    rw [split]
    exact mem_append_right _ (.head _)
  have queues : (c.supersede i before existing after).queues = Function.update c.queues i (before ++ after) := rfl
  have less : ∀ key', waiting key' (c.supersede i before existing after).queues + (if existing.states key' then 1 else 0) =
      waiting key' c.queues := fun key' => held_remove _ split
  have remains : ∀ j, ∀ n ∈ c.queues j, n = existing ∨ n ∈ (c.supersede i before existing after).queues j := by
    intro j n member
    rw [queues]
    by_cases same : j = i
    · rw [same,split,mem_append,mem_cons] at member
      rw [same,Function.update_self,mem_append]
      rcases member with left | own | right
      · exact .inr (.inl left)
      · exact .inl own
      · exact .inr (.inr right)
    · rw [Function.update_of_ne same]
      exact .inr member
  have ownKey : ∀ key', m.states key' → key' = key := by
    intro key' states
    have own := (states_iff.mp states).2
    rw [sequenced] at own
    cases own
    rfl
  have ownSequence : m.sequence = sequence := by
    rw [QueuedMessage.sequence,sequenced]
    rfl
  have existingKey : ∀ key', existing.states key' → key' = key := by
    intro key' states
    have own := (states_iff.mp states).2
    rw [keyed] at own
    cases own
    rfl
  -- An existing message that is reliable is none of the key that wait; any other is the only one.
  have alone : waiting key (c.supersede i before existing after).queues = 0 := by
    have less := less key
    have one := newest.one key
    cases reliable : existing.reliable with
    | true =>
      have none := waiting_zero (unmasked reliable)
      omega
    | false =>
      have states : existing.states key := by
        rw [QueuedMessage.states_iff,QueuedMessage.sequence,keyed]
        refine ⟨?_,rfl⟩
        cases delivery : existing.intent.delivery with
        | reliableOrdered => simp [QueuedMessage.reliable,delivery] at reliable
        | unreliableUnordered =>
          rw [newest.ordered i existing here delivery] at keyed
          cases keyed
        | unreliableSequenced => rfl
      simp only [states,if_true] at less
      omega
  refine newest.push on ?_ ?_ ?_ ?_ ?_ (unordered_of_valid valid) rfl rfl rfl
  · intro j n member
    rw [queues] at member
    by_cases same : j = i
    · rw [same,Function.update_self,mem_append] at member
      rw [same,split,mem_append,mem_cons]
      exact member.imp_right .inr
    · rwa [Function.update_of_ne same] at member
  · intro key'
    have less := less key'
    omega
  · intro key' other j n member states
    refine (remains j n member).resolve_left ?_
    rintro rfl
    rw [existingKey key' states] at other
    have own : m.states key := by
      rw [states_iff,ownSequence]
      exact ⟨delivery,sequenced⟩
    rw [own] at other
    cases other
  · intro key' states
    rwa [ownKey key' states]
  · intro key' states j n member states'
    rw [ownKey key' states] at states'
    rcases remains j n member with rfl | waits
    · rw [ownSequence]
      exact UInt64.le_of_lt newer
    · have some := waiting_pos waits states'
      omega

end

section
variable {c : ConnectionQueue} {m : QueuedMessage}

theorem displaced_eq
    (valid : isNetworkMessageIntentValid m.intent c.limits)
    (delivery : m.intent.delivery = .unreliableSequenced) (sequenced : m.sequenced = some (key,sequence))
    (found : findExisting c.queues key = some (i,before,existing,after)) (newer : existing.sequence < sequence) :
    displaced c m.intent = some existing := by
  simp only [QueuedMessage.sequenced] at sequenced
  rw [QueuedMessage.sequence] at newer
  simp only [displaced,valid,Bool.not_true,Bool.false_eq_true,if_false,delivery,sequenced,found,
    map_some,filter_some,decide_eq_true newer,if_true]

theorem submitTo_newest (newest : Newest c) (on : c.active) (maximumTotal : Nat) (a : Aggregate) (unmasked : Unmasked c m.intent) :
    Newest (submitTo maximumTotal c a m).2.1 := by
  have submitted := submitTo_submitted maximumTotal c a m
  generalize (submitTo maximumTotal c a m).1.status = status at submitted
  cases submitted with
  | refused _ _ seen => exact newest.congr seen
  | ended queues accepted _ handed off => exact newest.ended queues accepted handed off
  | queued valid free seen =>
    have pushed : Newest (c.push m) := newest.push on (fun _ _ member => member) (fun _ => le_rfl)
      (fun _ _ _ _ member _ => member) (fun key states => waiting_zero (free key states))
      (fun key states i n member waits => by rw [free key states i n member] at waits; cases waits)
      (unordered_of_valid valid) rfl rfl rfl
    exact pushed.congr seen
  | superseding valid delivery sequenced found newer seen =>
    have gone := displaced_eq valid delivery sequenced found newer
    exact (newest.supersede on valid delivery sequenced found newer
      fun reliable => unmasked _ gone reliable _ sequenced).congr seen

section
variable {τ : Type} {send : τ → QueuedMessage → TransportOperationResult × τ} {budget : SchedulerTickBudget}

theorem flushTurn_newest {f : Flushing τ} (newest : Newest f.connection) (on : f.connection.active) :
    Newest (flushTurn send budget f).1.connection ∧
      ((flushTurn send budget f).2 → (flushTurn send budget f).1.connection.active) := by
  unfold flushTurn
  split
  · exact ⟨newest,fun _ => on⟩
  split
  · exact ⟨newest,fun _ => on⟩
  split
  · exact ⟨newest,fun _ => on⟩
  next front =>
  dsimp only
  split
  · exact ⟨newest.congr rfl,fun _ => on⟩
  split
  · exact ⟨newest.congr rfl,fun _ => on⟩
  split
  · exact ⟨newest.ended rfl rfl rfl rfl,fun more => (by cases more)⟩
  · exact ⟨newest.handOver on front,fun _ => on⟩

theorem flushLoop_newest (queued : Nat) {f : Flushing τ} (newest : Newest f.connection)
    (on : f.connection.active) : Newest (flushLoop send budget queued f).connection := by
  induction queued generalizing f with
  | zero => exact newest
  | succ queued ih =>
    have turned : Newest (flushTurn send budget f).1.connection ∧
        ((flushTurn send budget f).2 = true → (flushTurn send budget f).1.connection.active = true) :=
      flushTurn_newest newest on
    unfold flushLoop
    split
    next onward =>
      rw [onward] at turned
      exact ih turned.1 (turned.2 rfl)
    next stopped =>
      rw [stopped] at turned
      exact turned.1

end

end

variable {s : Scheduler}

section
variable {τ : Type} (send : τ → QueuedMessage → TransportOperationResult × τ)

/-- No reliable message is replaced while an unreliable one of its key waits. -/
def Unmasks (x : System τ) : Event τ → Prop
  | .submit intent _ _ => ∀ c, x.scheduler.connections.find? intent.destination = some c → Unmasked c intent
  | _ => True

instance decidableUnmasks (x : System τ) : ∀ event, Decidable (Unmasks x event)
  | .submit intent _ _ => inferInstanceAs (Decidable (∀ c ∈ x.scheduler.connections.find? intent.destination,
      ∀ existing ∈ displaced c intent, existing.reliable = true →
        ∀ k ∈ getSequencedQueueKey intent.order, ∀ i, ∀ n ∈ c.queues i, n.states k.1 = false))
  | .register .. | .flush .. | .cancel .. | .activate .. | .transport .. => isTrue trivial

def KeepsNewest (s : Scheduler) : Prop := ∀ id c, s.connections.find? id = some c → Newest c

theorem keepsNewest_insert (keeps : KeepsNewest s) {id : ConnectionId} {d : ConnectionQueue}
    {a : Aggregate} (newest : Newest d) :
    KeepsNewest { s with connections := s.connections.insert id d, aggregate := a } := by
  intro id' c found
  rw [find?_insert] at found
  split_ifs at found
  · cases found
    exact newest
  · exact keeps id' c found

theorem keepsNewest_step {x y : System τ} {event : Event τ} (unmasks : Unmasks x event) (keeps : KeepsNewest x.scheduler)
    (stepped : step send x event = some y) : KeepsNewest y.scheduler := by
  cases event with
  | register connection limits =>
    cases stepped
    dsimp only [registerConnection]
    split_ifs
    · exact keeps
    · exact keeps
    · exact keeps
    · exact keepsNewest_insert keeps (newest_new limits)
  | submit intent token producer =>
    cases stepped
    dsimp only [submit]
    cases found : x.scheduler.connections.find? intent.destination with
    | none => exact keeps
    | some c =>
      dsimp only
      split
      · exact keeps
      next on =>
      exact keepsNewest_insert keeps (submitTo_newest (keeps _ c found) (by simpa using on) _ _ (unmasks c found))
  | flush connection budget =>
    cases stepped
    cases found : x.scheduler.connections.find? connection with
    | none => exact keeps
    | some c =>
      dsimp only
      split
      · exact keeps
      next on =>
      split
      · exact keeps
      · exact keepsNewest_insert keeps (flushLoop_newest _ (keeps _ c found) (by simpa using on))
  | cancel connection =>
    cases stepped
    dsimp only [cancelConnection]
    cases found : x.scheduler.connections.find? connection with
    | none => exact keeps
    | some c =>
      intro id d found'
      rw [find?_erase] at found'
      split_ifs at found'
      exact keeps id d found'
  | activate connection token time =>
    cases stepped
    dsimp only [activateReliableGrant]
    split_ifs
    · exact keeps
    split
    · exact keeps
    next c found =>
    split_ifs with off
    · exact keeps
    have on : c.active := by simpa using off
    split
    · exact keeps
    next i activated queue changed =>
    obtain ⟨j,_,inner⟩ := exists_of_findSome?_eq_some changed
    obtain ⟨⟨flag,list⟩,first,same⟩ := map_eq_some_iff.mp inner
    cases same
    exact keepsNewest_insert keeps ((keeps _ c found).restamped on (unstamped_activateIn first))
  | transport value =>
    cases stepped
    exact keeps

end

structure Replaces (s t : Scheduler) (intent : NetworkMessageIntent) (token : UInt64) (producer : WorkProducer)
    (existing : QueuedMessage) : Prop where
  older : ∃ key sequence, existing.sequenced = some (key,existing.sequence) ∧
    getSequencedQueueKey intent.order = some (key,sequence) ∧ existing.sequence < sequence
  queues : ∃ c d i before after, s.connections.find? intent.destination = some c ∧
    t.connections.find? intent.destination = some d ∧ c.queues i = before ++ existing :: after ∧
    d.superseded = c.superseded ++ [existing] ∧
    d.queues = ((c.supersede i before existing after).push { intent, reliableRetirementToken := token, producer }).queues

/-- What a submission answers: supersession if and only if it replaced an older message, and a refusal only where it
    left every queue and counter as it was. -/
structure Answers (s : Scheduler) (intent : NetworkMessageIntent) (token : UInt64) (producer : WorkProducer)
    (status : SchedulerSubmitStatus) (t : Scheduler) : Prop where
  superseded : status = .acceptedWithSupersession ↔ ∃ existing, Replaces s t intent token producer existing
  unchanged : status = .invalidConnection ∨ status = .intentRejected ∨ status = .droppedUnreliable →
    (∀ id, (t.connections.find? id).map ConnectionQueue.load = (s.connections.find? id).map ConnectionQueue.load) ∧
      t.aggregate.totalQueuedReliableBytes = s.aggregate.totalQueuedReliableBytes

variable {c : ConnectionQueue} {key : SequencedQueueKey}

variable {intent : NetworkMessageIntent} {producer : WorkProducer} {d : ConnectionQueue}

theorem not_replaces {t : Scheduler} {token : UInt64} (found : s.connections.find? intent.destination = some c)
    (found' : t.connections.find? intent.destination = some d) (same : d.superseded = c.superseded) :
    ¬∃ existing, Replaces s t intent token producer existing := by
  rintro ⟨existing,-,c',d',i,before,after,there,there',-,superseded,-⟩
  cases found.symm.trans there
  cases found'.symm.trans there'
  rw [same] at superseded
  simp at superseded

theorem answers_invalid (s : Scheduler) (intent : NetworkMessageIntent) (token : UInt64) (producer : WorkProducer) :
    Answers s intent token producer .invalidConnection s := by
  refine ⟨⟨fun answered => (by cases answered),fun replaced => ?_⟩,fun _ => ⟨fun _ => rfl,rfl⟩⟩
  obtain ⟨existing,same⟩ := replaced
  obtain ⟨c,d,i,before,after,found,-⟩ := same.queues
  exact absurd ⟨existing,same⟩ (not_replaces found found rfl)

theorem answers_submitted {token : UInt64}
    {a : Aggregate} {status : SchedulerSubmitStatus}
    (found : s.connections.find? intent.destination = some c)
    (submitted : Submitted c s.aggregate { intent, reliableRetirementToken := token, producer } status d a) :
    Answers s intent token producer status
      { s with connections := s.connections.insert intent.destination d, aggregate := a } := by
  have found' : (s.connections.insert intent.destination d).find? intent.destination = some d :=
    find?_insert_self _ _ _
  have seenSuperseded : ∀ {e : ConnectionQueue}, d.seen = e.seen → d.superseded = e.superseded ∧ d.queues = e.queues := by
    intro e seen
    simp only [ConnectionQueue.seen,Prod.mk.injEq] at seen
    exact ⟨seen.2.2.1,seen.1⟩
  cases submitted with
  | refused refused load seen total =>
    refine ⟨⟨fun answered => ?_,fun replaced => ?_⟩,fun _ => ⟨fun id => ?_,total⟩⟩
    · rw [answered] at refused
      rcases refused with other | other
      · cases other
      · cases other
    · exact absurd replaced (not_replaces found found' (seenSuperseded seen).1)
    · dsimp only
      rw [find?_insert]
      split_ifs with here
      · rw [here,found,map_some,map_some,load]
      · rfl
  | ended _ _ superseded =>
    refine ⟨⟨fun answered => (by cases answered),fun replaced => ?_⟩,fun refused => ?_⟩
    · exact absurd replaced (not_replaces found found' superseded)
    · rcases refused with other | other | other <;> cases other
  | queued _ _ seen =>
    refine ⟨⟨fun answered => (by cases answered),fun replaced => ?_⟩,fun refused => ?_⟩
    · exact absurd replaced (not_replaces found found' (seenSuperseded seen).1)
    · rcases refused with other | other | other <;> cases other
  | superseding _ _ sequenced there newer seen =>
    refine ⟨⟨fun _ => ⟨_,⟨_,_,?_,sequenced,newer⟩,c,d,_,_,_,found,found',(findExisting_eq_some there).1,
      (seenSuperseded seen).1,(seenSuperseded seen).2⟩,fun _ => rfl⟩,fun refused => ?_⟩
    · obtain ⟨-,older,keyed⟩ := findExisting_eq_some there
      rw [QueuedMessage.sequence,keyed]
      rfl
    · rcases refused with other | other | other <;> cases other

theorem submit_answers (s : Scheduler) (intent : NetworkMessageIntent) (token : UInt64) (producer : WorkProducer) :
    Answers s intent token producer (submit s intent token producer).1.status (submit s intent token producer).2 := by
  unfold submit
  cases found : s.connections.find? intent.destination with
  | none => exact answers_invalid s intent token producer
  | some c =>
    dsimp only
    split
    · exact answers_invalid s intent token producer
    · exact answers_submitted found (submitTo_submitted _ c s.aggregate _)

/-- Of each key at most one message waits, the newest of those accepted since one was last handed over, and every
    submission answers what it does. -/
structure Superseding (s : Scheduler) : Prop where
  one : ∀ id c, s.connections.find? id = some c → ∀ key, waiting key c.queues ≤ 1
  newest : ∀ id c, s.connections.find? id = some c → ∀ key i, ∀ m ∈ c.queues i, m.states key = true →
    (∃ o ∈ sinceHanded c key, o.unstamped = m.unstamped) ∧ ∀ o ∈ sinceHanded c key, o.sequence ≤ m.sequence
  answers : ∀ intent token producer,
    Answers s intent token producer (submit s intent token producer).1.status (submit s intent token producer).2

theorem mem_sinceHanded {o : QueuedMessage} : o ∈ sinceHanded c key ↔ o ∈ c.accepted ∧ o.states key ∧
      ∀ h ∈ c.handed, h.message.states key → h.message.serial < o.serial := by
  simp [sinceHanded,mem_filter,or_iff_not_imp_left]

theorem waiting_unique (one : waiting key queues ≤ 1) {j : Fin 6}
    (member : m ∈ queues i) (states : m.states key) (member' : n ∈ queues j)
    (states' : n.states key) : n = m := by
  obtain ⟨before,after,split⟩ := append_of_mem member
  by_contra other
  have rest : n ∈ Function.update queues i (before ++ after) j := by
    by_cases here : j = i
    · rw [here,split,mem_append,mem_cons] at member'
      rw [here,Function.update_self,mem_append]
      rcases member' with left | own | right
      · exact .inl left
      · exact absurd own other
      · exact .inr right
    · rwa [Function.update_of_ne here]
  have less := held_remove (fun m : QueuedMessage => if m.states key then 1 else 0) split
  have more := waiting_pos rest states'
  simp only [states,if_true] at less
  rw [waiting] at one more
  omega

theorem Newest.waits (newest : Newest c) (member : m ∈ c.queues i)
    (states : m.states key) :
    (∃ o ∈ sinceHanded c key, o.unstamped = m.unstamped) ∧ ∀ o ∈ sinceHanded c key, o.sequence ≤ m.sequence := by
  constructor
  · obtain ⟨o,accepted,same⟩ := newest.queued i m member
    have intents := congrArg intent same
    have serials := congrArg serial same
    change o.intent = m.intent at intents
    change o.serial = m.serial at serials
    refine ⟨o,mem_sinceHanded.mpr ⟨accepted,?_,fun h there states' => ?_⟩,same⟩
    · rwa [QueuedMessage.states,QueuedMessage.sequenced,intents]
    · rw [serials]
      exact newest.later key h there states' i m member states
  · intro o since
    obtain ⟨accepted,states',after⟩ := mem_sinceHanded.mp since
    cases on : c.active with
    | false =>
      rw [newest.off on i] at member
      exact absurd member not_mem_nil
    | true =>
      rcases newest.newest on key o accepted states' with ⟨h,there,states'',behind⟩ | ⟨j,n,waits,states'',smaller,-⟩
      · have later := after h there states''
        omega
      · rwa [← waiting_unique (newest.one key) member states waits states'']

section
variable {τ : Type} (send : τ → QueuedMessage → TransportOperationResult × τ)

/-- In every run in which no reliable message is replaced while an unreliable one of its key waits, supersession keeps
    its promises. -/
theorem superseding_run {maximumTotal : UInt64} {s : Scheduler} (created : create maximumTotal = some s) {transport : τ}
    {events : List (Event τ)} {x : System τ} (reached : run (step send) ⟨s, transport⟩ events = some x)
    (unmasks : RunMeets (step send) Unmasks ⟨s, transport⟩ events) : Superseding x.scheduler := by
  have start : KeepsNewest s := by
    simp only [create] at created
    split_ifs at created
    cases created
    intro id c found
    cases found
  have keeps : KeepsNewest x.scheduler := run_preserves_where
    (fun _ _ _ unmasks keeps stepped => keepsNewest_step send unmasks keeps stepped) start unmasks reached
  exact ⟨fun id c found => (keeps id c found).one,fun id c found key i m member states =>
    (keeps id c found).waits member states,submit_answers x.scheduler⟩

end

theorem superseding_stateRun : ∃ x, run (step sendAlways) ⟨newScheduler, ()⟩ (stateRun .unreliableSequenced) = some x ∧
    Superseding x.scheduler := by
  have created : create 1024 = some newScheduler := rfl
  have unmasks : RunMeets (step sendAlways) Unmasks ⟨newScheduler,()⟩ (stateRun .unreliableSequenced) := by
    decide +kernel
  have ran : (run (step sendAlways) ⟨newScheduler,()⟩ (stateRun .unreliableSequenced)).isSome = true := by
    decide +kernel
  obtain ⟨x,reached⟩ := isSome_iff_exists.mp ran
  exact ⟨x,reached,superseding_run sendAlways created reached unmasks⟩

def maskedRun : List (Event Unit) :=
  [.register firstConnection .nativeCeilings,.submit (stateIntent .unreliableSequenced 1) 0 .other,
    .submit { stateIntent .reliableOrdered 2 with traffic := .control } 0 .other,
    .submit (stateIntent .unreliableSequenced 3) 0 .other]

/-- The newer state replaces the reliable message, and both states wait. -/
theorem both_states_wait : create 1024 = some newScheduler ∧ ∃ x c,
    run (step sendAlways) ⟨newScheduler, ()⟩ maskedRun = some x ∧
    x.scheduler.connections.find? firstConnection = some c ∧ waiting ⟨1, 1, 0⟩ c.queues = 2 := by
  have ran : (run (step sendAlways) ⟨newScheduler,()⟩ maskedRun).map (fun x =>
      (x.scheduler.connections.find? firstConnection).map fun c => waiting ⟨1,1,0⟩ c.queues) = some (some 2) := by
    decide +kernel
  obtain ⟨x,reached,same⟩ := map_eq_some_iff.mp ran
  obtain ⟨c,found,both⟩ := map_eq_some_iff.mp same
  exact ⟨rfl,x,c,reached,found,both⟩

end Gargantuan.NetworkScheduler
