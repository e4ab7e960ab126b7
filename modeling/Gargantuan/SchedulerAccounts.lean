import Gargantuan.Scheduler
import Gargantuan.RemoteAccounting

/-!
The counters of the scheduler are what is in its queues. One message that comes or goes
changes every counter by its own share, so an operation on a connection keeps the
connection's counters and moves the aggregate by as much as the connection's reliable
bytes. The one exception is a sequenced message that takes a reliable one off its queue:
the source then corrects the unreliable counters.
-/
namespace Gargantuan.NetworkScheduler
open SortedMap List Function SchedulerStatistics Nat Aggregate
open RemoteManager (sizeSub sizeSub_of_le)

theorem sizeAdd_of_lt {a b : Nat} (small : a + b < 2 ^ 64) : sizeAdd a b = a + b := mod_eq_of_lt small

namespace QueuedMessage

def reliableBytes (m : QueuedMessage) : Nat := if m.reliable then m.size else 0
def reliableCount (m : QueuedMessage) : Nat := if m.reliable then 1 else 0
def unreliableBytes (m : QueuedMessage) : Nat := if m.reliable then 0 else m.size
def unreliableCount (m : QueuedMessage) : Nat := if m.reliable then 0 else 1
def madeBy (p : WorkProducer) (m : QueuedMessage) : Nat := if m.producer = p then 1 else 0

end QueuedMessage

structure Counted (t : SchedulerStatistics) (depths : WorkProducer → Nat) (queues : Fin 6 → List QueuedMessage) :
    Prop where
  reliableBytes : t.queuedReliableBytes = held QueuedMessage.reliableBytes queues
  reliableMessages : t.queuedReliableMessages = held QueuedMessage.reliableCount queues
  unreliableBytes : t.queuedUnreliableBytes = held QueuedMessage.unreliableBytes queues
  unreliableMessages : t.queuedUnreliableMessages = held QueuedMessage.unreliableCount queues
  messages : t.queuedMessages = held (fun _ => 1) queues
  depths : ∀ p, depths p = held (QueuedMessage.madeBy p) queues

structure Kept (c : ConnectionQueue) : Prop where
  limits : c.limits.isValid = true
  valid : ∀ i, ∀ m ∈ c.queues i, isNetworkMessageIntentValid m.intent c.limits = true
  counted : Counted c.statistics c.producerDepths c.queues
  reliableBytes : c.statistics.queuedReliableBytes ≤ c.limits.maximumQueuedReliableBytes
  unreliableBytes : c.statistics.queuedUnreliableBytes ≤ c.limits.maximumSendBytesPerTick
  unreliableMessages : c.statistics.queuedUnreliableMessages ≤ c.limits.maximumMessagesPerTick
  service : c.serviceAccepted.all ≤ 2 ^ 64 - 1
  submitted : c.statistics.messagesSubmittedToTransport + c.statistics.queuedMessages ≤ c.statistics.intentsAccepted
  exhausted : c.statistics.reliableBacklogExhaustions ≤ c.statistics.intentsRejected

theorem counted_nothing (t : SchedulerStatistics) (reliableBytes : t.queuedReliableBytes = 0)
    (reliableMessages : t.queuedReliableMessages = 0) (unreliableBytes : t.queuedUnreliableBytes = 0)
    (unreliableMessages : t.queuedUnreliableMessages = 0) (messages : t.queuedMessages = 0) :
    Counted t (fun _ => 0) fun _ => [] := by
  constructor
  · rw [reliableBytes,held_empty]
  · rw [reliableMessages,held_empty]
  · rw [unreliableBytes,held_empty]
  · rw [unreliableMessages,held_empty]
  · rw [messages,held_empty]
  · intro p
    rw [held_empty]

variable {rest : List QueuedMessage} {c' : ConnectionQueue} {l : NetworkLimits}

section
variable {c : ConnectionQueue} {m : QueuedMessage}

theorem limits_bounds (valid : l.isValid) :
    l.maximumReliableMessageBytes ≤ 2 ^ 23 ∧ l.maximumUnreliableMessageBytes ≤ 2 ^ 16 ∧
    l.maximumQueuedReliableBytes ≤ 2 ^ 26 ∧ l.maximumSendBytesPerTick ≤ 2 ^ 24 ∧ l.maximumMessagesPerTick ≤ 2 ^ 12 := by
  simp only [NetworkLimits.isValid,Bool.and_eq_true,decide_eq_true_eq] at valid
  have messageBytes : nativeMaximumNetworkMessageBytes = 2 ^ 23 := rfl
  have unreliableBytes : nativeMaximumUnreliableMessageBytes = 2 ^ 16 := rfl
  have queuedBytes : nativeMaximumQueuedReliableBytes = 2 ^ 26 := rfl
  have tickBytes : nativeMaximumNetworkBytesPerTick = 2 ^ 24 := rfl
  have tickMessages : nativeMaximumNetworkMessagesPerTick = 2 ^ 12 := rfl
  omega

theorem valid_size (valid : isNetworkMessageIntentValid m.intent l) : 0 < m.size ∧ m.size ≤ l.maximumSendBytesPerTick ∧
    m.size ≤ max l.maximumReliableMessageBytes l.maximumUnreliableMessageBytes := by
  simp only [isNetworkMessageIntentValid,validateIntent,Bool.and_eq_true,Bool.not_eq_true',decide_eq_true_eq,
    isEmpty_eq_false_iff] at valid
  obtain ⟨⟨⟨⟨⟨⟨_,nonempty⟩,_⟩,_⟩,byDelivery⟩,_⟩,perTick⟩ := valid
  refine ⟨length_pos_iff.mpr nonempty,perTick,?_⟩
  split_ifs at byDelivery
  · exact byDelivery.trans (le_max_left ..)
  · exact byDelivery.trans (le_max_right ..)

theorem Kept.small (k : Kept c) : c.statistics.queuedReliableMessages ≤ 2 ^ 26 ∧
    c.statistics.queuedMessages ≤ 2 ^ 27 ∧ ∀ p, c.producerDepths p ≤ c.statistics.queuedMessages := by
  obtain ⟨_,_,queuedBytes,_,tickMessages⟩ := limits_bounds k.limits
  have perMessage : held QueuedMessage.reliableCount c.queues ≤ held QueuedMessage.reliableBytes c.queues := by
    refine held_le fun i m member => ?_
    have size := (valid_size (k.valid i m member)).1
    simp only [QueuedMessage.reliableCount,QueuedMessage.reliableBytes]
    split_ifs <;> omega
  have both : held (fun _ => 1) c.queues =
      held QueuedMessage.reliableCount c.queues + held QueuedMessage.unreliableCount c.queues := by
    rw [← held_add]
    refine held_congr fun i m _ => ?_
    simp only [QueuedMessage.reliableCount,QueuedMessage.unreliableCount]
    split_ifs <;> rfl
  have messages := k.counted.messages
  have reliable := k.counted.reliableMessages
  have unreliable := k.counted.unreliableMessages
  have bytes := k.counted.reliableBytes
  have byteBound := k.reliableBytes
  have countBound := k.unreliableMessages
  refine ⟨by omega,by omega,fun p => ?_⟩
  rw [k.counted.depths,messages]
  refine held_le fun i m _ => ?_
  simp only [QueuedMessage.madeBy]
  split_ifs <;> omega

variable {t u : SchedulerStatistics} {depths depths' : WorkProducer → Nat} {queues queues' : Fin 6 → List QueuedMessage}

structure Grows (t u : SchedulerStatistics) (depths depths' : WorkProducer → Nat) (m : QueuedMessage) : Prop where
  reliableBytes : u.queuedReliableBytes = t.queuedReliableBytes + m.reliableBytes
  reliableMessages : u.queuedReliableMessages = t.queuedReliableMessages + m.reliableCount
  unreliableBytes : u.queuedUnreliableBytes = t.queuedUnreliableBytes + m.unreliableBytes
  unreliableMessages : u.queuedUnreliableMessages = t.queuedUnreliableMessages + m.unreliableCount
  messages : u.queuedMessages = t.queuedMessages + 1
  depths : ∀ p, depths' p = depths p + m.madeBy p

theorem Counted.push (counted : Counted t depths queues) (i : Fin 6) (grows : Grows t u depths depths' m) :
    Counted u depths' (Function.update queues i (queues i ++ [m])) where
  reliableBytes := by rw [held_push,grows.reliableBytes,counted.reliableBytes]
  reliableMessages := by rw [held_push,grows.reliableMessages,counted.reliableMessages]
  unreliableBytes := by rw [held_push,grows.unreliableBytes,counted.unreliableBytes]
  unreliableMessages := by rw [held_push,grows.unreliableMessages,counted.unreliableMessages]
  messages := by rw [held_push,grows.messages,counted.messages]
  depths p := by rw [held_push,grows.depths,counted.depths]

variable {after before : List QueuedMessage} {i : Fin 6}

theorem Counted.remove (counted : Counted u depths' queues) (split : queues i = before ++ m :: after)
    (grows : Grows t u depths depths' m) : Counted t depths (Function.update queues i (before ++ after)) where
  reliableBytes := by
    have less := held_remove QueuedMessage.reliableBytes split
    have grown := grows.reliableBytes
    rw [counted.reliableBytes] at grown
    omega
  reliableMessages := by
    have less := held_remove QueuedMessage.reliableCount split
    have grown := grows.reliableMessages
    rw [counted.reliableMessages] at grown
    omega
  unreliableBytes := by
    have less := held_remove QueuedMessage.unreliableBytes split
    have grown := grows.unreliableBytes
    rw [counted.unreliableBytes] at grown
    omega
  unreliableMessages := by
    have less := held_remove QueuedMessage.unreliableCount split
    have grown := grows.unreliableMessages
    rw [counted.unreliableMessages] at grown
    omega
  messages := by
    have less := held_remove (fun _ => 1) split
    have grown := grows.messages
    rw [counted.messages] at grown
    omega
  depths p := by
    have less := held_remove (QueuedMessage.madeBy p) split
    have grown := grows.depths p
    rw [counted.depths p] at grown
    omega

theorem Counted.covers (counted : Counted t depths queues) (member : m ∈ queues i) :
    m.reliableBytes ≤ t.queuedReliableBytes ∧ m.reliableCount ≤ t.queuedReliableMessages ∧
    m.unreliableBytes ≤ t.queuedUnreliableBytes ∧ m.unreliableCount ≤ t.queuedUnreliableMessages ∧
    1 ≤ t.queuedMessages ∧ 1 ≤ depths m.producer := by
  rw [counted.reliableBytes,counted.reliableMessages,counted.unreliableBytes,counted.unreliableMessages,
    counted.messages,counted.depths]
  have own : m.madeBy m.producer = 1 := by simp [QueuedMessage.madeBy]
  have producer := weight_le_held (QueuedMessage.madeBy m.producer) member
  exact ⟨weight_le_held _ member,weight_le_held _ member,weight_le_held _ member,weight_le_held _ member,
    weight_le_held (fun _ => 1) member,own ▸ producer⟩

/-! ### What an operation does to one connection -/

structure Shares (maximumTotal : Nat) (c : ConnectionQueue) (a : Aggregate) : Prop where
  covered : c.statistics.queuedReliableBytes ≤ a.totalQueuedReliableBytes
  within : a.totalQueuedReliableBytes ≤ maximumTotal
  size : maximumTotal < 2 ^ 64

structure Upkeep (maximumTotal : Nat) (c : ConnectionQueue) (a : Aggregate) (c' : ConnectionQueue) (a' : Aggregate) :
    Prop where
  kept : Kept c'
  limits : c'.limits = c.limits
  total : a'.totalQueuedReliableBytes + c.statistics.queuedReliableBytes =
    a.totalQueuedReliableBytes + c'.statistics.queuedReliableBytes
  within : a'.totalQueuedReliableBytes ≤ maximumTotal
  underflowed : a'.underflowed = a.underflowed

theorem Aggregate.note_total (a : Aggregate) (subtractions : List (Nat × Nat)) :
    (a.note subtractions).totalQueuedReliableBytes = a.totalQueuedReliableBytes := rfl

theorem Aggregate.note_covered {a : Aggregate} {subtractions : List (Nat × Nat)}
    (covered : ∀ s ∈ subtractions, s.2 ≤ s.1) : (a.note subtractions).underflowed = a.underflowed := by
  have none : (subtractions.any fun s => decide (s.1 < s.2)) = false := by
    rw [any_eq_false]
    intro s member
    simpa using covered s member
  simp only [note,none,Bool.or_false]

variable {maximumTotal : Nat} {a : Aggregate} {a' : Aggregate} {existing : QueuedMessage}

theorem Upkeep.trans {c' c'' : ConnectionQueue} {a'' : Aggregate} (first : Upkeep maximumTotal c a c' a')
    (second : Upkeep maximumTotal c' a' c'' a'') : Upkeep maximumTotal c a c'' a'' where
  kept := second.kept
  limits := second.limits.trans first.limits
  total := by
    have one := first.total
    have two := second.total
    omega
  within := second.within
  underflowed := second.underflowed.trans first.underflowed

theorem Upkeep.shares (upkeep : Upkeep maximumTotal c a c' a')
    (shares : Shares maximumTotal c a) : Shares maximumTotal c' a' where
  covered := by
    have total := upkeep.total
    have covered := shares.covered
    omega
  within := upkeep.within
  size := shares.size

theorem Kept.count (k : Kept c) (reliableBytes : u.queuedReliableBytes = c.statistics.queuedReliableBytes)
    (reliableMessages : u.queuedReliableMessages = c.statistics.queuedReliableMessages)
    (unreliableBytes : u.queuedUnreliableBytes = c.statistics.queuedUnreliableBytes)
    (unreliableMessages : u.queuedUnreliableMessages = c.statistics.queuedUnreliableMessages)
    (messages : u.queuedMessages = c.statistics.queuedMessages)
    (submitted : u.messagesSubmittedToTransport + u.queuedMessages ≤ u.intentsAccepted)
    (exhausted : u.reliableBacklogExhaustions ≤ u.intentsRejected) : Kept { c with statistics := u } where
  limits := k.limits
  valid := k.valid
  counted := ⟨reliableBytes.trans k.counted.reliableBytes,reliableMessages.trans k.counted.reliableMessages,
    unreliableBytes.trans k.counted.unreliableBytes,unreliableMessages.trans k.counted.unreliableMessages,
    messages.trans k.counted.messages,k.counted.depths⟩
  reliableBytes := reliableBytes.trans_le k.reliableBytes
  unreliableBytes := unreliableBytes.trans_le k.unreliableBytes
  unreliableMessages := unreliableMessages.trans_le k.unreliableMessages
  service := k.service
  submitted := submitted
  exhausted := exhausted

theorem upkeep_rejectUnreliable (k : Kept c) (shares : Shares maximumTotal c a)
    (total : a'.totalQueuedReliableBytes = a.totalQueuedReliableBytes) (underflowed : a'.underflowed = a.underflowed) :
    Upkeep maximumTotal c a (rejectUnreliable c).2 a' where
  kept := by
    have exhausted := k.exhausted
    exact k.count rfl rfl rfl rfl rfl k.submitted (by simp only; omega)
  limits := rfl
  total := by rw [total]; rfl
  within := total.trans_le shares.within
  underflowed := underflowed

theorem upkeep_clear (k : Kept c) (shares : Shares maximumTotal c a) :
    Upkeep maximumTotal c a { (clear c a).1 with active := false } (clear c a).2 := by
  have covered := shares.covered
  have within := shares.within
  have taken : (clear c a).2.totalQueuedReliableBytes =
      a.totalQueuedReliableBytes - c.statistics.queuedReliableBytes := sizeSub_of_le covered
  refine ⟨⟨k.limits,fun i m member => absurd member not_mem_nil,counted_nothing _ rfl rfl rfl rfl rfl,
    zero_le _,zero_le _,zero_le _,k.service,?_,k.exhausted⟩,rfl,?_,?_,?_⟩
  · have submitted := k.submitted
    change c.statistics.messagesSubmittedToTransport + 0 ≤ c.statistics.intentsAccepted
    omega
  · rw [taken]
    change _ = a.totalQueuedReliableBytes + 0
    omega
  · rw [taken]
    omega
  · exact note_covered (by simpa using covered)

theorem Grows.stored (grows : Grows t u depths depths' m) (serial : Nat) : Grows t u depths depths' { m with serial } :=
  { grows with }

theorem depths_push (k : Kept c) (m : QueuedMessage) (p : WorkProducer) :
    (c.push m).producerDepths p = c.producerDepths p + m.madeBy p := by
  obtain ⟨_,messages,depths⟩ := k.small
  have depth := depths p
  simp only [ConnectionQueue.push,QueuedMessage.madeBy]
  by_cases own : p = m.producer
  · subst own
    rw [update_self,if_pos rfl]
    exact sizeAdd_of_lt (by omega)
  · rw [update_of_ne own,if_neg (Ne.symm own),add_zero]

theorem push_statistics (c : ConnectionQueue) (m : QueuedMessage) :
    (c.push m).statistics = c.statistics.enqueued m.reliable := rfl

section
variable (k : Kept c)
include k

theorem grows_reliable (reliable : m.reliable)
    (bytes : u.queuedReliableBytes = c.statistics.queuedReliableBytes + m.size)
    (same : u.queuedUnreliableBytes = c.statistics.queuedUnreliableBytes)
    (reliableMessages : u.queuedReliableMessages = (c.push m).statistics.queuedReliableMessages)
    (unreliableMessages : u.queuedUnreliableMessages = (c.push m).statistics.queuedUnreliableMessages)
    (messages : u.queuedMessages = (c.push m).statistics.queuedMessages) :
    Grows c.statistics u c.producerDepths (c.push m).producerDepths m := by
  obtain ⟨few,all,_⟩ := k.small
  rw [push_statistics,reliable] at reliableMessages unreliableMessages messages
  refine ⟨?_,?_,?_,?_,?_,depths_push k m⟩
  · rw [bytes,QueuedMessage.reliableBytes,if_pos reliable]
  · rw [reliableMessages,QueuedMessage.reliableCount,if_pos reliable]
    exact sizeAdd_of_lt (by omega)
  · rw [same,QueuedMessage.unreliableBytes,if_pos reliable,add_zero]
  · rw [unreliableMessages,QueuedMessage.unreliableCount,if_pos reliable]
    rfl
  · rw [messages]
    exact sizeAdd_of_lt (by omega)

theorem grows_unreliable (unreliable : m.reliable = false)
    (same : u.queuedReliableBytes = c.statistics.queuedReliableBytes)
    (bytes : u.queuedUnreliableBytes = c.statistics.queuedUnreliableBytes + m.size)
    (reliableMessages : u.queuedReliableMessages = (c.push m).statistics.queuedReliableMessages)
    (unreliableMessages : u.queuedUnreliableMessages = (c.push m).statistics.queuedUnreliableMessages)
    (messages : u.queuedMessages = (c.push m).statistics.queuedMessages) :
    Grows c.statistics u c.producerDepths (c.push m).producerDepths m := by
  obtain ⟨_,all,_⟩ := k.small
  obtain ⟨_,_,_,_,tickMessages⟩ := limits_bounds k.limits
  have few := k.unreliableMessages
  have plain : ¬m.reliable := by simp [unreliable]
  rw [push_statistics,unreliable] at reliableMessages unreliableMessages messages
  refine ⟨?_,?_,?_,?_,?_,depths_push k m⟩
  · rw [same,QueuedMessage.reliableBytes,if_neg plain,add_zero]
  · rw [reliableMessages,QueuedMessage.reliableCount,if_neg plain]
    rfl
  · rw [bytes,QueuedMessage.unreliableBytes,if_neg plain]
  · rw [unreliableMessages,QueuedMessage.unreliableCount,if_neg plain]
    exact sizeAdd_of_lt (by omega)
  · rw [messages]
    exact sizeAdd_of_lt (by omega)

theorem valid_push (valid : isNetworkMessageIntentValid m.intent c.limits) (i : Fin 6) :
    ∀ x ∈ (c.push m).queues i, isNetworkMessageIntentValid x.intent c.limits := by
  intro x member
  by_cases here : i = m.precedence
  · subst here
    rw [show (c.push m).queues m.precedence = c.queues m.precedence ++ [{ m with serial := c.accepted.length }] from
      update_self ..] at member
    rcases mem_append.mp member with old | new
    · exact k.valid _ x old
    · rwa [mem_singleton.mp new]
  · rw [show (c.push m).queues i = c.queues i from update_of_ne here ..] at member
    exact k.valid i x member

theorem upkeep_submitReliable (shares : Shares maximumTotal c a)
    (valid : isNetworkMessageIntentValid m.intent c.limits) (reliable : m.reliable) :
    Upkeep maximumTotal c a (submitReliable maximumTotal c a m).2.1 (submitReliable maximumTotal c a m).2.2 := by
  have noted : (a.note [(c.limits.maximumQueuedReliableBytes,c.statistics.queuedReliableBytes),
      (maximumTotal,a.totalQueuedReliableBytes),(2 ^ 64 - 1,c.serviceAccepted.all)]).underflowed = a.underflowed :=
    note_covered (by simpa using ⟨k.reliableBytes,shares.within,k.service⟩)
  have sameTotal := a.note_total [(c.limits.maximumQueuedReliableBytes,c.statistics.queuedReliableBytes),
    (maximumTotal,a.totalQueuedReliableBytes),(2 ^ 64 - 1,c.serviceAccepted.all)]
  have exhausted := k.exhausted
  have within := shares.within
  have total := shares.size
  simp only [submitReliable]
  generalize a.note _ = noting at noted sameTotal ⊢
  rw [sameTotal,sizeSub_of_le k.reliableBytes,sizeSub_of_le shares.within,sizeSub_of_le k.service]
  split_ifs with full
  · have counted : Kept { c with statistics := { c.statistics with
        intentsRejected := c.statistics.intentsRejected + 1
        reliableBacklogExhaustions := c.statistics.reliableBacklogExhaustions + 1 } } :=
      k.count rfl rfl rfl rfl rfl k.submitted (by simp only; omega)
    have cleared := upkeep_clear counted (a := noting) ⟨sameTotal ▸ shares.covered,sameTotal ▸ shares.within,total⟩
    exact ⟨cleared.kept,cleared.limits,sameTotal ▸ cleared.total,cleared.within,cleared.underflowed.trans noted⟩
  · simp only [Bool.or_eq_true,decide_eq_true_eq,not_or,not_lt] at full
    obtain ⟨⟨own,shared⟩,service⟩ := full
    obtain ⟨_,_,queuedBytes,tickBytes,_⟩ := limits_bounds k.limits
    have bytes := k.reliableBytes
    have unreliableBytes := k.unreliableBytes
    have envelope : reliableServiceEnvelopeBytes = 32 := rfl
    have added : sizeAdd c.statistics.queuedReliableBytes m.size = c.statistics.queuedReliableBytes + m.size :=
      sizeAdd_of_lt (by omega)
    have totalAdded : sizeAdd a.totalQueuedReliableBytes m.size = a.totalQueuedReliableBytes + m.size :=
      sizeAdd_of_lt (by omega)
    have grown := grows_reliable k reliable (u := { (c.push m).statistics with
      queuedReliableBytes := sizeAdd c.statistics.queuedReliableBytes m.size
      intentsAccepted := c.statistics.intentsAccepted + 1 }) added rfl rfl rfl rfl
    have messages := grown.messages
    have submitted := k.submitted
    have unreliableMessages := grown.unreliableMessages
    rw [QueuedMessage.unreliableCount,if_pos reliable] at unreliableMessages
    refine ⟨⟨k.limits,valid_push k valid,k.counted.push m.precedence (grown.stored _),?_,unreliableBytes,?_,?_,?_,
      k.exhausted⟩,rfl,?_,?_,noted⟩
    · change sizeAdd c.statistics.queuedReliableBytes m.size ≤ _
      change _ ≤ c.limits.maximumQueuedReliableBytes
      omega
    · exact unreliableMessages.trans_le k.unreliableMessages
    · change c.serviceAccepted.all + (m.size + reliableServiceEnvelopeBytes) ≤ _
      omega
    · change c.statistics.messagesSubmittedToTransport + (c.push m).statistics.queuedMessages ≤
        c.statistics.intentsAccepted + 1
      change (c.push m).statistics.queuedMessages = _ at messages
      omega
    · change sizeAdd a.totalQueuedReliableBytes m.size + _ = _ + sizeAdd c.statistics.queuedReliableBytes m.size
      omega
    · change sizeAdd a.totalQueuedReliableBytes m.size ≤ _
      omega

theorem kept_acceptUnreliable (valid : isNetworkMessageIntentValid m.intent c.limits)
    (unreliable : m.reliable = false) (room : c.statistics.queuedUnreliableMessages < c.limits.maximumMessagesPerTick)
    (fits : c.statistics.queuedUnreliableBytes + m.size ≤ c.limits.maximumSendBytesPerTick) :
    Kept (c.acceptUnreliable m) := by
  obtain ⟨_,_,_,tickBytes,_⟩ := limits_bounds k.limits
  have added : sizeAdd c.statistics.queuedUnreliableBytes m.size = c.statistics.queuedUnreliableBytes + m.size :=
    sizeAdd_of_lt (by omega)
  have grown := grows_unreliable k unreliable (u := (c.acceptUnreliable m).statistics) rfl added rfl rfl rfl
  have unreliableMessages := grown.unreliableMessages
  rw [QueuedMessage.unreliableCount,if_neg (by simp [unreliable])] at unreliableMessages
  have messages := grown.messages
  have submitted := k.submitted
  refine ⟨k.limits,valid_push k valid,k.counted.push m.precedence (grown.stored _),k.reliableBytes,?_,?_,k.service,
    ?_,k.exhausted⟩
  · change sizeAdd c.statistics.queuedUnreliableBytes m.size ≤ c.limits.maximumSendBytesPerTick
    omega
  · change (c.acceptUnreliable m).statistics.queuedUnreliableMessages ≤ c.limits.maximumMessagesPerTick
    omega
  · change c.statistics.messagesSubmittedToTransport + (c.acceptUnreliable m).statistics.queuedMessages ≤
      c.statistics.intentsAccepted + 1
    omega

theorem upkeep_submitUnreliable (shares : Shares maximumTotal c a)
    (valid : isNetworkMessageIntentValid m.intent c.limits) (unreliable : m.reliable = false) :
    Upkeep maximumTotal c a (submitUnreliable c a m).2.1 (submitUnreliable c a m).2.2 := by
  have noted : (a.note [(c.limits.maximumSendBytesPerTick,c.statistics.queuedUnreliableBytes)]).underflowed =
      a.underflowed := note_covered (by simpa using k.unreliableBytes)
  have bytes := k.unreliableBytes
  simp only [submitUnreliable,sizeSub_of_le k.unreliableBytes]
  split_ifs with full over_
  · exact upkeep_rejectUnreliable k shares rfl rfl
  · exact upkeep_rejectUnreliable k shares rfl noted
  · have kept := kept_acceptUnreliable k valid unreliable (by omega) (by omega)
    exact ⟨kept,rfl,rfl,shares.within,noted⟩

theorem kept_supersede (split : c.queues i = before ++ existing :: after) (unreliable : existing.reliable = false) :
    Kept (c.supersede i before existing after) := by
  have plain : ¬existing.reliable := by simp [unreliable]
  have covers := k.counted.covers (m := existing) (i := i) (by rw [split]; simp)
  simp only [QueuedMessage.reliableBytes,QueuedMessage.reliableCount,QueuedMessage.unreliableBytes,
    QueuedMessage.unreliableCount,if_neg plain] at covers
  obtain ⟨_,_,bytes,count,messages,producer⟩ := covers
  have grows : Grows (c.supersede i before existing after).statistics c.statistics
      (c.supersede i before existing after).producerDepths c.producerDepths existing := by
    refine ⟨?_,?_,?_,?_,?_,?_⟩
    · rw [QueuedMessage.reliableBytes,if_neg plain]; rfl
    · rw [QueuedMessage.reliableCount,if_neg plain]; rfl
    · change _ = sizeSub c.statistics.queuedUnreliableBytes existing.size + _
      rw [sizeSub_of_le bytes,QueuedMessage.unreliableBytes,if_neg plain]
      omega
    · change _ = sizeSub c.statistics.queuedUnreliableMessages 1 + _
      rw [sizeSub_of_le count,QueuedMessage.unreliableCount,if_neg plain]
      omega
    · change _ = sizeSub c.statistics.queuedMessages 1 + 1
      rw [sizeSub_of_le messages]
      omega
    · intro p
      change _ = update c.producerDepths existing.producer
        (sizeSub (c.producerDepths existing.producer) 1) p + _
      by_cases own : p = existing.producer
      · subst own
        rw [update_self,sizeSub_of_le producer,QueuedMessage.madeBy,if_pos rfl]
        omega
      · rw [update_of_ne own,QueuedMessage.madeBy,if_neg (Ne.symm own),add_zero]
  have unreliableBytes := k.unreliableBytes
  have unreliableMessages := k.unreliableMessages
  have submitted := k.submitted
  refine ⟨k.limits,?_,k.counted.remove split grows,k.reliableBytes,?_,?_,k.service,?_,k.exhausted⟩
  · intro j m member
    change m ∈ update c.queues i (before ++ after) j at member
    by_cases here : j = i
    · subst here
      rw [update_self] at member
      refine k.valid j m ?_
      rw [split]
      rcases mem_append.mp member with left | right
      · exact mem_append_left _ left
      · exact mem_append_right _ (.tail _ right)
    · rw [update_of_ne here] at member
      exact k.valid j m member
  · change sizeSub c.statistics.queuedUnreliableBytes existing.size ≤ c.limits.maximumSendBytesPerTick
    rw [sizeSub_of_le bytes]
    omega
  · change sizeSub c.statistics.queuedUnreliableMessages 1 ≤ c.limits.maximumMessagesPerTick
    rw [sizeSub_of_le count]
    omega
  · change c.statistics.messagesSubmittedToTransport + sizeSub c.statistics.queuedMessages 1 ≤
      c.statistics.intentsAccepted
    rw [sizeSub_of_le messages]
    omega

theorem upkeep_submitOver (shares : Shares maximumTotal c a)
    (valid : isNetworkMessageIntentValid m.intent c.limits) (unreliable : m.reliable = false)
    {sequence : UInt64} (split : c.queues i = before ++ existing :: after)
    (displaces : (existing.sequenced.map Prod.snd).getD 0 < sequence → existing.reliable = false) :
    Upkeep maximumTotal c a (submitOver c a m sequence i before existing after).2.1
      (submitOver c a m sequence i before existing after).2.2 := by
  by_cases stale : sequence ≤ (existing.sequenced.map Prod.snd).getD 0
  · simp only [submitOver,if_pos stale]
    exact upkeep_rejectUnreliable k shares rfl rfl
  have old := displaces (UInt64.not_le.mp stale)
  have plain : ¬existing.reliable := by simp [old]
  have covers := k.counted.covers (m := existing) (i := i) (by rw [split]; simp)
  simp only [QueuedMessage.reliableBytes,QueuedMessage.reliableCount,QueuedMessage.unreliableBytes,
    QueuedMessage.unreliableCount,if_neg plain] at covers
  obtain ⟨_,_,bytes,count,messages,producer⟩ := covers
  have tick := k.unreliableBytes
  have perTick := k.unreliableMessages
  have noted : (a.note [(c.statistics.queuedUnreliableBytes,existing.size),(c.limits.maximumSendBytesPerTick,
      c.statistics.queuedUnreliableBytes - existing.size)]).underflowed = a.underflowed :=
    note_covered (by simp; omega)
  simp only [submitOver,if_neg stale,sizeSub_of_le bytes]
  rw [sizeSub_of_le (show c.statistics.queuedUnreliableBytes - existing.size ≤ c.limits.maximumSendBytesPerTick by omega)]
  split_ifs with large
  · exact upkeep_rejectUnreliable k shares rfl noted
  · have superseded := kept_supersede k split old
    have left : (c.supersede i before existing after).statistics.queuedUnreliableBytes =
        c.statistics.queuedUnreliableBytes - existing.size := sizeSub_of_le bytes
    have fewer : (c.supersede i before existing after).statistics.queuedUnreliableMessages =
        c.statistics.queuedUnreliableMessages - 1 := sizeSub_of_le count
    have kept := kept_acceptUnreliable superseded valid unreliable
      (by rw [fewer]; change _ < c.limits.maximumMessagesPerTick; omega)
      (by rw [left]; change _ ≤ c.limits.maximumSendBytesPerTick; omega)
    refine ⟨kept.count rfl rfl rfl rfl rfl kept.submitted kept.exhausted,rfl,rfl,shares.within,?_⟩
    refine (note_covered ?_).trans noted
    simp only [mem_cons,not_mem_nil,or_false,forall_eq_or_imp,forall_eq]
    exact ⟨producer,bytes,count,messages⟩

end

theorem findExisting_eq_some {key : SequencedQueueKey}
    (found : findExisting queues key = some (i,before,existing,after)) :
    queues i = before ++ existing :: after ∧ ∃ sequence, existing.sequenced = some (key,sequence) := by
  obtain ⟨j,_,inner⟩ := exists_of_findSome?_eq_some found
  obtain ⟨⟨b,x,d⟩,first,same⟩ := Option.map_eq_some_iff.mp inner
  cases same
  obtain ⟨split,passes,_⟩ := splitFirst_eq_some first
  refine ⟨split,?_⟩
  cases stored : existing.sequenced with
  | none =>
    rw [stored] at passes
    cases passes
  | some own =>
    rw [stored] at passes
    exact ⟨own.2,by rw [← beq_iff_eq.mp passes]⟩

def displaced (c : ConnectionQueue) (intent : NetworkMessageIntent) : Option QueuedMessage :=
  if !isNetworkMessageIntentValid intent c.limits then none
  else match intent.delivery, getSequencedQueueKey intent.order with
    | .unreliableSequenced, some (key,sequence) =>
      ((findExisting c.queues key).map fun found => found.2.2.1).filter fun existing =>
        decide ((existing.sequenced.map Prod.snd).getD 0 < sequence)
    | _, _ => none

theorem upkeep_submitTo (k : Kept c) (shares : Shares maximumTotal c a) (m : QueuedMessage)
    (displaces : ∀ existing, displaced c m.intent = some existing → existing.reliable = false) :
    Upkeep maximumTotal c a (submitTo maximumTotal c a m).2.1 (submitTo maximumTotal c a m).2.2 := by
  simp only [submitTo]
  split_ifs with invalid
  · have exhausted := k.exhausted
    exact ⟨k.count rfl rfl rfl rfl rfl k.submitted (by simp only; omega),rfl,rfl,shares.within,rfl⟩
  simp only [Bool.not_eq_true',Bool.not_eq_false] at invalid
  cases delivery : m.intent.delivery with
  | reliableOrdered => exact upkeep_submitReliable k shares invalid (by simp [QueuedMessage.reliable,delivery])
  | unreliableUnordered => exact upkeep_submitUnreliable k shares invalid (by simp [QueuedMessage.reliable,delivery])
  | unreliableSequenced =>
    have unreliable : m.reliable = false := by simp [QueuedMessage.reliable,delivery]
    simp only [submitSequenced]
    split
    · exact upkeep_rejectUnreliable k shares rfl rfl
    · next key sequence sequenced =>
      split
      · next i before existing after found =>
        refine upkeep_submitOver k shares invalid unreliable (findExisting_eq_some found).1 fun newer => ?_
        refine displaces existing ?_
        simp only [QueuedMessage.sequenced] at sequenced
        simp only [displaced,invalid,Bool.not_true,Bool.false_eq_true,if_false,delivery,sequenced,found,
          Option.map_some,Option.filter_some,decide_eq_true newer,if_true]
      · exact upkeep_submitUnreliable k shares invalid unreliable

theorem grows_handOver (k : Kept c) (front : c.queues i = m :: rest) :
    Grows (c.handOver i m rest).statistics c.statistics (c.handOver i m rest).producerDepths c.producerDepths m := by
  obtain ⟨reliableBytes,reliableCount,bytes,count,messages,producer⟩ :=
    k.counted.covers (m := m) (i := i) (by rw [front]; simp)
  simp only [QueuedMessage.reliableBytes,QueuedMessage.reliableCount,QueuedMessage.unreliableBytes,
    QueuedMessage.unreliableCount] at reliableBytes reliableCount bytes count
  refine ⟨?_,?_,?_,?_,?_,?_⟩
  · simp only [ConnectionQueue.handOver,handed,QueuedMessage.reliableBytes]
    split_ifs at * with reliable
    · rw [sizeSub_of_le reliableBytes]
      omega
    · rfl
  · simp only [ConnectionQueue.handOver,handed,QueuedMessage.reliableCount]
    split_ifs at * with reliable
    · rw [sizeSub_of_le reliableCount]
      omega
    · rfl
  · simp only [ConnectionQueue.handOver,handed,QueuedMessage.unreliableBytes]
    split_ifs at * with reliable
    · rfl
    · rw [sizeSub_of_le bytes]
      omega
  · simp only [ConnectionQueue.handOver,handed,QueuedMessage.unreliableCount]
    split_ifs at * with reliable
    · rfl
    · rw [sizeSub_of_le count]
      omega
  · change _ = sizeSub c.statistics.queuedMessages 1 + 1
    rw [sizeSub_of_le messages]
    omega
  · intro p
    change _ = update c.producerDepths m.producer (sizeSub (c.producerDepths m.producer) 1) p + _
    by_cases own : p = m.producer
    · subst own
      rw [update_self,sizeSub_of_le producer,QueuedMessage.madeBy,if_pos rfl]
      omega
    · rw [update_of_ne own,QueuedMessage.madeBy,if_neg (Ne.symm own),add_zero]

theorem upkeep_handOver (k : Kept c) (shares : Shares maximumTotal c a) (front : c.queues i = m :: rest) :
    Upkeep maximumTotal c a (c.handOver i m rest) (handedAggregate c a m) := by
  have grows := grows_handOver k front
  have covers := k.counted.covers (m := m) (i := i) (by rw [front]; simp)
  have reliableBytes := grows.reliableBytes
  have unreliableBytes := grows.unreliableBytes
  have unreliableMessages := grows.unreliableMessages
  have messages := grows.messages
  have submitted := k.submitted
  have own := k.reliableBytes
  have tick := k.unreliableBytes
  have perTick := k.unreliableMessages
  have covered := shares.covered
  have within := shares.within
  have shared : m.reliable → m.size ≤ a.totalQueuedReliableBytes := by
    intro reliable
    have least := covers.1
    rw [QueuedMessage.reliableBytes,if_pos reliable] at least
    omega
  have total : (handedAggregate c a m).totalQueuedReliableBytes + m.reliableBytes = a.totalQueuedReliableBytes := by
    simp only [handedAggregate,QueuedMessage.reliableBytes]
    split_ifs with reliable
    · rw [sizeSub_of_le (shared reliable)]
      exact Nat.sub_add_cancel (shared reliable)
    · rfl
  refine ⟨⟨k.limits,?_,?_,?_,?_,?_,k.service,?_,k.exhausted⟩,rfl,by omega,by omega,?_⟩
  · intro j x member
    change x ∈ update c.queues i rest j at member
    by_cases here : j = i
    · subst here
      rw [update_self] at member
      exact k.valid j x (by rw [front]; exact .tail _ member)
    · rw [update_of_ne here] at member
      exact k.valid j x member
  · refine k.counted.remove (?_ : c.queues i = [] ++ m :: rest) grows
    exact front
  · change (c.handOver i m rest).statistics.queuedReliableBytes ≤ c.limits.maximumQueuedReliableBytes
    omega
  · change (c.handOver i m rest).statistics.queuedUnreliableBytes ≤ c.limits.maximumSendBytesPerTick
    omega
  · change (c.handOver i m rest).statistics.queuedUnreliableMessages ≤ c.limits.maximumMessagesPerTick
    omega
  · change c.statistics.messagesSubmittedToTransport + 1 + (c.handOver i m rest).statistics.queuedMessages ≤
      c.statistics.intentsAccepted
    omega
  · refine note_covered ?_
    simp only [QueuedMessage.reliableBytes,QueuedMessage.reliableCount,QueuedMessage.unreliableBytes,
      QueuedMessage.unreliableCount] at covers
    by_cases reliable : m.reliable = true
    · simp only [reliable,if_true] at covers
      simp [handedSubtractions,reliable,covers,shared reliable]
    · simp only [if_neg reliable] at covers
      simp [handedSubtractions,reliable,covers]

section
variable {τ : Type} {send : τ → QueuedMessage → TransportOperationResult × τ} {budget : SchedulerTickBudget}

structure FlushKept (maximumTotal : Nat) (budget : SchedulerTickBudget) (c : ConnectionQueue) (a : Aggregate)
    (f : Flushing τ) : Prop where
  upkeep : Upkeep maximumTotal c a f.connection f.aggregate
  bytes : f.result.bytesSubmitted ≤ budget.maximumBytes

theorem flushKept_turn {f : Flushing τ} (shares : Shares maximumTotal c a) (kept : FlushKept maximumTotal budget c a f) :
    FlushKept maximumTotal budget c a (flushTurn send budget f).1 := by
  obtain ⟨upkeep,bytes⟩ := kept
  have less : ∀ s ∈ [(budget.maximumBytes,f.result.bytesSubmitted)], s.2 ≤ s.1 := by simpa using bytes
  have noted := note_covered (a := f.aggregate) less
  have here : Upkeep maximumTotal c a f.connection (f.aggregate.note [(budget.maximumBytes,f.result.bytesSubmitted)]) :=
    { upkeep with underflowed := noted.trans upkeep.underflowed }
  have counts : ∀ {u : SchedulerStatistics}, Kept { f.connection with statistics := u } →
      u.queuedReliableBytes = f.connection.statistics.queuedReliableBytes →
      Upkeep maximumTotal c a { f.connection with statistics := u }
        (f.aggregate.note [(budget.maximumBytes,f.result.bytesSubmitted)]) := fun kept same =>
    ⟨kept,upkeep.limits,by rw [show ({ f.connection with statistics := _ } : ConnectionQueue).statistics.queuedReliableBytes
      = f.connection.statistics.queuedReliableBytes from same]; exact here.total,here.within,here.underflowed⟩
  simp only [flushTurn]
  split_ifs
  · exact ⟨upkeep,bytes⟩
  split
  · exact ⟨upkeep,bytes⟩
  split
  · exact ⟨upkeep,bytes⟩
  next i chosen message rest front =>
  split
  · exact ⟨counts (upkeep.kept.count rfl rfl rfl rfl rfl upkeep.kept.submitted upkeep.kept.exhausted) rfl,bytes⟩
  next limited =>
  split
  · exact ⟨counts (upkeep.kept.count rfl rfl rfl rfl rfl upkeep.kept.submitted upkeep.kept.exhausted) rfl,bytes⟩
  split
  · exact ⟨here.trans (upkeep_clear here.kept (here.shares shares)),bytes⟩
  · refine ⟨here.trans (upkeep_handOver here.kept (here.shares shares) front),?_⟩
    simp only [Bool.or_eq_true,decide_eq_true_eq,not_or,not_lt,sizeSub_of_le bytes] at limited
    change f.result.bytesSubmitted + message.size ≤ budget.maximumBytes
    omega

theorem flushKept_loop (shares : Shares maximumTotal c a) (queued : Nat) :
    ∀ {f : Flushing τ}, FlushKept maximumTotal budget c a f →
      FlushKept maximumTotal budget c a (flushLoop send budget queued f) := by
  induction queued with
  | zero => exact fun kept => kept
  | succ queued ih =>
    intro f kept
    have turned : FlushKept maximumTotal budget c a (flushTurn send budget f).1 := flushKept_turn shares kept
    simp only [flushLoop]
    split
    · next _ onward => exact ih (by rw [onward] at turned; exact turned)
    · next _ stopped => rw [stopped] at turned; exact turned

end

end

def totalOf (connections : SortedMap ConnectionId ConnectionQueue) : Nat :=
  (connections.entries.map fun e => e.2.statistics.queuedReliableBytes).sum

variable {id : ConnectionId} {s : Scheduler} {queue : List QueuedMessage}

variable {connections : SortedMap ConnectionId ConnectionQueue}

theorem totalOf_insert_new (absent : connections.find? id = none) (c : ConnectionQueue) :
    totalOf (connections.insert id c) = totalOf connections + c.statistics.queuedReliableBytes :=
  total_insert_new (fun queue : ConnectionQueue => queue.statistics.queuedReliableBytes) absent c

variable {c : ConnectionQueue}

theorem totalOf_erase (found : connections.find? id = some c) :
    totalOf connections = totalOf (connections.erase id) + c.statistics.queuedReliableBytes :=
  total_erase (fun queue : ConnectionQueue => queue.statistics.queuedReliableBytes) found

theorem totalOf_insert {id : ConnectionId} {c c' : ConnectionQueue} (found : connections.find? id = some c) :
    totalOf (connections.insert id c') + c.statistics.queuedReliableBytes =
      totalOf connections + c'.statistics.queuedReliableBytes :=
  total_insert (fun queue : ConnectionQueue => queue.statistics.queuedReliableBytes) found c'

structure Sound (s : Scheduler) : Prop where
  kept : ∀ id c, s.connections.find? id = some c → Kept c
  total : s.aggregate.totalQueuedReliableBytes = totalOf s.connections
  within : s.aggregate.totalQueuedReliableBytes ≤ s.maximumTotalQueuedReliableBytes.toNat
  underflowed : s.aggregate.underflowed = false

theorem Sound.shares (sound : Sound s) (found : s.connections.find? id = some c) :
    Shares s.maximumTotalQueuedReliableBytes.toNat c s.aggregate where
  covered := by
    rw [sound.total,totalOf_erase found]
    exact Nat.le_add_left ..
  within := sound.within
  size := s.maximumTotalQueuedReliableBytes.toNat_lt

theorem Sound.operate (sound : Sound s) {a' : Aggregate} (found : s.connections.find? id = some c)
    (upkeep : Upkeep s.maximumTotalQueuedReliableBytes.toNat c s.aggregate c' a') :
    Sound { s with connections := s.connections.insert id c', aggregate := a' } where
  kept id' d found' := by
    rw [find?_insert] at found'
    split_ifs at found'
    · cases found'
      exact upkeep.kept
    · exact sound.kept id' d found'
  total := by
    have sums := @totalOf_insert _ _ _ c' found
    have moves := upkeep.total
    have before := sound.total
    change a'.totalQueuedReliableBytes = totalOf (s.connections.insert id c')
    omega
  within := upkeep.within
  underflowed := upkeep.underflowed.trans sound.underflowed

theorem kept_new {limits : NetworkLimits} (valid : limits.isValid) : Kept { limits } :=
  ⟨valid,fun _ _ member => absurd member not_mem_nil,counted_nothing _ rfl rfl rfl rfl rfl,
    zero_le _,zero_le _,zero_le _,zero_le _,zero_le _,zero_le _⟩

theorem sound_registerConnection (sound : Sound s) (id : ConnectionId) (limits : NetworkLimits) :
    Sound (registerConnection s id limits).2 := by
  simp only [registerConnection]
  split_ifs with invalid taken stored
  · exact sound
  · exact sound
  · exact sound
  · simp only [Bool.or_eq_true,Bool.not_eq_true',not_or,Bool.not_eq_false] at invalid
    have absent : s.connections.find? id = none := by
      simpa [SortedMap.contains] using stored
    refine ⟨?_,?_,sound.within,sound.underflowed⟩
    · intro id' c found
      rw [find?_insert] at found
      split_ifs at found
      · cases found
        exact kept_new invalid.2
      · exact sound.kept id' c found
    · change s.aggregate.totalQueuedReliableBytes = totalOf (s.connections.insert id { limits })
      rw [totalOf_insert_new absent,sound.total]
      rfl

theorem sound_cancelConnection (sound : Sound s) (id : ConnectionId) : Sound (cancelConnection s id).2 := by
  simp only [cancelConnection]
  cases found : s.connections.find? id with
  | none => exact sound
  | some c =>
    have cleared := upkeep_clear (sound.kept id c found) (sound.shares found)
    have moves := cleared.total
    have sums := totalOf_erase found
    have before := sound.total
    refine ⟨?_,?_,cleared.within,cleared.underflowed.trans sound.underflowed⟩
    · intro id' d found'
      rw [find?_erase] at found'
      split_ifs at found'
      exact sound.kept id' d found'
    · change (clear c s.aggregate).2.totalQueuedReliableBytes = totalOf (s.connections.erase id)
      change _ = _ + 0 at moves
      omega

theorem sound_flush {τ : Type} (send : τ → QueuedMessage → TransportOperationResult × τ)
    (budget : SchedulerTickBudget) (sound : Sound s) (transport : τ) (id : ConnectionId) :
    Sound (flush send budget s transport id).2.1 := by
  simp only [flush]
  cases found : s.connections.find? id with
  | none => exact sound
  | some c =>
    simp only
    split_ifs
    · exact sound
    · exact sound
    · have shares := sound.shares found
      have start : Upkeep s.maximumTotalQueuedReliableBytes.toNat c s.aggregate c s.aggregate :=
        ⟨sound.kept id c found,rfl,rfl,sound.within,rfl⟩
      have flushed : FlushKept s.maximumTotalQueuedReliableBytes.toNat budget c s.aggregate
          (flushLoop send budget c.statistics.queuedMessages ⟨c,s.aggregate,transport,{ status := .drained }⟩) :=
        flushKept_loop shares _ ⟨start,zero_le _⟩
      exact sound.operate found flushed.upkeep

/-- What an activation leaves of a message: everything but the time. -/
def QueuedMessage.unstamped (m : QueuedMessage) : QueuedMessage :=
  { m with reliableGrantActivatedAtMicroseconds := 0 }

variable {queue' : List QueuedMessage}

theorem unstamped_activateIn {token time : UInt64} {activated : Bool}
    (found : activateIn token time queue = some (activated,queue')) :
    queue'.map QueuedMessage.unstamped = queue.map QueuedMessage.unstamped := by
  induction queue generalizing queue' with
  | nil => cases found
  | cons m rest ih =>
    simp only [activateIn] at found
    split_ifs at found
    · cases found
      rfl
    · cases found
      rfl
    · obtain ⟨⟨_,others⟩,inner,same⟩ := Option.map_eq_some_iff.mp found
      cases same
      rw [map_cons,map_cons,ih inner]

theorem mem_unstamped
    (same : queue'.map QueuedMessage.unstamped = queue.map QueuedMessage.unstamped) {m : QueuedMessage}
    (member : m ∈ queue') : ∃ o ∈ queue, o.unstamped = m.unstamped := by
  have there : m.unstamped ∈ queue.map QueuedMessage.unstamped := same ▸ mem_map_of_mem member
  exact mem_map.mp there

theorem held_unstamped (weight : QueuedMessage → Nat) (blind : ∀ m, weight m.unstamped = weight m)
    {queues : Fin 6 → List QueuedMessage} {i : Fin 6}
    (same : queue.map QueuedMessage.unstamped = (queues i).map QueuedMessage.unstamped) :
    held weight (Function.update queues i queue) = held weight queues := by
  have through : ∀ l : List QueuedMessage, l.map weight = (l.map QueuedMessage.unstamped).map weight := by
    intro l
    rw [map_map]
    exact map_congr_left fun m _ => (blind m).symm
  have change := held_update weight queues i queue
  rw [through queue,through (queues i),same] at change
  omega

theorem kept_unstamped (k : Kept c) {i : Fin 6}
    (same : queue.map QueuedMessage.unstamped = (c.queues i).map QueuedMessage.unstamped) :
    Kept { c with queues := update c.queues i queue } := by
  refine { k with valid := ?_, counted := ?_ }
  · intro j m member
    change m ∈ update c.queues i queue j at member
    by_cases here : j = i
    · subst here
      rw [update_self] at member
      obtain ⟨o,before,equal⟩ := mem_unstamped same member
      have intents : o.unstamped.intent = m.unstamped.intent := congrArg QueuedMessage.intent equal
      exact intents ▸ k.valid j o before
    · rw [update_of_ne here] at member
      exact k.valid j m member
  · have counted := k.counted
    refine ⟨?_,?_,?_,?_,?_,fun p => ?_⟩
    · exact counted.reliableBytes.trans (held_unstamped _ (fun _ => rfl) same).symm
    · exact counted.reliableMessages.trans (held_unstamped _ (fun _ => rfl) same).symm
    · exact counted.unreliableBytes.trans (held_unstamped _ (fun _ => rfl) same).symm
    · exact counted.unreliableMessages.trans (held_unstamped _ (fun _ => rfl) same).symm
    · exact counted.messages.trans (held_unstamped _ (fun _ => rfl) same).symm
    · exact (counted.depths p).trans (held_unstamped _ (fun _ => rfl) same).symm

theorem sound_activateReliableGrant (sound : Sound s) (id : ConnectionId) (token time : UInt64) :
    Sound (activateReliableGrant s id token time).2 := by
  simp only [activateReliableGrant]
  split_ifs
  · exact sound
  split
  · exact sound
  next c found =>
  split_ifs
  · exact sound
  split
  · exact sound
  next i activated queue changed =>
  obtain ⟨j,_,inner⟩ := exists_of_findSome?_eq_some changed
  obtain ⟨⟨flag,list⟩,first,same⟩ := Option.map_eq_some_iff.mp inner
  cases same
  have kept := kept_unstamped (sound.kept id c found) (unstamped_activateIn first)
  exact sound.operate found ⟨kept,rfl,rfl,sound.within,rfl⟩

section
variable {τ : Type} (send : τ → QueuedMessage → TransportOperationResult × τ)

/-- No sequenced message is to replace a reliable one. -/
def Spares (x : System τ) : Event τ → Prop
  | .submit intent _ _ => ∀ c, x.scheduler.connections.find? intent.destination = some c →
      ∀ existing, displaced c intent = some existing → existing.reliable = false
  | _ => True

instance decidableSpares (x : System τ) : ∀ event, Decidable (Spares x event)
  | .submit intent _ _ => inferInstanceAs (Decidable (∀ c ∈ x.scheduler.connections.find? intent.destination,
      ∀ existing ∈ displaced c intent, existing.reliable = false))
  | .register .. | .flush .. | .cancel .. | .activate .. | .transport .. => isTrue trivial

theorem sound_submit (sound : Sound s) {intent : NetworkMessageIntent} (token : UInt64) (producer : WorkProducer)
    (spares : ∀ c, s.connections.find? intent.destination = some c →
      ∀ existing, displaced c intent = some existing → existing.reliable = false) :
    Sound (submit s intent token producer).2 := by
  simp only [submit]
  cases found : s.connections.find? intent.destination with
  | none => exact sound
  | some c =>
    simp only
    split_ifs
    · exact sound
    · exact sound.operate found (upkeep_submitTo (sound.kept _ c found) (sound.shares found) _ (spares c found))

theorem sound_step {x y : System τ} {event : Event τ} (spares : Spares x event) (sound : Sound x.scheduler)
    (stepped : step send x event = some y) : Sound y.scheduler := by
  cases event with
  | register connection limits =>
    cases stepped
    exact sound_registerConnection sound connection limits
  | submit intent token producer =>
    cases stepped
    exact sound_submit sound token producer spares
  | flush connection budget =>
    cases stepped
    exact sound_flush send budget sound x.transport connection
  | cancel connection =>
    cases stepped
    exact sound_cancelConnection sound connection
  | activate connection token time =>
    cases stepped
    exact sound_activateReliableGrant sound connection token time
  | transport value =>
    cases stepped
    exact sound

/-- What the scheduler promises about its counters. -/
structure Accounted (s : Scheduler) : Prop where
  counted : ∀ id c, s.connections.find? id = some c → Counted c.statistics c.producerDepths c.queues
  total : s.aggregate.totalQueuedReliableBytes =
    (s.connections.entries.map fun e => e.2.statistics.queuedReliableBytes).sum
  reliableBytes : ∀ id c, s.connections.find? id = some c →
    c.statistics.queuedReliableBytes ≤ c.limits.maximumQueuedReliableBytes
  totalReliableBytes : s.aggregate.totalQueuedReliableBytes ≤ s.maximumTotalQueuedReliableBytes.toNat
  unreliableBytes : ∀ id c, s.connections.find? id = some c →
    c.statistics.queuedUnreliableBytes ≤ c.limits.maximumSendBytesPerTick
  unreliableMessages : ∀ id c, s.connections.find? id = some c →
    c.statistics.queuedUnreliableMessages ≤ c.limits.maximumMessagesPerTick
  statistics : ∀ id c, s.connections.find? id = some c → c.statistics.isValidFor c.limits = true
  noUnderflow : s.aggregate.underflowed = false

theorem Kept.isValidFor (k : Kept c) : c.statistics.isValidFor c.limits := by
  obtain ⟨_,_,queuedBytes,_,tickMessages⟩ := limits_bounds k.limits
  obtain ⟨small,_,_⟩ := k.small
  have fits : ∀ {count bytes : QueuedMessage → Nat}, (∀ i, ∀ m ∈ c.queues i, count m ≤ bytes m) →
      messageCountFitsQueuedBytes (held count c.queues) (held bytes c.queues) = true := by
    intro count bytes le
    simp only [messageCountFitsQueuedBytes,minimumQueuedMessageBytes,Nat.div_one,decide_eq_true_eq]
    exact held_le le
  have reliable : messageCountFitsQueuedBytes (held QueuedMessage.reliableCount c.queues)
      (held QueuedMessage.reliableBytes c.queues) = true := fits fun i m member => by
    have size := (valid_size (k.valid i m member)).1
    simp only [QueuedMessage.reliableCount,QueuedMessage.reliableBytes]
    split_ifs <;> omega
  have unreliable : messageCountFitsQueuedBytes (held QueuedMessage.unreliableCount c.queues)
      (held QueuedMessage.unreliableBytes c.queues) = true := fits fun i m member => by
    have size := (valid_size (k.valid i m member)).1
    simp only [QueuedMessage.unreliableCount,QueuedMessage.unreliableBytes]
    split_ifs <;> omega
  rw [← k.counted.reliableMessages,← k.counted.reliableBytes] at reliable
  rw [← k.counted.unreliableMessages,← k.counted.unreliableBytes] at unreliable
  have both : c.statistics.queuedMessages =
      c.statistics.queuedReliableMessages + c.statistics.queuedUnreliableMessages := by
    rw [k.counted.messages,k.counted.reliableMessages,k.counted.unreliableMessages,← held_add]
    refine held_congr fun i m _ => ?_
    simp only [QueuedMessage.reliableCount,QueuedMessage.unreliableCount]
    split_ifs <;> rfl
  have submitted := k.submitted
  simp only [SchedulerStatistics.isValidFor,Bool.and_eq_true,decide_eq_true_eq]
  exact ⟨⟨⟨⟨⟨⟨⟨⟨⟨k.limits,k.reliableBytes⟩,k.unreliableBytes⟩,k.unreliableMessages⟩,reliable⟩,unreliable⟩,
    by omega⟩,both⟩,by omega⟩,k.exhausted⟩

theorem Sound.accounted (sound : Sound s) : Accounted s where
  counted id c found := (sound.kept id c found).counted
  total := sound.total
  reliableBytes id c found := (sound.kept id c found).reliableBytes
  totalReliableBytes := sound.within
  unreliableBytes id c found := (sound.kept id c found).unreliableBytes
  unreliableMessages id c found := (sound.kept id c found).unreliableMessages
  statistics id c found := (sound.kept id c found).isValidFor
  noUnderflow := sound.underflowed

variable {maximumTotal : UInt64}

theorem sound_create (created : create maximumTotal = some s) : Sound s := by
  simp only [create] at created
  split_ifs at created
  cases created
  refine ⟨?_,rfl,zero_le _,rfl⟩
  intro id c found
  cases found

theorem sound_run (created : create maximumTotal = some s) {transport : τ}
    {events : List (Event τ)} {x : System τ} (reached : run (step send) ⟨s,transport⟩ events = some x)
    (spares : RunMeets (step send) Spares ⟨s,transport⟩ events) : Sound x.scheduler :=
  run_preserves_where
    (fun _ _ _ spares sound stepped => sound_step send spares sound stepped) (sound_create created) spares reached

/-- In every run in which no sequenced message is to replace a reliable one, the accounts are right. -/
theorem accounted_run {maximumTotal : UInt64} {s : Scheduler} (created : create maximumTotal = some s) {transport : τ}
    {events : List (Event τ)} {x : System τ} (reached : run (step send) ⟨s, transport⟩ events = some x)
    (spares : RunMeets (step send) Spares ⟨s, transport⟩ events) : Accounted x.scheduler :=
  (sound_run send created reached spares).accounted

end

def firstConnection : ConnectionId := ⟨1,1⟩

/-- A transport that takes everything. -/
def sendAlways (_ : Unit) (_ : QueuedMessage) : TransportOperationResult × Unit := ({ status := .succeeded },())

def stateIntent (delivery : DeliveryMode) (sequence : UInt64) : NetworkMessageIntent :=
  { destination := firstConnection, delivery, traffic := .realtimeState, order := .realtimeState ⟨1⟩ ⟨sequence⟩
    payload := [7] }

/-- One connection gets two states in a row; the second submission replaces the first. -/
def stateRun (first : DeliveryMode) : List (Event Unit) :=
  [.register firstConnection .nativeCeilings,.submit (stateIntent first 1) 0 .other,
    .submit (stateIntent .unreliableSequenced 2) 0 .other]

def newScheduler : Scheduler := { maximumTotalQueuedReliableBytes := 1024 }

theorem accounted_stateRun : ∃ x, run (step sendAlways) ⟨newScheduler, ()⟩ (stateRun .unreliableSequenced) = some x ∧
    Accounted x.scheduler := by
  have created : create 1024 = some newScheduler := rfl
  have spares : RunMeets (step sendAlways) Spares ⟨newScheduler,()⟩ (stateRun .unreliableSequenced) := by decide +kernel
  have ran : (run (step sendAlways) ⟨newScheduler,()⟩ (stateRun .unreliableSequenced)).isSome = true := by
    decide +kernel
  obtain ⟨x,reached⟩ := Option.isSome_iff_exists.mp ran
  exact ⟨x,reached,accounted_run sendAlways created reached spares⟩

def reliableBytesOf (x : System Unit) : Option (Nat × Nat) × Bool :=
  ((x.scheduler.connections.find? firstConnection).map fun c =>
    (c.statistics.queuedReliableBytes,held QueuedMessage.reliableBytes c.queues),x.scheduler.aggregate.underflowed)

/-- A sequenced state replaces a reliable one: the connection still counts the reliable byte it no longer
    holds, and the unreliable counters went below zero. -/
theorem supersession_miscounts : create 1024 = some newScheduler ∧ ∃ x c, run (step sendAlways) ⟨newScheduler, ()⟩ (stateRun .reliableOrdered) = some x ∧
    x.scheduler.connections.find? firstConnection = some c ∧
    c.statistics.queuedReliableBytes ≠ held QueuedMessage.reliableBytes c.queues ∧
    x.scheduler.aggregate.underflowed = true := by
  have ran : (run (step sendAlways) ⟨newScheduler,()⟩ (stateRun .reliableOrdered)).map reliableBytesOf =
      some (some (1,0),true) := by decide +kernel
  obtain ⟨x,reached,same⟩ := Option.map_eq_some_iff.mp ran
  obtain ⟨bytes,underflowed⟩ := Prod.mk.inj same
  obtain ⟨c,found,counts⟩ := Option.map_eq_some_iff.mp bytes
  obtain ⟨counted,kept⟩ := Prod.mk.inj counts
  exact ⟨rfl,x,c,reached,found,by rw [counted,kept]; decide,underflowed⟩

end Gargantuan.NetworkScheduler
