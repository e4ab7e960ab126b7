import Gargantuan.SchedulerAccounts
import Gargantuan.SessionSendAllowance

/-!
What an allowance takes from the scheduler on trust: the answer of a flush is valid for the budget it was
asked with, and a queue that is called drained is empty.
-/
namespace Gargantuan.NetworkScheduler
open RemoteManager List

section
variable {τ : Type} {send : τ → QueuedMessage → TransportOperationResult × τ} {budget : SchedulerTickBudget}
  {f : Flushing τ}

/-- The answer of a flush that goes on. -/
structure Underway (budget : SchedulerTickBudget) (r : SchedulerFlushResult) : Prop where
  status : r.status = .drained
  terminal : r.terminalDisconnect = none
  messages : r.messagesSubmitted ≤ budget.maximumMessages
  bytes : r.bytesSubmitted ≤ budget.maximumBytes

theorem Underway.isValidFor {r : SchedulerFlushResult} (going : Underway budget r) : r.isValidFor budget = true := by
  have few := going.messages
  have small := going.bytes
  rw [SchedulerFlushResult.isValidFor,if_neg (by omega),going.status]
  exact Option.isNone_iff_eq_none.mpr going.terminal

theorem terminalDisconnectIsValid_submissionRejected : terminalDisconnectIsValid submissionRejected = true := by
  decide +kernel

theorem flushTurn_answers (sends : ∀ t m, ∀ info ∈ (send t m).1.terminalDisconnect, terminalDisconnectIsValid info)
    (going : Underway budget f.result) :
    (flushTurn send budget f).1.result.isValidFor budget = true ∧
      ((flushTurn send budget f).2 = true → Underway budget (flushTurn send budget f).1.result) := by
  obtain ⟨status,terminal,few,small⟩ := going
  have fits : ¬(f.result.messagesSubmitted > budget.maximumMessages ∨ f.result.bytesSubmitted > budget.maximumBytes) := by
    omega
  have idle : f.result.isValidFor budget = true := Underway.isValidFor ⟨status,terminal,few,small⟩
  simp only [flushTurn]
  split_ifs
  · exact ⟨idle,by simp⟩
  split
  · exact ⟨idle,by simp⟩
  split
  · exact ⟨idle,by simp⟩
  next message rest front =>
  split
  · exact ⟨by simp [SchedulerFlushResult.isValidFor,fits,terminal],by simp⟩
  next limited =>
  split
  · exact ⟨by simp [SchedulerFlushResult.isValidFor,fits,terminal],by simp⟩
  split
  · refine ⟨?_,by simp⟩
    simp only [SchedulerFlushResult.isValidFor,if_neg fits,Option.any_some]
    cases told : (send f.transport message).1.terminalDisconnect with
    | none => exact terminalDisconnectIsValid_submissionRejected
    | some info => exact sends _ _ info told
  · simp only [Bool.or_eq_true,decide_eq_true_eq,not_or,not_lt,sizeSub_of_le small] at limited
    have onward : Underway budget { f.result with
        messagesSubmitted := f.result.messagesSubmitted + 1, bytesSubmitted := f.result.bytesSubmitted + message.size } :=
      ⟨status,terminal,Nat.lt_of_le_of_ne few limited.1,by dsimp only; omega⟩
    exact ⟨onward.isValidFor,fun _ => onward⟩

theorem flushLoop_answers (sends : ∀ t m, ∀ info ∈ (send t m).1.terminalDisconnect, terminalDisconnectIsValid info)
    (queued : Nat) (going : Underway budget f.result) :
    (flushLoop send budget queued f).result.isValidFor budget = true := by
  induction queued generalizing f with
  | zero => exact going.isValidFor
  | succ queued ih =>
    have turned := flushTurn_answers sends going
    rw [flushLoop]
    split
    · next _ onward =>
      rw [onward] at turned
      exact ih (turned.2 rfl)
    · next _ stopped =>
      rw [stopped] at turned
      exact turned.1

/-- The counts of an answer are those of the messages that were handed over. -/
def Counts (before : List Handover) (f : Flushing τ) : Prop :=
  ∃ handed, f.connection.handed = before ++ handed ∧ f.result.messagesSubmitted = handed.length ∧
    f.result.bytesSubmitted = (handed.map (·.message.size)).sum

theorem flushTurn_counts {before : List Handover} (counts : Counts before f) :
    Counts before (flushTurn send budget f).1 := by
  simp only [flushTurn]
  split_ifs
  · exact counts
  split
  · exact counts
  split
  · exact counts
  next i chosen message rest front =>
  split
  · exact counts
  split
  · exact counts
  split
  · exact counts
  · obtain ⟨handed,all,messages,bytes⟩ := counts
    refine ⟨handed ++ [⟨message,(f.connection.queues 0).isEmpty,!(f.connection.queues 2).isEmpty⟩],?_,?_,?_⟩
    · rw [← append_assoc,← all]
      rfl
    · rw [length_append,← messages]
      rfl
    · rw [map_append,sum_append,← bytes]
      simp

theorem flushLoop_counts {before : List Handover} (queued : Nat) (counts : Counts before f) :
    Counts before (flushLoop send budget queued f) := by
  induction queued generalizing f with
  | zero => exact counts
  | succ queued ih =>
    have turned : Counts before (flushTurn send budget f).1 := flushTurn_counts counts
    rw [flushLoop]
    split
    · next _ onward =>
      rw [onward] at turned
      exact ih turned
    · next _ stopped => rwa [stopped] at turned

theorem Kept.empty {c : ConnectionQueue} (kept : Kept c) (none : c.statistics.queuedMessages = 0) (k : Fin 6) :
    c.queues k = [] := by
  rw [kept.counted.messages] at none
  exact held_eq_zero (fun _ _ _ => one_pos) none k

theorem chooseQueue_ne_nil {c : ConnectionQueue} {i : Fin 6} (chosen : chooseQueue c = some i) : c.queues i ≠ [] := by
  simp only [chooseQueue] at chosen
  split_ifs at chosen with control both many
  · cases chosen
    simpa using control
  · cases chosen
    simpa using (Bool.and_eq_true_iff.mp both).2
  · cases chosen
    simpa using (Bool.and_eq_true_iff.mp both).1
  · simpa using List.find?_some chosen

theorem flushTurn_drained (kept : Kept f.connection) :
    ((flushTurn send budget f).2 = true →
      (flushTurn send budget f).1.connection.statistics.queuedMessages + 1 = f.connection.statistics.queuedMessages) ∧
    ((flushTurn send budget f).2 = false → (flushTurn send budget f).1.result.status = .drained →
      ∀ k, (flushTurn send budget f).1.connection.queues k = []) := by
  simp only [flushTurn]
  split_ifs with none
  · exact ⟨by simp,fun _ _ => kept.empty none⟩
  split
  · next unchosen =>
    refine ⟨by simp,fun _ _ k => ?_⟩
    simp only [chooseQueue] at unchosen
    split_ifs at unchosen
    have empty := List.find?_eq_none.mp unchosen k (List.mem_finRange k)
    simpa using empty
  next i chosen =>
  split
  · next front =>
    refine ⟨by simp,fun _ _ k => ?_⟩
    exact absurd front (chooseQueue_ne_nil chosen)
  next message rest front =>
  split
  · exact ⟨by simp,by simp⟩
  split
  · exact ⟨by simp,by simp⟩
  split
  · exact ⟨by simp,by simp⟩
  · refine ⟨fun _ => ?_,by simp⟩
    change sizeSub f.connection.statistics.queuedMessages 1 + 1 = _
    rw [sizeSub_of_le (by omega)]
    omega

theorem flushLoop_drained {maximumTotal : Nat} {c : ConnectionQueue} {a : Aggregate} (shares : Shares maximumTotal c a)
    (queued : Nat) (kept : FlushKept maximumTotal budget c a f)
    (enough : f.connection.statistics.queuedMessages ≤ queued) :
    (flushLoop send budget queued f).result.status = .drained →
      ∀ k, (flushLoop send budget queued f).connection.queues k = [] := by
  induction queued generalizing f with
  | zero => exact fun _ => kept.upkeep.kept.empty (by omega)
  | succ queued ih =>
    have turned : FlushKept maximumTotal budget c a (flushTurn send budget f).1 := flushKept_turn shares kept
    have drained := @flushTurn_drained τ send budget f kept.upkeep.kept
    rw [flushLoop]
    split
    · next _ onward =>
      rw [onward] at turned drained
      exact ih turned (by have less := drained.1 rfl; dsimp only at less; omega)
    · next _ stopped =>
      rw [stopped] at drained
      exact drained.2 rfl

end

/-- The answer of a flush is valid for its budget and counts what was handed over. While no sequenced message is to
    replace a reliable one, a queue that is called drained is empty. -/
theorem flush_answers {τ : Type} {send : τ → QueuedMessage → TransportOperationResult × τ}
    (sends : ∀ t m, ∀ info ∈ (send t m).1.terminalDisconnect, terminalDisconnectIsValid info)
    {maximumTotal : UInt64} {s : Scheduler} (created : create maximumTotal = some s) {transport : τ}
    {events : List (Event τ)} {x : System τ} (reached : run (step send) ⟨s,transport⟩ events = some x)
    (id : ConnectionId) (budget : SchedulerTickBudget) :
    let r := flush send budget x.scheduler x.transport id
    r.1.isValidFor budget = true ∧
    (∀ c, x.scheduler.connections.find? id = some c → ∃ d handed, r.2.1.connections.find? id = some d ∧
      d.handed = c.handed ++ handed ∧ r.1.messagesSubmitted = handed.length ∧
      r.1.bytesSubmitted = (handed.map (·.message.size)).sum) ∧
    (RunMeets (step send) Spares ⟨s,transport⟩ events → r.1.status = .drained →
      ∀ d, r.2.1.connections.find? id = some d → ∀ k, d.queues k = []) := by
  simp only [flush]
  cases found : x.scheduler.connections.find? id with
  | none => exact ⟨by simp [SchedulerFlushResult.isValidFor],by simp,by simp⟩
  | some c =>
    have untouched : ∀ d, some c = some d → ∃ e handed, x.scheduler.connections.find? id = some e ∧
        e.handed = d.handed ++ handed ∧ 0 = handed.length ∧ 0 = (handed.map (·.message.size)).sum := by
      rintro d ⟨⟩
      exact ⟨c,[],found,(append_nil _).symm,rfl,rfl⟩
    simp only
    split_ifs with inactive invalid
    · exact ⟨by simp [SchedulerFlushResult.isValidFor],untouched,by simp⟩
    · exact ⟨by simp [SchedulerFlushResult.isValidFor],untouched,by simp⟩
    · refine ⟨flushLoop_answers sends _ ⟨rfl,rfl,Nat.zero_le _,Nat.zero_le _⟩,?_,?_⟩
      · rintro d ⟨⟩
        have counts : Counts c.handed (flushLoop send budget c.statistics.queuedMessages
            ⟨c,x.scheduler.aggregate,x.transport,{ status := .drained }⟩) :=
          flushLoop_counts _ ⟨[],(append_nil _).symm,rfl,rfl⟩
        obtain ⟨handed,all,messages,bytes⟩ := counts
        exact ⟨_,handed,SortedMap.find?_insert_self ..,all,messages,bytes⟩
      · intro spares drained d there
        rw [SortedMap.find?_insert_self] at there
        cases there
        have sound := sound_run send created reached spares
        have start : Upkeep x.scheduler.maximumTotalQueuedReliableBytes.toNat c x.scheduler.aggregate c x.scheduler.aggregate :=
          ⟨sound.kept id c found,rfl,rfl,sound.within,rfl⟩
        exact flushLoop_drained (sound.shares found) _ ⟨start,Nat.zero_le _⟩ le_rfl drained

theorem flush_answers_stateRun : ∃ x, run (step sendAlways) ⟨newScheduler,()⟩ (stateRun .unreliableSequenced) = some x ∧
    (flush sendAlways ⟨8388608,1⟩ x.scheduler x.transport firstConnection).1.isValidFor ⟨8388608,1⟩ = true := by
  obtain ⟨x,reached⟩ := Option.isSome_iff_exists.mp
    (show (run (step sendAlways) ⟨newScheduler,()⟩ (stateRun .unreliableSequenced)).isSome by rfl)
  have created : create 1024 = some newScheduler := rfl
  exact ⟨x,reached,(flush_answers (fun _ _ _ told => by cases told) created reached firstConnection ⟨8388608,1⟩).1⟩

end Gargantuan.NetworkScheduler
