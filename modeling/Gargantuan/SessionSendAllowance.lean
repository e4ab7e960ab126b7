import Gargantuan.Scheduler

/-!
The allowance of a session peer for one step: its flushes share the budget of a tick. A scheduler
is known here by what it answers to a budget at each flush.
-/
namespace Gargantuan.NetworkScheduler
open RemoteManager (DisconnectInfo)

def terminalDisconnectIsValid (info : DisconnectInfo) : Bool :=
  (validateProtocolString info.diagnostic 4096 "Disconnect diagnostic").isOk

def SchedulerTickBudget.fromNetworkLimits (limits : NetworkLimits) : SchedulerTickBudget :=
  if limits.isValid then ⟨limits.maximumSendBytesPerTick,limits.maximumMessagesPerTick⟩ else {}

def SchedulerFlushResult.isValidFor (r : SchedulerFlushResult) (budget : SchedulerTickBudget) : Bool :=
  if r.messagesSubmitted > budget.maximumMessages ∨ r.bytesSubmitted > budget.maximumBytes then false
  else
    match r.status with
    | .drained | .budgetLimited | .transportBackpressured => r.terminalDisconnect.isNone
    | .invalidConnection | .invalidBudget =>
      r.messagesSubmitted = 0 ∧ r.bytesSubmitted = 0 ∧ r.terminalDisconnect.isNone
    | .terminalFailure => r.terminalDisconnect.any terminalDisconnectIsValid

structure SessionSendAllowance where
  bytes : Nat := 0
  messages : Nat := 0
  stopped : Bool := false

structure SessionFlush where
  result : SchedulerFlushResult
  answer : Option SchedulerFlushResult := none

def SessionSendAllowance.flush (limits : NetworkLimits) (a : SessionSendAllowance)
    (scheduler : SchedulerTickBudget → SchedulerFlushResult) : SessionFlush × SessionSendAllowance :=
  if !limits.isValid then ({ result := { status := .invalidBudget } },a)
  else if a.stopped then ({ result := { status := .budgetLimited } },a)
  else
    let full := SchedulerTickBudget.fromNetworkLimits limits
    if a.bytes > full.maximumBytes ∨ a.messages > full.maximumMessages then
      ({ result := { status := .invalidBudget } },a)
    else
      let remaining : SchedulerTickBudget := ⟨full.maximumBytes - a.bytes,full.maximumMessages - a.messages⟩
      if !remaining.isValidFor limits then ({ result := { status := .budgetLimited } },{ a with stopped := true })
      else
        let r := scheduler remaining
        if !r.isValidFor remaining then
          ({ result := { status := .invalidBudget }, answer := some r },{ a with stopped := true })
        else
          ({ result := r, answer := some r },
            { bytes := a.bytes + r.bytesSubmitted, messages := a.messages + r.messagesSubmitted,
              stopped := r.status ≠ .drained })

def SessionSendAllowance.flushes (limits : NetworkLimits) :
    SessionSendAllowance → List (SchedulerTickBudget → SchedulerFlushResult) → List SessionFlush
  | _, [] => []
  | a, scheduler :: rest => (a.flush limits scheduler).1 :: flushes limits (a.flush limits scheduler).2 rest

def SessionFlush.bytes (f : SessionFlush) : Nat := (f.answer.map (·.bytesSubmitted)).getD 0
def SessionFlush.messages (f : SessionFlush) : Nat := (f.answer.map (·.messagesSubmitted)).getD 0

variable {limits : NetworkLimits} {a : SessionSendAllowance} {scheduler : SchedulerTickBudget → SchedulerFlushResult}

theorem flush_stopped (idle : limits.isValid = false ∨ a.stopped = true) :
    (a.flush limits scheduler).1.answer = none ∧ (a.flush limits scheduler).2 = a := by
  unfold SessionSendAllowance.flush
  split_ifs with invalid stopped
  · exact ⟨rfl,rfl⟩
  · exact ⟨rfl,rfl⟩
  · simp_all

theorem flushes_stopped (idle : limits.isValid = false ∨ a.stopped = true)
    (calls : List (SchedulerTickBudget → SchedulerFlushResult)) :
    ∀ f ∈ a.flushes limits calls, f.answer = none := by
  induction calls with
  | nil => simp [SessionSendAllowance.flushes]
  | cons scheduler rest ih =>
    obtain ⟨none,same⟩ := @flush_stopped _ _ scheduler idle
    intro f mem
    rcases List.mem_cons.mp mem with rfl | mem
    · exact none
    · rw [same] at mem
      exact ih f mem

/-- A flush counts what the scheduler submits, within the limits, and stops unless the queue was drained. -/
theorem flush_spec (bytes : a.bytes ≤ limits.maximumSendBytesPerTick)
    (messages : a.messages ≤ limits.maximumMessagesPerTick) (valid : ∀ budget, (scheduler budget).isValidFor budget) :
    let f := a.flush limits scheduler
    f.2.bytes = a.bytes + f.1.bytes ∧ f.2.bytes ≤ limits.maximumSendBytesPerTick ∧
      f.2.messages = a.messages + f.1.messages ∧ f.2.messages ≤ limits.maximumMessagesPerTick ∧
      (f.1.result.status ≠ .drained → limits.isValid = false ∨ f.2.stopped = true) := by
  unfold SessionSendAllowance.flush
  split_ifs with invalid stopped
  · simp_all [SessionFlush.bytes,SessionFlush.messages]
  · simp_all [SessionFlush.bytes,SessionFlush.messages]
  · have full : SchedulerTickBudget.fromNetworkLimits limits =
        ⟨limits.maximumSendBytesPerTick,limits.maximumMessagesPerTick⟩ := by
      rw [SchedulerTickBudget.fromNetworkLimits,if_pos (by simpa using invalid)]
    simp only [full]
    split_ifs with past small refused
    · omega
    · simp [SessionFlush.bytes,SessionFlush.messages,bytes,messages]
    · simp [valid] at refused
    · have within := valid ⟨limits.maximumSendBytesPerTick - a.bytes,limits.maximumMessagesPerTick - a.messages⟩
      unfold SchedulerFlushResult.isValidFor at within
      split_ifs at within with much
      rw [not_or,Nat.not_lt,Nat.not_lt] at much
      dsimp only at much
      refine ⟨rfl,?_,rfl,?_,fun left => .inr (by simpa using left)⟩
      · dsimp only
        omega
      · dsimp only
        omega

/-- Between two resets the flushes submit no more than a tick may, and nothing after one that left messages behind. -/
theorem flushes_within (limits : NetworkLimits) (calls : List (SchedulerTickBudget → SchedulerFlushResult))
    (valid : ∀ scheduler ∈ calls, ∀ budget, (scheduler budget).isValidFor budget) :
    let run := ({} : SessionSendAllowance).flushes limits calls
    (run.map SessionFlush.bytes).sum ≤ limits.maximumSendBytesPerTick ∧
      (run.map SessionFlush.messages).sum ≤ limits.maximumMessagesPerTick ∧
      run.Pairwise fun f later => f.result.status ≠ .drained → later.answer = none := by
  suffices within : ∀ a : SessionSendAllowance, a.bytes ≤ limits.maximumSendBytesPerTick →
      a.messages ≤ limits.maximumMessagesPerTick →
      a.bytes + ((a.flushes limits calls).map SessionFlush.bytes).sum ≤ limits.maximumSendBytesPerTick ∧
        a.messages + ((a.flushes limits calls).map SessionFlush.messages).sum ≤ limits.maximumMessagesPerTick ∧
        (a.flushes limits calls).Pairwise fun f later => f.result.status ≠ .drained → later.answer = none by
    simpa using within {} (Nat.zero_le _) (Nat.zero_le _)
  induction calls with
  | nil => exact fun a bytes messages => ⟨bytes,messages,.nil⟩
  | cons scheduler rest ih =>
    intro a bytes messages
    obtain ⟨sumBytes,fewBytes,sumMessages,fewMessages,left⟩ :=
      flush_spec bytes messages (valid scheduler List.mem_cons_self)
    obtain ⟨allBytes,allMessages,order⟩ :=
      ih (fun scheduler mem => valid scheduler (List.mem_cons_of_mem _ mem)) _ fewBytes fewMessages
    simp only [SessionSendAllowance.flushes,List.map_cons,List.sum_cons,← Nat.add_assoc,← sumBytes,← sumMessages]
    exact ⟨allBytes,allMessages,.cons (fun later mem more => flushes_stopped (left more) rest later mem) order⟩

theorem flushes_within_greedy :
    let greedy := fun budget : SchedulerTickBudget =>
      { status := .budgetLimited, messagesSubmitted := budget.maximumMessages, bytesSubmitted := budget.maximumBytes }
    let run := ({} : SessionSendAllowance).flushes ⟨1,1,1,1,1,4,1,2⟩ [greedy,greedy]
    (run.map SessionFlush.bytes).sum ≤ 4 ∧ (run.map SessionFlush.messages).sum ≤ 2 ∧
      run.Pairwise fun f later => f.result.status ≠ .drained → later.answer = none := by
  refine flushes_within _ _ fun scheduler mem budget => ?_
  obtain rfl : scheduler = _ := by simpa using mem
  simp [SchedulerFlushResult.isValidFor]

end Gargantuan.NetworkScheduler
