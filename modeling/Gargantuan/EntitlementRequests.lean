import Gargantuan.Runs
import Gargantuan.SortedMap

/-!
The requests that Luau coroutines make of the entitlement service. A call registers a request, begins
a check and yields; the completion of the check is queued, and a pump resumes the coroutine.

The functions of the Luau side run on the thread of the virtual machine, completions come from any
thread. What a check finds (the player, the cache, room for a dispatch, the worker queue) is given
with the call. The decisions, the security contexts and allocation failures are left out.
-/
namespace Gargantuan

namespace EntitlementRequests

def maximumInFlightRequests : Nat := 256
def maximumBatchSize : Nat := 32
def maximumNumber : Nat := 2 ^ 64 - 1

structure PendingLuaRequest where
  id : Nat
  thread : Nat
  main : Nat
  reference : Nat
  generation : Nat
deriving DecidableEq

structure LuaCompletion where
  id : Nat
  generation : Nat
deriving DecidableEq

/-- What a check finds of a player. -/
structure PlayerState where
  destroyed : Bool := false
  destroying : Bool := false
  isForeign : Bool := false
  /-- Whether it has an authentication identity, and why that is invalid. -/
  identity : Option (Option String) := some none

/-- A call of `CheckAsync`, or of `CheckManyAsync` with a number of entitlements. -/
structure Call where
  /-- The coroutine, or the main thread itself. -/
  thread : Nat
  main : Nat
  many : Option Nat := none
  /-- Why the arguments cannot be read. -/
  malformed : Option String := none
  player : PlayerState := {}
  /-- What the check finds: a cached decision, room for a dispatch, a queue that accepts it. -/
  cached : Bool := false
  reserved : Bool := true
  accepted : Bool := true
  isYieldable : Bool := true

/-- Whether a check is completed before it returns or later by a worker. -/
inductive Begun where
  | completed | submitted
deriving DecidableEq

end EntitlementRequests

open EntitlementRequests in
structure EntitlementRequests where
  attached : Bool := false
  main : Option Nat := none
  generation : Nat := 1
  nextId : Nat := 1
  pending : SortedMap Nat PendingLuaRequest := ∅
  completions : List LuaCompletion := []
  /-- The references of the virtual machines to coroutines. -/
  references : List Nat := []
  nextReference : Nat := 1
  /-- The checks that a worker has yet to complete. -/
  tasks : List LuaCompletion := []
  /-- What a pump has taken and not resumed yet, and what it resumes at the moment. -/
  ready : List PendingLuaRequest := []
  resuming : Option PendingLuaRequest := none
  /-- The coroutines that have yielded in a call, with their requests, until they are resumed or detached. -/
  waiting : List (Nat × Nat) := []
  /-- The requests whose coroutines were resumed. -/
  resumed : List Nat := []

namespace EntitlementRequests

def requirePlayerIdentity (player : PlayerState) : Except String Bool :=
  if player.destroyed || player.destroying then .error "Entitlement check requires a live Player"
  else if player.isForeign then .error "Entitlement check Player belongs to another DataModel"
  else match player.identity with
    | none => .ok false
    | some none => .ok true
    | some (some invalid) => .error invalid

/-- What `BeginCheck` and `BeginCheckMany` do with their completion. Where the queue refuses the check, the
completion was moved into it, and calling it fails. -/
def beginCheck (call : Call) : Except String Begun := do
  let available ← requirePlayerIdentity call.player
  if !available || call.cached || !call.reserved then return .completed
  if call.accepted then return .submitted
  throw "bad_function_call"

/-- The arguments of a call, as far as these are checked before anything else. -/
def readArguments (call : Call) : Except String Unit :=
  match call.malformed with
  | some message => .error message
  | none =>
    match call.many with
    | some count =>
      if count = 0 ∨ count > maximumBatchSize then .error "Entitlement batch must contain between 1 and 32 IDs"
      else .ok ()
    | none => .ok ()

/-- The request, or why there is none. A reference that was taken is released with the error. -/
def registerLuaRequest (s : EntitlementRequests) (call : Call) :
    Except String PendingLuaRequest × EntitlementRequests :=
  if call.thread = call.main then
    (.error "Entitlement async checks require a yieldable Luau coroutine",s)
  else
    let referenced := { s with references := s.nextReference :: s.references, nextReference := s.nextReference + 1 }
    let attached := if s.attached then referenced else { referenced with attached := true, main := some call.main }
    let released := { attached with references := attached.references.erase s.nextReference }
    if s.attached ∧ s.main ≠ some call.main then
      (.error "EntitlementService cannot span multiple Luau VMs",released)
    else if s.pending.size ≥ maximumInFlightRequests ∨ s.nextId = maximumNumber then
      (.error "Entitlement async request bound is exhausted",released)
    else
      let request := ⟨s.nextId,call.thread,call.main,s.nextReference,s.generation⟩
      (.ok request,{ attached with nextId := s.nextId + 1, pending := s.pending.insert s.nextId request })

def queueLuaCompletion (s : EntitlementRequests) (completion : LuaCompletion) : EntitlementRequests :=
  if !s.attached || s.generation != completion.generation || !s.pending.contains completion.id then s
  else { s with completions := s.completions ++ [completion] }

/-- The coroutine is suspended, unless a frame that cannot yield is below it. -/
def yieldCoroutine (s : EntitlementRequests) (call : Call) (request : PendingLuaRequest) :
    Except String Unit × EntitlementRequests :=
  if call.isYieldable then (.ok (),{ s with waiting := s.waiting ++ [(call.thread,request.id)] })
  else (.error "attempt to yield across metamethod/C-call boundary",s)

def checkAsync (s : EntitlementRequests) (call : Call) : Except String Unit × EntitlementRequests :=
  match readArguments call with
  | .error message => (.error message,s)
  | .ok () =>
    match s.registerLuaRequest call with
    | (.error message,s) => (.error message,s)
    | (.ok request,s) =>
      let completion := ⟨request.id,request.generation⟩
      match beginCheck call with
      | .error message => (.error message,s)
      | .ok .completed => (s.queueLuaCompletion completion).yieldCoroutine call request
      | .ok .submitted => { s with tasks := s.tasks ++ [completion] }.yieldCoroutine call request

/-- A worker completes one of the checks. -/
def completeTask (s : EntitlementRequests) (index : Nat) : Option EntitlementRequests :=
  s.tasks[index]?.map fun completion => { s with tasks := s.tasks.eraseIdx index }.queueLuaCompletion completion

def takeCompletion (s : EntitlementRequests) (completion : LuaCompletion) : EntitlementRequests :=
  if completion.generation ≠ s.generation then s
  else match s.pending.find? completion.id with
    | none => s
    | some request => { s with ready := s.ready ++ [request], pending := s.pending.erase completion.id }

/-- The first part of `PumpAsyncCompletions`. -/
def takeCompletions (s : EntitlementRequests) : EntitlementRequests :=
  { s.completions.foldl takeCompletion s with completions := [] }

def resumeFirst (s : EntitlementRequests) : Option EntitlementRequests :=
  match s.resuming, s.ready with
  | none, request :: rest => some { s with
      ready := rest
      resuming := some request
      waiting := s.waiting.filter (·.2 != request.id)
      resumed := s.resumed ++ [request.id] }
  | _, _ => none

def releaseResumed (s : EntitlementRequests) : Option EntitlementRequests :=
  s.resuming.map fun request => { s with resuming := none, references := s.references.erase request.reference }

def isPumping (s : EntitlementRequests) : Bool := s.resuming.isSome || !s.ready.isEmpty

def detachAsyncRuntime (s : EntitlementRequests) : EntitlementRequests :=
  if !s.attached && s.pending.isEmpty then s
  else
    { s with
      attached := false
      main := none
      generation := if s.generation = maximumNumber then 1 else s.generation + 1
      completions := []
      references := s.pending.entries.foldl (fun references entry => references.erase entry.2.reference) s.references
      pending := ∅
      waiting := [] }

inductive Event where
  | call (call : Call)
  | complete (index : Nat)
  | pump | resume | release | detach

/-- A coroutine that waits makes no call. Neither a pump nor a detach begins while a pump is resuming, since
both run on the thread of the virtual machine and no coroutine can call them. -/
def step (s : EntitlementRequests) : Event → Option EntitlementRequests
  | .call call => if (s.waiting.map (·.1)).contains call.thread then none else some (s.checkAsync call).2
  | .complete index => s.completeTask index
  | .pump => if s.isPumping then none else some s.takeCompletions
  | .resume => s.resumeFirst
  | .release => s.releaseResumed
  | .detach => if s.isPumping then none else some s.detachAsyncRuntime

end EntitlementRequests
end Gargantuan
