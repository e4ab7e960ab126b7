import Gargantuan.Runs
import Gargantuan.SortedMap
import Mathlib.Data.Prod.Lex

/-!
The checks of the entitlement service: its cache, its bound of requests in flight, its metrics and the provider
that is replaced or stopped while checks are under way.

Each event is one section of the mutex of the provider, or what a thread does between two of them. A section
reads the clocks once; both are on one time line, in milliseconds. Latencies, the names and the health of providers,
and allocation failures are left out.
-/
namespace Gargantuan

namespace EntitlementService

def maximumBatchSize : Nat := 32
def maximumInFlightRequests : Nat := 256
def maximumCacheEntries : Nat := 1024
def defaultDeadline : Nat := 5000
def semanticCacheLifetime : Nat := 5000
def maximumNumber : Nat := 2 ^ 64 - 1

inductive EntitlementStatus where
  | granted | denied | unavailable
deriving DecidableEq

inductive EntitlementProviderErrorCode where
  | cancelled | deadlineExceeded | unavailable | internal
deriving DecidableEq

structure EntitlementProviderMetrics where
  semanticChecks : Nat := 0
  providerCalls : Nat := 0
  granted : Nat := 0
  denied : Nat := 0
  unavailable : Nat := 0
  timeouts : Nat := 0
  cacheHits : Nat := 0
  cacheMisses : Nat := 0
  replacementAttempts : Nat := 0
  replacementCommits : Nat := 0
  replacementFailures : Nat := 0
  inFlightRequests : Nat := 0
deriving DecidableEq

structure Dispatch where
  generation : Nat
  deadline : Nat
deriving DecidableEq

/-- How a call came back: with its results, or with what `BeginCheck` returns, or with an error. -/
inductive Returned where
  | results | begun (value : Bool) | raised (message : String)
deriving DecidableEq

/-- A `ConfigureProvider` that holds the replacement mutex: its provider is being started, or it is to cancel
a generation that it has replaced. -/
inductive Configuring where
  | starting | cancelling (generation : Nat)
deriving DecidableEq

/-- What is said of the identities of players: why one is invalid, and the one that stands for none. -/
structure Identities (ι : Type) where
  invalid : ι → Option String
  unavailable : ι

variable {ι ε : Type}

structure EntitlementDecision (ι ε : Type) where
  status : EntitlementStatus
  entitlement : ε
  identity : ι
  expiresAt : Option Nat
deriving DecidableEq

structure CacheEntry (ι ε : Type) where
  decision : EntitlementDecision ι ε
  expiresAt : Nat
  sequence : Nat

abbrev CacheKey (ι ε : Type) := ι ×ₗ ε ×ₗ Nat

def cacheKey (identity : ι) (entitlement : ε) (generation : Nat) : CacheKey ι ε :=
  toLex (identity,toLex (entitlement,generation))

/-- `EntitlementService::State`, what the mutex of the provider guards. -/
structure State (ι ε : Type) [LinearOrder ι] [LinearOrder ε] where
  providerGeneration : Nat := 1
  outstandingRequests : Nat := 0
  stopping : Bool := false
  cache : SortedMap (CacheKey ι ε) (CacheEntry ι ε) := ∅
  nextCacheSequence : Nat := 1
  metrics : EntitlementProviderMetrics := {}

structure PlayerState (ι : Type) where
  destroyed : Bool := false
  destroying : Bool := false
  isForeign : Bool := false
  identity : Option ι := none

structure Call (ι ε : Type) where
  isBegin : Bool
  isMany : Bool
  player : PlayerState ι
  entitlements : List ε
  token : Nat

/-- A check that got as far as its first section. -/
structure Request (ι ε : Type) where
  isBegin : Bool
  isMany : Bool
  identity : ι
  entitlements : List ε
  token : Nat

/-- Where a check stands: it found no cached decision; it got no dispatch; it has one; a worker has it; the provider
is asked, unless it was cancelled or late before; the queue refused it and its dispatch is released; its decisions are
to be handed on, with what `BeginCheck` returns and whether its completion can still be called; it is done. -/
inductive Phase (ι ε : Type) where
  | missed | refused
  | reserved (dispatch : Dispatch)
  | queued (dispatch : Dispatch)
  | executing (dispatch : Dispatch) (called : Bool)
  | released
  | completing (decisions : List (EntitlementDecision ι ε)) (value callable : Bool)
  | done (decisions : List (EntitlementDecision ι ε))

/-- A check with the number of times its completion was called, and how it returned. -/
structure Activity (ι ε : Type) where
  request : Request ι ε
  phase : Phase ι ε
  invocations : Nat := 0
  returned : Option Returned := none

end EntitlementService

open EntitlementService in
structure EntitlementService (ι ε : Type) [LinearOrder ι] [LinearOrder ε] where
  runtime : State ι ε := {}
  activities : List (Activity ι ε) := []
  /-- The cancellation tokens of callers that are cancelled, and the generations whose token is. -/
  cancelled : List Nat := []
  cancelledProviders : List Nat := []
  configuring : Option Configuring := none
  /-- The generation that a shutdown is to cancel. -/
  shuttingDown : Option Nat := none

namespace EntitlementService

def addSaturated (value : Nat) (amount : Nat) : Nat :=
  if amount > maximumNumber - value then maximumNumber else value + amount

def recordIn (metrics : EntitlementProviderMetrics) : EntitlementStatus → EntitlementProviderMetrics
  | .granted => { metrics with granted := addSaturated metrics.granted 1 }
  | .denied => { metrics with denied := addSaturated metrics.denied 1 }
  | .unavailable => { metrics with unavailable := addSaturated metrics.unavailable 1 }

variable {ι ε : Type}

def unavailable (identity : ι) (entitlement : ε) : EntitlementDecision ι ε :=
  ⟨.unavailable,entitlement,identity,none⟩

def unavailableMany (identity : ι) (entitlements : List ε) : List (EntitlementDecision ι ε) :=
  entitlements.map (unavailable identity)

def requirePlayerIdentity (identities : Identities ι) (player : PlayerState ι) : Except String (ι × Bool) :=
  if player.destroyed || player.destroying then .error "Entitlement check requires a live Player"
  else if player.isForeign then .error "Entitlement check Player belongs to another DataModel"
  else match player.identity with
    | none => .ok (identities.unavailable,false)
    | some identity =>
      match identities.invalid identity with
      | some message => .error message
      | none => .ok (identity,true)

variable [LinearOrder ι] [LinearOrder ε]

def validDecision (identities : Identities ι) (decision : EntitlementDecision ι ε) (identity : ι) (entitlement : ε) :
    Bool :=
  if decision.identity ≠ identity ∨ decision.entitlement ≠ entitlement then false
  else if decision.status = .unavailable ∧ decision.expiresAt.isSome then false
  else (identities.invalid decision.identity).isNone

namespace State

def recordDecision (s : State ι ε) (status : EntitlementStatus) : State ι ε :=
  { s with metrics := recordIn s.metrics status }

def recordDecisions (s : State ι ε) (statuses : List EntitlementStatus) : State ι ε :=
  statuses.foldl recordDecision s

def countChecks (s : State ι ε) (count : Nat) : State ι ε :=
  { s with metrics := { s.metrics with semanticChecks := addSaturated s.metrics.semanticChecks count } }

def recordUnavailableChecks (s : State ι ε) (count : Nat) : State ι ε :=
  (s.countChecks count).recordDecisions (List.replicate count .unavailable)

def oldestOf (first : CacheKey ι ε × CacheEntry ι ε) (rest : List (CacheKey ι ε × CacheEntry ι ε)) :
    CacheKey ι ε × CacheEntry ι ε :=
  rest.foldl (fun oldest entry => if entry.2.sequence < oldest.2.sequence then entry else oldest) first

def evictOldestCacheEntry (s : State ι ε) : State ι ε :=
  if s.cache.size < maximumCacheEntries then s
  else match s.cache.entries with
    | [] => s
    | first :: rest => { s with cache := s.cache.erase (oldestOf first rest).1 }

/-- Until when a decision is cached, if it is. -/
def cacheExpiry (now : Nat) (decision : EntitlementDecision ι ε) : Option Nat :=
  match decision.status, decision.expiresAt with
  | .unavailable, _ => none
  | .granted, some expiresAt =>
    if expiresAt ≤ now then none else some (min (now + semanticCacheLifetime) (now + (expiresAt - now)))
  | _, _ => some (now + semanticCacheLifetime)

def cacheDecision (s : State ι ε) (now : Nat) (identity : ι) (decision : EntitlementDecision ι ε) (generation : Nat) :
    State ι ε :=
  match cacheExpiry now decision with
  | none => s
  | some expiresAt =>
    let key := cacheKey identity decision.entitlement generation
    let s := if s.cache.contains key then s else s.evictOldestCacheEntry
    let s := if s.nextCacheSequence = maximumNumber then { s with cache := ∅, nextCacheSequence := 1 } else s
    { s with
      cache := s.cache.insert key ⟨decision,expiresAt,s.nextCacheSequence⟩
      nextCacheSequence := s.nextCacheSequence + 1 }

def findCachedDecision (s : State ι ε) (now : Nat) (identity : ι) (entitlement : ε) :
    Option (EntitlementDecision ι ε) × State ι ε :=
  let key := cacheKey identity entitlement s.providerGeneration
  match s.cache.find? key with
  | none => (none,s)
  | some entry => if entry.expiresAt ≤ now then (none,{ s with cache := s.cache.erase key }) else
      (some entry.decision,s)

def findCachedDecisions (s : State ι ε) (now : Nat) (identity : ι) :
    List ε → Option (List (EntitlementDecision ι ε)) × State ι ε
  | [] => (some [],s)
  | entitlement :: rest =>
    let (decision,s) := s.findCachedDecision now identity entitlement
    let (decisions,s) := s.findCachedDecisions now identity rest
    (decision.bind fun decision => decisions.map (decision :: ·),s)

/-- The first section of a check. -/
def lookUp (s : State ι ε) (now : Nat) (identity : ι) (entitlements : List ε) :
    Option (List (EntitlementDecision ι ε)) × State ι ε :=
  match (s.countChecks entitlements.length).findCachedDecisions now identity entitlements with
  | (some decisions,s) =>
    let hit : State ι ε := { s with metrics := { s.metrics with
      cacheHits := addSaturated s.metrics.cacheHits entitlements.length } }
    (some decisions,hit.recordDecisions (decisions.map (·.status)))
  | (none,s) =>
    (none,{ s with metrics := { s.metrics with
      cacheMisses := addSaturated s.metrics.cacheMisses entitlements.length } })

def setOutstanding (s : State ι ε) (count : Nat) : State ι ε :=
  { s with outstandingRequests := count, metrics := { s.metrics with inFlightRequests := count } }

def reserveDispatch (s : State ι ε) (now semanticChecks : Nat) : Option Dispatch × State ι ε :=
  let s := s.countChecks semanticChecks
  if s.stopping ∨ s.outstandingRequests ≥ maximumInFlightRequests then (none,s)
  else (some ⟨s.providerGeneration,now + defaultDeadline⟩,s.setOutstanding (s.outstandingRequests + 1))

def releaseDispatch (s : State ι ε) : State ι ε := s.setOutstanding (s.outstandingRequests - 1)

def countTimeout (s : State ι ε) (late : Bool) : State ι ε :=
  { s with metrics := { s.metrics with
    timeouts := if late then addSaturated s.metrics.timeouts 1 else s.metrics.timeouts } }

/-- Caches and records what a provider has answered. -/
def takeDecision (s : State ι ε) (now : Nat) (identity : ι) (generation : Nat) (decision : EntitlementDecision ι ε) :
    State ι ε :=
  (s.cacheDecision now identity decision generation).recordDecision decision.status

end State

variable (identities : Identities ι)

def isCancelled (s : EntitlementService ι ε) (token generation : Nat) : Bool :=
  s.cancelled.contains token || s.cancelledProviders.contains generation

def Dispatch.isExpired (dispatch : Dispatch) (now : Nat) : Bool := decide (dispatch.deadline ≤ now)

/-- Whether what a provider has answered stands. -/
def isValid (s : EntitlementService ι ε) (now : Nat) (request : Request ι ε) (dispatch : Dispatch)
    (decisions : List (EntitlementDecision ι ε)) : Bool :=
  !s.isCancelled request.token dispatch.generation && !dispatch.isExpired now && !s.runtime.stopping &&
    s.runtime.providerGeneration == dispatch.generation && decisions.length == request.entitlements.length &&
    (decisions.zip request.entitlements).all fun (decision,entitlement) =>
      validDecision identities decision request.identity entitlement

def standing (s : EntitlementService ι ε) (now : Nat) (request : Request ι ε) (dispatch : Dispatch)
    (answer : Except EntitlementProviderErrorCode (List (EntitlementDecision ι ε))) :
    Option (List (EntitlementDecision ι ε)) :=
  match answer with
  | .ok decisions => if s.isValid identities now request dispatch decisions then some decisions else none
  | .error _ => none

def isLate : Except EntitlementProviderErrorCode (List (EntitlementDecision ι ε)) → Bool
  | .error .deadlineExceeded => true
  | _ => false

/-- The last section of `ExecuteSingle` and `ExecuteMany`. -/
def execute (s : EntitlementService ι ε) (now : Nat) (request : Request ι ε) (dispatch : Dispatch)
    (answer : Except EntitlementProviderErrorCode (List (EntitlementDecision ι ε))) :
    List (EntitlementDecision ι ε) × State ι ε :=
  let runtime := s.runtime.releaseDispatch
  match s.standing identities now request dispatch answer with
  | some decisions =>
    (decisions,decisions.foldl (fun runtime decision =>
      runtime.takeDecision now request.identity dispatch.generation decision) runtime)
  | none =>
    (unavailableMany request.identity request.entitlements,
      (runtime.countTimeout (dispatch.isExpired now || isLate answer)).recordDecisions
        (List.replicate request.entitlements.length .unavailable))

inductive Event (ι ε : Type) where
  | call (call : Call ι ε) (now : Nat)
  | reserve (index now : Nat)
  | record (index : Nat)
  | submit (index : Nat) (accepted : Bool)
  | ask (index now : Nat)
  | answer (index now : Nat) (answer : Except EntitlementProviderErrorCode (List (EntitlementDecision ι ε)))
  | complete (index : Nat) (throws : Bool)
  | cancel (token : Nat)
  | configure
  | commit (ready : Bool)
  | cancelReplaced
  | shutdown
  | cancelStopped

/-- The checks of the arguments, and the first section of a call. -/
def begin (s : EntitlementService ι ε) (call : Call ι ε) (now : Nat) : EntitlementService ι ε :=
  let count := call.entitlements.length
  if call.isMany ∧ (count = 0 ∨ count > maximumBatchSize) then s
  else match requirePlayerIdentity identities call.player with
    | .error _ => s
    | .ok (identity,available) =>
      let request := ⟨call.isBegin,call.isMany,identity,call.entitlements,call.token⟩
      if !available ∨ s.cancelled.contains call.token then
        { s with
          runtime := s.runtime.recordUnavailableChecks count
          activities := s.activities ++ [⟨request,.completing (unavailableMany identity call.entitlements) true true,
              0,none⟩] }
      else match s.runtime.lookUp now identity call.entitlements with
        | (some decisions,runtime) =>
          { s with runtime, activities := s.activities ++ [⟨request,.completing decisions true true,0,none⟩] }
        | (none,runtime) => { s with runtime, activities := s.activities ++ [⟨request,.missed,0,none⟩] }

/-- What a check does next, of those of its steps that are sections or between them. -/
def advance (s : EntitlementService ι ε) (activity : Activity ι ε) : Event ι ε → Option (State ι ε × Activity ι ε)
  | .reserve _ now =>
    match activity.phase with
    | .missed =>
      match s.runtime.reserveDispatch now 0 with
      | (some dispatch,runtime) => some (runtime,{ activity with phase := .reserved dispatch })
      | (none,runtime) => some (runtime,{ activity with phase := .refused })
    | _ => none
  | .record _ =>
    let request := activity.request
    let recorded := s.runtime.recordDecisions (List.replicate request.entitlements.length .unavailable)
    let fallback := unavailableMany request.identity request.entitlements
    match activity.phase with
    | .refused => some (recorded,{ activity with phase := .completing fallback false true })
    | .released => some (recorded,{ activity with phase := .completing fallback false false })
    | _ => none
  | .submit _ accepted =>
    match activity.phase with
    | .reserved dispatch =>
      if !activity.request.isBegin then none
      else if accepted then
        some (s.runtime,{ activity with phase := .queued dispatch, returned := some (.begun true) })
      else some (s.runtime.releaseDispatch,{ activity with phase := .released })
    | _ => none
  | .ask _ now =>
    let asked (dispatch : Dispatch) : State ι ε × Activity ι ε :=
      if s.isCancelled activity.request.token dispatch.generation || dispatch.isExpired now then
        (s.runtime,{ activity with phase := .executing dispatch false })
      else
        ({ s.runtime with metrics := { s.runtime.metrics with
            providerCalls := addSaturated s.runtime.metrics.providerCalls 1 } },
          { activity with phase := .executing dispatch true })
    match activity.phase with
    | .reserved dispatch => if activity.request.isBegin then none else some (asked dispatch)
    | .queued dispatch => some (asked dispatch)
    | _ => none
  | .answer _ now answer =>
    match activity.phase with
    | .executing dispatch called =>
      -- What a single check is answered is one decision.
      if !activity.request.isMany ∧ answer.toOption.any (·.length != 1) then none
      else
        let (decisions,runtime) :=
          s.execute identities now activity.request dispatch (if called then answer else .error .unavailable)
        some (runtime,{ activity with phase := .completing decisions true true })
    | _ => none
  | .complete _ throws =>
    match activity.phase with
    | .completing decisions value callable =>
      let finished := { activity with phase := .done decisions }
      if !activity.request.isBegin then some (s.runtime,{ finished with returned := some .results })
      else if !callable then some (s.runtime,{ finished with returned := some (.raised "bad_function_call") })
      else
        -- A worker calls it after `BeginCheck` has returned.
        let returned := activity.returned.getD (if throws then .raised "completion" else .begun value)
        some (s.runtime,{ finished with invocations := activity.invocations + 1, returned := some returned })
    | _ => none
  | _ => none

/-- The steps of the check at a place. -/
def advanceAt (s : EntitlementService ι ε) (index : Nat) (event : Event ι ε) : Option (EntitlementService ι ε) := do
  let activity ← s.activities[index]?
  let (runtime,activity) ← s.advance identities activity event
  return { s with runtime, activities := s.activities.set index activity }

def commitProvider (s : EntitlementService ι ε) (ready : Bool) : EntitlementService ι ε :=
  let runtime := s.runtime
  let failed := { runtime with metrics := { runtime.metrics with
    replacementFailures := addSaturated runtime.metrics.replacementFailures 1 } }
  if !ready ∨ runtime.stopping ∨ runtime.providerGeneration = maximumNumber then
    { s with runtime := failed, configuring := none }
  else
    { s with
      runtime := { runtime with
        providerGeneration := runtime.providerGeneration + 1
        cache := ∅
        metrics := { runtime.metrics with replacementCommits := addSaturated runtime.metrics.replacementCommits 1 } }
      configuring := some (.cancelling runtime.providerGeneration) }

def configureProvider (s : EntitlementService ι ε) : EntitlementService ι ε :=
  let attempted := { s.runtime.metrics with
    replacementAttempts := addSaturated s.runtime.metrics.replacementAttempts 1 }
  if s.runtime.stopping then
    { s with runtime := { s.runtime with metrics := { attempted with
      replacementFailures := addSaturated attempted.replacementFailures 1 } } }
  else { s with runtime := { s.runtime with metrics := attempted }, configuring := some .starting }

def shutdownProviderRuntime (s : EntitlementService ι ε) : EntitlementService ι ε :=
  if s.runtime.stopping then s
  else
    { s with
      runtime := { s.runtime with stopping := true, cache := ∅ }
      shuttingDown := some s.runtime.providerGeneration }

def step (s : EntitlementService ι ε) (event : Event ι ε) : Option (EntitlementService ι ε) :=
  match event with
  | .call call now =>
    if !call.isMany ∧ call.entitlements.length ≠ 1 then none else some (s.begin identities call now)
  | .reserve index _ | .record index | .submit index _ | .ask index _ | .answer index _ _ | .complete index _ =>
    s.advanceAt identities index event
  | .cancel token => some { s with cancelled := token :: s.cancelled }
  -- One replacement at a time, and no shutdown meanwhile.
  | .configure => if s.configuring.isNone then some s.configureProvider else none
  | .commit ready => if s.configuring = some .starting then some (s.commitProvider ready) else none
  | .cancelReplaced =>
    match s.configuring with
    | some (.cancelling generation) =>
      some { s with cancelledProviders := generation :: s.cancelledProviders, configuring := none }
    | _ => none
  | .shutdown => if s.configuring.isNone then some s.shutdownProviderRuntime else none
  | .cancelStopped => s.shuttingDown.map fun generation =>
      { s with cancelledProviders := generation :: s.cancelledProviders, shuttingDown := none }

end EntitlementService
end Gargantuan
