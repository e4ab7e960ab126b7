import Gargantuan.EntitlementServiceSections
import Mathlib.Algebra.Order.BigOperators.Group.List

/-!
Runs of the entitlement service. Every check that is under way holds at most one dispatch and is owed its decisions; a
completion is called once; and a decision is granted or cached only while its provider stands.
-/
namespace Gargantuan.EntitlementService
open List Option SortedMap Nat EntitlementService

variable {ι ε : Type}

def Phase.isDone : Phase ι ε → Bool
  | .done _ => true
  | _ => false

/-- Whether a check holds a dispatch, as a number. -/
def held (activity : Activity ι ε) : Nat :=
  match activity.phase with
  | .reserved _ | .queued _ | .executing _ _ => 1
  | _ => 0

/-- How many decisions of a check are not recorded yet. -/
def owed (activity : Activity ι ε) : Nat :=
  match activity.phase with
  | .completing _ _ _ | .done _ => 0
  | _ => activity.request.entitlements.length

def decisionsOf (activity : Activity ι ε) : List (EntitlementDecision ι ε) :=
  match activity.phase with
  | .completing decisions _ _ | .done decisions => decisions
  | _ => []

/-- How far a check is from its end. -/
def rank (activity : Activity ι ε) : Nat :=
  match activity.phase with
  | .missed => 5
  | .reserved _ => 4
  | .queued _ => 3
  | .executing _ _ | .refused | .released => 2
  | .completing _ _ _ => 1
  | .done _ => 0

/-- The completion is called at the end of a check, unless it can no longer be called or `BeginCheck` raises; and a
    worker
has the check only when `BeginCheck` has returned. -/
def Settled (activity : Activity ι ε) : Prop :=
  match activity.phase with
  | .done _ => activity.invocations ≤ 1 ∧
      ∀ value, activity.returned = some (.begun value) → activity.invocations = 1
  | .queued _ => activity.invocations = 0 ∧ activity.returned = some (.begun true) ∧ activity.request.isBegin = true
  | .executing _ _ => activity.invocations = 0 ∧
      (activity.returned = none ∨ activity.returned = some (.begun true) ∧ activity.request.isBegin = true)
  | .completing _ _ callable => activity.invocations = 0 ∧
      (activity.returned = none ∨
        activity.returned = some (.begun true) ∧ activity.request.isBegin = true ∧ callable = true)
  | _ => activity.invocations = 0 ∧ activity.returned = none

variable {index now : Nat} {a b : Activity ι ε} {event : Event ι ε}

theorem sum_set {α : Type} {l : List α} {a : α} (found : l[index]? = some a) (b : α) (f : α → Nat) :
    ((l.set index b).map f).sum + f a = (l.map f).sum + f b := by
  induction l generalizing index with
  | nil => cases found
  | cons head rest ih =>
    cases index with
    | zero =>
      cases found
      simp only [set_cons_zero,map_cons,sum_cons]
      omega
    | succ index =>
      have rest := ih found
      simp only [set_cons_succ,map_cons,sum_cons]
      omega

variable [LinearOrder ι] [LinearOrder ε] {identities : Identities ι}

structure Current (s : EntitlementService ι ε) (token : Nat) (dispatch : Dispatch) (now : Nat) : Prop where
  generation : dispatch.generation = s.runtime.providerGeneration
  running : s.runtime.stopping = false
  uncancelled : token ∉ s.cancelled
  provider : dispatch.generation ∉ s.cancelledProviders
  inTime : now < dispatch.deadline

variable {s : EntitlementService ι ε} {t : State ι ε}

variable {answer : Except EntitlementProviderErrorCode (List (EntitlementDecision ι ε))}

theorem standing_eq {request : Request ι ε} {dispatch : Dispatch} {decisions : List (EntitlementDecision ι ε)}
    (stands : s.standing identities now request dispatch answer = some decisions) :
    answer = .ok decisions ∧ Current s request.token dispatch now ∧
      decisions.length = request.entitlements.length ∧ ∀ decision ∈ decisions, decision.identity =
          request.identity := by
  rw [standing.eq_def] at stands
  cases answer with
  | error code => cases stands
  | ok answered =>
    dsimp only at stands
    split at stands
    next valid =>
      cases stands
      simp only [isValid,isCancelled,Dispatch.isExpired,Bool.and_eq_true,Bool.not_eq_true',Bool.or_eq_false_iff,
        decide_eq_false_iff_not,not_le,beq_iff_eq,contains_eq_mem] at valid
      obtain ⟨⟨⟨⟨⟨⟨uncancelled,provider⟩,inTime⟩,running⟩,generation⟩,length⟩,each⟩ := valid
      refine ⟨rfl,⟨generation.symm,running,uncancelled,provider,inTime⟩,length,fun decision inside => ?_⟩
      obtain ⟨place,there⟩ := List.mem_iff_getElem?.mp inside
      obtain ⟨below,_⟩ := List.getElem?_eq_some_iff.mp there
      obtain ⟨entitlement,asked⟩ : ∃ entitlement, request.entitlements[place]? = some entitlement :=
        ⟨_,getElem?_eq_getElem (length ▸ below)⟩
      have pair : (decision,entitlement) ∈ decisions.zip request.entitlements :=
        mem_iff_getElem?.mpr ⟨place,getElem?_zip_eq_some.mpr ⟨there,asked⟩⟩
      have right := all_eq_true.mp each _ pair
      rw [validDecision] at right
      split at right
      · cases right
      next same =>
        rw [not_or,not_not] at same
        exact same.1
    next => cases stands

theorem execute_eq (identities : Identities ι) (s : EntitlementService ι ε) (now : Nat) (request : Request ι ε)
    (dispatch : Dispatch)
    (answer : Except EntitlementProviderErrorCode (List (EntitlementDecision ι ε))) :
    ∃ cache nextCacheSequence metrics, (s.execute identities now request dispatch answer).2 = { s.runtime with
        outstandingRequests := s.runtime.outstandingRequests - 1, cache, nextCacheSequence, metrics } ∧
      (∀ key entry, cache.find? key = some entry → s.runtime.cache.find? key = some entry ∨
        ∃ decisions, answer = .ok decisions ∧ entry.decision ∈ decisions ∧ Current s request.token dispatch now ∧
          key = cacheKey entry.decision.identity entry.decision.entitlement s.runtime.providerGeneration ∧
          State.cacheExpiry now entry.decision = some entry.expiresAt) ∧
      (s.runtime.cache.size ≤ maximumCacheEntries → cache.size ≤ maximumCacheEntries) ∧
      metrics.inFlightRequests = s.runtime.outstandingRequests - 1 ∧
      (∀ rest, Balanced s.runtime.metrics (rest + request.entitlements.length) → Balanced metrics rest) ∧
      ∀ decision ∈ (s.execute identities now request dispatch answer).1, decision.status = .granted →
        ∃ decisions, answer = .ok decisions ∧ decision ∈ decisions ∧ Current s request.token dispatch now := by
  rw [execute]
  cases stands : s.standing identities now request dispatch answer with
  | some decisions =>
    obtain ⟨ok,current,length,identity⟩ := standing_eq stands
    obtain ⟨cache,sequence,metrics,same,found,bounded,inFlight,balanced⟩ :=
      takeDecisions_eq decisions s.runtime.releaseDispatch now request.identity dispatch.generation
    refine ⟨cache,sequence,metrics,same,?_,bounded,inFlight,?_,fun decision inside _ =>
      ⟨decisions,ok,inside,current⟩⟩
    · intro key entry there
      refine (found key entry there).imp_right ?_
      rintro ⟨decision,inside,own,same,expiry⟩
      rw [same,identity decision inside,← current.generation]
      exact ⟨decisions,ok,inside,current,own,expiry⟩
    · intro rest before
      rw [← length] at before
      exact balanced rest before
  | none =>
    rw [State.recordDecisions_eq]
    refine ⟨s.runtime.cache,s.runtime.nextCacheSequence,_,rfl,fun _ _ found => .inl found,id,
      inFlight_foldl _ _,fun rest before => .foldl ?_,?_⟩
    · rwa [length_replicate]
    · intro decision inside granted
      obtain ⟨entitlement,_,rfl⟩ := mem_map.mp inside
      cases granted

def Answered (s : EntitlementService ι ε) (activity : Activity ι ε) (event : Event ι ε)
    (decision : EntitlementDecision ι ε) : Prop :=
  ∃ index now decisions dispatch, event = .answer index now (.ok decisions) ∧
    activity.phase = .executing dispatch true ∧ decision ∈ decisions ∧
    Current s activity.request.token dispatch now

/-- What a step of one check does. -/
structure Advanced (s : EntitlementService ι ε) (a : Activity ι ε) (event : Event ι ε) (t : State ι ε)
    (b : Activity ι ε) : Prop where
  generation : t.providerGeneration = s.runtime.providerGeneration
  outstanding : held a ≤ s.runtime.outstandingRequests →
    t.outstandingRequests + held a = s.runtime.outstandingRequests + held b
  sound : s.runtime.Sound → t.Sound
  balanced : ∀ rest, Balanced s.runtime.metrics (rest + owed a) → Balanced t.metrics (rest + owed b)
  entries : ∀ key entry, t.cache.find? key = some entry → s.runtime.cache.find? key = some entry ∨
    Answered s a event entry.decision
  decisions : ∀ decision ∈ decisionsOf b, decision.status = .granted →
    decision ∈ decisionsOf a ∨ Answered s a event decision
  rank : rank b < rank a
  settled : Settled a → Settled b

variable {metrics : EntitlementProviderMetrics}

theorem advanced_of_metrics
    (inFlight : metrics.inFlightRequests = s.runtime.metrics.inFlightRequests) (same : held b = held a)
    (balanced : ∀ rest, Balanced s.runtime.metrics (rest + owed a) → Balanced metrics (rest + owed b))
    (decisions : ∀ decision ∈ decisionsOf b, decision.status = .granted → decision ∈ decisionsOf a)
    (lower : rank b < rank a) (settled : Settled a → Settled b) :
    Advanced s a event { s.runtime with metrics } b where
  generation := rfl
  outstanding := fun _ => by rw [same]
  sound := fun sound => sound.counted inFlight
  balanced := balanced
  entries := fun _ _ found => .inl found
  decisions := fun decision inside granted => .inl (decisions decision inside granted)
  rank := lower
  settled := settled

omit [LinearOrder ι] [LinearOrder ε] in
variable {decision : EntitlementDecision ι ε}

theorem not_granted_unavailableMany {identity : ι} {entitlements : List ε}
    (inside : decision ∈ unavailableMany identity entitlements) : decision.status ≠ .granted := by
  obtain ⟨entitlement,_,rfl⟩ := mem_map.mp inside
  exact fun same => by cases same

theorem advanced_reserve (stepped : s.advance identities a (.reserve index now) = some (t,b)) :
    Advanced s a (.reserve index now) t b := by
  obtain ⟨request,phase,invocations,returned⟩ := a
  cases phase with
  | missed =>
    rw [advance.eq_def] at stepped
    dsimp only at stepped
    rcases reserveDispatch_eq s.runtime now with
      ⟨metrics,reserved,inFlight,balanced⟩ | ⟨metrics,reserved,inFlight,room,running,balanced⟩
    · rw [reserved] at stepped
      cases stepped
      exact advanced_of_metrics inFlight rfl (fun rest => balanced _)
        (fun _ inside => absurd inside not_mem_nil) (show 2 < 5 by decide) id
    · rw [reserved] at stepped
      cases stepped
      constructor
      case generation => rfl
      case outstanding => exact fun _ => rfl
      case sound =>
        exact fun sound => ⟨sound.fits,sound.stopped,inFlight,room⟩
      case balanced => exact fun rest => balanced _
      case entries => exact fun _ _ found => .inl found
      case decisions => exact fun _ inside => absurd inside not_mem_nil
      case rank => exact (show 4 < 5 by decide)
      case settled => exact id
  | _ => cases stepped

theorem advanced_record (stepped : s.advance identities a (.record index) = some (t,b)) :
    Advanced s a (.record index) t b := by
  obtain ⟨request,phase,invocations,returned⟩ := a
  have recorded (rest : Nat) (before : Balanced s.runtime.metrics (rest + request.entitlements.length)) :
      Balanced ((List.replicate request.entitlements.length EntitlementStatus.unavailable).foldl recordIn
        s.runtime.metrics) rest := by
    refine .foldl ?_
    rwa [length_replicate]
  have none (value callable : Bool) (decision : EntitlementDecision ι ε)
      (inside : decision ∈ decisionsOf (⟨request,.completing (unavailableMany request.identity request.entitlements)
        value callable,invocations,returned⟩ : Activity ι ε)) (granted : decision.status = .granted) : False :=
    not_granted_unavailableMany inside granted
  cases phase with
  | refused | released =>
    rw [advance.eq_def] at stepped
    dsimp only at stepped
    rw [State.recordDecisions_eq] at stepped
    cases stepped
    exact advanced_of_metrics (inFlight_foldl _ _) rfl recorded
      (fun decision inside granted => (none _ _ decision inside granted).elim) (show 1 < 2 by decide)
      fun settled => ⟨settled.1,.inl settled.2⟩
  | _ => cases stepped

theorem State.Sound.released {s : State ι ε} (sound : s.Sound) : s.releaseDispatch.Sound where
  fits := sound.fits
  stopped := sound.stopped
  inFlight := rfl
  room := (sub_le _ _).trans sound.room

theorem advanced_submit {accepted : Bool} (stepped : s.advance identities a (.submit index accepted) = some (t,b)) :
    Advanced s a (.submit index accepted) t b := by
  obtain ⟨request,phase,invocations,returned⟩ := a
  cases phase with
  | reserved dispatch =>
    rw [advance.eq_def] at stepped
    dsimp only at stepped
    split at stepped
    · cases stepped
    next begins =>
      cases accepted with
      | true =>
        cases stepped
        exact advanced_of_metrics rfl rfl (fun _ => id) (fun _ inside => absurd inside not_mem_nil)
          (show 3 < 4 by decide) fun settled => ⟨settled.1,rfl,by simpa using begins⟩
      | false =>
        cases stepped
        constructor
        case generation => rfl
        case outstanding => exact fun holds => Nat.sub_add_cancel holds
        case sound => exact (·.released)
        case balanced => exact fun _ => id
        case entries => exact fun _ _ found => .inl found
        case decisions => exact fun _ inside => absurd inside not_mem_nil
        case rank => exact (show 2 < 4 by decide)
        case settled => exact id
  | _ => cases stepped

theorem advanced_ask (stepped : s.advance identities a (.ask index now) = some (t,b)) :
    Advanced s a (.ask index now) t b := by
  obtain ⟨request,phase,invocations,returned⟩ := a
  rw [advance.eq_def] at stepped
  cases phase with
  | reserved dispatch =>
    dsimp only at stepped
    split at stepped
    · cases stepped
    · split at stepped
      all_goals
        cases stepped
        exact advanced_of_metrics rfl rfl (fun _ => id) (fun _ inside => absurd inside not_mem_nil)
          (show 2 < 4 by decide) fun settled => ⟨settled.1,.inl settled.2⟩
  | queued dispatch =>
    dsimp only at stepped
    split at stepped
    all_goals
      cases stepped
      exact advanced_of_metrics rfl rfl (fun _ => id) (fun _ inside => absurd inside not_mem_nil)
        (show 2 < 3 by decide) fun settled => ⟨settled.1,.inr settled.2⟩
  | _ => cases stepped

theorem advanced_answer (stepped : s.advance identities a (.answer index now answer) = some (t,b)) :
    Advanced s a (.answer index now answer) t b := by
  obtain ⟨request,phase,invocations,returned⟩ := a
  cases phase with
  | executing dispatch called =>
    rw [advance.eq_def] at stepped
    dsimp only at stepped
    split at stepped
    · cases stepped
    · obtain ⟨cache,sequence,metrics,same,found,bounded,inFlight,balanced,granted⟩ :=
        execute_eq identities s now request dispatch (if called then answer else .error .unavailable)
      cases stepped
      rw [same]
      have answered {decisions : List (EntitlementDecision ι ε)} {decision : EntitlementDecision ι ε}
          (ok : (if called then answer else .error .unavailable) = .ok decisions) (inside : decision ∈ decisions)
          (current : Current s request.token dispatch now) :
          Answered s ⟨request,.executing dispatch called,invocations,returned⟩ (.answer index now answer)
            decision := by
        cases called with
        | false => cases ok
        | true =>
          rw [if_pos rfl] at ok
          rw [ok]
          exact ⟨index,now,decisions,dispatch,rfl,rfl,inside,current⟩
      constructor
      case generation => rfl
      case outstanding => exact fun holds => Nat.sub_add_cancel holds
      case sound =>
        intro sound
        have caches : CacheFits s.runtime.providerGeneration cache := by
          constructor
          case current =>
            intro key entry there
            rcases found key entry there with old | ⟨_,_,_,_,own,_⟩
            · exact sound.fits.current key entry old
            · exact own
          case unexpired =>
            intro key entry there granted expiresAt expires
            rcases found key entry there with old | ⟨_,_,_,_,_,expiry⟩
            · exact sound.fits.unexpired key entry old granted expiresAt expires
            · exact cacheExpiry_le expiry granted expires
          case bounded => exact bounded sound.fits.bounded
        refine ⟨caches,fun stopping => ?_,inFlight,(Nat.sub_le _ _).trans sound.room⟩
        rw [eq_nil_iff_forall_not_mem]
        intro entry inside
        rcases found entry.1 entry.2 (find?_eq_some.mpr inside) with old | ⟨_,_,_,current,_⟩
        · have member := find?_eq_some.mp old
          rw [sound.stopped stopping] at member
          exact not_mem_nil member
        · rw [current.running] at stopping
          cases stopping
      case balanced => exact balanced
      case entries =>
        intro key entry there
        refine (found key entry there).imp_right ?_
        rintro ⟨decisions,ok,inside,current,_⟩
        exact answered ok inside current
      case decisions =>
        intro decision inside status
        obtain ⟨decisions,ok,among,current⟩ := granted decision inside status
        exact .inr (answered ok among current)
      case rank => exact (show 1 < 2 by decide)
      case settled => exact fun settled => ⟨settled.1,settled.2.imp_right fun own => ⟨own.1,own.2,rfl⟩⟩
  | _ => cases stepped

theorem advanced_complete {throws : Bool} (stepped : s.advance identities a (.complete index throws) = some (t,b)) :
    Advanced s a (.complete index throws) t b := by
  obtain ⟨request,phase,invocations,returned⟩ := a
  cases phase with
  | completing decisions value callable =>
    rw [advance.eq_def] at stepped
    dsimp only at stepped
    split at stepped
    · cases stepped
      exact advanced_of_metrics rfl rfl (fun _ => id) (fun _ inside _ => inside) (show 0 < 1 by decide)
        fun settled => ⟨by rw [settled.1]; exact zero_le _,fun _ same => by cases same⟩
    · split at stepped
      · cases stepped
        exact advanced_of_metrics rfl rfl (fun _ => id) (fun _ inside _ => inside) (show 0 < 1 by decide)
          fun settled => ⟨by rw [settled.1]; exact zero_le _,fun _ same => by cases same⟩
      · cases stepped
        exact advanced_of_metrics rfl rfl (fun _ => id) (fun _ inside _ => inside) (show 0 < 1 by decide)
          fun settled => ⟨le_of_eq (congrArg succ settled.1),fun _ _ => congrArg succ settled.1⟩
  | _ => cases stepped

theorem advance_eq (stepped : s.advance identities a event = some (t,b)) : Advanced s a event t b := by
  cases event with
  | reserve index now => exact advanced_reserve stepped
  | record index => exact advanced_record stepped
  | submit index accepted => exact advanced_submit stepped
  | ask index now => exact advanced_ask stepped
  | answer index now answer => exact advanced_answer stepped
  | complete index throws => exact advanced_complete stepped
  | _ => cases stepped

/-! ### The service -/

/-- The dispatches that are counted are those that checks hold, and the checks that are counted are decided or owed. -/
structure Sound (s : EntitlementService ι ε) : Prop where
  runtime : s.runtime.Sound
  outstanding : s.runtime.outstandingRequests = (s.activities.map held).sum
  balanced : Balanced s.runtime.metrics (s.activities.map owed).sum
  settled : ∀ activity ∈ s.activities, Settled activity

theorem sound_new : Sound ({} : EntitlementService ι ε) where
  runtime := {
    fits := cacheFits_empty _
    stopped := fun _ => rfl
    inFlight := rfl
    room := zero_le _ }
  outstanding := rfl
  balanced := ⟨zero_le _,.inr rfl⟩
  settled := fun _ inside => absurd inside not_mem_nil

variable {t : EntitlementService ι ε}

theorem advancedAt_eq (stepped : s.advanceAt identities index event = some t) :
    ∃ a runtime b, s.activities[index]? = some a ∧
      Advanced s a event runtime b ∧ t = { s with runtime, activities := s.activities.set index b } := by
  obtain ⟨a,found,stepped⟩ := bind_eq_some_iff.mp stepped
  obtain ⟨⟨runtime,b⟩,advanced,stepped⟩ := bind_eq_some_iff.mp stepped
  cases stepped
  exact ⟨a,runtime,b,found,advance_eq advanced,rfl⟩

theorem Sound.advancedAt (sound : Sound s)
    (stepped : s.advanceAt identities index event = some t) : Sound t := by
  obtain ⟨a,runtime,b,found,advanced,rfl⟩ := advancedAt_eq stepped
  have member := mem_of_getElem? found
  constructor
  case runtime => exact advanced.sound sound.runtime
  case outstanding =>
    have holds : held a ≤ s.runtime.outstandingRequests := by
      rw [sound.outstanding]
      exact single_le_sum (fun _ _ => zero_le _) _ (mem_map_of_mem member)
    have total := sum_set found b held
    have counted := advanced.outstanding holds
    rw [sound.outstanding] at counted
    dsimp only
    omega
  case balanced =>
    -- What the other checks are owed stays.
    have total := sum_set found b owed
    have below : owed a ≤ (s.activities.map owed).sum :=
      single_le_sum (fun _ _ => zero_le _) _ (mem_map_of_mem member)
    have before := sound.balanced
    rw [← Nat.sub_add_cancel below] at before
    have after := advanced.balanced _ before
    rwa [show (s.activities.map owed).sum - owed a + owed b = ((s.activities.set index b).map owed).sum by omega]
      at after
  case settled =>
    intro activity inside
    rcases mem_or_eq_of_mem_set inside with old | rfl
    · exact sound.settled activity old
    · exact advanced.settled (sound.settled a member)

structure Cached (s : EntitlementService ι ε) (token now : Nat) (identity : ι) (decision : EntitlementDecision ι ε) :
    Prop where
  served : Served s.runtime now identity decision
  running : s.runtime.stopping = false
  uncancelled : token ∉ s.cancelled
  unexpired : decision.status = .granted → ∀ expiresAt, decision.expiresAt = some expiresAt → now < expiresAt

theorem Sound.cached (sound : Sound s) {token : Nat} {identity : ι}
    (served : Served s.runtime now identity decision) (uncancelled : token ∉ s.cancelled) :
    Cached s token now identity decision := by
  refine ⟨served,?_,uncancelled,?_⟩
  · obtain ⟨entitlement,entry,found,_⟩ := served
    cases stopping : s.runtime.stopping with
    | false => rfl
    | true =>
      have member := find?_eq_some.mp found
      rw [sound.runtime.stopped stopping] at member
      exact absurd member not_mem_nil
  · obtain ⟨entitlement,entry,found,rfl,later⟩ := served
    exact fun granted expiresAt expires =>
      lt_of_lt_of_le later (sound.runtime.fits.unexpired _ _ found granted expiresAt expires)

theorem begin_eq (identities : Identities ι) (s : EntitlementService ι ε) (call : Call ι ε) (now : Nat) :
    s.begin identities call now = s ∨ ∃ cache metrics activity, s.begin identities call now = { s with
        runtime := { s.runtime with cache, metrics }, activities := s.activities ++ [activity] } ∧
      Within cache s.runtime.cache ∧ metrics.inFlightRequests = s.runtime.metrics.inFlightRequests ∧
      held activity = 0 ∧ Settled activity ∧
      (∀ rest, Balanced s.runtime.metrics rest → Balanced metrics (rest + owed activity)) ∧
      ∀ decision ∈ decisionsOf activity, decision.status = .granted →
        Served s.runtime now activity.request.identity decision ∧ call.token ∉ s.cancelled := by
  rw [begin]
  split
  · exact .inl rfl
  · cases requirePlayerIdentity identities call.player with
    | error message => exact .inl rfl
    | ok found =>
      obtain ⟨identity,available⟩ := found
      right
      dsimp only
      split
      next =>
        obtain ⟨metrics,same,inFlight,balanced⟩ := recordUnavailableChecks_eq s.runtime call.entitlements.length
        rw [same]
        refine ⟨s.runtime.cache,metrics,_,rfl,fun _ _ found => found,inFlight,rfl,⟨rfl,.inl rfl⟩,balanced,?_⟩
        exact fun decision inside granted => absurd granted (not_granted_unavailableMany inside)
      next live =>
        obtain ⟨cache,metrics,same,within,inFlight,missed,hit⟩ :=
          lookUp_eq s.runtime now identity call.entitlements
        generalize s.runtime.lookUp now identity call.entitlements = result at same missed hit
        obtain ⟨decisions,runtime⟩ := result
        cases same
        cases decisions with
        | none =>
          exact ⟨cache,metrics,_,rfl,within,inFlight,rfl,⟨rfl,rfl⟩,missed rfl,fun _ inside =>
            absurd inside not_mem_nil⟩
        | some decisions =>
          obtain ⟨served,balanced⟩ := hit decisions rfl
          refine ⟨cache,metrics,_,rfl,within,inFlight,rfl,⟨rfl,.inl rfl⟩,balanced,?_⟩
          intro decision inside _
          rw [not_or,contains_iff_mem] at live
          exact ⟨served decision inside,live.2⟩

theorem Sound.begin (sound : Sound s) (call : Call ι ε) (now : Nat) : Sound (s.begin identities call now) := by
  rcases begin_eq identities s call now with
    same | ⟨cache,metrics,activity,same,within,inFlight,holds,settled,balanced,_⟩
  · rwa [same]
  · rw [same]
    constructor
    case runtime => exact sound.runtime.within within inFlight
    case outstanding =>
      rw [map_append,sum_append_nat,map_singleton,holds]
      exact sound.outstanding
    case balanced =>
      rw [map_append,sum_append_nat,map_singleton]
      exact balanced _ sound.balanced
    case settled =>
      intro other inside
      rcases mem_append.mp inside with old | new
      · exact sound.settled other old
      · rwa [mem_singleton.mp new]

structure Elsewhere (s t : EntitlementService ι ε) : Prop where
  sound : Sound s → Sound t
  activities : t.activities = s.activities
  within : Within t.runtime.cache s.runtime.cache

variable {configuring : Option Configuring} {shuttingDown : Option Nat}

section
variable (inFlight : metrics.inFlightRequests = s.runtime.metrics.inFlightRequests)
include inFlight

variable (balanced : ∀ owed, Balanced s.runtime.metrics owed → Balanced metrics owed)
include balanced

theorem elsewhere_noted {cancelled cancelledProviders : List Nat} :
    Elsewhere s { s with
      runtime := { s.runtime with metrics }, cancelled, cancelledProviders, configuring, shuttingDown } where
  sound := fun sound => {
    runtime := sound.runtime.counted inFlight
    outstanding := sound.outstanding
    balanced := balanced _ sound.balanced
    settled := sound.settled }
  activities := rfl
  within := fun _ _ found => found

theorem elsewhere_emptied {providerGeneration : Nat} {stopping : Bool} :
    Elsewhere s { s with
      runtime := { s.runtime with providerGeneration, stopping, cache := ∅, metrics }, configuring, shuttingDown } where
  sound := fun sound => {
    runtime := {
      fits := cacheFits_empty _
      stopped := fun _ => rfl
      inFlight := inFlight.trans sound.runtime.inFlight
      room := sound.runtime.room }
    outstanding := sound.outstanding
    balanced := balanced _ sound.balanced
    settled := sound.settled }
  activities := rfl
  within := fun _ _ found => by cases found

end

section
variable (s : EntitlementService ι ε)

theorem elsewhere_configureProvider : Elsewhere s s.configureProvider := by
  rw [configureProvider]
  split
  · refine elsewhere_noted ?_ fun owed => ?_
    · rfl
    · exact id
  · refine elsewhere_noted ?_ fun owed => ?_
    · rfl
    · exact id

theorem elsewhere_commitProvider (ready : Bool) : Elsewhere s (s.commitProvider ready) := by
  rw [commitProvider]
  split
  · refine elsewhere_noted ?_ fun owed => ?_
    · rfl
    · exact id
  · refine elsewhere_emptied ?_ fun owed => ?_
    · rfl
    · exact id

theorem elsewhere_shutdownProviderRuntime : Elsewhere s s.shutdownProviderRuntime := by
  rw [shutdownProviderRuntime]
  split
  · exact ⟨id,rfl,fun _ _ found => found⟩
  · exact elsewhere_emptied rfl fun _ => id

end

theorem step_cases (stepped : s.step identities event = some t) :
    (∃ index, s.advanceAt identities index event = some t) ∨
      (∃ call now, event = .call call now ∧ t = s.begin identities call now) ∨ Elsewhere s t := by
  cases event with
  | call call now =>
    rw [step] at stepped
    split at stepped
    · cases stepped
    · cases stepped
      exact .inr (.inl ⟨call,now,rfl,rfl⟩)
  | reserve index _ | record index | submit index _ | ask index _ | answer index _ _ | complete index _ =>
    exact .inl ⟨index,stepped⟩
  | cancel token =>
    cases stepped
    exact .inr (.inr (elsewhere_noted rfl fun _ => id))
  | configure =>
    rw [step] at stepped
    split at stepped
    · cases stepped
      exact .inr (.inr (elsewhere_configureProvider s))
    · cases stepped
  | commit ready =>
    rw [step] at stepped
    split at stepped
    · cases stepped
      exact .inr (.inr (elsewhere_commitProvider s ready))
    · cases stepped
  | cancelReplaced =>
    rw [step.eq_def] at stepped
    dsimp only at stepped
    split at stepped
    · cases stepped
      exact .inr (.inr (elsewhere_noted rfl fun _ => id))
    · cases stepped
  | shutdown =>
    rw [step] at stepped
    split at stepped
    · cases stepped
      exact .inr (.inr (elsewhere_shutdownProviderRuntime s))
    · cases stepped
  | cancelStopped =>
    obtain ⟨generation,_,rfl⟩ := map_eq_some_iff.mp stepped
    exact .inr (.inr (elsewhere_noted rfl fun _ => id))

theorem step_sound (s : EntitlementService ι ε) (event : Event ι ε) (t : EntitlementService ι ε) (sound : Sound s)
    (stepped : s.step identities event = some t) : Sound t := by
  rcases step_cases stepped with ⟨index,advanced⟩ | ⟨call,now,rfl,rfl⟩ | elsewhere
  · exact sound.advancedAt advanced
  · exact sound.begin call now
  · exact elsewhere.sound sound

theorem progress (found : s.activities[index]? = some a) (unfinished : a.phase.isDone = false) :
    ∃ event t b, s.step identities event = some t ∧ t.activities[index]? = some b ∧ rank b < rank a := by
  -- The event that is next for each phase.
  have next : ∃ event : Event ι ε, s.step identities event = s.advanceAt identities index event ∧
      (s.advance identities a event).isSome = true := by
    obtain ⟨request,phase,invocations,returned⟩ := a
    cases phase with
    | missed =>
      refine ⟨.reserve index 0,rfl,?_⟩
      rw [advance.eq_def]
      rcases reserveDispatch_eq s.runtime 0 with ⟨metrics,reserved,_⟩ | ⟨metrics,reserved,_⟩
      · dsimp only
        rw [reserved]
        rfl
      · dsimp only
        rw [reserved]
        rfl
    | refused => exact ⟨.record index,rfl,rfl⟩
    | released => exact ⟨.record index,rfl,rfl⟩
    | reserved dispatch =>
      cases begins : request.isBegin with
      | true =>
        refine ⟨.submit index true,rfl,?_⟩
        rw [advance.eq_def]
        simp [begins]
      | false =>
        refine ⟨.ask index 0,rfl,?_⟩
        rw [advance.eq_def]
        simp [begins]
    | queued dispatch => exact ⟨.ask index 0,rfl,rfl⟩
    | executing dispatch called =>
      refine ⟨.answer index 0 (.error .internal),rfl,?_⟩
      rw [advance.eq_def]
      simp [Except.toOption]
    | completing decisions value callable =>
      refine ⟨.complete index false,rfl,?_⟩
      rw [advance.eq_def]
      dsimp only
      split
      · rfl
      · split
        · rfl
        · rfl
    | done decisions => cases unfinished
  obtain ⟨event,same,possible⟩ := next
  obtain ⟨⟨runtime,b⟩,advanced⟩ := isSome_iff_exists.mp possible
  have below := (List.getElem?_eq_some_iff.mp found).1
  refine ⟨event,{ s with runtime, activities := s.activities.set index b },b,?_,?_,(advance_eq advanced).rank⟩
  · rw [same,advanceAt,found]
    simp only [bind_eq_bind,bind_some,advanced]
    rfl
  · exact getElem?_set_self below

structure Accounted (identities : Identities ι) (s : EntitlementService ι ε) : Prop where
  once : ∀ activity ∈ s.activities, activity.invocations ≤ 1 ∧
    (activity.phase.isDone = false → activity.invocations = 0) ∧
    (activity.phase.isDone = true → ∀ value, activity.returned = some (.begun value) → activity.invocations = 1)
  progress : ∀ (index : Nat) (a : Activity ι ε), s.activities[index]? = some a → a.phase.isDone = false →
    ∃ event t b, s.step identities event = some t ∧ t.activities[index]? = some b ∧ rank b < rank a
  outstanding : s.runtime.outstandingRequests = (s.activities.map held).sum ∧
    s.runtime.metrics.inFlightRequests = s.runtime.outstandingRequests ∧
    s.runtime.outstandingRequests ≤ maximumInFlightRequests
  cache : CacheFits s.runtime.providerGeneration s.runtime.cache
  stopped : s.runtime.stopping = true → s.runtime.cache.entries = []
  balanced : s.runtime.metrics.semanticChecks < maximumNumber →
    decided s.runtime.metrics + (s.activities.map owed).sum = s.runtime.metrics.semanticChecks
  idle : (∀ activity ∈ s.activities, activity.phase.isDone = true) →
    s.runtime.metrics.semanticChecks < maximumNumber → decided s.runtime.metrics = s.runtime.metrics.semanticChecks

/-- What a step may grant and cache: a check has a granted decision that it had before, that a provider answered with a
dispatch that stands, or that the cache served; and the cache has entries that it had, or for such answers. -/
structure Guarded (s : EntitlementService ι ε) (event : Event ι ε) (t : EntitlementService ι ε) : Prop where
  granted : ∀ (index : Nat) (b : Activity ι ε), t.activities[index]? = some b →
    ∀ decision ∈ decisionsOf b, decision.status = .granted →
      (∃ a, s.activities[index]? = some a ∧ (decision ∈ decisionsOf a ∨ Answered s a event decision)) ∨
      ∃ call now, event = .call call now ∧ index = s.activities.length ∧
        Cached s call.token now b.request.identity decision
  cached : ∀ key entry, t.runtime.cache.find? key = some entry → s.runtime.cache.find? key = some entry ∨
    ∃ a ∈ s.activities, Answered s a event entry.decision

omit [LinearOrder ι] [LinearOrder ε] in
theorem Settled.once {activity : Activity ι ε} (settled : Settled activity) : activity.invocations ≤ 1 ∧
    (activity.phase.isDone = false → activity.invocations = 0) ∧
    (activity.phase.isDone → ∀ value, activity.returned = some (.begun value) → activity.invocations = 1) := by
  obtain ⟨request,phase,invocations,returned⟩ := activity
  cases phase with
  | done decisions => exact ⟨settled.1,(fun unfinished => by cases unfinished),fun _ => settled.2⟩
  | _ => exact ⟨le_of_eq_of_le settled.1 (zero_le 1),fun _ => settled.1,fun finished => by cases finished⟩

theorem Sound.accounted (sound : Sound s) : Accounted identities s where
  once := fun activity inside => (sound.settled activity inside).once
  progress := fun _ _ found unfinished => EntitlementService.progress found unfinished
  outstanding := ⟨sound.outstanding,sound.runtime.inFlight,sound.runtime.room⟩
  cache := sound.runtime.fits
  stopped := sound.runtime.stopped
  balanced := fun below => sound.balanced.2.resolve_left (Nat.ne_of_lt below)
  idle := by
    intro finished below
    have equal := sound.balanced.2.resolve_left (Nat.ne_of_lt below)
    have none : (s.activities.map owed).sum = 0 := by
      rw [sum_eq_zero]
      intro count inside
      obtain ⟨activity,member,rfl⟩ := mem_map.mp inside
      have ended := finished activity member
      obtain ⟨request,phase,invocations,returned⟩ := activity
      cases phase with
      | done decisions => rfl
      | _ => cases ended
    rwa [none,Nat.add_zero] at equal

theorem Sound.guarded (sound : Sound s) (stepped : s.step identities event = some t) :
    Guarded s event t := by
  rcases step_cases stepped with ⟨index,taken⟩ | ⟨call,now,rfl,rfl⟩ | elsewhere
  · obtain ⟨a,runtime,b,found,advanced,rfl⟩ := advancedAt_eq taken
    constructor
    case granted =>
      intro place other there decision inside status
      left
      by_cases same : place = index
      · rw [same,List.getElem?_set_self (List.getElem?_eq_some_iff.mp found).1] at there
        cases there
        rw [same]
        exact ⟨a,found,advanced.decisions decision inside status⟩
      · rw [getElem?_set_ne (Ne.symm same)] at there
        exact ⟨other,there,.inl inside⟩
    case cached =>
      intro key entry there
      exact (advanced.entries key entry there).imp_right fun answered => ⟨a,mem_of_getElem? found,answered⟩
  · rcases begin_eq identities s call now with
      same | ⟨cache,metrics,activity,same,within,_,_,_,_,served⟩
    · rw [same]
      exact ⟨fun place b there decision inside _ => .inl ⟨b,there,.inl inside⟩,fun _ _ found => .inl found⟩
    · rw [same]
      refine ⟨?_,fun key entry found => .inl (within key entry found)⟩
      intro place b there decision inside status
      rw [getElem?_append] at there
      split at there
      next => exact .inl ⟨b,there,.inl inside⟩
      next last =>
        right
        have place_eq : place - s.activities.length = 0 :=
          lt_one_iff.mp (List.getElem?_eq_some_iff.mp there).1
        rw [place_eq] at there
        cases there
        obtain ⟨hit,live⟩ := served decision inside status
        exact ⟨call,now,rfl,by omega,sound.cached hit live⟩
  · constructor
    case granted =>
      intro place b there decision inside _
      rw [elsewhere.activities] at there
      exact .inl ⟨b,there,.inl inside⟩
    case cached => exact fun key entry found => .inl (elsewhere.within key entry found)

/-- A check that a worker makes, of a granted entitlement, while the provider is replaced. -/
def replacedMeanwhile : List (Event Nat Nat) :=
  [.call ⟨true,false,{ identity := some 1 },[7],0⟩ 0,.reserve 0 0,.submit 0 true,.ask 0 1,.configure,
    .commit true,.answer 0 2 (.ok [⟨.granted,7,1,none⟩]),.complete 0 false,.cancelReplaced]

def everyIdentity : Identities Nat := ⟨fun _ => none,0⟩

end Gargantuan.EntitlementService
