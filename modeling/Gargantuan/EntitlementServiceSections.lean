import Gargantuan.EntitlementService

/-!
What the sections of the entitlement service do to what its mutex guards: to the cache, to the number of dispatches,
and to the metrics.
-/
namespace Gargantuan.EntitlementService
open SortedMap List Option State EntitlementService Nat

def decided (metrics : EntitlementProviderMetrics) : Nat := metrics.granted + metrics.denied + metrics.unavailable

def Balanced (metrics : EntitlementProviderMetrics) (owed : Nat) : Prop :=
  metrics.semanticChecks ≤ maximumNumber ∧
    (metrics.semanticChecks = maximumNumber ∨ decided metrics + owed = metrics.semanticChecks)

variable {value amount : Nat}

theorem addSaturated_le (below : value ≤ maximumNumber) : addSaturated value amount ≤ maximumNumber := by
  rw [addSaturated]
  split
  · exact le_rfl
  · omega

theorem addSaturated_eq (below : value + amount ≤ maximumNumber) : addSaturated value amount = value + amount :=
  if_neg (by omega)

theorem recordIn_fields (metrics : EntitlementProviderMetrics) (status : EntitlementStatus) :
    (recordIn metrics status).semanticChecks = metrics.semanticChecks ∧
      (recordIn metrics status).inFlightRequests = metrics.inFlightRequests := by
  cases status <;> exact ⟨rfl,rfl⟩

variable {metrics : EntitlementProviderMetrics} {owed : Nat}

theorem Balanced.recordIn (balanced : Balanced metrics (owed + 1)) (status : EntitlementStatus) :
    Balanced (EntitlementService.recordIn metrics status) owed := by
  obtain ⟨below,equal⟩ := balanced
  refine ⟨by rw [(recordIn_fields metrics status).1]; exact below,?_⟩
  rcases equal with saturated | equal
  · left
    rwa [(recordIn_fields metrics status).1]
  · right
    unfold decided at equal ⊢
    cases status with
    | granted =>
      dsimp only [EntitlementService.recordIn]
      rw [addSaturated_eq (by omega)]
      omega
    | denied =>
      dsimp only [EntitlementService.recordIn]
      rw [addSaturated_eq (by omega)]
      omega
    | unavailable =>
      dsimp only [EntitlementService.recordIn]
      rw [addSaturated_eq (by omega)]
      omega

theorem Balanced.foldl {statuses : List EntitlementStatus} (balanced : Balanced metrics (owed + statuses.length)) :
    Balanced (statuses.foldl EntitlementService.recordIn metrics) owed := by
  induction statuses generalizing metrics with
  | nil => exact balanced
  | cons status rest ih =>
    refine ih (.recordIn ?_ status)
    exact balanced

theorem inFlight_foldl (statuses : List EntitlementStatus) (metrics : EntitlementProviderMetrics) :
    (statuses.foldl recordIn metrics).inFlightRequests = metrics.inFlightRequests := by
  induction statuses generalizing metrics with
  | nil => rfl
  | cons status rest ih => exact (ih _).trans (recordIn_fields metrics status).2

theorem Balanced.count (balanced : Balanced metrics owed) (count : Nat) :
    Balanced { metrics with semanticChecks := addSaturated metrics.semanticChecks count } (owed + count) := by
  obtain ⟨below,equal⟩ := balanced
  refine ⟨addSaturated_le below,?_⟩
  unfold decided at equal ⊢
  dsimp only
  rw [addSaturated]
  split
  · exact .inl rfl
  · rcases equal with saturated | equal
    · left
      omega
    · right
      omega

variable {ι ε : Type} [LinearOrder ι] [LinearOrder ε]

/-! ### The cache -/

structure CacheFits (generation : Nat) (cache : SortedMap (CacheKey ι ε) (CacheEntry ι ε)) : Prop where
  current : ∀ key entry, cache.find? key = some entry →
    key = cacheKey entry.decision.identity entry.decision.entitlement generation
  unexpired : ∀ key entry, cache.find? key = some entry → entry.decision.status = .granted →
    ∀ expiresAt, entry.decision.expiresAt = some expiresAt → entry.expiresAt ≤ expiresAt
  bounded : cache.size ≤ maximumCacheEntries

def Within (cache other : SortedMap (CacheKey ι ε) (CacheEntry ι ε)) : Prop :=
  ∀ key entry, cache.find? key = some entry → other.find? key = some entry

variable {cache other : SortedMap (CacheKey ι ε) (CacheEntry ι ε)}

theorem Within.size (within : Within cache other) : cache.size ≤ other.size := by
  rw [← length_keys,← length_keys]
  refine (subperm_of_subset cache.nodup_keys fun key inside => ?_).length_le
  obtain ⟨entry,found⟩ := SortedMap.mem_keys.mp inside
  exact SortedMap.mem_keys.mpr ⟨entry,within key entry found⟩

theorem within_erase (cache : SortedMap (CacheKey ι ε) (CacheEntry ι ε)) (key : CacheKey ι ε) :
    Within (cache.erase key) cache := by
  intro other entry found
  rw [find?_erase] at found
  split at found
  · cases found
  · exact found

theorem CacheFits.within {generation : Nat}
    (fits : CacheFits generation other) (within : Within cache other) : CacheFits generation cache where
  current := fun key entry found => fits.current key entry (within key entry found)
  unexpired := fun key entry found => fits.unexpired key entry (within key entry found)
  bounded := within.size.trans fits.bounded

theorem cacheFits_empty (generation : Nat) : CacheFits (ι := ι) (ε := ε) generation ∅ where
  current := fun _ _ found => by cases found
  unexpired := fun _ _ found => by cases found
  bounded := zero_le _

def Served (s : State ι ε) (now : Nat) (identity : ι) (decision : EntitlementDecision ι ε) : Prop :=
  ∃ entitlement entry, s.cache.find? (cacheKey identity entitlement s.providerGeneration) = some entry ∧
    entry.decision = decision ∧ now < entry.expiresAt

variable (s : State ι ε)

theorem findCachedDecision_eq (now : Nat) (identity : ι) (entitlement : ε) :
    (∃ cache, (s.findCachedDecision now identity entitlement).2 = { s with cache } ∧ Within cache s.cache) ∧
      ∀ decision, (s.findCachedDecision now identity entitlement).1 = some decision →
        Served s now identity decision := by
  rw [findCachedDecision]
  cases found : s.cache.find? (cacheKey identity entitlement s.providerGeneration) with
  | none => exact ⟨⟨s.cache,rfl,fun _ _ same => same⟩,fun _ none => by cases none⟩
  | some entry =>
    by_cases expired : entry.expiresAt ≤ now
    · simp only [if_pos expired]
      exact ⟨⟨_,rfl,within_erase _ _⟩,fun _ none => by cases none⟩
    · simp only [if_neg expired]
      refine ⟨⟨s.cache,rfl,fun _ _ same => same⟩,fun decision same => ?_⟩
      exact ⟨entitlement,entry,found,some.inj same,Nat.lt_of_not_le expired⟩

theorem findCachedDecisions_eq (now : Nat) (identity : ι) (entitlements : List ε) :
    (∃ cache, (s.findCachedDecisions now identity entitlements).2 = { s with cache } ∧ Within cache s.cache) ∧
      ∀ decisions, (s.findCachedDecisions now identity entitlements).1 = some decisions →
        decisions.length = entitlements.length ∧ ∀ decision ∈ decisions, Served s now identity decision := by
  induction entitlements generalizing s with
  | nil =>
    refine ⟨⟨s.cache,rfl,fun _ _ same => same⟩,fun decisions same => ?_⟩
    cases same
    exact ⟨rfl,fun _ inside => absurd inside not_mem_nil⟩
  | cons entitlement rest ih =>
    obtain ⟨⟨cache,first,within⟩,served⟩ := findCachedDecision_eq s now identity entitlement
    obtain ⟨⟨last,second,later⟩,others⟩ := ih { s with cache }
    rw [findCachedDecisions]
    dsimp only
    rw [first]
    refine ⟨⟨last,second,fun key entry found => within key entry (later key entry found)⟩,?_⟩
    intro decisions all
    obtain ⟨decision,one,all⟩ := bind_eq_some_iff.mp all
    obtain ⟨rest,remaining,rfl⟩ := map_eq_some_iff.mp all
    obtain ⟨length,each⟩ := others rest remaining
    refine ⟨congrArg succ length,fun decision inside => ?_⟩
    rcases mem_cons.mp inside with rfl | inside
    · exact served _ one
    · obtain ⟨entitlement,entry,found,rest⟩ := each decision inside
      exact ⟨entitlement,entry,within _ _ found,rest⟩

omit [LinearOrder ι] [LinearOrder ε] in
theorem oldestOf_mem (first : CacheKey ι ε × CacheEntry ι ε) (rest : List (CacheKey ι ε × CacheEntry ι ε)) :
    oldestOf first rest ∈ first :: rest := by
  induction rest generalizing first with
  | nil => exact (.head _)
  | cons entry rest ih =>
    rw [oldestOf,foldl_cons]
    split
    · exact .tail _ (ih entry)
    · rcases mem_cons.mp (ih first) with same | inside
      · exact mem_cons.mpr (.inl same)
      · exact .tail _ (.tail _ inside)

theorem evictOldestCacheEntry_eq : ∃ cache, s.evictOldestCacheEntry = { s with cache } ∧
    Within cache s.cache ∧ (s.cache.size ≤ maximumCacheEntries → cache.size < maximumCacheEntries) := by
  rw [evictOldestCacheEntry]
  split
  next room => exact ⟨s.cache,rfl,fun _ _ same => same,fun _ => room⟩
  next full =>
    cases entries : s.cache.entries with
    | nil =>
      rw [SortedMap.size,entries] at full
      exact absurd (show 0 < maximumCacheEntries by decide) full
    | cons first rest =>
      refine ⟨s.cache.erase (oldestOf first rest).1,rfl,within_erase _ _,fun bounded => ?_⟩
      have member : ((oldestOf first rest).1,(oldestOf first rest).2) ∈ s.cache.entries := by
        rw [entries]
        exact oldestOf_mem first rest
      have removed := (erase_perm (find?_eq_some.mpr member)).length_eq
      rw [length_cons] at removed
      have total : s.cache.entries.length ≤ maximumCacheEntries := bounded
      rw [SortedMap.size]
      omega

omit [LinearOrder ι] [LinearOrder ε] in
theorem cacheExpiry_le {now expiresAt : Nat} {decision : EntitlementDecision ι ε}
    (cached : cacheExpiry now decision = some expiresAt) (granted : decision.status = .granted) {limit : Nat}
    (expires : decision.expiresAt = some limit) : expiresAt ≤ limit := by
  rw [cacheExpiry,granted,expires] at cached
  dsimp only at cached
  split at cached
  · cases cached
  · cases cached
    omega

theorem cacheDecision_eq (now : Nat) (identity : ι) (decision : EntitlementDecision ι ε)
    (generation : Nat) : ∃ cache nextCacheSequence,
    s.cacheDecision now identity decision generation = { s with cache, nextCacheSequence } ∧
      (∀ key entry, cache.find? key = some entry → s.cache.find? key = some entry ∨
        key = cacheKey identity decision.entitlement generation ∧ entry.decision = decision ∧
          cacheExpiry now decision = some entry.expiresAt) ∧
      (s.cache.size ≤ maximumCacheEntries → cache.size ≤ maximumCacheEntries) := by
  rw [cacheDecision]
  cases expiry : cacheExpiry now decision with
  | none => exact ⟨s.cache,s.nextCacheSequence,rfl,fun _ _ found => .inl found,id⟩
  | some expiresAt =>
    dsimp only
    generalize named : cacheKey identity decision.entitlement generation = key
    -- The entry replaces the one of its key, or there is room for it.
    have spaced : ∃ cache, (if s.cache.contains key then s else s.evictOldestCacheEntry) = { s with cache } ∧
        Within cache s.cache ∧ (s.cache.size ≤ maximumCacheEntries →
          cache.size < maximumCacheEntries ∨ cache.size ≤ maximumCacheEntries ∧ ∃ x, cache.find? key = some x) := by
      split
      next contained =>
        exact ⟨s.cache,rfl,fun _ _ same => same,fun bounded => .inr ⟨bounded,contains_iff.mp contained⟩⟩
      next =>
        obtain ⟨cache,evicted,within,room⟩ := evictOldestCacheEntry_eq s
        exact ⟨cache,evicted,within,fun bounded => .inl (room bounded)⟩
    obtain ⟨cache,same,within,room⟩ := spaced
    rw [same]
    have inserted (base : SortedMap (CacheKey ι ε) (CacheEntry ι ε)) (inside : Within base s.cache) (sequence : Nat)
        (other : CacheKey ι ε) (entry : CacheEntry ι ε)
        (found : (base.insert key ⟨decision,expiresAt,sequence⟩).find? other = some entry) :
        s.cache.find? other = some entry ∨
          other = key ∧ entry.decision = decision ∧ some expiresAt = some entry.expiresAt := by
      rw [find?_insert] at found
      split at found
      next equal =>
        cases found
        exact .inr ⟨equal,rfl,rfl⟩
      next => exact .inl (inside other entry found)
    by_cases last : s.nextCacheSequence = maximumNumber
    · simp only [if_pos last]
      refine ⟨_,_,rfl,inserted ∅ (fun _ _ found => by cases found) 1,fun _ => ?_⟩
      exact (show 1 ≤ maximumCacheEntries by decide)
    · simp only [if_neg last]
      refine ⟨_,_,rfl,inserted cache within s.nextCacheSequence,fun bounded => ?_⟩
      rw [← length_keys]
      cases found : cache.find? key with
      | some x =>
        rw [keys_insert_found found,length_keys]
        exact (room bounded).elim le_of_lt And.left
      | none =>
        rw [(keys_insert_perm _ found).length_eq,length_cons,length_keys]
        rcases room bounded with below | ⟨_,x,there⟩
        · exact below
        · rw [found] at there
          cases there

structure State.Sound (s : State ι ε) : Prop where
  fits : CacheFits s.providerGeneration s.cache
  stopped : s.stopping = true → s.cache.entries = []
  inFlight : s.metrics.inFlightRequests = s.outstandingRequests
  room : s.outstandingRequests ≤ maximumInFlightRequests

theorem State.recordDecisions_eq (statuses : List EntitlementStatus) :
    s.recordDecisions statuses = { s with metrics := statuses.foldl recordIn s.metrics } := by
  induction statuses generalizing s with
  | nil => rfl
  | cons status rest ih => exact ih _

theorem State.Sound.within {s : State ι ε} (sound : s.Sound) {cache : SortedMap (CacheKey ι ε) (CacheEntry ι ε)}
    (within : Within cache s.cache) (same : metrics.inFlightRequests = s.metrics.inFlightRequests) :
    State.Sound { s with cache, metrics } where
  fits := sound.fits.within within
  stopped := fun stopping => by
    have length := within.size
    rw [SortedMap.size,SortedMap.size,sound.stopped stopping] at length
    exact eq_nil_of_length_eq_zero (le_zero.mp length)
  inFlight := same.trans sound.inFlight
  room := sound.room

theorem State.Sound.counted {s : State ι ε} (sound : s.Sound)
    (same : metrics.inFlightRequests = s.metrics.inFlightRequests) : State.Sound { s with metrics } :=
  sound.within (fun _ _ found => found) same

theorem recordUnavailableChecks_eq (count : Nat) : ∃ metrics, s.recordUnavailableChecks count = { s with metrics } ∧
      metrics.inFlightRequests = s.metrics.inFlightRequests ∧
      ∀ owed, Balanced s.metrics owed → Balanced metrics owed := by
  rw [State.recordUnavailableChecks,State.recordDecisions_eq]
  refine ⟨_,rfl,inFlight_foldl _ _,fun owed balanced => .foldl ?_⟩
  rw [length_replicate]
  exact balanced.count count

theorem lookUp_eq (now : Nat) (identity : ι) (entitlements : List ε) :
    ∃ cache metrics, (s.lookUp now identity entitlements).2 = { s with cache, metrics } ∧ Within cache s.cache ∧
      metrics.inFlightRequests = s.metrics.inFlightRequests ∧ ((s.lookUp now identity entitlements).1 = none →
        ∀ owed, Balanced s.metrics owed → Balanced metrics (owed + entitlements.length)) ∧
      ∀ decisions, (s.lookUp now identity entitlements).1 = some decisions →
        (∀ decision ∈ decisions, Served s now identity decision) ∧
        ∀ owed, Balanced s.metrics owed → Balanced metrics owed := by
  obtain ⟨⟨cache,same,within⟩,served⟩ :=
    findCachedDecisions_eq (s.countChecks entitlements.length) now identity entitlements
  rw [State.lookUp]
  generalize (s.countChecks entitlements.length).findCachedDecisions now identity entitlements = found at same served
  obtain ⟨decisions,t⟩ := found
  cases same
  cases decisions with
  | none =>
    refine ⟨cache,_,rfl,within,rfl,fun _ owed balanced => ?_,fun _ none => by cases none⟩
    exact balanced.count entitlements.length
  | some decisions =>
    obtain ⟨length,each⟩ := served decisions rfl
    dsimp only
    rw [State.recordDecisions_eq]
    refine ⟨cache,_,rfl,within,inFlight_foldl _ _,(fun none => by cases none),fun others same => ?_⟩
    cases same
    refine ⟨each,fun owed balanced => .foldl ?_⟩
    rw [length_map,length]
    exact balanced.count entitlements.length

theorem reserveDispatch_eq (now : Nat) :
    (∃ metrics, s.reserveDispatch now 0 = (none,{ s with metrics }) ∧
        metrics.inFlightRequests = s.metrics.inFlightRequests ∧
        ∀ owed, Balanced s.metrics owed → Balanced metrics owed) ∨
      ∃ metrics, s.reserveDispatch now 0 = (some ⟨s.providerGeneration,now + defaultDeadline⟩,
          { s with outstandingRequests := s.outstandingRequests + 1, metrics }) ∧
        metrics.inFlightRequests = s.outstandingRequests + 1 ∧
        s.outstandingRequests < maximumInFlightRequests ∧ s.stopping = false ∧
        ∀ owed, Balanced s.metrics owed → Balanced metrics owed := by
  rw [reserveDispatch]
  split
  next refused => exact .inl ⟨_,rfl,rfl,fun owed balanced => balanced.count 0⟩
  next allowed =>
    rw [not_or,not_le] at allowed
    exact .inr ⟨_,rfl,rfl,allowed.2,Bool.eq_false_iff.mpr allowed.1,fun owed balanced => balanced.count 0⟩

theorem takeDecisions_eq (decisions : List (EntitlementDecision ι ε)) (s : State ι ε) (now : Nat) (identity : ι)
    (generation : Nat) : ∃ cache nextCacheSequence metrics,
    decisions.foldl (fun runtime decision => runtime.takeDecision now identity generation decision) s =
        { s with cache, nextCacheSequence, metrics } ∧
      (∀ key entry, cache.find? key = some entry → s.cache.find? key = some entry ∨
        ∃ decision ∈ decisions, key = cacheKey identity decision.entitlement generation ∧ entry.decision = decision ∧
          cacheExpiry now decision = some entry.expiresAt) ∧
      (s.cache.size ≤ maximumCacheEntries → cache.size ≤ maximumCacheEntries) ∧
      metrics.inFlightRequests = s.metrics.inFlightRequests ∧
      ∀ owed, Balanced s.metrics (owed + decisions.length) → Balanced metrics owed := by
  induction decisions generalizing s with
  | nil => exact ⟨s.cache,s.nextCacheSequence,s.metrics,rfl,fun _ _ found => .inl found,id,rfl,fun _ => id⟩
  | cons decision rest ih =>
    obtain ⟨cache,sequence,first,found,bounded⟩ := cacheDecision_eq s now identity decision generation
    obtain ⟨last,lastSequence,metrics,others,foundLater,boundedLater,inFlight,balanced⟩ :=
      ih (s.takeDecision now identity generation decision)
    rw [takeDecision,first] at others foundLater boundedLater inFlight balanced
    refine ⟨last,lastSequence,metrics,?_,?_,fun below => boundedLater (bounded below),?_,?_⟩
    · rwa [foldl_cons,takeDecision,first]
    · intro key entry there
      rcases foundLater key entry there with before | ⟨other,inside,own⟩
      · rcases found key entry before with old | own
        · exact .inl old
        · exact .inr ⟨decision,.head _,own⟩
      · exact .inr ⟨other,.tail _ inside,own⟩
    · exact inFlight.trans (recordIn_fields _ _).2
    · intro owed before
      refine balanced owed (.recordIn ?_ decision.status)
      exact before

end Gargantuan.EntitlementService
