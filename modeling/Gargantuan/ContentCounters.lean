import Gargantuan.ContentResidency

/-!
The counters of the availability service. What is in flight, reserved and cached is always
counted. A requested unit ceases to be counted as pending in every place where it ceases to be
requested but one: the cache may evict the payload that such a unit has left from an earlier
time (`counters_run`).
-/
namespace Gargantuan.ContentAvailabilityService
open List SortedMap Record
variable {κ : Type} [LinearOrder κ]

def asks (r : Record) : Nat := if r.residency = .requested then 1 else 0

def Balanced (s : ContentAvailabilityService κ) : Prop := s.pending = s.records.total asks

theorem total_asks (records : SortedMap κ Record) :
    records.total asks = records.entries.countP fun e => decide (e.2.residency = .requested) := by
  unfold total
  induction records.entries with
  | nil => rfl
  | cons e rest ih =>
    rw [map_cons,sum_cons,ih,countP_cons,Nat.add_comm,asks]
    simp only [decide_eq_true_eq]

/-! ### What the cache evicts -/

/-- The payload that a completion brings for the cache to keep. -/
def incoming (s : ContentAvailabilityService κ) (c : Completion κ) : Option (κ × Nat) :=
  match c.result with
  | .content job (.ok prepared) =>
    let r := s.record job.key
    if c.generation = s.generation ∧ r.residency = .acquiring ∧ r.desire ≠ 0 ∧
        r.requestCancelled.any (fun request => decide (request ∈ s.cancelled)) = false ∧ r.cachedPayload = false then
      some (job.key,prepared.encodedBytes)
    else none
  | _ => none

/-- None of the units that are evicted for space is requested. -/
def sparesRequested (limits : ContentAvailabilityLimits) (requiredBytes : Nat) (preserved : κ) :
    List κ → ContentAvailabilityService κ → Bool
  | [], _ => true
  | k :: rest, s =>
    if k = preserved || !isEvictable (s.record k) then sparesRequested limits requiredBytes preserved rest s
    else
      decide ((s.record k).residency ≠ .requested) && ((s.evictPayload k).hasCacheSpace limits requiredBytes ||
        sparesRequested limits requiredBytes preserved rest (s.evictPayload k))

def Spares (limits : ContentAvailabilityLimits) (s : ContentAvailabilityService κ) (c : Completion κ) : Prop :=
  ∀ payload, incoming s c = some payload → s.hasCacheSpace limits payload.2 = true ∨
    sparesRequested limits payload.2 payload.1 s.records.keys.reverse s = true

instance (limits : ContentAvailabilityLimits) (s : ContentAvailabilityService κ) (c : Completion κ) :
    Decidable (Spares limits s c) :=
  inferInstanceAs (Decidable (∀ payload ∈ incoming s c, _))

def StepSpares (configuration : ContentAvailabilityConfiguration) (s : ContentAvailabilityService κ) : Event κ → Prop
  | .step _ _ => s.stopped = true ∨ RunMeets (fun s c => some (drain configuration s c)) (Spares configuration.limits)
      (takeCompletions configuration.limits s) (completed configuration.limits s)
  | _ => True

instance (configuration : ContentAvailabilityConfiguration) (s : ContentAvailabilityService κ) :
    (e : Event κ) → Decidable (StepSpares configuration s e)
  | .step _ _ => inferInstanceAs (Decidable (_ ∨ _))
  | .completeJob _ _ | .requestContent _ | .releaseContent _ | .pinContent _ | .unpinContent _ | .retryContent _
  | .stop _ => isTrue trivial

section
variable {limits : ContentAvailabilityLimits} {m : PackageContentManifest κ} {s t u : ContentAvailabilityService κ}
  {waiting : List (Completion κ)}

def Counts (limits : ContentAvailabilityLimits) (m : PackageContentManifest κ) (waiting : List (Completion κ))
    (s t : ContentAvailabilityService κ) : Prop :=
  Keeps limits m waiting s t ∧ (s.manifest = some m → Books limits s waiting → Balanced s → Balanced t)

theorem Counts.refl : Counts limits m waiting s s := ⟨.refl,fun _ _ => id⟩

theorem Counts.trans (first : Counts limits m waiting s t) (second : Counts limits m waiting t u) :
    Counts limits m waiting s u := by
  refine ⟨first.1.trans second.1,?_⟩
  intro found books balanced
  obtain ⟨found',books'⟩ := first.1 found books
  exact second.2 found' books' (first.2 found books balanced)

theorem Counts.apply (counts : Counts limits m waiting s t)
    (before : s.manifest = some m ∧ Books limits s waiting ∧ Balanced s) :
    t.manifest = some m ∧ Books limits t waiting ∧ Balanced t := by
  obtain ⟨found,books,balanced⟩ := before
  obtain ⟨found',books'⟩ := counts.1 found books
  exact ⟨found',books',counts.2 found books balanced⟩

variable {k : κ} {configuration : ContentAvailabilityConfiguration} {r : Record}

theorem Balanced.put (balanced : Balanced s) (records : t.records = s.records.insert k r)
    (pending : asks (s.record k) ≤ s.pending → t.pending + asks (s.record k) = s.pending + asks r) : Balanced t := by
  have sum := total_insert_record (f := asks) rfl s.records k r
  have part := le_total_record (f := asks) rfl s.records k
  rw [Balanced] at balanced ⊢
  rw [← record] at sum part
  rw [records]
  omega

theorem asks_of_ne (other : r.residency ≠ .requested) : asks r = 0 := if_neg other

theorem Counts.put (records : t.records = s.records.insert k r) (kept : Keeps limits m waiting s t)
    (before : (s.record k).residency ≠ .requested) (after : r.residency ≠ .requested)
    (pending : t.pending = s.pending) : Counts limits m waiting s t := by
  refine ⟨kept,fun _ _ balanced => balanced.put records ?_⟩
  intro _
  rw [asks_of_ne before,asks_of_ne after,pending]

theorem withdraw_counts (k : κ) : Counts limits m waiting s (s.withdraw k) := by
  refine ⟨withdraw_keeps k,?_⟩
  intro found books balanced
  unfold withdraw
  dsimp only
  split
  · next available =>
    refine balanced.put rfl ?_
    intro _
    rw [asks_of_ne (by rw [available]; decide)]
    rfl
  · next requested =>
    refine balanced.put rfl ?_
    intro part
    rw [asks,if_pos requested] at part ⊢
    change s.pending - 1 + 1 = s.pending + 0
    omega
  · split
    · split_ifs
      · exact balanced
      · exact balanced
    · exact balanced
  · exact balanced

theorem submitContent_counts (requested : (s.record k).residency = .requested)
    (kept : Keeps limits m waiting s (submitContent m s k)) : Counts limits m waiting s (submitContent m s k) := by
  refine ⟨kept,fun _ _ balanced => balanced.put rfl ?_⟩
  intro part
  rw [asks,if_pos requested] at part ⊢
  change sizeSub s.pending 1 + 1 = s.pending + 0
  rw [sizeSub_of_le part]
  omega

theorem submitCachedContent_counts (kept : Keeps limits m waiting s (s.submitCachedContent k)) :
    Counts limits m waiting s (s.submitCachedContent k) := by
  refine ⟨kept,fun _ _ balanced => balanced.put rfl ?_⟩
  intro part
  change (if (s.record k).residency = .requested then sizeSub s.pending 1 else s.pending) + asks (s.record k) =
    s.pending + 0
  unfold asks at part ⊢
  split_ifs at part ⊢
  · rw [sizeSub_of_le part]
    omega
  · rfl

theorem submitRequested_counts (k : κ) : Counts limits m waiting s (submitRequested limits m s k) := by
  have kept : Keeps limits m waiting s (submitRequested limits m s k) := submitRequested_keeps k
  unfold submitRequested at kept ⊢
  split_ifs at kept ⊢ with other full busy cached
  · exact .refl
  · exact .refl
  · exact .refl
  · exact submitCachedContent_counts kept
  · exact submitContent_counts (not_not.mp other) kept

theorem startRequest_counts (k : κ) : Counts limits m waiting s (startRequest limits m s k) := by
  unfold startRequest
  split_ifs with undesired unavailable full
  · exact withdraw_counts k
  · exact .refl
  · refine .trans ?_ (submitRequested_counts k)
    have away := isAway_of_eq unavailable (by decide)
    refine ⟨.settle rfl away (.inl (by rw [unavailable]; decide)) rfl rfl rfl rfl
      ⟨rfl,rfl,rfl,rfl,rfl,rfl,rfl⟩ ⟨nofun,nofun⟩,?_⟩
    intro _ _ balanced
    refine balanced.put rfl ?_
    intro _
    rw [asks_of_ne (by rw [unavailable]; decide)]
    rfl
  · exact submitRequested_counts k

theorem startRequests_balanced (books : Books limits s waiting) (balanced : Balanced s) :
    Balanced (startRequests limits s) := by
  unfold startRequests
  cases found : s.manifest with
  | none => exact balanced
  | some m =>
    have kept := List.foldlRecOn
      (motive := fun t => t.manifest = some m ∧ Books limits t waiting ∧ Balanced t) m.entries.keys (startRequest limits m)
      ⟨found,books,balanced⟩ fun t kept k _ => (startRequest_counts k).apply kept
    exact kept.2.2

theorem evictPayload_counts (evictable : isEvictable (s.record k))
    (other : (s.record k).residency ≠ .requested) : Counts limits m waiting s (s.evictPayload k) := by
  refine .put rfl (evictPayload_keeps evictable) other ?_ rfl
  split_ifs
  · exact other
  · exact nofun

variable {preserved : κ} {requiredBytes : Nat}

theorem evictPayloads_counts (l : List κ) (s : ContentAvailabilityService κ)
    (spared : sparesRequested limits requiredBytes preserved l s) :
    Counts limits m waiting s (evictPayloads limits requiredBytes preserved l s) := by
  induction l generalizing s with
  | nil => exact .refl
  | cons k rest ih =>
    rw [sparesRequested] at spared
    rw [evictPayloads]
    split_ifs at spared ⊢ with skipped space
    · exact ih s spared
    · have evictable : isEvictable (s.record k) := by simp at skipped; exact skipped.2
      simp only [Bool.and_eq_true,decide_eq_true_eq] at spared
      exact evictPayload_counts evictable spared.1
    · have evictable : isEvictable (s.record k) := by simp at skipped; exact skipped.2
      simp only [Bool.and_eq_true,decide_eq_true_eq,space,Bool.false_or] at spared
      exact (evictPayload_counts evictable spared.1).trans (ih _ spared.2)

theorem makeCacheSpace_counts (spared : s.hasCacheSpace limits requiredBytes ∨
      sparesRequested limits requiredBytes preserved s.records.keys.reverse s) :
    Counts limits m waiting s (s.makeCacheSpace limits requiredBytes preserved) := by
  unfold makeCacheSpace
  split_ifs with space
  · exact .refl
  · exact evictPayloads_counts _ s (spared.resolve_left space)

theorem fail_counts (free : s.IsFree waiting k) (acquiring : (s.record k).residency = .acquiring) (report : Report) :
    Counts limits m waiting s (s.fail k report) := by
  refine .put rfl (fail_keeps free (isAway_of_eq acquiring (by decide)) report) ?_ ?_ rfl
  · rw [acquiring]
    decide
  · exact nofun

theorem acceptPayload_counts (free : s.IsFree waiting k) (acquiring : (s.record k).residency = .acquiring)
    {prepared : PreparedContent κ}
    (spared : (s.record k).cachedPayload = false → s.hasCacheSpace limits prepared.encodedBytes ∨
      sparesRequested limits prepared.encodedBytes k s.records.keys.reverse s) :
    Counts limits m waiting s (s.acceptPayload limits m k prepared) := by
  have away := isAway_of_eq acquiring (by decide)
  have record' : (s.makeCacheSpace limits prepared.encodedBytes k).record k = s.record k :=
    record_makeCacheSpace_preserved prepared.encodedBytes k
  have acquiring' : ((s.makeCacheSpace limits prepared.encodedBytes k).record k).residency = .acquiring := by
    rwa [record']
  have away' := isAway_of_eq acquiring' (by decide)
  have free' : (s.makeCacheSpace limits prepared.encodedBytes k).IsFree waiting k :=
    (makeCacheSpace_same prepared.encodedBytes k).isFree free
  unfold acceptPayload
  dsimp only
  split_ifs with wrong cached space
  · exact fail_counts free acquiring _
  · refine .put rfl (accept_keeps free away (by tauto) (.inl cached)) ?_ nofun rfl
    rw [acquiring]
    decide
  · exact (makeCacheSpace_counts (spared (Bool.eq_false_iff.mpr cached))).trans (fail_counts free' acquiring' _)
  · refine (makeCacheSpace_counts (spared (Bool.eq_false_iff.mpr cached))).trans ?_
    refine .put rfl (accept_keeps free' away' (by tauto) (.inr (by simpa using space))) ?_ nofun rfl
    rw [acquiring']
    decide

theorem sparesRequested_congr (l : List κ) (cached : t.cachedBytes = s.cachedBytes)
    (same : ∀ k, k ≠ preserved → t.record k = s.record k) :
    sparesRequested limits requiredBytes preserved l t = sparesRequested limits requiredBytes preserved l s := by
  induction l generalizing s t with
  | nil => rfl
  | cons k rest ih =>
    rw [sparesRequested,sparesRequested]
    by_cases here : k = preserved
    · rw [if_pos (by simp [here]),if_pos (by simp [here])]
      exact ih cached same
    · have record := same k here
      have cached' : (t.evictPayload k).cachedBytes = (s.evictPayload k).cachedBytes := by
        change sizeSub t.cachedBytes (t.record k).encodedBytes = sizeSub s.cachedBytes (s.record k).encodedBytes
        rw [cached,record]
      have same' : ∀ k', k' ≠ preserved → (t.evictPayload k).record k' = (s.evictPayload k).record k' := by
        intro k' other
        by_cases evicted : k' = k
        · rw [evicted]
          change (t.put k _).record k = (s.put k _).record k
          rw [record_put_self,record_put_self,record]
        · change (t.put k _).record k' = (s.put k _).record k'
          rw [record_put_of_ne _ _ evicted,record_put_of_ne _ _ evicted]
          exact same k' other
      rw [record,ih cached' same',ih cached same]
      unfold hasCacheSpace
      rw [cached']

theorem keys_put_waiting (acquiring : (s.record k).residency = .acquiring) (r : Record) :
    (s.put k r).records.keys = s.records.keys := by
  cases found : s.records.find? k with
  | none =>
    rw [record,recordOf,found] at acquiring
    cases acquiring
  | some before => exact keys_insert_found found r

theorem drainContent_balanced {job : ContentJob κ} (free : s.IsFree waiting job.key)
    {result : Except ContentProviderError (PreparedContent κ)} (found : s.manifest = some m)
    (books : Books limits s waiting) (balanced : Balanced s)
    (spared : ∀ prepared, result = .ok prepared → (s.record job.key).residency = .acquiring →
      (s.record job.key).desire ≠ 0 →
      (s.record job.key).requestCancelled.any (fun request => decide (request ∈ s.cancelled)) = false →
      (s.record job.key).cachedPayload = false → s.hasCacheSpace limits prepared.encodedBytes ∨
        sparesRequested limits prepared.encodedBytes job.key s.records.keys.reverse s) :
    Balanced (s.drainContent limits job result) := by
  have kept : Keeps limits m waiting s (s.drainContent limits job result) := drainContent_keeps free result
  unfold drainContent at kept ⊢
  rw [found] at kept ⊢
  dsimp only at kept ⊢
  split_ifs at kept ⊢ with unknown other withdrawn
  · exact balanced
  · exact balanced
  · refine (Counts.put rfl kept ?_ nofun rfl).2 found books balanced
    rw [not_not.mp other]
    decide
  · have acquiring := not_not.mp other
    rw [not_or,Bool.not_eq_true] at withdrawn
    let waits := s.put job.key { s.record job.key with requestCancelled := none }
    have here : waits.record job.key = { s.record job.key with requestCancelled := none } := record_put_self s job.key _
    have acquiring' : (waits.record job.key).residency = .acquiring := by
      rwa [here]
    have first : Counts limits m waiting s waits := by
      have away := isAway_of_eq acquiring (by decide)
      refine .put rfl (.settle rfl away (.inr (.inl free)) rfl rfl rfl rfl
        ⟨rfl,rfl,rfl,rfl,rfl,rfl,rfl⟩ ?_) ?_ ?_ rfl
      · rw [acquiring]
        decide
      · rw [acquiring]
        decide
      · rw [acquiring]
        decide
    have free' : waits.IsFree waiting job.key := free
    cases result with
    | error error => exact (first.trans (fail_counts free' acquiring' _)).2 found books balanced
    | ok prepared =>
      refine (first.trans (acceptPayload_counts free' acquiring' ?_)).2 found books balanced
      intro uncached
      rw [here] at uncached
      have keys : waits.records.keys = s.records.keys := keys_put_waiting acquiring _
      rw [keys,sparesRequested_congr (s := s) (t := waits) _ rfl fun k other => record_put_of_ne s _ other]
      exact spared prepared rfl acquiring withdrawn.1 withdrawn.2 uncached

theorem drain_balanced {c : Completion κ} (books : Books configuration.limits s (c :: waiting))
    (balanced : Balanced s) (spared : Spares configuration.limits s c) : Balanced (s.drain configuration c) := by
  obtain ⟨books',-⟩ := books.discharge
  unfold drain
  dsimp only
  split_ifs with stale
  · exact balanced
  · split
    · exact balanced
    · next m manifest =>
      have blank := books.blank (books.unmanifested manifest)
      have none : (acceptManifest configuration.mode { s.discharge c with manifestInFlight := false } m).records.total
          asks = 0 :=
        acceptManifest_preserves (closed_total rfl (fun _ => rfl) 0) _ _ m (total_blank rfl m)
      rw [Balanced,none]
      rwa [Balanced,blank] at balanced
    · next job result content =>
      obtain ⟨⟨m,found,_⟩,free⟩ := books.delivered content
      refine drainContent_balanced free found books' balanced ?_
      intro prepared ok acquiring wanted granted uncached
      rw [sparesRequested_congr (s := s) (t := s.discharge c) _ rfl fun _ _ => rfl]
      refine spared (job.key,prepared.encodedBytes) ?_
      unfold incoming
      rw [content,ok]
      exact if_pos ⟨not_not.mp stale,acquiring,wanted,granted,uncached⟩

theorem drains_balanced (l : List (Completion κ)) (s : ContentAvailabilityService κ)
    (books : Books configuration.limits s (l ++ waiting)) (balanced : Balanced s)
    (spared : RunMeets (fun s c => some (drain configuration s c)) (Spares configuration.limits) s l) :
    Balanced (l.foldl (drain configuration) s) := by
  induction l generalizing s with
  | nil => exact balanced
  | cons c rest ih =>
    have ahead : Books configuration.limits s (c :: (rest ++ waiting)) := books
    exact ih _ (drain_books configuration ahead) (drain_balanced ahead balanced spared.1) (spared.2 _ rfl)

variable (admission : κ → Admission)

theorem admitUnit_counts (p : Pass κ) (k : κ) :
    Counts limits m waiting p.service (admitUnit limits m admission p k).service := by
  have kept : Keeps limits m waiting p.service (admitUnit limits m admission p k).service := admitUnit_keeps admission p k
  unfold admitUnit at kept ⊢
  dsimp only at kept ⊢
  split_ifs at kept ⊢ with full other deferred unprepared
  · exact .refl
  · exact .refl
  · exact .refl
  · dsimp only at kept ⊢
    unfold prepareAgain at kept ⊢
    split_ifs at kept ⊢
    · exact submitCachedContent_counts kept
    · exact .refl
  · have available : (p.service.record k).residency ≠ .requested := by
      rw [show (p.service.record k).residency = .available by tauto]
      decide
    cases outcome : admission k with
    | decodeRejected message =>
      rw [outcome] at kept
      exact .put rfl kept available nofun rfl
    | commitRejected message =>
      rw [outcome] at kept
      exact .put rfl kept available nofun rfl
    | committed =>
      rw [outcome] at kept
      exact .put rfl kept available nofun rfl

theorem evict_counts (roots : κ → Root) (p : Pass κ) (k : κ) :
    Counts limits m waiting p.service (evict limits m roots p k).service := by
  have kept : Keeps limits m waiting p.service (evict limits m roots p k).service := evict_keeps roots p k
  have unrooted : (p.service.record k).unrooted.residency ≠ .requested := by
    unfold unrooted
    split_ifs <;> exact nofun
  unfold evict at kept ⊢
  dsimp only at kept ⊢
  split_ifs at kept ⊢ with full stays gone
  · exact .refl
  · exact .refl
  · refine .put rfl kept ?_ unrooted rfl
    rw [show (p.service.record k).residency = .resident by tauto]
    decide
  · have resident : (p.service.record k).residency ≠ .requested := by
      rw [show (p.service.record k).residency = .resident by tauto]
      decide
    cases root : roots k with
    | destroyed =>
      rw [root] at kept
      exact .put rfl kept resident unrooted rfl
    | withRuntimeChild => exact .refl
    | intact =>
      rw [root] at kept
      exact .put rfl kept resident unrooted rfl
    | refusesDestruction =>
      rw [root] at kept
      exact .put rfl kept resident nofun rfl

theorem step_balanced (roots : κ → Root) (books : Books configuration.limits s [])
    (balanced : Balanced s) (spared : StepSpares configuration s (.step admission roots)) :
    Balanced (s.step configuration admission roots) := by
  suffices both : Books configuration.limits (s.step configuration admission roots) [] ∧
      Balanced (s.step configuration admission roots) from both.2
  refine step_rule (P := fun t => Books configuration.limits t [] ∧ Balanced t) ⟨books,balanced⟩ ?_ ?_ ?_ ?_
  · intro running
    have taken := takeCompletions_books books
    rw [← append_nil (completed configuration.limits s)] at taken
    exact ⟨drainAll_books books,drains_balanced _ _ taken balanced (spared.resolve_left running)⟩
  · exact fun t kept => ⟨startRequests_books kept.1,startRequests_balanced kept.1 kept.2⟩
  · exact fun m p k found kept => (admitUnit_counts admission p k).apply ⟨found,kept⟩
  · exact fun m p k found kept => (evict_counts roots p k).apply ⟨found,kept⟩

theorem demand_balanced {change : PackageContentManifest κ → SortedMap κ Record → κ → Bool × SortedMap κ Record}
    (changes : ChangesDemand change) (k : κ) (balanced : Balanced s) : Balanced (demand change s k).2 := by
  rcases demand_cases change s k with refused | ⟨m,found,_,_,changed⟩
  · rwa [refused]
  · rw [changed]
    have same := changes _ (closed_total rfl (fun _ => rfl) (s.records.total asks)) m s.records k rfl
    exact balanced.trans same.symm

theorem retryContent_balanced (k : κ) (books : Books limits s []) (balanced : Balanced s) :
    Balanced (s.retryContent limits k).2 := by
  unfold retryContent
  cases found : s.manifest with
  | none => exact balanced
  | some m =>
    dsimp only
    split_ifs with refused
    · exact balanced
    · have failed : (s.record k).residency = .failed := by
        simp at refused
        exact refused.2
      have first : Counts limits m [] s (s.put k { s.record k with residency := .unavailable }) := by
        have away := isAway_of_eq failed (by decide)
        refine .put rfl ?_ ?_ nofun rfl
        · exact .settle rfl away (.inl (by rw [failed]; decide)) rfl rfl rfl rfl
            ⟨rfl,rfl,rfl,rfl,rfl,rfl,rfl⟩ ⟨nofun,nofun⟩
        · rw [failed]
          decide
      exact startRequests_balanced (first.1 found books).2 (first.2 found books balanced)

theorem operate_balanced {e : Event κ} (spared : StepSpares configuration s e)
    (invariant : s.stopped = false → Books configuration.limits s [] ∧ Balanced s)
    (stepped : operate configuration s e = some t) (running : t.stopped = false) :
    Books configuration.limits t [] ∧ Balanced t := by
  obtain ⟨before,books'⟩ := operate_books (fun running => (invariant running).1) stepped running
  obtain ⟨books,balanced⟩ := invariant before
  refine ⟨books',?_⟩
  rcases operate_cases stepped with ⟨_,_,-,completed⟩ | ⟨admission,roots,rfl,rfl⟩ | ⟨_,k,changes,rfl⟩ |
    ⟨k,rfl⟩ | ⟨roots,-,rfl⟩
  · obtain ⟨j,c,_,_,_,rfl⟩ := completeJob_cases completed
    exact balanced
  · exact step_balanced admission roots books balanced spared
  · exact demand_balanced changes k balanced
  · exact retryContent_balanced k books balanced
  · rw [stop_stopped] at running
    cases running

theorem balanced_run {events : List (Event κ)} (reached : run (operate configuration) new events = some s)
    (spared : RunMeets (operate configuration) (StepSpares configuration) new events) :
    s.stopped = false → Books configuration.limits s [] ∧ Balanced s :=
  run_preserves_where (fun _ _ _ spared invariant stepped => operate_balanced spared invariant stepped)
    (fun _ => ⟨new_books,rfl⟩) spared reached

theorem items_bytes (s : ContentAvailabilityService κ) : ((items s []).map Item.bytes).sum =
    (s.jobs.map Job.reservedBytes).sum + (s.completions.map Completion.reservedBytes).sum := by
  have job (j : Job κ) : Item.bytes j.item = j.reservedBytes := by
    unfold Job.item Job.reservedBytes Item.bytes
    cases j.work <;> rfl
  unfold items
  rw [map_append,sum_append,map_map,map_map]
  congr 2
  · exact map_congr_left fun j _ => job j
  · exact map_congr_left fun c _ => c.bytes_item

/-- The counters of a service that has not been stopped. The pending requests are counted in a run in which no
    completion of a step evicts the payload of a unit that is requested; the other counters are in every run. -/
theorem counters_run {configuration : ContentAvailabilityConfiguration} {events : List (Event κ)}
    (reached : run (operate configuration) new events = some s) (running : s.stopped = false)
    (spared : RunMeets (operate configuration) (StepSpares configuration) new events) :
    s.pending = (s.records.entries.countP fun e => decide (e.2.residency = .requested)) ∧
    s.inFlight = s.jobs.length + s.completions.length ∧
    s.reservedCompletionBytes =
      (s.jobs.map Job.reservedBytes).sum + (s.completions.map Completion.reservedBytes).sum ∧
    s.reservedCompletionBytes ≤ configuration.limits.maximumCompletedPayloadBytes ∧
    s.cachedBytes = (s.records.total fun r => if r.cachedPayload then r.encodedBytes else 0) ∧
    s.cachedBytes ≤ configuration.limits.maximumCachedPayloadBytes := by
  obtain ⟨books,balanced⟩ := balanced_run reached spared running
  refine ⟨?_,?_,?_,books.reservedBound,books.cached,books.cachedBound⟩
  · rwa [← total_asks]
  · have counted := books.ledger.counted
    unfold items at counted
    rwa [length_append,length_map,length_map] at counted
  · rw [← items_bytes]
    exact books.ledger.reserved

end
theorem counters_bothResident : ∃ s, run (operate {}) new bothResident = some s ∧ s.reservedCompletionBytes = 0 ∧
    s.cachedBytes = 16 ∧ s.pending = (s.records.entries.countP fun e => decide (e.2.residency = .requested)) := by
  obtain ⟨s,reached⟩ : ∃ s, run (operate {}) new bothResident = some s :=
    Option.isSome_iff_exists.mp (by decide +kernel)
  have known : ((run (operate {}) new bothResident).map fun s => (s.stopped,s.reservedCompletionBytes,s.cachedBytes)) =
      some (false,0,16) := by decide +kernel
  rw [reached] at known
  have fields := Option.some.inj known
  have running : s.stopped = false := congrArg Prod.fst fields
  have reserved : s.reservedCompletionBytes = 0 := congrArg (·.2.1) fields
  have cached : s.cachedBytes = 16 := congrArg (·.2.2) fields
  exact ⟨s,reached,reserved,cached,(counters_run reached running (by decide +kernel)).1⟩

/-- Two units whose payloads do not fit the smallest cache together. -/
def largeUnits : PackageContentManifest Nat :=
  numbered ⟨[(0,{ compressedBytes := 600000, uncompressedBytes := 600000, objectCount := 1 }),
    (1,{ compressedBytes := 600000, uncompressedBytes := 600000, objectCount := 1 })],by decide⟩
    (by decide) (by decide)

def smallCache : ContentAvailabilityConfiguration :=
  { mode := .streaming, limits := { maximumInFlight := 1, maximumCachedPayloadBytes := 1024 * 1024 } }

def requestEvicted : List (Event Nat) :=
  let step : Event Nat := .step (fun _ => .committed) (fun _ => .intact)
  [.completeJob 0 (.manifest (.ok largeUnits)),step,.requestContent 0,step,.completeJob 0 (.decoded 16),step,
    .releaseContent 0,step,.requestContent 1,step,.requestContent 0,step,.releaseContent 0,
    .completeJob 0 (.decoded 16),step]

theorem pending_outlives_request : ∃ s, run (operate smallCache) new requestEvicted = some s ∧ s.stopped = false ∧
    s.pending = 1 ∧ (s.records.entries.countP fun e => decide (e.2.residency = .requested)) = 0 := by
  refine ⟨(run (operate smallCache) new requestEvicted).get (by decide +kernel),?_,?_,?_,?_⟩
  · exact (Option.some_get _).symm
  · decide +kernel
  · decide +kernel
  · decide +kernel

end Gargantuan.ContentAvailabilityService
