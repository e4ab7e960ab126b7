import Gargantuan.ContentCounters
import Mathlib.Algebra.Order.BigOperators.Group.List

/-!
Capacity in the availability service. The queue of completed payloads has room for every
payload that a job has reserved bytes for, and a shortage of prepared documents defers work.
The cache has room for a payload just when it fits with those that cannot be evicted
(`hasCacheSpace_makeCacheSpace`), and these are also the payloads of units that wait for the
one that is rejected. Otherwise no unit fails (`capacity_run`).
-/
namespace Gargantuan.ContentAvailabilityService
open List SortedMap Completion
variable {κ : Type} [LinearOrder κ]

/-- The bytes of a payload that the cache cannot evict. -/
def lasting (r : Record) : Nat := if isEvictable r then 0 else weight r

section
variable {limits : ContentAvailabilityLimits} {m : PackageContentManifest κ} {s t u : ContentAvailabilityService κ}
  {waiting : List (Completion κ)}

theorem isEvictable_evictPayload (s : ContentAvailabilityService κ) (k : κ) :
    isEvictable ((s.evictPayload k).record k) = false := by
  have here : ((s.evictPayload k).record k).cachedPayload = false :=
    congrArg Record.cachedPayload (record_put_self s k _)
  unfold isEvictable
  rw [here]
  rfl

variable {k preserved : κ}

theorem record_evictPayload_of_ne (s : ContentAvailabilityService κ) {k' : κ} (other : k' ≠ k) :
    (s.evictPayload k).record k' = s.record k' :=
  record_put_of_ne s _ other

theorem total_lasting_evictPayload (evictable : isEvictable (s.record k)) :
    (s.evictPayload k).records.total lasting = s.records.total lasting := by
  have sum := total_insert_record (f := lasting) rfl s.records k ((s.evictPayload k).record k)
  have before : lasting (recordOf s.records k) = 0 := if_pos evictable
  have after : lasting ((s.evictPayload k).record k) = 0 := by
    have here : ((s.evictPayload k).record k).cachedPayload = false :=
      congrArg Record.cachedPayload (record_put_self s k _)
    simp [lasting,weight,here]
  have records : (s.evictPayload k).records = s.records.insert k ((s.evictPayload k).record k) := by
    rw [show (s.evictPayload k).record k = _ from record_put_self s k _]
    rfl
  rw [records]
  omega

variable {requiredBytes : Nat} {configuration : ContentAvailabilityConfiguration} (l : List κ)

section
variable (s : ContentAvailabilityService κ)

theorem isEvictable_evictPayloads (fixed : isEvictable (s.record k) = false) :
    isEvictable ((evictPayloads limits requiredBytes preserved l s).record k) = false := by
  have once (s : ContentAvailabilityService κ) (k' : κ) (fixed : isEvictable (s.record k) = false) :
      isEvictable ((s.evictPayload k').record k) = false := by
    by_cases here : k = k'
    · rw [here]
      exact isEvictable_evictPayload s k'
    · rwa [record_evictPayload_of_ne s here]
  induction l generalizing s with
  | nil => exact fixed
  | cons k' rest ih =>
    rw [evictPayloads]
    split_ifs
    · exact ih s fixed
    · exact once s k' fixed
    · exact ih _ (once s k' fixed)

theorem evictPayloads_exhausted
    (short : (evictPayloads limits requiredBytes preserved l s).hasCacheSpace limits requiredBytes = false) :
    ∀ k ∈ l, k ≠ preserved → isEvictable ((evictPayloads limits requiredBytes preserved l s).record k) = false := by
  induction l generalizing s with
  | nil => exact nofun
  | cons k' rest ih =>
    intro k member other
    rw [evictPayloads] at short ⊢
    split_ifs at short ⊢ with skipped space
    · rcases mem_cons.mp member with here | later
      · refine isEvictable_evictPayloads rest s ?_
        rw [← here] at skipped
        simpa [other] using skipped
      · exact ih s short k later other
    · rw [space] at short
      cases short
    · rcases mem_cons.mp member with here | later
      · refine isEvictable_evictPayloads rest _ ?_
        rw [here]
        exact isEvictable_evictPayload s k'
      · exact ih _ short k later other

theorem total_lasting_evictPayloads :
    (evictPayloads limits requiredBytes preserved l s).records.total lasting = s.records.total lasting := by
  induction l generalizing s with
  | nil => rfl
  | cons k rest ih =>
    rw [evictPayloads]
    split_ifs with skipped space
    · exact ih s
    · exact total_lasting_evictPayload (by simp at skipped; exact skipped.2)
    · rw [ih,total_lasting_evictPayload (by simp at skipped; exact skipped.2)]

theorem keys_evictPayloads (known : ∀ k ∈ l, k ∈ s.records.keys) :
    (evictPayloads limits requiredBytes preserved l s).records.keys = s.records.keys := by
  have once (s : ContentAvailabilityService κ) (k : κ) (known : k ∈ s.records.keys) :
      (s.evictPayload k).records.keys = s.records.keys := by
    obtain ⟨r,found⟩ := mem_keys.mp known
    exact keys_insert_found found _
  induction l generalizing s with
  | nil => rfl
  | cons k rest ih =>
    have here := once s k (known k (.head _))
    rw [evictPayloads]
    split_ifs
    · exact ih s fun k' member => known k' (.tail _ member)
    · exact here
    · rw [ih _ fun k' member => here ▸ known k' (.tail _ member),here]

end

theorem lasting_le_weight (r : Record) : lasting r ≤ weight r := by
  unfold lasting
  split_ifs
  · exact Nat.zero_le _
  · exact le_rfl

theorem total_le_total {f g : Record → Nat} (le : ∀ r, f r ≤ g r) (records : SortedMap κ Record) :
    records.total f ≤ records.total g :=
  sum_le_sum fun _ _ => le _

/-- There is space for a payload, once the others have been evicted for it, just when it fits with those that cannot
    be. -/
theorem hasCacheSpace_makeCacheSpace (found : s.manifest = some m) (books : Books limits s waiting)
    (uncached : (s.record k).cachedPayload = false) (some : 0 < requiredBytes) :
    (s.makeCacheSpace limits requiredBytes k).hasCacheSpace limits requiredBytes ↔
      requiredBytes + s.records.total lasting ≤ limits.maximumCachedPayloadBytes := by
  have space (t : ContentAvailabilityService κ) : t.hasCacheSpace limits requiredBytes = true ↔
      requiredBytes + t.cachedBytes ≤ limits.maximumCachedPayloadBytes := by
    unfold hasCacheSpace
    rw [decide_eq_true_eq]
    omega
  have kept : Keeps limits m waiting s (s.makeCacheSpace limits requiredBytes k) := makeCacheSpace_keeps requiredBytes k
  have counted := (kept found books).2.cached
  have stays : (s.makeCacheSpace limits requiredBytes k).records.total lasting = s.records.total lasting := by
    unfold makeCacheSpace
    split_ifs
    · rfl
    · exact total_lasting_evictPayloads _ s
  have least := total_le_total lasting_le_weight (s.makeCacheSpace limits requiredBytes k).records
  constructor
  · intro has
    have fits := (space _).mp has
    omega
  · intro fits
    by_contra short
    rw [Bool.not_eq_true] at short
    have exhausted : (s.makeCacheSpace limits requiredBytes k).records.total weight =
        (s.makeCacheSpace limits requiredBytes k).records.total lasting := by
      unfold makeCacheSpace at short ⊢
      split_ifs at short ⊢ with before
      · rw [before] at short
        cases short
      · have all := evictPayloads_exhausted s.records.keys.reverse s short
        have keys : (evictPayloads limits requiredBytes k s.records.keys.reverse s).records.keys = s.records.keys :=
          keys_evictPayloads s.records.keys.reverse s fun k' member => mem_reverse.mp member
        refine congrArg List.sum (map_congr_left fun e member => ?_)
        have entry := find?_eq_some.mpr member
        have here : (evictPayloads limits requiredBytes k s.records.keys.reverse s).record e.1 = e.2 := by
          rw [record,recordOf,entry]
          rfl
        have fixed : isEvictable e.2 = false := by
          rw [← here]
          by_cases preserved : e.1 = k
          · rw [preserved,record_evictPayloads_preserved]
            unfold isEvictable
            rw [uncached]
            rfl
          · refine all e.1 ?_ preserved
            rw [mem_reverse,← keys]
            exact mem_keys.mpr ⟨e.2,entry⟩
        rw [lasting,fixed]
        rfl
    rw [Bool.eq_false_iff,ne_eq,space] at short
    omega

def Spotless (s : ContentAvailabilityService κ) : Prop := ∀ k, (s.record k).residency ≠ .failed

/-- No unit fails, and the queue is as it was. -/
def Clean (s t : ContentAvailabilityService κ) : Prop := (Spotless s → Spotless t) ∧ t.completions = s.completions

theorem Clean.refl : Clean s s := ⟨id,rfl⟩

theorem Clean.trans (first : Clean s t) (second : Clean t u) : Clean s u :=
  ⟨second.1 ∘ first.1,second.2.trans first.2⟩

theorem Gentle.clean (gentle : Gentle s t) : Clean s t :=
  ⟨fun spotless k => gentle.unfailed k (spotless k),gentle.completions⟩

def PayloadFits (limits : ContentAvailabilityLimits) (s : ContentAvailabilityService κ) (c : Completion κ) : Prop :=
  ∀ payload, incoming s c = some payload →
    payload.2 + s.records.total lasting ≤ limits.maximumCachedPayloadBytes

instance (limits : ContentAvailabilityLimits) (s : ContentAvailabilityService κ) (c : Completion κ) :
    Decidable (PayloadFits limits s c) :=
  inferInstanceAs (Decidable (∀ payload ∈ incoming s c, _))

variable {prepared : PreparedContent κ}

theorem acceptPayload_clean (found : s.manifest = some m) (books : Books limits s waiting) (key : prepared.key = k)
    (document : prepared.document = none → prepared.preparationDeferred)
    (declared : prepared.encodedBytes = compressedBytes m k) (positive : 0 < prepared.encodedBytes)
    (fits : (s.record k).cachedPayload = false →
      prepared.encodedBytes + s.records.total lasting ≤ limits.maximumCachedPayloadBytes) :
    Clean s (s.acceptPayload limits m k prepared) := by
  have right : ¬ (prepared.key ≠ k ∨ (prepared.document = none ∧ prepared.preparationDeferred = false) ∨
      prepared.encodedBytes ≠ compressedBytes m k) := by
    rintro (other | ⟨missing,refused⟩ | wrong)
    · exact other key
    · rw [document missing] at refused
      cases refused
    · exact wrong declared
  unfold acceptPayload
  dsimp only
  split_ifs with cached space
  · exact accept_gentle.clean
  · have uncached := Bool.eq_false_iff.mpr cached
    rw [(hasCacheSpace_makeCacheSpace found books uncached positive).mpr (fits uncached)] at space
    cases space
  · exact (makeCacheSpace_gentle.trans accept_gentle).clean

theorem compressedBytes_pos (known : m.entries.contains k) : 0 < compressedBytes m k := by
  obtain ⟨e,found⟩ := contains_iff.mp known
  unfold compressedBytes
  rw [found]
  exact (m.payload k e found).1

theorem drain_clean {c : Completion κ} (books : Books configuration.limits s (c :: waiting))
    (fits : PayloadFits configuration.limits s c) (delivered : ∀ job error, c.result ≠ .content job (.error error)) :
    Clean s (s.drain configuration c) := by
  obtain ⟨books',-⟩ := books.discharge
  have wholly := books.whole c (mem_append_left _ (.head _))
  unfold drain
  dsimp only
  split_ifs with stale
  · exact ⟨id,rfl⟩
  · split
    · exact ⟨id,rfl⟩
    · next m manifest =>
      refine ⟨fun _ k => ?_,rfl⟩
      have blank := undemanded_acceptManifest configuration.mode { s.discharge c with manifestInFlight := false } m k
      have state := congrArg Record.residency blank
      intro failed
      cases failed.symm.trans state
    · next job result content =>
      cases result with
      | error error => exact absurd content (delivered job error)
      | ok prepared =>
        obtain ⟨⟨m,found,reserved⟩,free⟩ := books.delivered content
        obtain ⟨key,encoded,document⟩ := wholly job prepared content
        have manifest : (s.discharge c).manifest = some m := found
        unfold drainContent
        rw [manifest]
        dsimp only
        split_ifs with unknown other withdrawn
        · exact ⟨id,rfl⟩
        · exact ⟨id,rfl⟩
        · refine Gentle.clean ?_
          exact .put rfl rfl (fun _ failed => by cases failed) rfl rfl
        · have acquiring : (s.record job.key).residency = .acquiring := not_not.mp other
          rw [Bool.not_eq_true',Bool.not_eq_false] at unknown
          rw [not_or,Bool.not_eq_true] at withdrawn
          let waits := (s.discharge c).put job.key { s.record job.key with requestCancelled := none }
          have first : Keeps configuration.limits m waiting (s.discharge c) waits := by
            have away := Record.isAway_of_eq acquiring (by decide)
            refine .settle rfl away (.inr (.inl free)) rfl rfl rfl rfl ⟨rfl,rfl,rfl,rfl,rfl,rfl,rfl⟩ ?_
            rw [acquiring]
            decide
          obtain ⟨found',books''⟩ := first manifest books'
          have same : waits.records.total lasting = s.records.total lasting := by
            have sum := total_insert_record (f := lasting) rfl s.records job.key
              { s.record job.key with requestCancelled := none }
            exact Nat.add_right_cancel sum
          refine .trans ?_ (acceptPayload_clean found' books'' key document (encoded.trans reserved) ?_ ?_)
          · have same : Gentle (s.discharge c) waits := .put rfl rfl id rfl rfl
            exact same.clean
          · rw [encoded,reserved]
            exact compressedBytes_pos unknown
          · intro uncached
            rw [record_put_self] at uncached
            change _ + waits.records.total lasting ≤ _
            rw [same]
            refine fits (job.key,prepared.encodedBytes) ?_
            unfold incoming
            rw [content]
            exact if_pos ⟨not_not.mp stale,acquiring,withdrawn.1,withdrawn.2,uncached⟩

variable {admission : κ → Admission}

theorem admitUnit_gentle (committed : ∀ k, admission k = .committed) (p : Pass κ) (k : κ) :
    Gentle p.service (admitUnit limits m admission p k).service := by
  unfold admitUnit
  dsimp only
  rw [committed k]
  split_ifs
  · exact .refl
  · exact .refl
  · exact .refl
  · exact prepareAgain_gentle k
  · exact .put rfl rfl (fun _ => nofun) rfl rfl

/-- The provider delivers every unit as it is declared, its document is decoded and its root is given its parent. -/
def Delivers : Event κ → Prop
  | .completeJob _ (.failed _) => False
  | .step admission _ => ∀ k, admission k = .committed
  | _ => True

/-- No document is over the limit by itself, and every payload fits the cache with those that cannot be evicted. -/
def Fits (configuration : ContentAvailabilityConfiguration) (s : ContentAvailabilityService κ) : Event κ → Prop
  | .completeJob _ (.decoded bytes) => bytes ≤ configuration.limits.maximumDecodedDocumentBytes
  | .step _ _ => s.stopped = true ∨ RunMeets (fun s c => some (drain configuration s c)) (PayloadFits configuration.limits)
      (takeCompletions configuration.limits s) (completed configuration.limits s)
  | _ => True

instance (configuration : ContentAvailabilityConfiguration) (s : ContentAvailabilityService κ) :
    (e : Event κ) → Decidable (Fits configuration s e)
  | .step _ _ => inferInstanceAs (Decidable (_ ∨ _))
  | .completeJob _ (.decoded _) => inferInstanceAs (Decidable (_ ≤ _))
  | .completeJob _ (.manifest _) | .completeJob _ (.failed _) | .requestContent _ | .releaseContent _ | .pinContent _
  | .unpinContent _ | .retryContent _ | .stop _ => isTrue trivial

/-- No unit has failed, and no completion in the queue makes one fail. -/
structure Faultless (s : ContentAvailabilityService κ) : Prop where
  spotless : Spotless s
  delivered : ∀ c ∈ s.completions, ∀ job error, c.result ≠ .content job (.error error)

theorem drains_clean (l : List (Completion κ)) (s : ContentAvailabilityService κ)
    (books : Books configuration.limits s (l ++ waiting))
    (fits : RunMeets (fun s c => some (drain configuration s c)) (PayloadFits configuration.limits) s l)
    (delivered : ∀ c ∈ l, ∀ job error, c.result ≠ .content job (.error error)) :
    Clean s (l.foldl (drain configuration) s) := by
  induction l generalizing s with
  | nil => exact .refl
  | cons c rest ih =>
    have ahead : Books configuration.limits s (c :: (rest ++ waiting)) := books
    have first := drain_clean ahead fits.1 (delivered c (.head _))
    refine first.trans (ih _ (drain_books configuration ahead) (fits.2 _ rfl) ?_)
    exact fun c' member => delivered c' (.tail _ member)

theorem Faultless.clean (faultless : Faultless s) (clean : Clean s t) : Faultless t := by
  refine ⟨clean.1 faultless.spotless,?_⟩
  rw [clean.2]
  exact faultless.delivered

theorem step_faultless (roots : κ → Root) (committed : ∀ k, admission k = .committed)
    (books : Books configuration.limits s []) (faultless : Faultless s)
    (fits : Fits configuration s (.step admission roots)) : Faultless (s.step configuration admission roots) := by
  refine step_rule faultless ?_ (fun t kept => kept.clean startRequests_gentle.clean) ?_ ?_
  · intro running
    have taken := takeCompletions_books books
    rw [← append_nil (completed configuration.limits s)] at taken
    have begun : Faultless (takeCompletions configuration.limits s) :=
      ⟨faultless.spotless,fun c member => faultless.delivered c (mem_of_mem_drop member)⟩
    refine begun.clean (drains_clean _ _ taken (fits.resolve_left running) ?_)
    exact fun c member => faultless.delivered c (mem_of_mem_take member)
  · intro m p k found kept
    have gentle : Gentle p.service (admitUnit configuration.limits m admission p k).service :=
      admitUnit_gentle committed p k
    exact ⟨gentle.manifest.trans found,kept.clean gentle.clean⟩
  · intro m p k found kept
    have gentle : Gentle p.service (evict configuration.limits m roots p k).service := evict_gentle roots p k
    exact ⟨gentle.manifest.trans found,kept.clean gentle.clean⟩

variable {job : ContentJob κ}

theorem enqueue_room {generation : Nat}
    (room : prepared.encodedBytes + s.completionBytes ≤ limits.maximumCompletedPayloadBytes) :
    (enqueue limits s generation job (.ok prepared)).completions =
      s.completions ++ [⟨generation,.content job (.ok prepared)⟩] := by
  have fits : prepared.encodedBytes ≤ limits.maximumCompletedPayloadBytes -
      min s.completionBytes limits.maximumCompletedPayloadBytes := by omega
  unfold enqueue
  dsimp only
  rw [decide_eq_true fits,Bool.or_true]
  rfl

theorem Books.room {j : Job κ} {index : Nat} (books : Books limits s [])
    (found : s.jobs[index]? = some j) (work : j.work = .content job) :
    job.reservedBytes + s.completionBytes ≤ limits.maximumCompletedPayloadBytes := by
  have reserved := books.ledger.reserved
  have bound := books.reservedBound
  have queued : (s.completions.map encodedBytes).sum ≤ (s.completions.map reservedBytes).sum := by
    refine sum_le_sum fun c member => ?_
    have whole := books.whole c member
    unfold encodedBytes reservedBytes
    split
    · next job prepared content =>
      rw [content]
      exact (whole job prepared content).2.1.le
    · exact Nat.zero_le _
  have mine : job.reservedBytes ≤ (s.jobs.map Job.reservedBytes).sum := by
    have here : j.reservedBytes = job.reservedBytes := by rw [Job.reservedBytes,work]
    rw [← here]
    exact single_le_sum (fun _ _ => Nat.zero_le _) _ (mem_map.mpr ⟨j,mem_of_getElem? found,rfl⟩)
  rw [items_bytes] at reserved
  rw [books.queued]
  omega

theorem completeJob_faultless {index : Nat} {outcome : Outcome κ} (books : Books configuration.limits s [])
    (faultless : Faultless s) (delivers : Delivers (.completeJob index outcome))
    (fits : Fits configuration s (.completeJob index outcome))
    (done : completeJob configuration.limits s index outcome = some t) : Faultless t := by
  have finish (t : ContentAvailabilityService κ) (c : Completion κ) (records : t.records = s.records)
      (completions : t.completions = s.completions ++ [c])
      (fine : ∀ job error, c.result ≠ .content job (.error error)) : Faultless t := by
    constructor
    · intro k
      rw [record,records]
      exact faultless.spotless k
    · rw [completions]
      intro c' member
      rcases mem_append.mp member with before | last
      · exact faultless.delivered c' before
      · rwa [mem_singleton.mp last]
  obtain ⟨_,_,_,_,_,shape⟩ := completeJob_cases done
  have records : t.records = s.records := by rw [shape]
  unfold completeJob at done
  cases found : s.jobs[index]? with
  | none =>
    rw [found] at done
    cases done
  | some j =>
    rw [found] at done
    dsimp only at done
    split at done
    · cases done
      exact finish _ _ records rfl fun _ _ other => by cases other
    · exact absurd delivers id
    · next job bytes work =>
      cases done
      have small : ¬ bytes > configuration.limits.maximumDecodedDocumentBytes := not_lt.mpr fits
      have room := books.room found work
      unfold finishPreparation at records ⊢
      split_ifs at records ⊢
      · exact finish _ _ records (enqueue_room room) fun _ _ other => by cases other
      · exact finish _ _ records (enqueue_room room) fun _ _ other => by cases other
    · cases done

theorem demand_faultless {change : PackageContentManifest κ → SortedMap κ Record → κ → Bool × SortedMap κ Record}
    (changes : ChangesDemand change) (k : κ) (faultless : Faultless s) : Faultless (demand change s k).2 := by
  rcases demand_cases change s k with refused | ⟨m,found,_,_,changed⟩
  · rwa [refused]
  · rw [changed]
    have same := changes _ (closed_undemanded s.records) m s.records k fun _ => rfl
    refine ⟨?_,faultless.delivered⟩
    intro k' failed
    exact faultless.spotless k' ((Record.undemanded_eq (same k')).1.symm.trans failed)

theorem retryContent_faultless (k : κ) (faultless : Faultless s) : (s.retryContent limits k).2 = s := by
  unfold retryContent
  cases s.manifest with
  | none => rfl
  | some m =>
    dsimp only
    rw [if_pos (by simp [faultless.spotless k])]

theorem operate_faultless {e : Event κ} (meets : Delivers e ∧ Fits configuration s e)
    (invariant : s.stopped = false → Books configuration.limits s [] ∧ Faultless s)
    (stepped : operate configuration s e = some t) (running : t.stopped = false) :
    Books configuration.limits t [] ∧ Faultless t := by
  obtain ⟨before,books'⟩ := operate_books (fun running => (invariant running).1) stepped running
  obtain ⟨books,faultless⟩ := invariant before
  refine ⟨books',?_⟩
  rcases operate_cases stepped with ⟨index,outcome,rfl,completed⟩ | ⟨admission,roots,rfl,rfl⟩ | ⟨_,k,changes,rfl⟩ |
    ⟨k,rfl⟩ | ⟨roots,-,rfl⟩
  · exact completeJob_faultless books faultless meets.1 meets.2 completed
  · exact step_faultless roots meets.1 books faultless meets.2
  · exact demand_faultless changes k faultless
  · rwa [retryContent_faultless k faultless]
  · rw [stop_stopped] at running
    cases running

theorem RunMeets.and {σ ε : Type} {step : σ → ε → Option σ} {always : ε → Prop} {condition : σ → ε → Prop} {s : σ}
    {events : List ε} (all : ∀ e ∈ events, always e) (meets : RunMeets step condition s events) :
    RunMeets step (fun s e => always e ∧ condition s e) s events := by
  induction events generalizing s with
  | nil => trivial
  | cons e rest ih =>
    refine ⟨⟨all e (.head _),meets.1⟩,?_⟩
    exact fun t stepped => ih (fun e' member => all e' (.tail _ member)) (meets.2 t stepped)

/-- In a run in which the provider delivers what is declared, no unit fails for want of capacity as long as every
    payload fits the cache with those that cannot be evicted and no document is over its limit by itself. -/
theorem capacity_run {configuration : ContentAvailabilityConfiguration} {events : List (Event κ)}
    (reached : run (operate configuration) new events = some s) (running : s.stopped = false)
    (delivers : ∀ e ∈ events, Delivers e) (fits : RunMeets (operate configuration) (Fits configuration) new events)
    (k : κ) : (s.record k).residency ≠ .failed := by
  have preserved (s : ContentAvailabilityService κ) (e : Event κ) (t : ContentAvailabilityService κ)
      (meets : Delivers e ∧ Fits configuration s e)
      (invariant : s.stopped = false → Books configuration.limits s [] ∧ Faultless s)
      (stepped : operate configuration s e = some t) :
      t.stopped = false → Books configuration.limits t [] ∧ Faultless t := operate_faultless meets invariant stepped
  have invariant := run_preserves_where preserved (fun _ => ⟨new_books,nofun,nofun⟩) (RunMeets.and delivers fits) reached
  exact (invariant running).2.spotless k

end
theorem capacity_bothResident : ∃ s, run (operate {}) new bothResident = some s ∧ (s.record 1).residency ≠ .failed := by
  obtain ⟨s,reached⟩ : ∃ s, run (operate {}) new bothResident = some s :=
    Option.isSome_iff_exists.mp (by decide +kernel)
  have running : ((run (operate {}) new bothResident).map stopped) = some false := by decide +kernel
  rw [reached] at running
  refine ⟨s,reached,capacity_run reached (Option.some.inj running) ?_ (by decide +kernel) 1⟩
  simp [bothResident,Delivers]

/-- Unit 1 depends on unit 0, and their payloads do not fit the smallest cache together. -/
def largeChain : PackageContentManifest Nat :=
  numbered ⟨[(0,{ compressedBytes := 600000, uncompressedBytes := 600000, objectCount := 1 }),
    (1,{ compressedBytes := 600000, uncompressedBytes := 600000, objectCount := 1, dependencies := [0] })],by decide⟩
    (by decide) (by decide)

def smallestCache : ContentAvailabilityConfiguration :=
  { limits := { smallCache.limits with maximumInFlight := 4, inFlight := by decide } }

/-- Both units are acquired, and the payload of the second comes first. -/
def dependentFirst : List (Event Nat) :=
  let step : Event Nat := .step (fun _ => .committed) (fun _ => .intact)
  [.completeJob 0 (.manifest (.ok largeChain)),step,.completeJob 1 (.decoded 16),step,.completeJob 0 (.decoded 16),step]

/-- The payload of a unit that waits for the other takes the cache from it. -/
theorem dependency_rejected : (∀ e ∈ dependentFirst, Delivers e) ∧ ∃ s,
    run (operate smallestCache) new dependentFirst = some s ∧
    s.stopped = false ∧ 0 ∈ dependencies largeChain 1 ∧ (s.record 0).residency = .failed ∧ (s.record 0).desire ≠ 0 ∧
    (s.record 1).residency = .available := by
  refine ⟨by simp [dependentFirst,Delivers],(run (operate smallestCache) new dependentFirst).get (by decide +kernel),?_,?_,?_,
    ?_,?_,?_⟩
  · exact (Option.some_get _).symm
  · decide +kernel
  · decide +kernel
  · decide +kernel
  · decide +kernel
  · decide +kernel

end Gargantuan.ContentAvailabilityService
