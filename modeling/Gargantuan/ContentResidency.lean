import Gargantuan.ContentLedger

/-!
Which units are resident. Every call but the one that stops the service is a sequence of
changes of one unit each. A unit becomes resident when all that it depends on is, and ceases
to be while no unit that depends on it is resident or being evicted, so the resident units are
closed under dependencies (`residency_run`).
-/
namespace Gargantuan.ContentAvailabilityService
open SortedMap List Record Prod
variable {κ : Type} [LinearOrder κ]

def stands (s : ContentAvailabilityService κ) (k : κ) : ContentResidencyState × Bool :=
  ((s.record k).residency,(s.record k).root)

def isHeld (s : ContentAvailabilityService κ) (k : κ) : Prop :=
  (s.record k).residency = .resident ∨ (s.record k).residency = .evicting

variable {s : ContentAvailabilityService κ} {m : PackageContentManifest κ} {k : κ}

theorem isHeld_congr {t : ContentAvailabilityService κ} (same : t.stands k = s.stands k) :
    t.isHeld k ↔ s.isHeld k := by
  have residency : (t.record k).residency = (s.record k).residency := congrArg fst same
  rw [isHeld,isHeld,residency]

theorem mem_dependents {d : κ} (member : k ∈ dependencies m d) : d ∈ dependents m k := by
  rw [dependents,mem_filter]
  refine ⟨?_,decide_eq_true member⟩
  unfold dependencies at member
  cases found : m.entries.find? d with
  | none =>
    rw [found] at member
    cases member
  | some e => exact mem_keys.mpr ⟨e,found⟩

theorem hasResidentDependent_false (none : s.hasResidentDependent m k = false) {d : κ}
    (depends : k ∈ dependencies m d) : ¬ s.isHeld d := by
  have off := any_eq_false.mp none d (mem_dependents depends)
  rw [isHeld]
  simpa using off

theorem dependenciesResident_iff :
    s.dependenciesResident m k ↔ ∀ d ∈ dependencies m k, (s.record d).residency = .resident := by
  rw [dependenciesResident,all_eq_true]
  simp only [decide_eq_true_eq]

theorem not_self_dependent (m : PackageContentManifest κ) (k : κ) : k ∉ dependencies m k := by
  unfold dependencies
  cases found : m.entries.find? k with
  | none => exact not_mem_nil
  | some e => exact fun member => (m.known k e found k member).1 rfl

structure Closed (s : ContentAvailabilityService κ) : Prop where
  rooted : ∀ k, (s.record k).root = true ↔ s.isHeld k
  closed : ∀ m, s.manifest = some m → ∀ k, s.isHeld k → ∀ d ∈ dependencies m k, (s.record d).residency = .resident
  blank : s.manifest = none → s.records = ∅

structure Move (s t : ContentAvailabilityService κ) : Prop where
  closed : ∀ m, t.manifest = some m → ∀ k, t.isHeld k → ∀ d ∈ dependencies m k, (t.record d).residency = .resident
  single : ∀ k k', (t.record k).residency ≠ (s.record k).residency →
    (t.record k').residency ≠ (s.record k').residency → k = k'
  unneeded : ∀ k, (s.record k).residency = .resident → (t.record k).residency ≠ .resident →
    ∀ m, s.manifest = some m → ∀ d, k ∈ dependencies m d → ¬ s.isHeld d ∧ ¬ t.isHeld d

abbrev Moves (s t : ContentAvailabilityService κ) : Prop := Relation.ReflTransGen Move s t

def Turns (m : PackageContentManifest κ) (s t : ContentAvailabilityService κ) : Prop :=
  s.manifest = some m → Closed s → t.manifest = some m ∧ Closed t ∧ Moves s t

section
variable {m : PackageContentManifest κ} {s t u : ContentAvailabilityService κ}

theorem Turns.refl : Turns m s s := fun found closed => ⟨found,closed,.refl⟩

theorem Turns.trans (first : Turns m s t) (second : Turns m t u) : Turns m s u := by
  intro found closed
  obtain ⟨found',closed',moves⟩ := first found closed
  obtain ⟨found'',closed'',onward⟩ := second found' closed'
  exact ⟨found'',closed'',moves.trans onward⟩

theorem Closed.congr (closed : Closed s) (found : s.manifest = some m) (manifest : t.manifest = s.manifest)
    (same : ∀ k, t.stands k = s.stands k) : Closed t := by
  have residency : ∀ k, (t.record k).residency = (s.record k).residency := fun k => congrArg fst (same k)
  have root : ∀ k, (t.record k).root = (s.record k).root := fun k => congrArg snd (same k)
  refine ⟨?_,?_,?_⟩
  · intro k
    rw [root,isHeld_congr (same k)]
    exact closed.rooted k
  · intro m found k held d member
    rw [residency]
    exact closed.closed m (manifest ▸ found) k ((isHeld_congr (same k)).mp held) d member
  · intro none
    rw [manifest,found] at none
    cases none

theorem Moves.still (closed : Closed t) (same : ∀ k, t.stands k = s.stands k) : Moves s t := by
  have residency : ∀ k, (t.record k).residency = (s.record k).residency := fun k => congrArg fst (same k)
  refine .single ⟨closed.closed,?_,?_⟩
  · intro k _ changed
    exact absurd (residency k) changed
  · intro k here gone
    rw [residency] at gone
    exact absurd here gone

theorem Turns.still (manifest : t.manifest = s.manifest) (same : ∀ k, t.stands k = s.stands k) : Turns m s t := by
  intro found closed
  have closed' := closed.congr found manifest same
  exact ⟨manifest.trans found,closed',.still closed' same⟩

variable {k : κ} {configuration : ContentAvailabilityConfiguration}

theorem Turns.change (manifest : t.manifest = s.manifest) (others : ∀ k', k' ≠ k → t.stands k' = s.stands k')
    (rooted : (t.record k).root ↔ t.isHeld k)
    (up : t.isHeld k → s.isHeld k ∨ ∀ d ∈ dependencies m k, (s.record d).residency = .resident)
    (down : (s.record k).residency = .resident → (t.record k).residency ≠ .resident →
      ∀ d, k ∈ dependencies m d → ¬ s.isHeld d) : Turns m s t := by
  intro found closed
  have residency : ∀ k', k' ≠ k → (t.record k').residency = (s.record k').residency :=
    fun k' other => congrArg fst (others k' other)
  have held : ∀ k', k' ≠ k → (t.isHeld k' ↔ s.isHeld k') := fun k' other => isHeld_congr (others k' other)
  have apart : ∀ k' d, d ∈ dependencies m k' → d ≠ k' := by
    rintro k' d member rfl
    exact not_self_dependent m d member
  have closed' : Closed t := by
    refine ⟨?_,?_,?_⟩
    · intro k'
      by_cases here : k' = k
      · rwa [here]
      · have root : (t.record k').root = (s.record k').root := congrArg snd (others k' here)
        rw [root,held k' here]
        exact closed.rooted k'
    · intro m' found' k' holds d member
      rw [manifest,found] at found'
      cases found'
      by_cases here : k' = k
      · subst here
        rw [residency d (apart k' d member)]
        rcases up holds with before | all
        · exact closed.closed m found k' before d member
        · exact all d member
      · have before := closed.closed m found k' ((held k' here).mp holds) d member
        by_cases same : d = k
        · subst same
          by_contra gone
          exact down before gone k' member ((held k' here).mp holds)
        · rwa [residency d same]
    · intro none
      rw [manifest,found] at none
      cases none
  refine ⟨manifest.trans found,closed',.single ⟨closed'.closed,?_,?_⟩⟩
  · intro a b changed changed'
    have left : a = k := by
      by_contra other
      exact changed (residency a other)
    have right : b = k := by
      by_contra other
      exact changed' (residency b other)
    rw [left,right]
  · intro k' here gone m' found' d member
    rw [found] at found'
    cases found'
    have same : k' = k := by
      by_contra other
      rw [residency k' other] at gone
      exact gone here
    subst same
    have off := down here gone d member
    exact ⟨off,fun holds => off ((held d (apart d k' member).symm).mp holds)⟩

theorem Turns.settle (manifest : t.manifest = s.manifest) (others : ∀ k', k' ≠ k → t.stands k' = s.stands k')
    (before : (s.record k).root = false) (root : (t.record k).root = false) (after : ¬ t.isHeld k) : Turns m s t := by
  intro found closed
  refine Turns.change manifest others ?_ (fun holds => absurd holds after) ?_ found closed
  · rw [root]
    constructor
    · intro never
      cases never
    · exact fun holds => absurd holds after
  · intro here
    have rooted := (closed.rooted k).mpr (.inl here)
    rw [before] at rooted
    cases rooted

theorem Turns.put {r : Record} (before : (s.record k).root = false) (root : r.root = false)
    (after : r.residency ≠ .resident ∧ r.residency ≠ .evicting) (records : t.records = s.records.insert k r)
    (manifest : t.manifest = s.manifest) : Turns m s t := by
  have here : t.record k = r := by rw [record,records,recordOf_insert,if_pos rfl]
  have others : ∀ k', k' ≠ k → t.stands k' = s.stands k' := by
    intro k' other
    rw [stands,record,records,recordOf_insert,if_neg other]
    rfl
  refine .settle manifest others before (here ▸ root) ?_
  rw [isHeld,here]
  exact not_or.mpr after

theorem Turns.same {r : Record} (residency : r.residency = (s.record k).residency) (root : r.root = (s.record k).root)
    (records : t.records = s.records.insert k r) (manifest : t.manifest = s.manifest) : Turns m s t := by
  refine .still manifest ?_
  intro k'
  by_cases here : k' = k
  · rw [stands,stands,record,records,recordOf_insert,if_pos here,residency,root,here]
  · rw [stands,record,records,recordOf_insert,if_neg here]
    rfl

theorem rootless (closed : Closed s) (away : (s.record k).residency ≠ .resident ∧ (s.record k).residency ≠ .evicting) :
    (s.record k).root = false := by
  rw [Bool.eq_false_iff]
  intro rooted
  rcases (closed.rooted k).mp rooted with resident | evicting
  · exact away.1 resident
  · exact away.2 evicting

/-! ### The turns of a step -/

theorem withdraw_turns (k : κ) : Turns m s (s.withdraw k) := by
  intro found closed
  unfold withdraw
  dsimp only
  split
  · next available =>
    have free := rootless closed (by rw [available]; decide)
    refine Turns.put free ?_ ?_ rfl rfl found closed
    · exact free
    · exact ⟨by simp,by simp⟩
  · next requested =>
    have free := rootless closed (by rw [requested]; decide)
    refine Turns.put free ?_ ?_ rfl rfl found closed
    · exact free
    · exact ⟨by simp,by simp⟩
  · split
    · split
      · exact Turns.refl found closed
      · exact Turns.still rfl (fun _ => rfl) found closed
    · exact Turns.refl found closed
  · exact Turns.refl found closed

theorem submit_turns (away : (s.record k).residency ≠ .resident ∧ (s.record k).residency ≠ .evicting)
    (expectedBytes : Nat) (cached : Bool) : Turns m s (s.submit k expectedBytes cached) := by
  intro found closed
  have free := rootless closed away
  refine Turns.put free ?_ ?_ rfl rfl found closed
  · exact free
  · exact ⟨by simp,by simp⟩

theorem submitContent_turns (requested : (s.record k).residency = .requested) : Turns m s (submitContent m s k) := by
  have first : Turns m s { s with pending := sizeSub s.pending 1 } := .still rfl fun _ => rfl
  refine first.trans (submit_turns ?_ _ _)
  change (s.record k).residency ≠ _ ∧ (s.record k).residency ≠ _
  rw [requested]
  decide

theorem submitCachedContent_turns (away : (s.record k).residency ≠ .resident ∧ (s.record k).residency ≠ .evicting) :
    Turns m s (s.submitCachedContent k) := by
  let pending := if (s.record k).residency = .requested then sizeSub s.pending 1 else s.pending
  have first : Turns m s { s with pending := pending } := .still rfl fun _ => rfl
  refine first.trans ?_
  exact submit_turns (s := { s with pending := pending }) away _ _

variable (limits : ContentAvailabilityLimits)

theorem submitRequested_turns (k : κ) : Turns m s (submitRequested limits m s k) := by
  unfold submitRequested
  split_ifs with other full busy cached
  · exact .refl
  · exact .refl
  · exact .refl
  · exact submitCachedContent_turns (by rw [not_not.mp other]; decide)
  · exact submitContent_turns (not_not.mp other)

theorem startRequest_turns (k : κ) : Turns m s (startRequest limits m s k) := by
  unfold startRequest
  split_ifs with undesired unavailable full
  · exact withdraw_turns k
  · exact .refl
  · refine .trans ?_ (submitRequested_turns limits k)
    intro found closed
    have free := rootless closed (by rw [unavailable]; decide)
    refine Turns.put free ?_ ?_ rfl rfl found closed
    · exact free
    · exact ⟨by simp,by simp⟩
  · exact submitRequested_turns limits k

theorem startRequests_turns : Turns m s (startRequests limits s) := by
  intro found closed
  unfold startRequests
  rw [found]
  refine foldlRecOn (motive := fun t => t.manifest = some m ∧ Closed t ∧ Moves s t) _ _ ⟨found,closed,.refl⟩ ?_
  intro t kept k _
  obtain ⟨found',closed',onward⟩ := startRequest_turns limits k kept.1 kept.2.1
  exact ⟨found',closed',kept.2.2.trans onward⟩

theorem evictPayload_turns (k : κ) : Turns m s (s.evictPayload k) := by
  intro found closed
  by_cases root : (s.record k).root = true
  · refine Turns.same ?_ ?_ rfl rfl found closed
    · simp [root]
    · rfl
  · have free : (s.record k).root = false := Bool.eq_false_iff.mpr root
    refine Turns.put free ?_ ?_ rfl rfl found closed
    · exact free
    · simp [free]

theorem evictPayloads_turns (requiredBytes : Nat) (preserved : κ) (l : List κ)
    (s : ContentAvailabilityService κ) : Turns m s (evictPayloads limits requiredBytes preserved l s) := by
  induction l generalizing s with
  | nil => exact .refl
  | cons k rest ih =>
    rw [evictPayloads]
    split_ifs
    · exact ih s
    · exact evictPayload_turns k
    · exact (evictPayload_turns k).trans (ih _)

theorem makeCacheSpace_turns (requiredBytes : Nat) (preserved : κ) :
    Turns m s (s.makeCacheSpace limits requiredBytes preserved) := by
  unfold makeCacheSpace
  split_ifs
  · exact .refl
  · exact evictPayloads_turns limits requiredBytes preserved _ s

theorem fail_turns (free : (s.record k).root = false) (report : Report) : Turns m s (s.fail k report) := by
  refine .put free ?_ ?_ rfl rfl
  · exact free
  · exact ⟨by simp,by simp⟩

theorem Record.keep_root (r : Record) (bytes : Nat) : (r.keep bytes).root = r.root := by
  unfold keep
  split_ifs <;> rfl

theorem accept_turns (free : (s.record k).root = false) (prepared : PreparedContent κ) :
    Turns m s (s.accept m k prepared) := by
  refine .put free ?_ ?_ rfl rfl
  · exact (keep_root _ _).trans free
  · exact ⟨by simp,by simp⟩

theorem acceptPayload_turns (free : (s.record k).root = false)
    (prepared : PreparedContent κ) : Turns m s (s.acceptPayload limits m k prepared) := by
  have free' : ((s.makeCacheSpace limits prepared.encodedBytes k).record k).root = false := by
    rwa [record_makeCacheSpace_preserved]
  unfold acceptPayload
  dsimp only
  split_ifs
  · exact fail_turns free _
  · exact accept_turns free prepared
  · exact (makeCacheSpace_turns limits _ k).trans (fail_turns free' _)
  · exact (makeCacheSpace_turns limits _ k).trans (accept_turns free' prepared)

theorem drainContent_turns (job : ContentJob κ)
    (result : Except ContentProviderError (PreparedContent κ)) : Turns m s (s.drainContent limits job result) := by
  intro found closed
  unfold drainContent
  rw [found]
  dsimp only
  split_ifs with unknown other withdrawn
  · exact Turns.refl found closed
  · exact Turns.refl found closed
  · have free := rootless closed (by rw [not_not.mp other]; decide)
    refine Turns.put free ?_ ?_ rfl rfl found closed
    · exact free
    · exact ⟨by simp,by simp⟩
  · have free := rootless closed (by rw [not_not.mp other]; decide)
    have started : Turns m s (s.put job.key { s.record job.key with requestCancelled := none }) := by
      refine .same ?_ ?_ rfl rfl
      · rfl
      · rfl
    have free' : ((s.put job.key { s.record job.key with requestCancelled := none }).record job.key).root = false := by
      rwa [record_put_self]
    cases result with
    | error error => exact started.trans (fail_turns free' _) found closed
    | ok prepared => exact started.trans (acceptPayload_turns limits free' prepared) found closed

theorem rejectAdmission_turns (available : (s.record k).residency = .available) (report : Report) :
    Turns m s (s.rejectAdmission k report) := by
  intro found closed
  have free := rootless closed (by rw [available]; decide)
  refine Turns.put free ?_ ?_ rfl rfl found closed
  · exact free
  · exact ⟨by simp,by simp⟩

theorem prepareAgain_turns (available : (s.record k).residency = .available) : Turns m s (s.prepareAgain limits k) := by
  unfold prepareAgain
  split_ifs
  · exact submitCachedContent_turns (by rw [available]; decide)
  · exact .refl

theorem admitUnit_turns (admission : κ → Admission) (p : Pass κ) (k : κ) :
    Turns m p.service (admitUnit limits m admission p k).service := by
  unfold admitUnit
  dsimp only
  split_ifs with full other deferred unprepared
  · exact .refl
  · exact .refl
  · exact .refl
  · exact prepareAgain_turns limits (by tauto)
  · have available : (p.service.record k).residency = .available := by tauto
    have ready : p.service.dependenciesResident m k := by
      simp only [Bool.not_eq_true'] at deferred
      rw [← Bool.not_eq_false]
      tauto
    cases admission k with
    | decodeRejected message => exact rejectAdmission_turns available _
    | commitRejected message => exact rejectAdmission_turns available _
    | committed =>
      refine .change rfl (k := k) ?_ ?_ ?_ ?_
      · intro k' different
        rw [stands,record_put_of_ne _ _ different,stands]
      · rw [isHeld]
        simp
      · exact fun _ => .inr (dependenciesResident_iff.mp ready)
      · intro resident
        rw [available] at resident
        cases resident

theorem evict_turns (roots : κ → Root) (p : Pass κ) (k : κ) : Turns m p.service (evict limits m roots p k).service := by
  have others (r : Record) : ∀ k', k' ≠ k → (p.service.put k r).stands k' = p.service.stands k' := by
    intro k' different
    rw [stands,record_put_of_ne _ _ different,stands]
  have unrooted (needless : p.service.hasResidentDependent m k = false) :
      Turns m p.service (p.service.put k (p.service.record k).unrooted) := by
    have away : ¬ (p.service.put k (p.service.record k).unrooted).isHeld k := by
      rw [isHeld,unrooted]
      split_ifs <;> simp
    refine .change rfl (others _) ?_ (fun holds => absurd holds away) ?_
    · rw [record_put_self]
      constructor
      · intro never
        cases never
      · exact fun holds => absurd holds away
    · exact fun _ _ d depends => hasResidentDependent_false needless depends
  unfold evict
  dsimp only
  split_ifs with full kept gone
  · exact .refl
  · exact .refl
  · exact unrooted (by simp at kept; tauto)
  · have needless : p.service.hasResidentDependent m k = false := by simp at kept; tauto
    have resident : (p.service.record k).residency = .resident := by tauto
    cases roots k with
    | destroyed => exact unrooted needless
    | withRuntimeChild => exact .refl
    | intact => exact unrooted needless
    | refusesDestruction =>
      refine .change rfl (others _) ?_ (fun _ => .inl (.inl resident)) ?_
      · rw [isHeld,record_put_self]
        simp only [or_true,iff_true]
        rw [not_or,Bool.not_eq_true',Bool.not_eq_false] at gone
        exact gone.1
      · exact fun _ _ d depends => hasResidentDependent_false needless depends

def IsLate (s : ContentAvailabilityService κ) (c : Completion κ) : Prop :=
  c.generation ≠ s.generation ∨ ∃ job result, c.result = .content job result ∧
    (job.request ∈ s.cancelled ∨ (s.record job.key).residency ≠ .acquiring)

theorem drainContent_late {job : ContentJob κ} (result : Except ContentProviderError (PreparedContent κ))
    (why : (s.record job.key).residency ≠ .acquiring ∨
      (s.record job.key).requestCancelled.any (fun request => decide (request ∈ s.cancelled))) (k : κ) :
    ((s.drainContent limits job result).record k).residency = (s.record k).residency ∨
      ((s.drainContent limits job result).record k).residency = .unavailable := by
  unfold drainContent
  split
  · exact .inl rfl
  · dsimp only
    split_ifs with unknown other withdrawn
    · exact .inl rfl
    · exact .inl rfl
    · by_cases here : k = job.key
      · right
        rw [here]
        exact congrArg residency (record_put_self s job.key _)
      · left
        exact congrArg residency (record_put_of_ne s _ here)
    · exact absurd (.inr (why.resolve_left (not_not.mpr (not_not.mp other)))) withdrawn

variable {waiting : List (Completion κ)} {c : Completion κ}

theorem drain_late (configuration : ContentAvailabilityConfiguration)
    (books : Books configuration.limits s (c :: waiting)) (late : s.IsLate c) (k : κ) :
    ((s.drain configuration c).record k).residency = (s.record k).residency ∨
      ((s.drain configuration c).record k).residency = .unavailable := by
  unfold drain
  dsimp only
  split_ifs with stale
  · exact .inl rfl
  · rcases late with other | ⟨job,result,content,why⟩
    · exact absurd other stale
    · rw [content]
      have listed : c.item ∈ items s (c :: waiting) := Books.mem_items
      have item : c.item.2 = some job := by
        unfold Completion.item
        rw [content]
      obtain ⟨_,requested⟩ := books.ledger.awaited c.item listed job item
      refine drainContent_late configuration.limits result ?_ k
      change (s.record job.key).residency ≠ _ ∨
        (s.record job.key).requestCancelled.any (fun request => decide (request ∈ s.cancelled)) = true
      rw [requested]
      exact why.symm.imp_right fun cancelled => decide_eq_true cancelled

/-! ### The calls -/

theorem not_isHeld_of_blank (blank : s.records = ∅) (k : κ) : ¬ s.isHeld k := by
  have here : s.record k = {} := by
    rw [record,blank]
    rfl
  rw [isHeld,here]
  simp

theorem acceptManifest_moves (mode : ContentResidencyMode) (closed : Closed s) (none : s.manifest = .none) :
    Closed (acceptManifest mode s m) ∧ Moves s (acceptManifest mode s m) := by
  have state (k : κ) : ((acceptManifest mode s m).record k).residency = .unavailable ∧
      ((acceptManifest mode s m).record k).root = false := by
    have same : ((acceptManifest mode s m).record k).undemanded = undemanded {} :=
      undemanded_acceptManifest mode s m k
    obtain ⟨residency,_,_,_,_,root⟩ := undemanded_eq same
    exact ⟨residency,root⟩
  have away (k : κ) : ¬ (acceptManifest mode s m).isHeld k := by
    rw [isHeld,(state k).1]
    simp
  have before (k : κ) : (s.record k).residency = .unavailable := by
    rw [record,closed.blank none]
    rfl
  have closed' : Closed (acceptManifest mode s m) := by
    refine ⟨?_,fun _ _ k held => absurd held (away k),fun absent => by cases absent⟩
    intro k
    rw [(state k).2]
    exact ⟨(fun root => by cases root),fun held => absurd held (away k)⟩
  refine ⟨closed',.single ⟨closed'.closed,?_,?_⟩⟩
  · intro k _ changed
    rw [(state k).1,before] at changed
    exact absurd rfl changed
  · intro k here
    rw [before] at here
    cases here

section
variable (configuration : ContentAvailabilityConfiguration)

theorem drain_moves (books : Books configuration.limits s (c :: waiting)) (closed : Closed s) :
    Closed (s.drain configuration c) ∧ Moves s (s.drain configuration c) := by
  have aside (t : ContentAvailabilityService κ) (manifest : t.manifest = s.manifest) (records : t.records = s.records) :
      Closed t ∧ Moves s t := by
    have same (k : κ) : t.stands k = s.stands k := by rw [stands,record,records,stands,record]
    cases found : s.manifest with
    | none =>
      have closed' : Closed t := by
        have away (k : κ) : ¬ t.isHeld k := by
          rw [isHeld_congr (same k)]
          exact not_isHeld_of_blank (closed.blank found) k
        refine ⟨?_,fun _ _ k held => absurd held (away k),?_⟩
        · intro k
          rw [show (t.record k).root = (s.record k).root from congrArg snd (same k),isHeld_congr (same k)]
          exact closed.rooted k
        · intro _
          rw [records]
          exact closed.blank found
      exact ⟨closed',.still closed' same⟩
    | some m =>
      have turned := Turns.still manifest same found closed
      exact turned.2
  unfold drain
  dsimp only
  split_ifs
  · exact aside _ rfl rfl
  · split
    · exact aside _ rfl rfl
    · next m manifest =>
      obtain ⟨closed',first⟩ := aside { s.discharge c with manifestInFlight := false } rfl rfl
      obtain ⟨closed'',second⟩ := acceptManifest_moves configuration.mode closed'
        (books.unmanifested manifest)
      exact ⟨closed'',first.trans second⟩
    · next job result content =>
      obtain ⟨⟨m,found,_⟩,-⟩ := books.delivered content
      obtain ⟨closed',first⟩ := aside (s.discharge c) rfl rfl
      obtain ⟨_,closed'',second⟩ := drainContent_turns (s := s.discharge c) configuration.limits job result
        found closed'
      exact ⟨closed'',first.trans second⟩

theorem drains_moves (l : List (Completion κ))
    (s : ContentAvailabilityService κ) (books : Books configuration.limits s (l ++ waiting)) (closed : Closed s) :
    Closed (l.foldl (drain configuration) s) ∧ Moves s (l.foldl (drain configuration) s) := by
  induction l generalizing s with
  | nil => exact ⟨closed,.refl⟩
  | cons c rest ih =>
    have ahead : Books configuration.limits s (c :: (rest ++ waiting)) := books
    obtain ⟨closed',first⟩ := drain_moves configuration ahead closed
    obtain ⟨closed'',onward⟩ := ih _ (drain_books configuration books) closed'
    exact ⟨closed'',first.trans onward⟩

end

theorem takeCompletions_closed (closed : Closed s) : Closed (takeCompletions limits s) :=
  ⟨closed.rooted,closed.closed,closed.blank⟩

theorem takeCompletions_moves (closed : Closed s) : Moves s (takeCompletions limits s) :=
  Moves.still (takeCompletions_closed limits closed) fun _ => rfl

theorem startRequests_moves (closed : Closed s) :
    Closed (startRequests limits s) ∧ Moves s (startRequests limits s) := by
  cases found : s.manifest with
  | none =>
    unfold startRequests
    rw [found]
    exact ⟨closed,.refl⟩
  | some m => exact (startRequests_turns limits found closed).2

theorem step_moves (admission : κ → Admission) (roots : κ → Root) (books : Books configuration.limits s [])
    (closed : Closed s) :
    Closed (s.step configuration admission roots) ∧ Moves s (s.step configuration admission roots) := by
  have taken := takeCompletions_books books
  rw [← append_nil (completed configuration.limits s)] at taken
  obtain ⟨drained,drains⟩ := drains_moves configuration (completed configuration.limits s)
    (takeCompletions configuration.limits s) taken (takeCompletions_closed configuration.limits closed)
  refine step_rule (P := fun t => Closed t ∧ Moves s t) ⟨closed,.refl⟩
    (fun _ => ⟨drained,(takeCompletions_moves configuration.limits closed).trans drains⟩) ?_ ?_ ?_
  · rintro t ⟨closed,upto⟩
    obtain ⟨started,starts⟩ := startRequests_moves configuration.limits closed
    exact ⟨started,upto.trans starts⟩
  · rintro m p k found ⟨closed,upto⟩
    obtain ⟨found',admitted,admits⟩ := admitUnit_turns configuration.limits admission p k found closed
    exact ⟨found',admitted,upto.trans admits⟩
  · rintro m p k found ⟨closed,upto⟩
    obtain ⟨found',evicted,evicts⟩ := evict_turns configuration.limits roots p k found closed
    exact ⟨found',evicted,upto.trans evicts⟩

theorem demand_moves {change : PackageContentManifest κ → SortedMap κ Record → κ → Bool × SortedMap κ Record}
    (changes : ChangesDemand change) (k : κ) (closed : Closed s) :
    Closed (demand change s k).2 ∧ Moves s (demand change s k).2 := by
  rcases demand_cases change s k with refused | ⟨m,found,_,_,changed⟩
  · rw [refused]
    exact ⟨closed,.refl⟩
  · rw [changed]
    have same := changes _ (closed_undemanded s.records) m s.records k fun _ => rfl
    have turned : Turns m s { s with records := (change m s.records k).2 } := by
      refine .still rfl ?_
      intro k'
      obtain ⟨residency,_,_,_,_,root⟩ := undemanded_eq (same k')
      exact Prod.ext residency root
    exact (turned found closed).2

theorem retryContent_moves (k : κ) (closed : Closed s) :
    Closed (s.retryContent limits k).2 ∧ Moves s (s.retryContent limits k).2 := by
  unfold retryContent
  cases found : s.manifest with
  | none => exact ⟨closed,.refl⟩
  | some m =>
    dsimp only
    split_ifs with refused
    · exact ⟨closed,.refl⟩
    · have failed : (s.record k).residency = .failed := by
        simp at refused
        exact refused.2
      have free := rootless closed (by rw [failed]; decide)
      have turned : Turns m s (s.put k { s.record k with residency := .unavailable }) := by
        refine .put free ?_ ?_ rfl rfl
        · exact free
        · exact ⟨by simp,by simp⟩
      obtain ⟨_,closed',first⟩ := turned found closed
      obtain ⟨closed'',second⟩ := startRequests_moves limits closed'
      exact ⟨closed'',first.trans second⟩

theorem operate_moves {e : Event κ} (going : ∀ roots, e ≠ .stop roots) (books : Books configuration.limits s [])
    (closed : Closed s) (stepped : operate configuration s e = some t) : Closed t ∧ Moves s t := by
  rcases operate_cases stepped with ⟨_,_,-,completed⟩ | ⟨admission,roots,-,rfl⟩ | ⟨_,k,changes,rfl⟩ | ⟨k,rfl⟩ |
    ⟨roots,rfl,-⟩
  · obtain ⟨j,c,_,_,_,rfl⟩ := completeJob_cases completed
    exact ⟨⟨closed.rooted,closed.closed,closed.blank⟩,.still ⟨closed.rooted,closed.closed,closed.blank⟩ fun _ => rfl⟩
  · exact step_moves admission roots books closed
  · exact demand_moves changes k closed
  · exact retryContent_moves configuration.limits k closed
  · exact absurd rfl (going roots)

theorem stop_blank {roots : κ → Root} (running : s.stopped = false) (destructible : ∀ k, roots k ≠ .refusesDestruction) :
    (s.stop roots).records = ∅ := by
  have taken (l : List κ) (p : Pass κ) (calm : p.thrown = false) : (l.foldl (stopUnit roots) p).thrown = false := by
    induction l generalizing p with
    | nil => exact calm
    | cons k rest ih =>
      refine ih _ ?_
      unfold stopUnit
      dsimp only
      split_ifs with thrown refused
      · exact calm
      · exact absurd refused.2 (destructible k)
      · exact calm
  have whole := taken s.records.keys { service := s.stopping } rfl
  unfold stop
  dsimp only
  rw [running,whole]
  rfl

theorem operate_closed {e : Event κ} (invariant : s.stopped = false → Books configuration.limits s [] ∧ Closed s)
    (stepped : operate configuration s e = some t) (running : t.stopped = false) :
    Books configuration.limits t [] ∧ Closed t := by
  obtain ⟨before,books⟩ := operate_books (fun running => (invariant running).1) stepped running
  obtain ⟨books',closed⟩ := invariant before
  have going : ∀ roots, e ≠ .stop roots := by
    rintro roots rfl
    cases stepped
    rw [stop_stopped] at running
    cases running
  exact ⟨books,(operate_moves going books' closed stepped).1⟩

theorem new_closed : Closed (new : ContentAvailabilityService κ) := by
  refine ⟨?_,nofun,fun _ => rfl⟩
  intro k
  constructor
  · exact nofun
  · rintro (never | never) <;> cases never

theorem closed_run {events : List (Event κ)} (reached : run (operate configuration) new events = some s) :
    s.stopped = false → Books configuration.limits s [] ∧ Closed s := by
  have preserved (s : ContentAvailabilityService κ) (e : Event κ) (t : ContentAvailabilityService κ)
      (invariant : s.stopped = false → Books configuration.limits s [] ∧ Closed s)
      (stepped : operate configuration s e = some t) : t.stopped = false → Books configuration.limits t [] ∧ Closed t :=
    operate_closed invariant stepped
  exact run_preserves preserved (fun _ => ⟨new_books,new_closed⟩) reached

end

/-- A manifest of numbered units that depend on lower ones. -/
def numbered (entries : SortedMap Nat (PackageContentEntry Nat)) (units : entries.size ≤ maximumPackageContentUnits)
    (checked : ∀ e ∈ entries.entries, (0 < e.2.compressedBytes ∧ e.2.compressedBytes ≤ maximumPackageContentPayloadBytes ∧
      e.2.uncompressedBytes = e.2.compressedBytes) ∧
      (0 < e.2.objectCount ∧ e.2.objectCount ≤ maximumPackageContentObjectsPerUnit) ∧
      e.2.dependencies.Pairwise (· < ·) ∧ ∀ d ∈ e.2.dependencies, d < e.1 ∧ entries.contains d = true) :
    PackageContentManifest Nat where
  entries := entries
  units := units
  payload k e found := (checked (k,e) (find?_eq_some.mp found)).1
  objects k e found := (checked (k,e) (find?_eq_some.mp found)).2.1
  ascending k e found := (checked (k,e) (find?_eq_some.mp found)).2.2.1
  known k e found d member :=
    have lower := (checked (k,e) (find?_eq_some.mp found)).2.2.2 d member
    ⟨lower.1.ne,lower.2⟩
  acyclic := ⟨id,fun k e found d member => ((checked (k,e) (find?_eq_some.mp found)).2.2.2 d member).1⟩

def twoUnits : PackageContentManifest Nat :=
  numbered ⟨[(0,{ compressedBytes := 8, uncompressedBytes := 8, objectCount := 1 }),
    (1,{ compressedBytes := 8, uncompressedBytes := 8, objectCount := 1, dependencies := [0] })],by decide⟩
    (by decide) (by decide)

def bothResident : List (Event Nat) :=
  let step : Event Nat := .step (fun _ => .committed) (fun _ => .intact)
  [.completeJob 0 (.manifest (.ok twoUnits)),step,.completeJob 0 (.decoded 16),.completeJob 0 (.decoded 16),step,
    .completeJob 0 (.decoded 16),step]

end Gargantuan.ContentAvailabilityService
