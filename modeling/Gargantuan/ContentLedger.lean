import Gargantuan.ContentAvailability

/-!
What the availability service owes: for every job whose completion has not been drained it
holds one place in flight and the bytes of the payload, and the unit of a content job waits
for it. Beside it stands what the units retain (`Books`).
-/
namespace Gargantuan.ContentAvailabilityService
open List SortedMap Record Job
variable {κ : Type} [LinearOrder κ]

theorem recordOf_insert (records : SortedMap κ Record) (k k' : κ) (r : Record) :
    recordOf (records.insert k r) k' = if k' = k then r else recordOf records k' := by
  unfold recordOf
  rw [find?_insert]
  split_ifs <;> rfl

@[simp] theorem record_put_self (s : ContentAvailabilityService κ) (k : κ) (r : Record) : (s.put k r).record k = r := by
  rw [record,put,recordOf_insert,if_pos rfl]

theorem record_put_of_ne (s : ContentAvailabilityService κ) {k k' : κ} (r : Record) (other : k' ≠ k) :
    (s.put k r).record k' = s.record k' := by
  rw [record,put,recordOf_insert,if_neg other,record]

variable {f : Record → Nat} {r : Record}

theorem total_insert_record (none : f {} = 0) (records : SortedMap κ Record) (k : κ) (r : Record) :
    (records.insert k r).total f + f (recordOf records k) = records.total f + f r := by
  unfold recordOf
  cases found : records.find? k with
  | none => rw [Option.getD_none,none,total_insert_new f found,Nat.add_zero]
  | some before => exact total_insert f found r

theorem le_total_record (none : f {} = 0) (records : SortedMap κ Record) (k : κ) :
    f (recordOf records k) ≤ records.total f := by
  have sum := total_insert_record none records k {}
  omega

def Record.undemanded (r : Record) : Record := { r with directDemand := 0, dependencyDemand := 0, pins := 0 }

variable {r' : Record}

theorem Record.undemanded_eq (same : r.undemanded = r'.undemanded) :
    r.residency = r'.residency ∧ r.requestCancelled = r'.requestCancelled ∧ r.cachedPayload = r'.cachedPayload ∧
      r.prepared = r'.prepared ∧ r.encodedBytes = r'.encodedBytes ∧ r.root = r'.root := by
  simpa only [undemanded,mk.injEq,true_and] using same

def ClosedUnderDemand (P : SortedMap κ Record → Prop) : Prop :=
  ∀ records k r, r.undemanded = (recordOf records k).undemanded → P records → P (records.insert k r)

variable {P : SortedMap κ Record → Prop}

theorem adjust_preserves (each : ClosedUnderDemand P) (m : PackageContentManifest κ)
    (add : Bool) (fuel : Nat) (stack : List κ) (records : SortedMap κ Record) (holds : P records) :
    P (adjust m add fuel stack records) := by
  induction fuel generalizing stack records with
  | zero =>
    exact holds
  | succ fuel ih =>
    cases stack with
    | nil => exact holds
    | cons d rest =>
      rw [adjust]
      dsimp only
      split_ifs
      · exact ih _ _ holds
      · exact ih _ _ (each _ _ _ rfl holds)
      · exact ih _ _ (each _ _ _ rfl holds)
      · exact ih _ _ holds
      · exact ih _ _ (each _ _ _ rfl holds)
      · exact ih _ _ (each _ _ _ rfl holds)

def ChangesDemand
    (change : PackageContentManifest κ → SortedMap κ Record → κ → Bool × SortedMap κ Record) : Prop :=
  ∀ P, ClosedUnderDemand P → ∀ m records k, P records → P (change m records k).2

theorem request_changesDemand : ChangesDemand (request (κ := κ)) := by
  intro P each m records k holds
  unfold request
  dsimp only
  split_ifs
  · exact holds
  · exact each _ _ _ rfl holds
  · exact adjust_preserves each _ _ _ _ _ (each _ _ _ rfl holds)
  · exact each _ _ _ rfl holds

theorem release_changesDemand : ChangesDemand (release (κ := κ)) := by
  intro P each m records k holds
  unfold release
  dsimp only
  split_ifs
  · exact holds
  · exact adjust_preserves each _ _ _ _ _ (each _ _ _ rfl holds)
  · exact each _ _ _ rfl holds

theorem pin_changesDemand : ChangesDemand (pin (κ := κ)) := by
  intro P each m records k holds
  unfold pin
  dsimp only
  split_ifs
  · exact holds
  · exact adjust_preserves each _ _ _ _ _ (each _ _ _ rfl holds)
  · exact each _ _ _ rfl holds

theorem unpin_changesDemand : ChangesDemand (unpin (κ := κ)) := by
  intro P each m records k holds
  unfold unpin
  dsimp only
  split_ifs
  · exact holds
  · exact adjust_preserves each _ _ _ _ _ (each _ _ _ rfl holds)
  · exact each _ _ _ rfl holds

theorem closed_undemanded (before : SortedMap κ Record) :
    ClosedUnderDemand fun records => ∀ k, (recordOf records k).undemanded = (recordOf before k).undemanded := by
  intro records k r same holds k'
  rw [recordOf_insert]
  split_ifs with here
  · rw [here,same]
    exact holds k
  · exact holds k'

theorem closed_total (none : f {} = 0) (blind : ∀ r : Record, f r = f r.undemanded) (n : Nat) :
    ClosedUnderDemand fun records : SortedMap κ Record => records.total f = n := by
  intro records k r same holds
  have equal : f r = f (recordOf records k) := by rw [blind r,same,← blind]
  have sum := total_insert_record none records k r
  omega

theorem demand_cases (change : PackageContentManifest κ → SortedMap κ Record → κ → Bool × SortedMap κ Record)
    (s : ContentAvailabilityService κ) (k : κ) : (demand change s k).2 = s ∨
      ∃ m, s.manifest = some m ∧ s.stopped = false ∧ m.entries.contains k ∧
        (demand change s k).2 = { s with records := (change m s.records k).2 } := by
  unfold demand
  cases found : s.manifest with
  | none => exact .inl rfl
  | some m =>
    dsimp only
    split_ifs with refused
    · exact .inl rfl
    · rw [Bool.or_eq_true,not_or,Bool.not_eq_true,Bool.not_eq_true',Bool.not_eq_false] at refused
      exact .inr ⟨m,rfl,refused.1,refused.2,rfl⟩

/-! ### The ledger -/

abbrev Item (κ : Type) : Type := Nat × Option (ContentJob κ)

def Job.item (j : Job κ) : Item κ :=
  (j.generation,match j.work with | .manifest => none | .content job => some job)

def Completion.item (c : Completion κ) : Item κ :=
  (c.generation,match c.result with | .manifest _ => none | .content job _ => some job)

def Item.bytes (i : Item κ) : Nat := (i.2.map ContentJob.reservedBytes).getD 0

def Item.key (i : Item κ) : Option κ := i.2.map ContentJob.key

theorem Completion.bytes_item (c : Completion κ) : Item.bytes c.item = c.reservedBytes := by
  unfold Completion.item Completion.reservedBytes Item.bytes
  cases c.result <;> rfl

def items (s : ContentAvailabilityService κ) (waiting : List (Completion κ)) : List (Item κ) :=
  s.jobs.map Job.item ++ (waiting ++ s.completions).map Completion.item

structure Ledger (s : ContentAvailabilityService κ) (l : List (Item κ)) : Prop where
  counted : s.inFlight = l.length
  reserved : s.reservedCompletionBytes = (l.map Item.bytes).sum
  current : ∀ i ∈ l, i.1 = s.generation
  distinct : (l.map Item.key).Nodup
  early : ∀ i ∈ l, i.2 = none → s.manifest = none
  awaited : ∀ i ∈ l, ∀ job, i.2 = some job → (s.record job.key).residency = .acquiring ∧
    (s.record job.key).requestCancelled = some job.request
  declared : ∀ i ∈ l, ∀ job, i.2 = some job → ∃ m, s.manifest = some m ∧ job.reservedBytes = compressedBytes m job.key

def weight (r : Record) : Nat := if r.cachedPayload then r.encodedBytes else 0

structure IsPayload (m : PackageContentManifest κ) (k : κ) (r : Record) : Prop where
  encoded : r.encodedBytes = if r.cachedPayload then compressedBytes m k else 0
  available : r.residency = .available → r.cachedPayload = true
  resident : r.residency = .resident → r.prepared = none
  rooted : r.root = true → r.residency = .resident ∨ r.residency = .evicting

def Record.IsAway (r : Record) : Prop := r.residency ≠ .resident ∧ r.residency ≠ .evicting

theorem Record.isAway_of_eq {state : ContentResidencyState} (here : r.residency = state)
    (away : state ≠ .resident ∧ state ≠ .evicting) : r.IsAway := by
  rwa [Record.IsAway,here]

variable {m : PackageContentManifest κ}

theorem IsPayload.rootless {k : κ} (payload : IsPayload m k r) (away : r.IsAway) : r.root = false := by
  rw [Bool.eq_false_iff]
  intro rooted
  rcases payload.rooted rooted with resident | evicting
  · exact away.1 resident
  · exact away.2 evicting

theorem IsPayload.settle {k : κ} (payload : IsPayload m k r)
    (away : r.IsAway) (retained : r'.cachedPayload = r.cachedPayload) (encoded : r'.encodedBytes = r.encodedBytes)
    (root : r'.root = r.root) (state : r'.residency ≠ .available ∧ r'.residency ≠ .resident) : IsPayload m k r' := by
  refine ⟨?_,fun here => absurd here state.1,fun here => absurd here state.2,?_⟩
  · rw [encoded,retained]
    exact payload.encoded
  · intro rooted
    rw [root,payload.rootless away] at rooted
    cases rooted

def Completion.IsWhole (c : Completion κ) : Prop :=
  ∀ job prepared, c.result = .content job (.ok prepared) → prepared.key = job.key ∧
    prepared.encodedBytes = job.reservedBytes ∧ (prepared.document = none → prepared.preparationDeferred = true)

structure Books (limits : ContentAvailabilityLimits) (s : ContentAvailabilityService κ)
    (waiting : List (Completion κ)) : Prop where
  ledger : Ledger s (items s waiting)
  reservedBound : s.reservedCompletionBytes ≤ limits.maximumCompletedPayloadBytes
  blank : s.manifest = none → s.records = ∅
  payload : ∀ m, s.manifest = some m → ∀ k, IsPayload m k (s.record k)
  cached : s.cachedBytes = s.records.total weight
  cachedBound : s.cachedBytes ≤ limits.maximumCachedPayloadBytes
  queued : s.completionBytes = (s.completions.map Completion.encodedBytes).sum
  whole : ∀ c ∈ waiting ++ s.completions, c.IsWhole

section
variable {limits : ContentAvailabilityLimits} {m : PackageContentManifest κ} {s t u : ContentAvailabilityService κ}
  {waiting : List (Completion κ)} {k : κ} {r : Record} {configuration : ContentAvailabilityConfiguration}

theorem IsPayload.of_undemanded (same : r'.undemanded = r.undemanded) (payload : IsPayload m k r) :
    IsPayload m k r' := by
  obtain ⟨residency,_,cached,prepared,encoded,root⟩ := undemanded_eq same
  refine ⟨?_,?_,?_,?_⟩
  · rw [encoded,cached]
    exact payload.encoded
  · rw [residency,cached]
    exact payload.available
  · rw [residency,prepared]
    exact payload.resident
  · rw [root,residency]
    exact payload.rooted

/-- No job is under way for the unit. -/
def IsFree (s : ContentAvailabilityService κ) (waiting : List (Completion κ)) (k : κ) : Prop :=
  ∀ i ∈ items s waiting, Item.key i ≠ some k

theorem Books.isFree (books : Books limits s waiting) (idle : (s.record k).residency ≠ .acquiring) :
    s.IsFree waiting k := by
  intro i member same
  obtain ⟨job,found,here⟩ := Option.map_eq_some_iff.mp same
  have awaited := (books.ledger.awaited i member job found).1
  rw [here] at awaited
  exact idle awaited

structure SameBooks (s t : ContentAvailabilityService κ) : Prop where
  generation : t.generation = s.generation
  jobs : t.jobs = s.jobs
  completions : t.completions = s.completions
  completionBytes : t.completionBytes = s.completionBytes
  manifest : t.manifest = s.manifest
  inFlight : t.inFlight = s.inFlight
  reserved : t.reservedCompletionBytes = s.reservedCompletionBytes

theorem SameBooks.items (same : SameBooks s t) (waiting : List (Completion κ)) : t.items waiting = s.items waiting := by
  rw [ContentAvailabilityService.items,same.jobs,same.completions,ContentAvailabilityService.items]

theorem Books.renew (books : Books limits s waiting) (same : SameBooks s t) (found : s.manifest = some m)
    (awaited : ∀ k, s.IsFree waiting k ∨ ((t.record k).residency = (s.record k).residency ∧
      (t.record k).requestCancelled = (s.record k).requestCancelled))
    (payload : ∀ k, IsPayload m k (s.record k) → IsPayload m k (t.record k))
    (cached : s.cachedBytes = s.records.total weight → t.cachedBytes = t.records.total weight)
    (bound : t.cachedBytes ≤ limits.maximumCachedPayloadBytes) : Books limits t waiting := by
  obtain ⟨ledger,reservedBound,blank,payloads,total,cachedBound,queued,whole⟩ := books
  refine ⟨⟨?_,?_,?_,?_,?_,?_,?_⟩,?_,?_,?_,cached total,bound,?_,?_⟩
  · rw [same.inFlight,same.items]
    exact ledger.counted
  · rw [same.reserved,same.items]
    exact ledger.reserved
  · rw [same.generation,same.items]
    exact ledger.current
  · rw [same.items]
    exact ledger.distinct
  · rw [same.items,same.manifest]
    exact ledger.early
  · intro i member job job_eq
    rw [same.items] at member
    rcases awaited job.key with free | ⟨residency,requestCancelled⟩
    · exact absurd (Option.map_eq_some_iff.mpr ⟨job,job_eq,rfl⟩) (free i member)
    · rw [residency,requestCancelled]
      exact ledger.awaited i member job job_eq
  · rw [same.items,same.manifest]
    exact ledger.declared
  · rwa [same.reserved]
  · intro none
    rw [same.manifest,found] at none
    cases none
  · intro m' found' k
    rw [same.manifest,found] at found'
    cases found'
    exact payload k (payloads m found k)
  · rwa [same.completionBytes,same.completions]
  · rwa [same.completions]

theorem weight_of_isPayload (payload : IsPayload m k r) : weight r = r.encodedBytes := by
  unfold weight
  rw [payload.encoded]
  split_ifs <;> rfl

theorem sizeSub_of_le {a b : Nat} (le : b ≤ a) : sizeSub a b = a - b := if_pos le

def Keeps (limits : ContentAvailabilityLimits) (m : PackageContentManifest κ) (waiting : List (Completion κ))
    (s t : ContentAvailabilityService κ) : Prop :=
  s.manifest = some m → Books limits s waiting → t.manifest = some m ∧ Books limits t waiting

theorem Keeps.refl : Keeps limits m waiting s s := fun found books => ⟨found,books⟩

theorem Keeps.trans (first : Keeps limits m waiting s t) (second : Keeps limits m waiting t u) :
    Keeps limits m waiting s u := by
  intro found books
  obtain ⟨found',books'⟩ := first found books
  exact second found' books'

def Idle (s : ContentAvailabilityService κ) (waiting : List (Completion κ)) (k : κ) (r : Record) : Prop :=
  (s.record k).residency ≠ .acquiring ∨ s.IsFree waiting k ∨
    (r.residency = (s.record k).residency ∧ r.requestCancelled = (s.record k).requestCancelled)

theorem Keeps.renew (same : SameBooks s t) (records : t.records = s.records.insert k r) (idle : Idle s waiting k r)
    (payload : IsPayload m k (s.record k) → IsPayload m k r)
    (cached : IsPayload m k (s.record k) → weight (s.record k) ≤ s.cachedBytes →
      t.cachedBytes + weight (s.record k) = s.cachedBytes + weight r)
    (bound : s.cachedBytes ≤ limits.maximumCachedPayloadBytes → weight (s.record k) ≤ s.cachedBytes →
      t.cachedBytes ≤ limits.maximumCachedPayloadBytes) : Keeps limits m waiting s t := by
  intro found books
  have at_k (k' : κ) : t.record k' = if k' = k then r else s.record k' := by
    rw [record,records,recordOf_insert,record]
  have part : weight (s.record k) ≤ s.cachedBytes := by
    rw [books.cached]
    exact le_total_record rfl s.records k
  refine ⟨same.manifest.trans found,books.renew same found ?_ ?_ ?_ (bound books.cachedBound part)⟩
  · intro k'
    rw [at_k]
    split_ifs with here
    · rw [here]
      rcases idle with away | free | waits
      · exact .inl (books.isFree away)
      · exact .inl free
      · exact .inr waits
    · exact .inr ⟨rfl,rfl⟩
  · intro k'
    rw [at_k]
    split_ifs with here
    · rwa [here]
    · exact id
  · intro total
    have sum := total_insert_record (f := weight) rfl s.records k r
    have exchanged := cached (books.payload m found k) part
    rw [records]
    rw [record] at exchanged
    omega

section
variable (records : t.records = s.records.insert k r)
include records

theorem Keeps.put (idle : Idle s waiting k r)
    (retained : r.cachedPayload = (s.record k).cachedPayload) (encoded : r.encodedBytes = (s.record k).encodedBytes)
    (cachedBytes : t.cachedBytes = s.cachedBytes) (same : SameBooks s t)
    (payload : IsPayload m k (s.record k) → IsPayload m k r) : Keeps limits m waiting s t := by
  have equal : weight r = weight (s.record k) := by rw [weight,weight,retained,encoded]
  refine .renew same records idle payload ?_ ?_
  · intro _ _
    rw [equal,cachedBytes]
  · intro bound _
    rwa [cachedBytes]

theorem Keeps.settle (away : (s.record k).IsAway)
    (idle : Idle s waiting k r) (retained : r.cachedPayload = (s.record k).cachedPayload)
    (encoded : r.encodedBytes = (s.record k).encodedBytes) (root : r.root = (s.record k).root)
    (cachedBytes : t.cachedBytes = s.cachedBytes) (same : SameBooks s t)
    (state : r.residency ≠ .available ∧ r.residency ≠ .resident) : Keeps limits m waiting s t :=
  Keeps.put records idle retained encoded cachedBytes same fun payload => payload.settle away retained encoded root state

theorem Keeps.drop (idle : Idle s waiting k r) (dropped : r.cachedPayload = false)
    (cachedBytes : t.cachedBytes = sizeSub s.cachedBytes (s.record k).encodedBytes) (same : SameBooks s t)
    (payload : IsPayload m k (s.record k) → IsPayload m k r) : Keeps limits m waiting s t := by
  have none : weight r = 0 := by rw [weight,dropped]; rfl
  intro found books
  have before := books.payload m found k
  refine Keeps.renew same records idle payload ?_ ?_ found books
  · intro _ part
    rw [weight_of_isPayload before] at part ⊢
    rw [cachedBytes,sizeSub_of_le part]
    omega
  · intro bound part
    rw [weight_of_isPayload before] at part
    rw [cachedBytes,sizeSub_of_le part]
    omega

end

theorem Keeps.aside (records : t.records = s.records) (cachedBytes : t.cachedBytes = s.cachedBytes)
    (same : SameBooks s t) : Keeps limits m waiting s t := by
  intro found books
  have equal (k : κ) : t.record k = s.record k := by rw [record,records,record]
  refine ⟨same.manifest.trans found,books.renew same found ?_ ?_ ?_ ?_⟩
  · intro k
    rw [equal]
    exact .inr ⟨rfl,rfl⟩
  · intro k
    rw [equal]
    exact id
  · intro total
    rwa [cachedBytes,records]
  · rw [cachedBytes]
    exact books.cachedBound

theorem Ledger.perm {l l' : List (Item κ)} (ledger : Ledger s l) (same : l.Perm l') : Ledger s l' := by
  refine ⟨?_,?_,?_,?_,?_,?_,?_⟩
  · rw [← same.length_eq]
    exact ledger.counted
  · rw [← (same.map Item.bytes).sum_nat]
    exact ledger.reserved
  · exact fun i member => ledger.current i (same.mem_iff.mpr member)
  · exact (same.map Item.key).nodup_iff.mp ledger.distinct
  · exact fun i member => ledger.early i (same.mem_iff.mpr member)
  · exact fun i member => ledger.awaited i (same.mem_iff.mpr member)
  · exact fun i member => ledger.declared i (same.mem_iff.mpr member)

theorem submit_keeps {expectedBytes : Nat} {cached : Bool} (idle : (s.record k).residency ≠ .acquiring)
    (away : (s.record k).IsAway) (declared : expectedBytes = compressedBytes m k)
    (room : expectedBytes ≤ limits.maximumCompletedPayloadBytes -
      min s.reservedCompletionBytes limits.maximumCompletedPayloadBytes) :
    Keeps limits m waiting s (s.submit k expectedBytes cached) := by
  let waits := s.put k { s.record k with residency := .acquiring, requestCancelled := some s.requests }
  let new : Item κ := (s.generation,some ⟨k,s.requests,expectedBytes,cached⟩)
  intro found books
  have free := books.isFree idle
  have put : Keeps limits m waiting s waits := by
    refine .settle rfl away (.inl idle) rfl rfl rfl rfl ⟨rfl,rfl,rfl,rfl,rfl,rfl,rfl⟩ ?_
    exact ⟨nofun,nofun⟩
  obtain ⟨found',⟨ledger,reservedBound,blank,payload,total,bound,queued,whole⟩⟩ := put found books
  have same : (new :: items waits waiting).Perm (items (s.submit k expectedBytes cached) waiting) := by
    have listed : items (s.submit k expectedBytes cached) waiting =
        s.jobs.map item ++ new :: (waiting ++ s.completions).map Completion.item := by
      change (s.jobs ++ [_]).map item ++ (waiting ++ s.completions).map Completion.item = _
      simp only [map_append,map_cons,map_nil,append_assoc,cons_append,nil_append]
      rfl
    rw [listed]
    exact perm_middle.symm
  refine ⟨found,⟨.perm ⟨?_,?_,?_,?_,?_,?_,?_⟩ same,?_,blank,payload,total,bound,queued,whole⟩⟩
  · rw [length_cons]
    exact congrArg (· + 1) ledger.counted
  · rw [map_cons,sum_cons,Nat.add_comm]
    exact congrArg (· + expectedBytes) ledger.reserved
  · exact forall_mem_cons.mpr ⟨rfl,ledger.current⟩
  · rw [map_cons,nodup_cons]
    refine ⟨?_,ledger.distinct⟩
    intro member
    obtain ⟨i,listed,same⟩ := mem_map.mp member
    exact free i listed same
  · exact forall_mem_cons.mpr ⟨nofun,ledger.early⟩
  · refine forall_mem_cons.mpr ⟨?_,ledger.awaited⟩
    intro job job_eq
    cases job_eq
    have here : (s.submit k expectedBytes cached).record k = { s.record k with
        residency := .acquiring, requestCancelled := some s.requests } := record_put_self s k _
    exact ⟨congrArg residency here,congrArg requestCancelled here⟩
  · refine forall_mem_cons.mpr ⟨?_,ledger.declared⟩
    intro job job_eq
    cases job_eq
    exact ⟨m,found,declared⟩
  · change s.reservedCompletionBytes + expectedBytes ≤ _
    have before : s.reservedCompletionBytes ≤ _ := reservedBound
    omega

theorem withdraw_keeps (k : κ) : Keeps limits m waiting s (s.withdraw k) := by
  unfold withdraw
  dsimp only
  split
  · next available =>
    have away := isAway_of_eq available (by decide)
    exact .settle rfl away (.inl (by rw [available]; decide)) rfl rfl rfl rfl
      ⟨rfl,rfl,rfl,rfl,rfl,rfl,rfl⟩ ⟨nofun,nofun⟩
  · next requested =>
    have away := isAway_of_eq requested (by decide)
    exact .settle rfl away (.inl (by rw [requested]; decide)) rfl rfl rfl rfl
      ⟨rfl,rfl,rfl,rfl,rfl,rfl,rfl⟩ ⟨nofun,nofun⟩
  · split
    · split_ifs
      · exact .refl
      · exact .aside rfl rfl ⟨rfl,rfl,rfl,rfl,rfl,rfl,rfl⟩
    · exact .refl
  · exact .refl

theorem submitContent_keeps (requested : (s.record k).residency = .requested)
    (room : compressedBytes m k ≤ limits.maximumCompletedPayloadBytes -
      min s.reservedCompletionBytes limits.maximumCompletedPayloadBytes) :
    Keeps limits m waiting s (submitContent m s k) := by
  have first : Keeps limits m waiting s { s with pending := sizeSub s.pending 1 } :=
    Keeps.aside rfl rfl ⟨rfl,rfl,rfl,rfl,rfl,rfl,rfl⟩
  refine first.trans ?_
  refine submit_keeps ?_ ?_ rfl room
  · change (s.record k).residency ≠ _
    rw [requested]
    decide
  · exact isAway_of_eq requested (by decide)

theorem submitCachedContent_keeps (idle : (s.record k).residency ≠ .acquiring) (away : (s.record k).IsAway)
    (cached : (s.record k).cachedPayload) (room : compressedBytes m k ≤ limits.maximumCompletedPayloadBytes -
      min s.reservedCompletionBytes limits.maximumCompletedPayloadBytes) :
    Keeps limits m waiting s (s.submitCachedContent k) := by
  let pending := if (s.record k).residency = .requested then sizeSub s.pending 1 else s.pending
  have first : Keeps limits m waiting s { s with pending := pending } :=
    Keeps.aside rfl rfl ⟨rfl,rfl,rfl,rfl,rfl,rfl,rfl⟩
  intro found books
  have encoded : (s.record k).encodedBytes = compressedBytes m k := by
    have payload := (books.payload m found k).encoded
    rwa [cached] at payload
  refine first.trans ?_ found books
  refine submit_keeps idle away encoded ?_
  rwa [encoded]

theorem submitRequested_keeps (k : κ) : Keeps limits m waiting s (submitRequested limits m s k) := by
  unfold submitRequested
  split_ifs with other full busy cached
  · exact .refl
  · exact .refl
  · exact .refl
  · have away := isAway_of_eq (not_not.mp other) (by decide)
    exact submitCachedContent_keeps (by rw [not_not.mp other]; decide) away cached (not_lt.mp full)
  · exact submitContent_keeps (not_not.mp other) (not_lt.mp full)

theorem startRequest_keeps (k : κ) : Keeps limits m waiting s (startRequest limits m s k) := by
  unfold startRequest
  split_ifs with undesired unavailable full
  · exact withdraw_keeps k
  · exact .refl
  · refine .trans ?_ (submitRequested_keeps k)
    have away := isAway_of_eq unavailable (by decide)
    exact .settle rfl away (.inl (by rw [unavailable]; decide)) rfl rfl rfl rfl
      ⟨rfl,rfl,rfl,rfl,rfl,rfl,rfl⟩ ⟨nofun,nofun⟩
  · exact submitRequested_keeps k

theorem startRequests_keeps : Keeps limits m waiting s (startRequests limits s) := by
  intro found books
  unfold startRequests
  rw [found]
  refine List.foldlRecOn (motive := fun t => t.manifest = some m ∧ Books limits t waiting) _ _ ⟨found,books⟩ ?_
  exact fun t kept k _ => startRequest_keeps k kept.1 kept.2

theorem idle_of_isEvictable (evictable : isEvictable r) : r.residency ≠ .acquiring := by
  unfold isEvictable at evictable
  simp only [Bool.and_eq_true,decide_eq_true_eq] at evictable
  exact evictable.1.2

theorem evictPayload_keeps (evictable : isEvictable (s.record k)) : Keeps limits m waiting s (s.evictPayload k) := by
  refine .drop rfl (.inl (idle_of_isEvictable evictable)) rfl rfl ⟨rfl,rfl,rfl,rfl,rfl,rfl,rfl⟩ ?_
  intro payload
  by_cases rooted : (s.record k).root = true
  · have held := payload.rooted rooted
    refine ⟨rfl,?_,?_,?_⟩
    · intro available
      rw [if_pos rooted] at available
      rw [available] at held
      rcases held with never | never <;> cases never
    · intro resident
      rw [if_pos rooted] at resident
      change (if _ then _ else _) = none
      rw [if_pos rooted]
      exact payload.resident resident
    · intro _
      rwa [if_pos rooted]
  · refine ⟨rfl,?_,?_,fun root => absurd root rooted⟩
    · intro available
      rw [if_neg rooted] at available
      cases available
    · intro resident
      rw [if_neg rooted] at resident
      cases resident

section
variable (requiredBytes : Nat)

variable (preserved : κ)

theorem evictPayloads_keeps (l : List κ) (s : ContentAvailabilityService κ) :
    Keeps limits m waiting s (evictPayloads limits requiredBytes preserved l s) := by
  induction l generalizing s with
  | nil => exact .refl
  | cons k rest ih =>
    have evictable (kept : ¬ (k = preserved || !isEvictable (s.record k)) = true) : isEvictable (s.record k) = true := by
      simp only [Bool.or_eq_true,decide_eq_true_eq,Bool.not_eq_true',not_or,Bool.not_eq_false] at kept
      exact kept.2
    rw [evictPayloads]
    split_ifs with kept space
    · exact ih s
    · exact evictPayload_keeps (evictable kept)
    · exact (evictPayload_keeps (evictable kept)).trans (ih _)

theorem makeCacheSpace_keeps : Keeps limits m waiting s (s.makeCacheSpace limits requiredBytes preserved) := by
  unfold makeCacheSpace
  split_ifs
  · exact .refl
  · exact evictPayloads_keeps requiredBytes preserved _ s

theorem evictPayloads_same (l : List κ) (s : ContentAvailabilityService κ) :
    SameBooks s (evictPayloads limits requiredBytes preserved l s) := by
  induction l generalizing s with
  | nil => exact ⟨rfl,rfl,rfl,rfl,rfl,rfl,rfl⟩
  | cons k rest ih =>
    rw [evictPayloads]
    split_ifs
    · exact ih s
    · exact ⟨rfl,rfl,rfl,rfl,rfl,rfl,rfl⟩
    · obtain ⟨generation,jobs,completions,completionBytes,manifest,inFlight,reserved⟩ := ih (s.evictPayload k)
      exact ⟨generation,jobs,completions,completionBytes,manifest,inFlight,reserved⟩

theorem makeCacheSpace_same : SameBooks s (s.makeCacheSpace limits requiredBytes preserved) := by
  unfold makeCacheSpace
  split_ifs
  · exact ⟨rfl,rfl,rfl,rfl,rfl,rfl,rfl⟩
  · exact evictPayloads_same requiredBytes preserved _ s

end

theorem SameBooks.isFree (same : SameBooks s t) (free : s.IsFree waiting k) : t.IsFree waiting k := by
  rwa [IsFree,same.items]

theorem record_evictPayloads_preserved (requiredBytes : Nat) (k : κ) (l : List κ) (s : ContentAvailabilityService κ) :
    (evictPayloads limits requiredBytes k l s).record k = s.record k := by
  induction l generalizing s with
  | nil => rfl
  | cons k' rest ih =>
    have kept (other : k' ≠ k) : (s.evictPayload k').record k = s.record k := record_put_of_ne s _ (.symm other)
    rw [evictPayloads]
    split_ifs with skipped space
    · exact ih s
    · have other : k' ≠ k := by
        rintro rfl
        simp at skipped
      exact kept other
    · have other : k' ≠ k := by
        rintro rfl
        simp at skipped
      rw [ih,kept other]

theorem record_makeCacheSpace_preserved (requiredBytes : Nat) (k : κ) :
    (s.makeCacheSpace limits requiredBytes k).record k = s.record k := by
  unfold makeCacheSpace
  split_ifs
  · rfl
  · exact record_evictPayloads_preserved requiredBytes k _ s

theorem fail_keeps (free : s.IsFree waiting k) (away : (s.record k).IsAway) (report : Report) :
    Keeps limits m waiting s (s.fail k report) :=
  Keeps.settle rfl away (.inr (.inl free)) rfl rfl rfl rfl ⟨rfl,rfl,rfl,rfl,rfl,rfl,rfl⟩ ⟨nofun,nofun⟩

variable {prepared : PreparedContent κ} {c : Completion κ}

theorem accept_keeps (free : s.IsFree waiting k) (away : (s.record k).IsAway)
    (declared : prepared.encodedBytes = compressedBytes m k)
    (space : (s.record k).cachedPayload ∨ s.hasCacheSpace limits prepared.encodedBytes) :
    Keeps limits m waiting s (s.accept m k prepared) := by
  by_cases cached : (s.record k).cachedPayload = true
  · have kept : (s.record k).keep prepared.encodedBytes = s.record k := if_pos cached
    refine .put rfl (.inr (.inl free)) ?_ ?_ (if_pos cached) ⟨rfl,rfl,rfl,rfl,rfl,rfl,rfl⟩ ?_
    · change ((s.record k).keep prepared.encodedBytes).cachedPayload = _
      rw [kept]
    · change ((s.record k).keep prepared.encodedBytes).encodedBytes = _
      rw [kept]
    · intro payload
      rw [kept]
      refine ⟨payload.encoded,fun _ => cached,nofun,?_⟩
      intro rooted
      rw [payload.rootless away] at rooted
      cases rooted
  · have kept : (s.record k).keep prepared.encodedBytes =
        { s.record k with cachedPayload := true, encodedBytes := prepared.encodedBytes } := if_neg cached
    have none : weight (s.record k) = 0 := if_neg cached
    have room : prepared.encodedBytes + s.cachedBytes ≤ limits.maximumCachedPayloadBytes ∨
        limits.maximumCachedPayloadBytes < s.cachedBytes := by
      have fits := of_decide_eq_true (space.resolve_left cached)
      omega
    refine .renew (r := { (s.record k).keep prepared.encodedBytes with
      prepared := if s.dependenciesResident m k then prepared.document else .none, residency := .available })
      ⟨rfl,rfl,rfl,rfl,rfl,rfl,rfl⟩ rfl (.inr (.inl free)) ?_ ?_ ?_
    · intro payload
      rw [kept]
      refine ⟨declared,fun _ => rfl,nofun,?_⟩
      intro rooted
      rw [payload.rootless away] at rooted
      cases rooted
    · intro _ _
      rw [none,kept]
      change (if _ then _ else _) + 0 = _ + prepared.encodedBytes
      rw [if_neg cached,Nat.add_zero]
    · intro bound _
      change (if _ then _ else _) ≤ _
      rw [if_neg cached]
      omega

theorem acceptPayload_keeps (free : s.IsFree waiting k) (away : (s.record k).IsAway) (prepared : PreparedContent κ) :
    Keeps limits m waiting s (s.acceptPayload limits m k prepared) := by
  have free' : (s.makeCacheSpace limits prepared.encodedBytes k).IsFree waiting k :=
    (makeCacheSpace_same prepared.encodedBytes k).isFree free
  have away' : ((s.makeCacheSpace limits prepared.encodedBytes k).record k).IsAway := by
    rwa [record_makeCacheSpace_preserved]
  unfold acceptPayload
  dsimp only
  split_ifs with wrong cached space
  · exact fail_keeps free away _
  · exact accept_keeps free away (by tauto) (.inl cached)
  · exact (makeCacheSpace_keeps _ k).trans (fail_keeps free' away' _)
  · refine (makeCacheSpace_keeps _ k).trans (accept_keeps free' away' (by tauto) (.inr ?_))
    simpa using space

variable {job : ContentJob κ}

theorem drainContent_keeps (free : s.IsFree waiting job.key)
    (result : Except ContentProviderError (PreparedContent κ)) :
    Keeps limits m waiting s (s.drainContent limits job result) := by
  intro found books
  unfold drainContent
  rw [found]
  dsimp only
  split_ifs with unknown other withdrawn
  · exact Keeps.refl found books
  · exact Keeps.refl found books
  · have away := isAway_of_eq (not_not.mp other) (by decide)
    exact Keeps.settle rfl away (.inr (.inl free)) rfl rfl rfl rfl
      ⟨rfl,rfl,rfl,rfl,rfl,rfl,rfl⟩ ⟨nofun,nofun⟩ found books
  · have away := isAway_of_eq (not_not.mp other) (by decide)
    have started : Keeps limits m waiting s (s.put job.key { s.record job.key with requestCancelled := none }) := by
      refine .settle rfl away (.inr (.inl free)) rfl rfl rfl rfl ⟨rfl,rfl,rfl,rfl,rfl,rfl,rfl⟩ ?_
      rw [not_not.mp other]
      decide
    have away' : ((s.put job.key { s.record job.key with requestCancelled := none }).record job.key).IsAway := by
      rwa [record_put_self]
    have free' : (s.put job.key { s.record job.key with requestCancelled := none }).IsFree waiting job.key := free
    cases result with
    | error error => exact started.trans (fail_keeps free' away' _) found books
    | ok prepared => exact started.trans (acceptPayload_keeps free' away' prepared) found books

theorem Books.discharge (books : Books limits s (c :: waiting)) :
    Books limits (s.discharge c) waiting ∧ ∀ i ∈ items s waiting, Item.key i ≠ Item.key c.item := by
  obtain ⟨ledger,reservedBound,blank,payload,total,bound,queued,whole⟩ := books
  have same : (items s (c :: waiting)).Perm (c.item :: items s waiting) := by
    unfold items
    exact perm_middle
  obtain ⟨counted,reserved,current,distinct,early,awaited,declared⟩ := ledger.perm same
  rw [length_cons] at counted
  rw [map_cons,sum_cons,Completion.bytes_item] at reserved
  rw [map_cons,nodup_cons] at distinct
  have covered : c.reservedBytes ≤ s.reservedCompletionBytes := by omega
  refine ⟨⟨⟨?_,?_,?_,distinct.2,?_,?_,?_⟩,?_,blank,payload,total,bound,queued,?_⟩,?_⟩
  · change s.inFlight - 1 = (items s waiting).length
    omega
  · change (if _ then _ else _) = ((items s waiting).map Item.bytes).sum
    rw [if_pos covered]
    omega
  · exact fun i member => current i (.tail _ member)
  · exact fun i member => early i (.tail _ member)
  · exact fun i member => awaited i (.tail _ member)
  · exact fun i member => declared i (.tail _ member)
  · change (if _ then _ else _) ≤ limits.maximumCompletedPayloadBytes
    rw [if_pos covered]
    omega
  · exact fun c' member => whole c' (.tail _ member)
  · intro i member equal
    exact distinct.1 (mem_map.mpr ⟨i,member,equal⟩)

theorem Books.mem_items : c.item ∈ items s (c :: waiting) := by
  exact mem_append_right _ (mem_map.mpr ⟨c,.head _,rfl⟩)

theorem recordOf_blank (m : PackageContentManifest κ) (k : κ) :
    recordOf (m.entries.mapValues fun _ _ => ({} : Record)) k = {} := by
  unfold recordOf
  rw [find?_mapValues]
  cases m.entries.find? k <;> rfl

theorem total_blank {f : Record → Nat} (none : f {} = 0) (m : PackageContentManifest κ) :
    (m.entries.mapValues fun _ _ => ({} : Record)).total f = 0 := by
  unfold total mapValues
  rw [map_map]
  refine sum_eq_zero ?_
  intro n member
  obtain ⟨e,_,rfl⟩ := mem_map.mp member
  exact none

theorem acceptManifest_preserves (each : ClosedUnderDemand P)
    (mode : ContentResidencyMode) (s : ContentAvailabilityService κ) (m : PackageContentManifest κ)
    (holds : P (m.entries.mapValues fun _ _ => ({} : Record))) : P (acceptManifest mode s m).records := by
  unfold acceptManifest
  generalize (m.entries.entries.filter fun e => decide (mode = .fullyResident) || e.2.requiredAtBootstrap) = wanted
  generalize (m.entries.mapValues fun _ _ => ({} : Record)) = records at holds ⊢
  induction wanted generalizing records with
  | nil => exact holds
  | cons e rest ih => exact ih _ (request_changesDemand P each m records e.1 holds)

variable (mode : ContentResidencyMode)

theorem undemanded_acceptManifest (s : ContentAvailabilityService κ)
    (m : PackageContentManifest κ) (k : κ) : ((acceptManifest mode s m).record k).undemanded = {} := by
  have holds := acceptManifest_preserves (closed_undemanded (m.entries.mapValues fun _ _ => {})) mode s m fun _ => rfl
  have blank := holds k
  rwa [recordOf_blank] at blank

theorem acceptManifest_books (books : Books limits s waiting)
    (none : s.manifest = .none) (lone : ∀ i ∈ items s waiting, Item.key i ≠ .none) :
    Books limits (acceptManifest mode s m) waiting := by
  obtain ⟨ledger,reservedBound,blank,payload,total,bound,queued,whole⟩ := books
  have nothing : ∀ i, i ∉ items s waiting := by
    intro i member
    cases content : i.2 with
    | none => exact lone i member (congrArg (Option.map ContentJob.key) content)
    | some job =>
      obtain ⟨m',found,_⟩ := ledger.declared i member job content
      rw [none] at found
      cases found
  have retained : (acceptManifest mode s m).records.total weight = 0 :=
    acceptManifest_preserves (closed_total rfl (fun _ => rfl) 0) mode s m (total_blank rfl m)
  refine ⟨⟨?_,?_,?_,?_,?_,?_,?_⟩,reservedBound,nofun,?_,?_,bound,queued,whole⟩
  · exact ledger.counted
  · exact ledger.reserved
  · exact ledger.current
  · exact ledger.distinct
  · exact fun i member => absurd member (nothing i)
  · exact fun i member => absurd member (nothing i)
  · exact fun i member => absurd member (nothing i)
  · intro m' found k
    have undemanded := undemanded_acceptManifest mode s m k
    have state : ((acceptManifest mode s m).record k).residency = .unavailable := congrArg residency undemanded
    have root : ((acceptManifest mode s m).record k).root = false := congrArg root undemanded
    have encoded : ((acceptManifest mode s m).record k).encodedBytes = 0 := congrArg encodedBytes undemanded
    have cached : ((acceptManifest mode s m).record k).cachedPayload = false := congrArg cachedPayload undemanded
    refine ⟨?_,?_,?_,?_⟩
    · rw [encoded,cached]
      rfl
    · rw [state]
      exact nofun
    · rw [state]
      exact nofun
    · rw [root]
      exact nofun
  · rw [retained]
    change s.cachedBytes = 0
    rw [total,blank none]
    rfl

theorem Books.unmanifested {result : Except ContentProviderError (PackageContentManifest κ)}
    (books : Books limits s (c :: waiting)) (manifest : c.result = .manifest result) : s.manifest = none := by
  refine books.ledger.early c.item Books.mem_items ?_
  unfold Completion.item
  rw [manifest]

theorem Books.delivered {result : Except ContentProviderError (PreparedContent κ)} (books : Books limits s (c :: waiting))
    (content : c.result = .content job result) :
    (∃ m, s.manifest = some m ∧ job.reservedBytes = compressedBytes m job.key) ∧
      (s.discharge c).IsFree waiting job.key := by
  have item : c.item.2 = some job := by
    unfold Completion.item
    rw [content]
  refine ⟨books.ledger.declared c.item Books.mem_items job item,?_⟩
  intro i member
  have other := books.discharge.2 i member
  rwa [Item.key,Item.key,item] at other

theorem drain_books (configuration : ContentAvailabilityConfiguration)
    (books : Books configuration.limits s (c :: waiting)) :
    Books configuration.limits (s.drain configuration c) waiting := by
  obtain ⟨books',others⟩ := books.discharge
  unfold drain
  dsimp only
  split_ifs with stale
  · exact books'
  · split
    · next error manifest =>
      obtain ⟨ledger,reservedBound,blank,payload,total,bound,queued,whole⟩ := books'
      exact ⟨{ ledger with },reservedBound,blank,payload,total,bound,queued,whole⟩
    · next m manifest =>
      have lone : Item.key c.item = none := by
        unfold Completion.item
        rw [manifest]
        rfl
      refine acceptManifest_books configuration.mode ?_
        (books.unmanifested manifest) ?_
      · obtain ⟨ledger,reservedBound,blank,payload,total,bound,queued,whole⟩ := books'
        exact ⟨{ ledger with },reservedBound,blank,payload,total,bound,queued,whole⟩
      · intro i member
        rw [← lone]
        exact others i member
    · next job result content =>
      obtain ⟨⟨m,found,_⟩,free⟩ := books.delivered content
      exact (drainContent_keeps free result found books').2

theorem rejectAdmission_keeps (available : (s.record k).residency = .available) (report : Report) :
    Keeps limits m waiting s (s.rejectAdmission k report) := by
  refine .drop rfl (.inl (by rw [available]; decide)) rfl rfl ⟨rfl,rfl,rfl,rfl,rfl,rfl,rfl⟩ ?_
  intro payload
  refine ⟨rfl,nofun,nofun,?_⟩
  intro rooted
  rw [payload.rootless (isAway_of_eq available (by decide))] at rooted
  cases rooted

theorem prepareAgain_keeps (available : (s.record k).residency = .available) :
    Keeps limits m waiting s (s.prepareAgain limits k) := by
  intro found books
  have payload := books.payload m found k
  have cached := payload.available available
  unfold prepareAgain
  split_ifs with room
  · refine submitCachedContent_keeps ?_ (isAway_of_eq available (by decide)) cached ?_ found books
    · rw [available]
      decide
    · have encoded := payload.encoded
      rw [cached,if_pos rfl] at encoded
      rw [← encoded]
      exact room.2.2
  · exact Keeps.refl found books

variable (admission : κ → Admission)

theorem admitUnit_keeps (p : Pass κ) (k : κ) :
    Keeps limits m waiting p.service (admitUnit limits m admission p k).service := by
  unfold admitUnit
  dsimp only
  split_ifs with full other deferred unprepared
  · exact .refl
  · exact .refl
  · exact .refl
  · exact prepareAgain_keeps (by tauto)
  · have available : (p.service.record k).residency = .available := by tauto
    cases admission k with
    | decodeRejected message => exact rejectAdmission_keeps available _
    | commitRejected message => exact rejectAdmission_keeps available _
    | committed =>
      refine .put rfl (.inl (by rw [available]; decide)) rfl rfl rfl ⟨rfl,rfl,rfl,rfl,rfl,rfl,rfl⟩ ?_
      exact fun payload => ⟨payload.encoded,nofun,fun _ => rfl,fun _ => .inl rfl⟩

theorem unrooted_keeps (resident : (s.record k).residency = .resident) :
    Keeps limits m waiting s (s.put k (s.record k).unrooted) := by
  refine .put rfl (.inl (by rw [resident]; decide)) rfl rfl rfl ⟨rfl,rfl,rfl,rfl,rfl,rfl,rfl⟩ ?_
  intro payload
  have bare := payload.resident resident
  have state : (s.record k).unrooted.residency = .unavailable := by
    unfold unrooted
    rw [bare]
    rfl
  refine ⟨payload.encoded,?_,?_,nofun⟩
  · rw [state]
    exact nofun
  · rw [state]
    exact nofun

variable (roots : κ → Root)

theorem evict_keeps (p : Pass κ) (k : κ) : Keeps limits m waiting p.service (evict limits m roots p k).service := by
  unfold evict
  dsimp only
  split_ifs with full kept gone
  · exact .refl
  · exact .refl
  · exact unrooted_keeps (by tauto)
  · have resident : (p.service.record k).residency = .resident := by tauto
    cases roots k with
    | destroyed => exact unrooted_keeps resident
    | withRuntimeChild => exact .refl
    | intact => exact unrooted_keeps resident
    | refusesDestruction =>
      refine .put rfl (.inl (by rw [resident]; decide)) rfl rfl rfl ⟨rfl,rfl,rfl,rfl,rfl,rfl,rfl⟩ ?_
      exact fun payload => ⟨payload.encoded,nofun,nofun,fun _ => .inr rfl⟩

def Record.demands (r : Record) : Nat × Nat × Nat := (r.directDemand,r.dependencyDemand,r.pins)

theorem Record.keep_demands (r : Record) (bytes : Nat) : (r.keep bytes).demands = r.demands := by
  unfold keep
  split_ifs <;> rfl

structure Gentle (s t : ContentAvailabilityService κ) : Prop where
  demands : ∀ k, (t.record k).demands = (s.record k).demands
  unfailed : ∀ k, (s.record k).residency ≠ .failed → (t.record k).residency ≠ .failed
  completions : t.completions = s.completions
  manifest : t.manifest = s.manifest

theorem Gentle.refl : Gentle s s := ⟨fun _ => rfl,fun _ => id,rfl,rfl⟩

theorem Gentle.trans (first : Gentle s t) (second : Gentle t u) : Gentle s u :=
  ⟨fun k => (second.demands k).trans (first.demands k),fun k before => second.unfailed k (first.unfailed k before),
    second.completions.trans first.completions,second.manifest.trans first.manifest⟩

theorem Gentle.put (records : t.records = s.records.insert k r) (demands : r.demands = (s.record k).demands)
    (unfailed : (s.record k).residency ≠ .failed → r.residency ≠ .failed)
    (completions : t.completions = s.completions) (manifest : t.manifest = s.manifest) : Gentle s t := by
  refine ⟨?_,?_,completions,manifest⟩
  · intro k'
    rw [record,records,recordOf_insert]
    split_ifs with here
    · rwa [here]
    · rfl
  · intro k'
    rw [record,record,records,recordOf_insert]
    split_ifs with here
    · rwa [here]
    · exact id

theorem withdraw_gentle (k : κ) : Gentle s (s.withdraw k) := by
  unfold withdraw
  dsimp only
  split
  · exact .put rfl rfl (fun _ => nofun) rfl rfl
  · exact .put rfl rfl (fun _ => nofun) rfl rfl
  · split
    · split_ifs
      · exact .refl
      · exact ⟨fun _ => rfl,fun _ => id,rfl,rfl⟩
    · exact .refl
  · exact .refl

theorem submitRequested_gentle (k : κ) : Gentle s (submitRequested limits m s k) := by
  unfold submitRequested
  split_ifs
  · exact .refl
  · exact .refl
  · exact .refl
  · exact .put rfl rfl (fun _ => nofun) rfl rfl
  · exact .put rfl rfl (fun _ => nofun) rfl rfl

theorem startRequest_gentle (k : κ) : Gentle s (startRequest limits m s k) := by
  unfold startRequest
  split_ifs
  · exact withdraw_gentle k
  · exact .refl
  · refine .trans ?_ (submitRequested_gentle k)
    exact .put rfl rfl (fun _ => nofun) rfl rfl
  · exact submitRequested_gentle k

theorem startRequests_gentle : Gentle s (startRequests limits s) := by
  unfold startRequests
  cases s.manifest with
  | none => exact .refl
  | some m => exact List.foldlRecOn (motive := Gentle s) _ _ .refl fun _ upto k _ => upto.trans (startRequest_gentle k)

theorem evictPayload_gentle (k : κ) : Gentle s (s.evictPayload k) := by
  refine .put rfl rfl ?_ rfl rfl
  intro before
  split_ifs
  · exact before
  · exact nofun

variable {requiredBytes : Nat}

theorem evictPayloads_gentle {preserved : κ} (l : List κ) (s : ContentAvailabilityService κ) :
    Gentle s (evictPayloads limits requiredBytes preserved l s) := by
  induction l generalizing s with
  | nil => exact .refl
  | cons k rest ih =>
    rw [evictPayloads]
    split_ifs
    · exact ih s
    · exact evictPayload_gentle k
    · exact (evictPayload_gentle k).trans (ih _)

theorem makeCacheSpace_gentle {preserved : κ} : Gentle s (s.makeCacheSpace limits requiredBytes preserved) := by
  unfold makeCacheSpace
  split_ifs
  · exact .refl
  · exact evictPayloads_gentle _ s

theorem accept_gentle : Gentle s (s.accept m k prepared) :=
  Gentle.put rfl (keep_demands _ _) (fun _ => nofun) rfl rfl

theorem prepareAgain_gentle (k : κ) : Gentle s (s.prepareAgain limits k) := by
  unfold prepareAgain
  split_ifs
  · exact .put rfl rfl (fun _ => nofun) rfl rfl
  · exact .refl

theorem evict_gentle (p : Pass κ) (k : κ) : Gentle p.service (evict limits m roots p k).service := by
  have unrooted : Gentle p.service (p.service.put k (p.service.record k).unrooted) := by
    refine .put rfl rfl (fun _ => ?_) rfl rfl
    unfold unrooted
    split_ifs <;> exact nofun
  unfold evict
  dsimp only
  split_ifs
  · exact .refl
  · exact .refl
  · exact unrooted
  · cases roots k with
    | destroyed => exact unrooted
    | withRuntimeChild => exact .refl
    | intact => exact unrooted
    | refusesDestruction => exact .put rfl rfl (fun _ => nofun) rfl rfl

omit [LinearOrder κ] in
theorem finishPreparation_ok {decoded bytes : Nat} (finished : finishPreparation limits decoded
      { key := job.key, encodedBytes := job.reservedBytes, cacheHit := job.cached } bytes = .ok prepared) :
    prepared.key = job.key ∧ prepared.encodedBytes = job.reservedBytes ∧
      (prepared.document = none → prepared.preparationDeferred) := by
  unfold finishPreparation at finished
  split_ifs at finished
  · cases finished
    exact ⟨rfl,rfl,nofun⟩
  · cases finished
    exact ⟨rfl,rfl,fun _ => rfl⟩

variable {outcome : Outcome κ}

theorem completeJob_cases {index : Nat} (completed : completeJob limits s index outcome = some t) :
    ∃ j c, s.jobs[index]? = some j ∧ Completion.item c = j.item ∧ c.IsWhole ∧
      t = { s with
        jobs := s.jobs.eraseIdx index, completions := s.completions ++ [c]
        completionBytes := s.completionBytes + c.encodedBytes } := by
  have queued (generation : Nat) (job : ContentJob κ) (result : Except ContentProviderError (PreparedContent κ))
      (whole : ∀ prepared, result = .ok prepared → prepared.key = job.key ∧ prepared.encodedBytes = job.reservedBytes ∧
        (prepared.document = none → prepared.preparationDeferred = true)) (s : ContentAvailabilityService κ) :
      ∃ c : Completion κ, c.item = (generation,some job) ∧ c.IsWhole ∧ enqueue limits s generation job result =
        { s with completions := s.completions ++ [c], completionBytes := s.completionBytes + c.encodedBytes } := by
    unfold enqueue
    cases result with
    | error error =>
      refine ⟨⟨generation,.content job (.error error)⟩,rfl,?_,rfl⟩
      intro job prepared never
      cases never
    | ok prepared =>
      dsimp only
      split_ifs
      · refine ⟨⟨generation,.content job (.ok prepared)⟩,rfl,?_,rfl⟩
        intro job' prepared' same
        cases same
        exact whole prepared rfl
      · refine ⟨⟨generation,.content job (.error _)⟩,rfl,?_,rfl⟩
        intro job prepared never
        cases never
  unfold completeJob at completed
  cases found : s.jobs[index]? with
  | none =>
    rw [found] at completed
    cases completed
  | some j =>
    rw [found] at completed
    dsimp only at completed
    split at completed
    · next result work =>
      cases completed
      refine ⟨j,⟨j.generation,.manifest result⟩,rfl,?_,?_,rfl⟩
      · rw [Completion.item,Job.item,work]
      · intro job prepared never
        cases never
    · next job error work =>
      cases completed
      obtain ⟨c,item,whole,same⟩ := queued j.generation job (.error error) (fun _ never => nomatch never)
        { s with jobs := s.jobs.eraseIdx index }
      refine ⟨j,c,rfl,?_,whole,same⟩
      rw [item,Job.item,work]
    · next job bytes work =>
      cases completed
      obtain ⟨c,item,whole,same⟩ := queued j.generation job _ (fun _ => finishPreparation_ok)
        { s with jobs := s.jobs.eraseIdx index }
      refine ⟨j,c,rfl,?_,whole,same⟩
      rw [item,Job.item,work]
    · cases completed

theorem completeJob_books {index : Nat} (books : Books limits s [])
    (completed : completeJob limits s index outcome = some t) : Books limits t [] := by
  obtain ⟨j,c,found,item,wholly,rfl⟩ := completeJob_cases completed
  obtain ⟨ledger,reservedBound,blank,payload,total,bound,queued,whole⟩ := books
  obtain ⟨bounded,here⟩ := List.getElem?_eq_some_iff.mp found
  have same : (items s []).Perm (items { s with
      jobs := s.jobs.eraseIdx index, completions := s.completions ++ [c]
      completionBytes := s.completionBytes + c.encodedBytes } []) := by
    have apart : (s.jobs.map Job.item).Perm (c.item :: (s.jobs.eraseIdx index).map Job.item) := by
      rw [item,← here]
      exact ((getElem_cons_eraseIdx_perm bounded).map Job.item).symm
    unfold items
    simp only [nil_append,map_append,map_cons,map_nil]
    refine (apart.append_right _).trans ?_
    rw [← append_assoc]
    exact (perm_append_singleton _ _).symm
  obtain ⟨counted,reserved,current,distinct,early,awaited,declared⟩ := ledger.perm same
  refine ⟨⟨counted,reserved,current,distinct,early,awaited,declared⟩,reservedBound,blank,payload,total,bound,
    ?_,?_⟩
  · change s.completionBytes + c.encodedBytes = ((s.completions ++ [c]).map _).sum
    rw [map_append,queued]
    simp
  · intro c' member
    rw [nil_append] at whole member
    rcases mem_append.mp member with before | last
    · exact whole c' before
    · rwa [mem_singleton.mp last]

variable (l : List (Completion κ))

theorem drains_books (s : ContentAvailabilityService κ) (books : Books configuration.limits s (l ++ waiting)) :
    Books configuration.limits (l.foldl (drain configuration) s) waiting := by
  induction l generalizing s with
  | nil => exact books
  | cons c rest ih => exact ih _ (drain_books configuration books)

theorem foldl_sizeSub (rest : Nat) :
    l.foldl (fun bytes c => sizeSub bytes c.encodedBytes) ((l.map Completion.encodedBytes).sum + rest) = rest := by
  induction l with
  | nil => exact Nat.zero_add rest
  | cons c l ih =>
    rw [foldl_cons,map_cons,sum_cons,sizeSub_of_le (by omega)]
    rw [show c.encodedBytes + (l.map Completion.encodedBytes).sum + rest - c.encodedBytes =
      (l.map Completion.encodedBytes).sum + rest by omega]
    exact ih

theorem takeCompletions_books (books : Books limits s []) :
    Books limits (takeCompletions limits s) (completed limits s) := by
  obtain ⟨ledger,reservedBound,blank,payload,total,bound,queued,whole⟩ := books
  have joined : completed limits s ++ (takeCompletions limits s).completions = s.completions := take_append_drop ..
  have listed : items (takeCompletions limits s) (completed limits s) = items s [] := by
    unfold items
    rw [joined]
    rfl
  obtain ⟨counted,reserved,current,distinct,early,awaited,declared⟩ := ledger
  rw [← listed] at counted reserved current distinct early awaited declared
  refine ⟨⟨counted,reserved,current,distinct,early,awaited,declared⟩,reservedBound,blank,payload,total,bound,
    ?_,?_⟩
  · change (completed limits s).foldl _ s.completionBytes = _
    rw [queued,← joined,map_append,sum_append]
    exact foldl_sizeSub _ _
  · rwa [joined]

theorem drainAll_books (books : Books configuration.limits s []) :
    Books configuration.limits (s.drainAll configuration) [] := by
  refine drains_books _ _ ?_
  rw [append_nil]
  exact takeCompletions_books books

theorem startRequests_books (books : Books limits s waiting) : Books limits (startRequests limits s) waiting := by
  cases found : s.manifest with
  | none =>
    unfold startRequests
    rwa [found]
  | some m => exact (startRequests_keeps found books).2

theorem step_rule {P : ContentAvailabilityService κ → Prop} {admission : κ → Admission} {roots : κ → Root} (idle : P s)
    (drained : ¬ s.stopped → P (s.drainAll configuration))
    (starts : ∀ t, P t → P (startRequests configuration.limits t))
    (admits : ∀ (m : PackageContentManifest κ) (p : Pass κ) (k : κ), p.service.manifest = some m → P p.service →
      (admitUnit configuration.limits m admission p k).service.manifest = some m ∧
        P (admitUnit configuration.limits m admission p k).service)
    (evicts : ∀ (m : PackageContentManifest κ) (p : Pass κ) (k : κ), p.service.manifest = some m → P p.service →
      (evict configuration.limits m roots p k).service.manifest = some m ∧
        P (evict configuration.limits m roots p k).service) : P (s.step configuration admission roots) := by
  have passes {m : PackageContentManifest κ} {turn : Pass κ → κ → Pass κ}
      (each : ∀ p k, p.service.manifest = some m → P p.service →
        (turn p k).service.manifest = some m ∧ P (turn p k).service) (l : List κ) (p : Pass κ)
      (start : p.service.manifest = some m ∧ P p.service) :
      (l.foldl turn p).service.manifest = some m ∧ P (l.foldl turn p).service :=
    List.foldlRecOn (motive := fun p => p.service.manifest = some m ∧ P p.service) l turn start
      fun p kept k _ => each p k kept.1 kept.2
  unfold step
  dsimp only
  split
  · exact idle
  · next running =>
    have started := starts _ (drained running)
    split
    · exact started
    · next m found =>
      have admitted := passes (admits m) m.entries.keys { service := _ } ⟨found,started⟩
      have evicted := passes (evicts m) m.entries.keys.reverse { service := _ } admitted
      split_ifs
      · exact evicted.2
      · exact starts _ evicted.2

theorem step_books (roots : κ → Root) (books : Books configuration.limits s []) :
    Books configuration.limits (s.step configuration admission roots) [] :=
  step_rule (P := fun t => Books configuration.limits t []) books (fun _ => drainAll_books books)
    (fun _ => startRequests_books) (fun _ p k => admitUnit_keeps admission p k) fun _ p k => evict_keeps roots p k

theorem demand_books {change : PackageContentManifest κ → SortedMap κ Record → κ → Bool × SortedMap κ Record}
    (changes : ChangesDemand change) (k : κ) (books : Books limits s []) : Books limits (demand change s k).2 [] := by
  rcases demand_cases change s k with refused | ⟨m,found,_,_,changed⟩
  · rwa [refused]
  · rw [changed]
    have same := changes _ (closed_undemanded s.records) m s.records k fun _ => rfl
    have retained := changes _ (closed_total rfl (fun _ => rfl) (s.records.total weight)) m s.records k rfl
    refine books.renew ⟨rfl,rfl,rfl,rfl,rfl,rfl,rfl⟩ found ?_ ?_ ?_ books.cachedBound
    · intro k'
      obtain ⟨residency,requestCancelled,_⟩ := undemanded_eq (same k')
      exact .inr ⟨residency,requestCancelled⟩
    · exact fun k' payload => payload.of_undemanded (same k')
    · exact fun total => total.trans retained.symm

theorem retryContent_books (k : κ) (books : Books limits s []) : Books limits (s.retryContent limits k).2 [] := by
  unfold retryContent
  cases found : s.manifest with
  | none => exact books
  | some m =>
    dsimp only
    split_ifs with refused
    · exact books
    · have failed : (s.record k).residency = .failed := by
        simp at refused
        exact refused.2
      refine startRequests_books ?_
      have away := isAway_of_eq failed (by decide)
      have kept : Keeps limits m [] s (s.put k { s.record k with residency := .unavailable }) := by
        exact .settle rfl away (.inl (by rw [failed]; decide)) rfl rfl rfl rfl
          ⟨rfl,rfl,rfl,rfl,rfl,rfl,rfl⟩ ⟨nofun,nofun⟩
      exact (kept found books).2

theorem stop_stopped : (s.stop roots).stopped := by
  have taken (l : List κ) (p : Pass κ) (stopped : p.service.stopped = true) :
      (l.foldl (stopUnit roots) p).service.stopped = true := by
    induction l generalizing p with
    | nil => exact stopped
    | cons k rest ih =>
      refine ih _ ?_
      unfold stopUnit
      dsimp only
      split_ifs <;> exact stopped
  have began := taken s.records.keys { service := s.stopping } rfl
  unfold stop
  dsimp only
  split_ifs with before
  · exact before
  · exact began
  · exact began

variable {e : Event κ}

theorem operate_cases (stepped : operate configuration s e = some t) :
    (∃ index outcome, e = .completeJob index outcome ∧ completeJob configuration.limits s index outcome = some t) ∨
    (∃ admission roots, e = .step admission roots ∧ t = s.step configuration admission roots) ∨
    (∃ change k, ChangesDemand change ∧ t = (demand change s k).2) ∨
    (∃ k, t = (s.retryContent configuration.limits k).2) ∨ ∃ roots, e = .stop roots ∧ t = s.stop roots := by
  cases e with
  | completeJob index outcome => exact .inl ⟨index,outcome,rfl,stepped⟩
  | step admission roots =>
    cases stepped
    exact .inr (.inl ⟨admission,roots,rfl,rfl⟩)
  | requestContent k =>
    cases stepped
    exact .inr (.inr (.inl ⟨_,k,request_changesDemand,rfl⟩))
  | releaseContent k =>
    cases stepped
    exact .inr (.inr (.inl ⟨_,k,release_changesDemand,rfl⟩))
  | pinContent k =>
    cases stepped
    exact .inr (.inr (.inl ⟨_,k,pin_changesDemand,rfl⟩))
  | unpinContent k =>
    cases stepped
    exact .inr (.inr (.inl ⟨_,k,unpin_changesDemand,rfl⟩))
  | retryContent k =>
    cases stepped
    exact .inr (.inr (.inr (.inl ⟨k,rfl⟩)))
  | stop roots =>
    cases stepped
    exact .inr (.inr (.inr (.inr ⟨roots,rfl,rfl⟩)))

theorem operate_stopped (stopped : s.stopped) (stepped : operate configuration s e = some t) :
    t.stopped ∧ t.records = s.records := by
  have refused (change : PackageContentManifest κ → SortedMap κ Record → κ → Bool × SortedMap κ Record) (k : κ) :
      (demand change s k).2.stopped = true ∧ (demand change s k).2.records = s.records := by
    rcases demand_cases change s k with refused | ⟨m,_,running,_⟩
    · rw [refused]
      exact ⟨stopped,rfl⟩
    · rw [stopped] at running
      cases running
  cases e with
  | completeJob index outcome =>
    obtain ⟨j,c,_,_,_,rfl⟩ := completeJob_cases stepped
    exact ⟨stopped,rfl⟩
  | step admission roots =>
    cases stepped
    have idle : s.step configuration admission roots = s := if_pos stopped
    rw [idle]
    exact ⟨stopped,rfl⟩
  | requestContent k | releaseContent k | pinContent k | unpinContent k =>
    cases stepped
    exact refused _ k
  | retryContent k =>
    cases stepped
    have idle : (s.retryContent configuration.limits k).2 = s := by
      unfold retryContent
      cases s.manifest with
      | none => rfl
      | some m =>
        rw [stopped]
        rfl
    rw [idle]
    exact ⟨stopped,rfl⟩
  | stop roots =>
    cases stepped
    have idle : s.stop roots = s := if_pos stopped
    rw [idle]
    exact ⟨stopped,rfl⟩

theorem new_books : Books limits (new : ContentAvailabilityService κ) [] := by
  refine ⟨⟨rfl,rfl,?_,?_,?_,?_,?_⟩,Nat.zero_le _,fun _ => rfl,nofun,rfl,Nat.zero_le _,rfl,nofun⟩
  · intro i member
    rw [mem_singleton.mp member]
    rfl
  · exact nodup_singleton _
  · exact fun _ _ _ => rfl
  · intro i member job content
    rw [mem_singleton.mp member] at content
    cases content
  · intro i member job content
    rw [mem_singleton.mp member] at content
    cases content

theorem operate_books (books : s.stopped = false → Books configuration.limits s [])
    (stepped : operate configuration s e = some t) (running : t.stopped = false) :
    s.stopped = false ∧ Books configuration.limits t [] := by
  have before : s.stopped = false := by
    rw [Bool.eq_false_iff]
    intro stopped
    rw [(operate_stopped stopped stepped).1] at running
    cases running
  refine ⟨before,?_⟩
  have kept := books before
  rcases operate_cases stepped with ⟨_,_,-,completed⟩ | ⟨admission,roots,-,rfl⟩ | ⟨_,k,changes,rfl⟩ | ⟨k,rfl⟩ |
    ⟨roots,-,rfl⟩
  · exact completeJob_books kept completed
  · exact step_books admission roots kept
  · exact demand_books changes k kept
  · exact retryContent_books k kept
  · rw [stop_stopped] at running
    cases running

end
end Gargantuan.ContentAvailabilityService
