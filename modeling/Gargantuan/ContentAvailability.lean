import Gargantuan.SortedMap
import Gargantuan.Runs

/-!
The content of a package as it becomes available in a world: units are requested, acquired
by jobs, cached, admitted and evicted, each together with what it depends on.

The entries of a manifest ascend by their keys, so here a unit stands under its key and the
order of the indices is the order of the keys. A job ends in one step, with an outcome that
is an input; so are what becomes of a prepared document in the world and what the eviction
finds there. Time and metrics are left out. A `size_t` is of 64 bits.
-/
namespace Gargantuan

def maximumPackageContentUnits : Nat := 65536
def maximumPackageContentObjectsPerUnit : Nat := 512
def maximumPackageContentPayloadBytes : Nat := 1024 * 1024
def maximumContentAvailabilityInFlight : Nat := 16
def maximumContentAvailabilityPendingRequests : Nat := 1024
def maximumContentAvailabilityCompletedPayloadBytes : Nat := 16 * 1024 * 1024
def maximumContentAvailabilityCachedPayloadBytes : Nat := 32 * 1024 * 1024
def maximumContentAvailabilityDecodedDocumentBytes : Nat := 16 * 1024 * 1024

structure PackageContentEntry (κ : Type) where
  compressedBytes : Nat
  uncompressedBytes : Nat
  objectCount : Nat
  dependencies : List κ := []
  requiredAtBootstrap : Bool := false

structure PackageContentManifest (κ : Type) [LinearOrder κ] where
  entries : SortedMap κ (PackageContentEntry κ)
  units : entries.size ≤ maximumPackageContentUnits
  payload : ∀ k e, entries.find? k = some e → 0 < e.compressedBytes ∧
    e.compressedBytes ≤ maximumPackageContentPayloadBytes ∧ e.uncompressedBytes = e.compressedBytes
  objects : ∀ k e, entries.find? k = some e → 0 < e.objectCount ∧ e.objectCount ≤ maximumPackageContentObjectsPerUnit
  ascending : ∀ k e, entries.find? k = some e → e.dependencies.Pairwise (· < ·)
  known : ∀ k e, entries.find? k = some e → ∀ d ∈ e.dependencies, d ≠ k ∧ entries.contains d = true
  acyclic : ∃ rank : κ → Nat, ∀ k e, entries.find? k = some e → ∀ d ∈ e.dependencies, rank d < rank k

inductive ContentResidencyMode where
  | fullyResident | streaming
deriving DecidableEq

/-- The limits of a configuration, with what the constructor checks of them. -/
structure ContentAvailabilityLimits where
  maximumInFlight : Nat := 4
  maximumPendingRequests : Nat := 1024
  maximumCompletedPayloadBytes : Nat := 16 * 1024 * 1024
  maximumCachedPayloadBytes : Nat := 32 * 1024 * 1024
  maximumDecodedDocumentBytes : Nat := 16 * 1024 * 1024
  maximumCompletionsPerTick : Nat := 4
  maximumAdmissionUnitsPerTick : Nat := 2
  maximumAdmissionObjectsPerTick : Nat := 512
  maximumAdmissionBytesPerTick : Nat := 1024 * 1024
  maximumEvictionUnitsPerTick : Nat := 2
  maximumEvictionObjectsPerTick : Nat := 512
  inFlight : 0 < maximumInFlight ∧ maximumInFlight ≤ maximumContentAvailabilityInFlight := by decide
  pending : 0 < maximumPendingRequests ∧ maximumPendingRequests ≤ maximumContentAvailabilityPendingRequests := by decide
  completed : maximumPackageContentPayloadBytes ≤ maximumCompletedPayloadBytes ∧
    maximumCompletedPayloadBytes ≤ maximumContentAvailabilityCompletedPayloadBytes := by decide
  cached : maximumPackageContentPayloadBytes ≤ maximumCachedPayloadBytes ∧
    maximumCachedPayloadBytes ≤ maximumContentAvailabilityCachedPayloadBytes := by decide
  decoded : maximumPackageContentPayloadBytes ≤ maximumDecodedDocumentBytes ∧
    maximumDecodedDocumentBytes ≤ maximumContentAvailabilityDecodedDocumentBytes := by decide
  perTick : 0 < maximumCompletionsPerTick ∧ 0 < maximumAdmissionUnitsPerTick ∧ 0 < maximumEvictionUnitsPerTick := by
    decide

inductive ContentResidencyState where
  | unavailable | requested | acquiring | available | admitting | resident | evicting | failed
deriving DecidableEq, Repr

inductive ContentProviderErrorCode where
  | cancelled | deadlineExceeded | unavailable | notFound | invalidResponse | resourceExhausted
deriving DecidableEq

structure ContentProviderError where
  code : ContentProviderErrorCode
  message : String
deriving DecidableEq

namespace ContentAvailabilityService

structure Record where
  residency : ContentResidencyState := .unavailable
  directDemand : Nat := 0
  dependencyDemand : Nat := 0
  pins : Nat := 0
  requestCancelled : Option Nat := none
  cachedPayload : Bool := false
  prepared : Option Nat := none
  encodedBytes : Nat := 0
  root : Bool := false
deriving DecidableEq

def Record.desire (r : Record) : Nat := r.directDemand + r.dependencyDemand + r.pins

structure PreparedContent (κ : Type) where
  key : κ
  document : Option Nat := none
  preparationDeferred : Bool := false
  encodedBytes : Nat
  cacheHit : Bool := false

structure ContentJob (κ : Type) where
  key : κ
  request : Nat
  reservedBytes : Nat
  cached : Bool
deriving DecidableEq

inductive Work (κ : Type) where
  | manifest
  | content (job : ContentJob κ)

structure Job (κ : Type) where
  generation : Nat
  work : Work κ

inductive Result (κ : Type) [LinearOrder κ] where
  | manifest (result : Except ContentProviderError (PackageContentManifest κ))
  | content (job : ContentJob κ) (result : Except ContentProviderError (PreparedContent κ))

structure Completion (κ : Type) [LinearOrder κ] where
  generation : Nat
  result : Result κ

def Completion.reservedBytes {κ : Type} [LinearOrder κ] (c : Completion κ) : Nat :=
  match c.result with
  | .manifest _ => 0
  | .content job _ => job.reservedBytes

/-- The bytes that a completed payload takes in the queue. -/
def Completion.encodedBytes {κ : Type} [LinearOrder κ] (c : Completion κ) : Nat :=
  match c.result with
  | .content _ (.ok prepared) => prepared.encodedBytes
  | _ => 0

def Completion.decodedBytes {κ : Type} [LinearOrder κ] (c : Completion κ) : Nat :=
  match c.result with
  | .content _ (.ok prepared) => prepared.document.getD 0
  | _ => 0

def Job.reservedBytes {κ : Type} (j : Job κ) : Nat :=
  match j.work with
  | .manifest => 0
  | .content job => job.reservedBytes

inductive Report where
  | manifestUnavailable (message : String)
  | acquisitionFailed (message : String)
  | payloadRejected (message : String)
  | admissionDecodeRejected (message : String)
  | admissionCommitRejected (message : String)
deriving DecidableEq

end ContentAvailabilityService

structure ContentAvailabilityConfiguration where
  mode : ContentResidencyMode := .fullyResident
  limits : ContentAvailabilityLimits := {}

open ContentAvailabilityService in
/-- The service. A request that was cancelled is known by its number; the reports say which unit they are about. -/
structure ContentAvailabilityService (κ : Type) [LinearOrder κ] where
  generation : Nat := 1
  jobs : List (Job κ) := []
  completions : List (Completion κ) := []
  completionBytes : Nat := 0
  manifest : Option (PackageContentManifest κ) := none
  records : SortedMap κ Record := ∅
  requests : Nat := 0
  cancelled : List Nat := []
  inFlight : Nat := 0
  reservedCompletionBytes : Nat := 0
  pending : Nat := 0
  cachedBytes : Nat := 0
  manifestInFlight : Bool := false
  manifestFailed : Bool := false
  stopped : Bool := false
  reports : List (Option κ × Report) := []

namespace ContentAvailabilityService
variable {κ : Type} [LinearOrder κ]

/-- Unsigned subtraction, which wraps. -/
def sizeSub (a b : Nat) : Nat := if b ≤ a then a - b else a + 2 ^ 64 - b

def maximumDemand : Nat := 2 ^ 32 - 1

def recordOf (records : SortedMap κ Record) (k : κ) : Record := (records.find? k).getD {}

def record (s : ContentAvailabilityService κ) (k : κ) : Record := recordOf s.records k

def put (s : ContentAvailabilityService κ) (k : κ) (r : Record) : ContentAvailabilityService κ :=
  { s with records := s.records.insert k r }

def dependencies (m : PackageContentManifest κ) (k : κ) : List κ :=
  ((m.entries.find? k).map PackageContentEntry.dependencies).getD []

instance decidableDependency (m : PackageContentManifest κ) (k d : κ) : Decidable (d ∈ dependencies m k) :=
  List.instDecidableMemOfLawfulBEq d (dependencies m k)

def dependents (m : PackageContentManifest κ) (k : κ) : List κ :=
  m.entries.keys.filter fun dependent => k ∈ dependencies m dependent

def compressedBytes (m : PackageContentManifest κ) (k : κ) : Nat :=
  ((m.entries.find? k).map PackageContentEntry.compressedBytes).getD 0

def uncompressedBytes (m : PackageContentManifest κ) (k : κ) : Nat :=
  ((m.entries.find? k).map PackageContentEntry.uncompressedBytes).getD 0

def objectCount (m : PackageContentManifest κ) (k : κ) : Nat :=
  ((m.entries.find? k).map PackageContentEntry.objectCount).getD 0

/-- The documents that are decoded, in the queue and with the units. -/
def decodedBytes (s : ContentAvailabilityService κ) : Nat :=
  (s.completions.map Completion.decodedBytes).sum + s.records.total fun r => r.prepared.getD 0

def submitManifest (s : ContentAvailabilityService κ) : ContentAvailabilityService κ :=
  { s with
    manifestInFlight := true, inFlight := s.inFlight + 1, jobs := s.jobs ++ [⟨s.generation,.manifest⟩] }

/-- The service after its construction. -/
def new : ContentAvailabilityService κ := submitManifest {}

/-- Starts a job for a unit, with a request of its own. -/
def submit (s : ContentAvailabilityService κ) (k : κ) (expectedBytes : Nat) (cached : Bool) :
    ContentAvailabilityService κ :=
  let request := s.requests
  { s.put k { s.record k with residency := .acquiring, requestCancelled := some request } with
    requests := request + 1, inFlight := s.inFlight + 1
    reservedCompletionBytes := s.reservedCompletionBytes + expectedBytes
    jobs := s.jobs ++ [⟨s.generation,.content ⟨k,request,expectedBytes,cached⟩⟩] }

def submitContent (m : PackageContentManifest κ) (s : ContentAvailabilityService κ) (k : κ) :
    ContentAvailabilityService κ :=
  submit { s with pending := sizeSub s.pending 1 } k (compressedBytes m k) false

def submitCachedContent (s : ContentAvailabilityService κ) (k : κ) : ContentAvailabilityService κ :=
  let pending := if (s.record k).residency = .requested then sizeSub s.pending 1 else s.pending
  submit { s with pending } k (s.record k).encodedBytes true

inductive Outcome (κ : Type) [LinearOrder κ] where
  | manifest (result : Except ContentProviderError (PackageContentManifest κ))
  | failed (error : ContentProviderError)
  | decoded (bytes : Nat)

def finishPreparation (limits : ContentAvailabilityLimits) (decoded : Nat) (prepared : PreparedContent κ) (bytes : Nat) :
    Except ContentProviderError (PreparedContent κ) :=
  if bytes > limits.maximumDecodedDocumentBytes then
    .error ⟨.resourceExhausted,"decoded content document exceeds its byte limit"⟩
  else if bytes ≤ limits.maximumDecodedDocumentBytes - decoded then .ok { prepared with document := some bytes }
  else .ok { prepared with preparationDeferred := true }

/-- A completed payload enters the queue, where one from the provider may find no room. -/
def enqueue (limits : ContentAvailabilityLimits) (s : ContentAvailabilityService κ) (generation : Nat)
    (job : ContentJob κ) (result : Except ContentProviderError (PreparedContent κ)) : ContentAvailabilityService κ :=
  match result with
  | .error error => { s with completions := s.completions ++ [⟨generation,.content job (.error error)⟩] }
  | .ok prepared =>
    if job.cached || decide (prepared.encodedBytes ≤ limits.maximumCompletedPayloadBytes -
        min s.completionBytes limits.maximumCompletedPayloadBytes) then
      { s with
        completionBytes := s.completionBytes + prepared.encodedBytes
        completions := s.completions ++ [⟨generation,.content job (.ok prepared)⟩] }
    else
      let error : ContentProviderError := ⟨.resourceExhausted,"completed-payload queue byte limit reached"⟩
      { s with completions := s.completions ++ [⟨generation,.content job (.error error)⟩] }

def completeJob (limits : ContentAvailabilityLimits) (s : ContentAvailabilityService κ) (index : Nat)
    (outcome : Outcome κ) : Option (ContentAvailabilityService κ) :=
  match s.jobs[index]? with
  | none => none
  | some j =>
    let s := { s with jobs := s.jobs.eraseIdx index }
    match j.work, outcome with
    | .manifest, .manifest result => some { s with completions := s.completions ++ [⟨j.generation,.manifest result⟩] }
    | .content job, .failed error => some (enqueue limits s j.generation job (.error error))
    | .content job, .decoded bytes =>
      let prepared : PreparedContent κ := { key := job.key, encodedBytes := job.reservedBytes, cacheHit := job.cached }
      some (enqueue limits s j.generation job (finishPreparation limits s.decodedBytes prepared bytes))
    | _, _ => none

/-- Goes through the dependencies on the stack while there is fuel. A unit whose desire leaves zero, or comes back to
    it, puts its own dependencies on the stack; the last one of them is on top. -/
def adjust (m : PackageContentManifest κ) (add : Bool) :
    (fuel : Nat) → (stack : List κ) → SortedMap κ Record → SortedMap κ Record
  | 0, _, records | _, [], records => records
  | fuel + 1, d :: rest, records =>
    let r := recordOf records d
    if add then
      if r.dependencyDemand = maximumDemand then adjust m add fuel rest records
      else
        let records := records.insert d { r with dependencyDemand := r.dependencyDemand + 1 }
        if r.desire ≠ 0 then adjust m add fuel rest records
        else adjust m add fuel ((dependencies m d).reverse ++ rest) records
    else if r.dependencyDemand = 0 then adjust m add fuel rest records
    else
      let less := { r with dependencyDemand := r.dependencyDemand - 1 }
      let records := records.insert d less
      if less.desire ≠ 0 then adjust m add fuel rest records
      else adjust m add fuel ((dependencies m d).reverse ++ rest) records

def edges (m : PackageContentManifest κ) : Nat := m.entries.total fun e => e.dependencies.length

/-- No unit crosses zero twice, so the loop takes no more turns than there are dependencies. -/
def adjustDependencies (m : PackageContentManifest κ) (records : SortedMap κ Record) (k : κ) (add : Bool) :
    SortedMap κ Record :=
  adjust m add (edges m) (dependencies m k).reverse records

def request (m : PackageContentManifest κ) (records : SortedMap κ Record) (k : κ) : Bool × SortedMap κ Record :=
  let r := recordOf records k
  if r.directDemand = maximumDemand then (false,records)
  else
    let more := records.insert k { r with directDemand := r.directDemand + 1 }
    if r.directDemand ≠ 0 then (true,more)
    else if r.desire = 0 then (true,adjustDependencies m more k true)
    else (true,more)

def release (m : PackageContentManifest κ) (records : SortedMap κ Record) (k : κ) : Bool × SortedMap κ Record :=
  let r := recordOf records k
  if r.directDemand = 0 then (false,records)
  else
    let less := { r with directDemand := r.directDemand - 1 }
    if less.desire = 0 then (true,adjustDependencies m (records.insert k less) k false)
    else (true,records.insert k less)

def pin (m : PackageContentManifest κ) (records : SortedMap κ Record) (k : κ) : Bool × SortedMap κ Record :=
  let r := recordOf records k
  if r.pins = maximumDemand then (false,records)
  else
    let more := records.insert k { r with pins := r.pins + 1 }
    if r.desire = 0 then (true,adjustDependencies m more k true) else (true,more)

def unpin (m : PackageContentManifest κ) (records : SortedMap κ Record) (k : κ) : Bool × SortedMap κ Record :=
  let r := recordOf records k
  if r.pins = 0 then (false,records)
  else
    let less := { r with pins := r.pins - 1 }
    if less.desire = 0 then (true,adjustDependencies m (records.insert k less) k false)
    else (true,records.insert k less)

def demand (change : PackageContentManifest κ → SortedMap κ Record → κ → Bool × SortedMap κ Record)
    (s : ContentAvailabilityService κ) (k : κ) : Bool × ContentAvailabilityService κ :=
  match s.manifest with
  | none => (false,s)
  | some m =>
    if s.stopped || !m.entries.contains k then (false,s)
    else
      let changed := change m s.records k
      (changed.1,{ s with records := changed.2 })

def requestContent (s : ContentAvailabilityService κ) (k : κ) : Bool × ContentAvailabilityService κ := demand request s k
def releaseContent (s : ContentAvailabilityService κ) (k : κ) : Bool × ContentAvailabilityService κ := demand release s k
def pinContent (s : ContentAvailabilityService κ) (k : κ) : Bool × ContentAvailabilityService κ := demand pin s k
def unpinContent (s : ContentAvailabilityService κ) (k : κ) : Bool × ContentAvailabilityService κ := demand unpin s k

/-- What becomes of a unit that nobody desires. -/
def withdraw (s : ContentAvailabilityService κ) (k : κ) : ContentAvailabilityService κ :=
  let r := s.record k
  match r.residency with
  | .available => s.put k { r with prepared := none, residency := .unavailable }
  | .requested => { s.put k { r with residency := .unavailable } with pending := s.pending - 1 }
  | .acquiring =>
    match r.requestCancelled with
    | some request => if request ∈ s.cancelled then s else { s with cancelled := request :: s.cancelled }
    | none => s
  | _ => s

/-- A requested unit is submitted if there is room for its completion and for one more job. -/
def submitRequested (limits : ContentAvailabilityLimits) (m : PackageContentManifest κ)
    (s : ContentAvailabilityService κ) (k : κ) : ContentAvailabilityService κ :=
  if (s.record k).residency ≠ .requested then s
  else if compressedBytes m k > limits.maximumCompletedPayloadBytes -
      min s.reservedCompletionBytes limits.maximumCompletedPayloadBytes then s
  else if s.inFlight ≥ limits.maximumInFlight then s
  else if (s.record k).cachedPayload then s.submitCachedContent k
  else submitContent m s k

def startRequest (limits : ContentAvailabilityLimits) (m : PackageContentManifest κ)
    (s : ContentAvailabilityService κ) (k : κ) : ContentAvailabilityService κ :=
  if (s.record k).desire = 0 then s.withdraw k
  else if (s.record k).residency = .unavailable then
    if s.pending ≥ limits.maximumPendingRequests then s
    else
      submitRequested limits m
        { s.put k { s.record k with residency := .requested } with pending := s.pending + 1 } k
  else submitRequested limits m s k

def startRequests (limits : ContentAvailabilityLimits) (s : ContentAvailabilityService κ) :
    ContentAvailabilityService κ :=
  match s.manifest with
  | none => s
  | some m => m.entries.keys.foldl (startRequest limits m) s

def hasCacheSpace (limits : ContentAvailabilityLimits) (s : ContentAvailabilityService κ) (requiredBytes : Nat) : Bool :=
  decide (requiredBytes ≤ limits.maximumCachedPayloadBytes - min s.cachedBytes limits.maximumCachedPayloadBytes)

/-- A payload leaves the cache if its unit is not being acquired, and is resident or not desired. -/
def isEvictable (r : Record) : Bool :=
  r.cachedPayload && decide (r.residency ≠ .acquiring) && (r.root || decide (r.desire = 0))

def evictPayload (s : ContentAvailabilityService κ) (k : κ) : ContentAvailabilityService κ :=
  let r := s.record k
  { s.put k { r with
      cachedPayload := false, encodedBytes := 0
      prepared := if r.root then r.prepared else none
      residency := if r.root then r.residency else .unavailable } with
    cachedBytes := sizeSub s.cachedBytes r.encodedBytes }

/-- Evicts payloads of the units in turn until there is space. -/
def evictPayloads (limits : ContentAvailabilityLimits) (requiredBytes : Nat) (preserved : κ) :
    List κ → ContentAvailabilityService κ → ContentAvailabilityService κ
  | [], s => s
  | k :: rest, s =>
    if k = preserved || !isEvictable (s.record k) then evictPayloads limits requiredBytes preserved rest s
    else if (s.evictPayload k).hasCacheSpace limits requiredBytes then s.evictPayload k
    else evictPayloads limits requiredBytes preserved rest (s.evictPayload k)

def makeCacheSpace (limits : ContentAvailabilityLimits) (s : ContentAvailabilityService κ) (requiredBytes : Nat)
    (preserved : κ) : ContentAvailabilityService κ :=
  if s.hasCacheSpace limits requiredBytes then s
  else evictPayloads limits requiredBytes preserved s.records.keys.reverse s

/-! ### Completions -/

def dependenciesResident (m : PackageContentManifest κ) (s : ContentAvailabilityService κ) (k : κ) : Bool :=
  (dependencies m k).all fun d => decide ((s.record d).residency = .resident)

def hasResidentDependent (m : PackageContentManifest κ) (s : ContentAvailabilityService κ) (k : κ) : Bool :=
  (dependents m k).any fun d => decide ((s.record d).residency = .resident) || decide ((s.record d).residency = .evicting)

def fail (s : ContentAvailabilityService κ) (k : κ) (report : Report) : ContentAvailabilityService κ :=
  { s.put k { s.record k with residency := .failed } with reports := s.reports ++ [(some k,report)] }

/-- A new manifest makes new records, of which some are requested at once. -/
def acceptManifest (mode : ContentResidencyMode) (s : ContentAvailabilityService κ) (m : PackageContentManifest κ) :
    ContentAvailabilityService κ :=
  let wanted := m.entries.entries.filter fun e => decide (mode = .fullyResident) || e.2.requiredAtBootstrap
  let blank := m.entries.mapValues fun _ _ => ({} : Record)
  { s with manifest := some m, records := wanted.foldl (fun records e => (request m records e.1).2) blank }

def Record.keep (r : Record) (bytes : Nat) : Record :=
  if r.cachedPayload then r else { r with cachedPayload := true, encodedBytes := bytes }

/-- The unit keeps the payload and becomes available. -/
def accept (m : PackageContentManifest κ) (s : ContentAvailabilityService κ) (k : κ) (prepared : PreparedContent κ) :
    ContentAvailabilityService κ :=
  let r := s.record k
  let document := if s.dependenciesResident m k then prepared.document else none
  { s.put k { r.keep prepared.encodedBytes with prepared := document, residency := .available } with
    cachedBytes := if r.cachedPayload then s.cachedBytes else s.cachedBytes + prepared.encodedBytes }

/-- A verified payload finds its unit. -/
def acceptPayload (limits : ContentAvailabilityLimits) (m : PackageContentManifest κ) (s : ContentAvailabilityService κ)
    (k : κ) (prepared : PreparedContent κ) : ContentAvailabilityService κ :=
  if prepared.key ≠ k ∨ (prepared.document = none ∧ prepared.preparationDeferred = false) ∨
      prepared.encodedBytes ≠ compressedBytes m k then
    s.fail k (.payloadRejected "Content payload identity or size is invalid")
  else if (s.record k).cachedPayload then s.accept m k prepared
  else
    let s := s.makeCacheSpace limits prepared.encodedBytes k
    if !s.hasCacheSpace limits prepared.encodedBytes then
      s.fail k (.payloadRejected "Content immutable cache byte limit is exhausted")
    else s.accept m k prepared

def drainContent (limits : ContentAvailabilityLimits) (s : ContentAvailabilityService κ) (job : ContentJob κ)
    (result : Except ContentProviderError (PreparedContent κ)) : ContentAvailabilityService κ :=
  match s.manifest with
  | none => s
  | some m =>
    let r := s.record job.key
    if !m.entries.contains job.key then s
    else if r.residency ≠ .acquiring then s
    else if r.desire = 0 ∨ r.requestCancelled.any (fun request => decide (request ∈ s.cancelled)) then
      { s.put job.key { r with requestCancelled := none, residency := .unavailable } with
        cancelled := r.requestCancelled.toList ++ s.cancelled }
    else
      let s := s.put job.key { r with requestCancelled := none }
      match result with
      | .error error => s.fail job.key (.acquisitionFailed error.message)
      | .ok prepared => acceptPayload limits m s job.key prepared

def discharge (s : ContentAvailabilityService κ) (c : Completion κ) : ContentAvailabilityService κ :=
  { s with
    inFlight := s.inFlight - 1
    reservedCompletionBytes :=
      if c.reservedBytes ≤ s.reservedCompletionBytes then s.reservedCompletionBytes - c.reservedBytes else 0 }

def drain (configuration : ContentAvailabilityConfiguration) (s : ContentAvailabilityService κ) (c : Completion κ) :
    ContentAvailabilityService κ :=
  let s := s.discharge c
  if c.generation ≠ s.generation then s
  else
    match c.result with
    | .manifest (.error error) =>
      { s with
        manifestInFlight := false, manifestFailed := true
        reports := s.reports ++ [(none,.manifestUnavailable error.message)] }
    | .manifest (.ok m) => acceptManifest configuration.mode { s with manifestInFlight := false } m
    | .content job result => drainContent configuration.limits s job result

/-- The completions of one step leave the queue. -/
def completed (limits : ContentAvailabilityLimits) (s : ContentAvailabilityService κ) : List (Completion κ) :=
  s.completions.take limits.maximumCompletionsPerTick

def takeCompletions (limits : ContentAvailabilityLimits) (s : ContentAvailabilityService κ) :
    ContentAvailabilityService κ :=
  { s with
    completions := s.completions.drop limits.maximumCompletionsPerTick
    completionBytes := (completed limits s).foldl (fun bytes c => sizeSub bytes c.encodedBytes) s.completionBytes }

def drainAll (configuration : ContentAvailabilityConfiguration) (s : ContentAvailabilityService κ) :
    ContentAvailabilityService κ :=
  (completed configuration.limits s).foldl (drain configuration) (takeCompletions configuration.limits s)

/-- What becomes of a prepared document in the world. -/
inductive Admission where
  | committed
  | decodeRejected (message : String)
  | commitRejected (message : String)

/-- What the eviction finds of a unit's root. -/
inductive Root where
  | destroyed | withRuntimeChild | intact | refusesDestruction
deriving DecidableEq

/-- The service in a loop over the units, with what the loop has taken of its limits. -/
structure Pass (κ : Type) [LinearOrder κ] where
  service : ContentAvailabilityService κ
  units : Nat := 0
  objects : Nat := 0
  bytes : Nat := 0
  thrown : Bool := false

def rejectAdmission (s : ContentAvailabilityService κ) (k : κ) (report : Report) : ContentAvailabilityService κ :=
  let r := s.record k
  { s.put k { r with cachedPayload := false, prepared := none, encodedBytes := 0, residency := .failed } with
    cachedBytes := sizeSub s.cachedBytes r.encodedBytes, reports := s.reports ++ [(some k,report)] }

/-- The preparation of a unit whose document was not kept. -/
def prepareAgain (limits : ContentAvailabilityLimits) (s : ContentAvailabilityService κ) (k : κ) :
    ContentAvailabilityService κ :=
  if s.inFlight < limits.maximumInFlight ∧ s.decodedBytes < limits.maximumDecodedDocumentBytes ∧
      (s.record k).encodedBytes ≤ limits.maximumCompletedPayloadBytes -
        min s.reservedCompletionBytes limits.maximumCompletedPayloadBytes then
    s.submitCachedContent k
  else s

def admitUnit (limits : ContentAvailabilityLimits) (m : PackageContentManifest κ) (admission : κ → Admission) (p : Pass κ)
    (k : κ) : Pass κ :=
  let s := p.service
  let r := s.record k
  if p.units ≥ limits.maximumAdmissionUnitsPerTick then p
  else if r.residency ≠ .available ∨ r.desire = 0 then p
  else if !s.dependenciesResident m k ∨ p.objects + objectCount m k > limits.maximumAdmissionObjectsPerTick ∨
      p.bytes + uncompressedBytes m k > limits.maximumAdmissionBytesPerTick then p
  else if r.prepared = none then { p with service := s.prepareAgain limits k }
  else
    match admission k with
    | .decodeRejected message => { p with service := s.rejectAdmission k (.admissionDecodeRejected message) }
    | .commitRejected message => { p with service := s.rejectAdmission k (.admissionCommitRejected message) }
    | .committed =>
      { p with
        service := s.put k { r with root := true, prepared := none, residency := .resident }
        units := p.units + 1, objects := p.objects + objectCount m k, bytes := p.bytes + uncompressedBytes m k }

/-- The unit without its root. -/
def Record.unrooted (r : Record) : Record :=
  { r with root := false, residency := if r.prepared.isSome then .available else .unavailable }

def evict (limits : ContentAvailabilityLimits) (m : PackageContentManifest κ) (roots : κ → Root) (p : Pass κ) (k : κ) :
    Pass κ :=
  let s := p.service
  let r := s.record k
  if p.thrown ∨ p.units ≥ limits.maximumEvictionUnitsPerTick then p
  else if r.residency ≠ .resident ∨ r.desire ≠ 0 ∨ s.hasResidentDependent m k ∨
      p.objects + objectCount m k > limits.maximumEvictionObjectsPerTick then p
  else if !r.root ∨ roots k = .destroyed then { p with service := s.put k r.unrooted }
  else
    match roots k with
    | .withRuntimeChild => p
    | .refusesDestruction => { p with service := s.put k { r with residency := .evicting }, thrown := true }
    | _ =>
      { p with service := s.put k r.unrooted, units := p.units + 1, objects := p.objects + objectCount m k }

def step (configuration : ContentAvailabilityConfiguration) (s : ContentAvailabilityService κ)
    (admission : κ → Admission) (roots : κ → Root) : ContentAvailabilityService κ :=
  if s.stopped then s
  else
    let limits := configuration.limits
    let started := startRequests limits (drainAll configuration s)
    match started.manifest with
    | none => started
    | some m =>
      let admitted := m.entries.keys.foldl (admitUnit limits m admission) { service := started }
      let evicted := m.entries.keys.reverse.foldl (evict limits m roots) { service := admitted.service }
      if evicted.thrown then evicted.service else startRequests limits evicted.service

def stopUnit (roots : κ → Root) (p : Pass κ) (k : κ) : Pass κ :=
  let r := p.service.record k
  if p.thrown then p
  else if r.root ∧ roots k = .refusesDestruction then { p with thrown := true }
  else
    { p with service := p.service.put k { r with
        root := false, prepared := none, cachedPayload := false, encodedBytes := 0, residency := .unavailable } }

def stopping (s : ContentAvailabilityService κ) : ContentAvailabilityService κ :=
  { s with
    stopped := true, generation := s.generation + 1, jobs := []
    cancelled := (s.records.entries.filterMap fun e => e.2.requestCancelled) ++ s.cancelled }

def stop (s : ContentAvailabilityService κ) (roots : κ → Root) : ContentAvailabilityService κ :=
  if s.stopped then s
  else
    let taken := s.records.keys.foldl (stopUnit roots) { service := s.stopping }
    if taken.thrown then taken.service
    else
      { taken.service with
        completions := [], completionBytes := 0, manifest := none, records := ∅, inFlight := 0
        reservedCompletionBytes := 0, pending := 0, cachedBytes := 0 }

def retryContent (limits : ContentAvailabilityLimits) (s : ContentAvailabilityService κ) (k : κ) :
    Bool × ContentAvailabilityService κ :=
  match s.manifest with
  | none => (false,s)
  | some m =>
    if s.stopped || !m.entries.contains k || decide ((s.record k).residency ≠ .failed) then (false,s)
    else (true,startRequests limits (s.put k { s.record k with residency := .unavailable }))

inductive Event (κ : Type) [LinearOrder κ] where
  | completeJob (index : Nat) (outcome : Outcome κ)
  | step (admission : κ → Admission) (roots : κ → Root)
  | requestContent (k : κ)
  | releaseContent (k : κ)
  | pinContent (k : κ)
  | unpinContent (k : κ)
  | retryContent (k : κ)
  | stop (roots : κ → Root)

def operate (configuration : ContentAvailabilityConfiguration) (s : ContentAvailabilityService κ) :
    Event κ → Option (ContentAvailabilityService κ)
  | .completeJob index outcome => completeJob configuration.limits s index outcome
  | .step admission roots => some (step configuration s admission roots)
  | .requestContent k => some (s.requestContent k).2
  | .releaseContent k => some (s.releaseContent k).2
  | .pinContent k => some (s.pinContent k).2
  | .unpinContent k => some (s.unpinContent k).2
  | .retryContent k => some (s.retryContent configuration.limits k).2
  | .stop roots => some (s.stop roots)

end ContentAvailabilityService
end Gargantuan
