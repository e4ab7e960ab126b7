import Gargantuan.SortedMap
import Gargantuan.Runs

/-!
The accumulator of what has to be rendered again. Each scope counts one version up for every
mark; a consumer captures what is newer than the version that it has acknowledged. What every
consumer of a scope has acknowledged is forgotten, and so is a failure, which asks for a full
resync and is given its version when it first occurs.

Identities are valid here. Allocation failures, profiling and `Clear` are left out. A
`size_t` is of 64 bits.
-/
namespace Gargantuan

def maximumVersion : Nat := 2 ^ 64 - 1
def maximumSize : Nat := 2 ^ 64 - 1

abbrev RenderUpdateDomain := BitVec 32

def RenderUpdateDomain.deformableVertices : RenderUpdateDomain := 1#32 <<< 4

def hasRenderUpdateDomain (value domain : RenderUpdateDomain) : Bool := decide (value &&& domain ≠ 0)

structure RenderDirtyLimits where
  maximumScopes : Nat := 64
  maximumConsumers : Nat := 64
  maximumDistinctObjects : Nat := 131072
  maximumDeformableBytes : Nat := 32 * 1024 * 1024
  maximumUiBytes : Nat := 32 * 1024 * 1024
  maximumDiagnostics : Nat := 8
  nonzero : maximumScopes ≠ 0 ∧ maximumConsumers ≠ 0 ∧ maximumDistinctObjects ≠ 0 ∧ maximumDeformableBytes ≠ 0 ∧
    maximumUiBytes ≠ 0 ∧ maximumDiagnostics ≠ 0 := by decide

structure RenderDirtyRecord (κ : Type) where
  object : κ
  domains : RenderUpdateDomain
  estimatedDeformableBytes : Nat
  version : Nat

structure RenderDirtyBatch (κ : Type) where
  scope : κ
  consumer : Nat
  captureVersion : Nat := 0
  globalCaptureVersion : Nat
  fullResyncRequired : Bool
  uiDirty : Bool := false
  estimatedDeformableBytes : Nat := 0
  estimatedUiBytes : Nat := 0
  records : List (RenderDirtyRecord κ) := []
  diagnostics : List String := []

namespace RenderDirtyAccumulator

structure Entry where
  domains : RenderUpdateDomain := 0
  estimatedDeformableBytes : Nat := 0
  version : Nat := 0
deriving DecidableEq

structure ScopeState (κ : Type) [LinearOrder κ] where
  nextVersion : Nat := 1
  fullResyncVersion : Nat := 0
  uiVersion : Nat := 0
  estimatedDeformableBytes : Nat := 0
  estimatedUiBytes : Nat := 0
  entries : SortedMap κ Entry := ∅
  consumerVersions : SortedMap Nat Nat := ∅
  diagnostics : List String := []

end RenderDirtyAccumulator

open RenderDirtyAccumulator in
structure RenderDirtyAccumulator (κ : Type) [LinearOrder κ] where
  scopes : SortedMap κ (ScopeState κ) := ∅
  consumerGlobalVersions : SortedMap Nat Nat := ∅
  globalFailureVersion : Nat := 0
  nextGlobalVersion : Nat := 1
  nextConsumer : Nat := 1

namespace RenderDirtyAccumulator
variable {κ : Type} [LinearOrder κ]

/-- Unsigned subtraction, which wraps. -/
def sizeSub (a b : Nat) : Nat := if b ≤ a then a - b else a + 2 ^ 64 - b

def markFailure (limits : RenderDirtyLimits) (s : ScopeState κ) (diagnostic : String) : ScopeState κ :=
  let failed := if s.fullResyncVersion = 0 then
    { s with
      fullResyncVersion := s.nextVersion
      nextVersion := if s.nextVersion ≠ maximumVersion then s.nextVersion + 1 else s.nextVersion }
    else s
  if failed.diagnostics.length ≥ limits.maximumDiagnostics then failed
  else { failed with diagnostics := failed.diagnostics ++ [diagnostic] }

def advanceVersion (limits : RenderDirtyLimits) (s : ScopeState κ) : Nat × ScopeState κ :=
  if s.nextVersion = maximumVersion then
    let failed := markFailure limits s "Render dirty version exhausted; a full resync is required"
    (failed.nextVersion,failed)
  else (s.nextVersion,{ s with nextVersion := s.nextVersion + 1 })

def entryBytes (e : Entry) (domains : RenderUpdateDomain) (bytes : Nat) : Nat :=
  if hasRenderUpdateDomain domains .deformableVertices then bytes else e.estimatedDeformableBytes

def scopeBytes (s : ScopeState κ) (e : Entry) (bytes : Nat) : Nat :=
  let remaining := sizeSub s.estimatedDeformableBytes e.estimatedDeformableBytes
  if bytes > maximumSize - remaining then maximumSize else remaining + bytes

/-- An entry takes part in a mark. -/
def touch (limits : RenderDirtyLimits) (s : ScopeState κ) (object : κ) (e : Entry) (domains : RenderUpdateDomain)
    (bytes : Nat) : ScopeState κ :=
  let total := scopeBytes s e (entryBytes e domains bytes)
  let advanced := advanceVersion limits { s with estimatedDeformableBytes := total }
  { advanced.2 with
    entries := s.entries.insert object ⟨e.domains ||| domains,entryBytes e domains bytes,advanced.1⟩ }

def isFull (limits : RenderDirtyLimits) (s : ScopeState κ) (object : κ) : Prop :=
  s.entries.find? object = none ∧ limits.maximumDistinctObjects ≤ s.entries.size

instance (limits : RenderDirtyLimits) (s : ScopeState κ) (object : κ) : Decidable (isFull limits s object) :=
  inferInstanceAs (Decidable (_ ∧ _))

def markObject (limits : RenderDirtyLimits) (object : κ) (domains : RenderUpdateDomain) (bytes : Nat)
    (s : ScopeState κ) : ScopeState κ :=
  if isFull limits s object then
    markFailure limits s "Render dirty distinct-object limit exceeded; partial publication was suppressed"
  else
    let marked := touch limits s object ((s.entries.find? object).getD {}) domains bytes
    if marked.estimatedDeformableBytes > limits.maximumDeformableBytes then
      markFailure limits marked "Render dirty deformable-byte limit exceeded; partial publication was suppressed"
    else marked

def markUiBytes (limits : RenderDirtyLimits) (bytes : Nat) (s : ScopeState κ) : ScopeState κ :=
  let advanced := advanceVersion limits { s with estimatedUiBytes := bytes }
  let marked := { advanced.2 with uiVersion := advanced.1 }
  if bytes > limits.maximumUiBytes then
    markFailure limits marked "Render dirty UI-byte limit exceeded; partial publication was suppressed"
  else marked

/-- What every consumer of the scope has acknowledged. -/
def minimumAcknowledged (versions : SortedMap Nat Nat) : Nat :=
  versions.entries.foldl (fun least e => min least e.2) maximumVersion

def forget (s : ScopeState κ) (least : Nat) : ScopeState κ :=
  let gone := s.entries.entries.filter fun e => decide (e.2.version ≤ least)
  let resynced := s.fullResyncVersion ≠ 0 ∧ s.fullResyncVersion ≤ least
  let drawn := s.uiVersion ≠ 0 ∧ s.uiVersion ≤ least
  { s with
    entries := s.entries.filter fun _ e => decide (least < e.version)
    estimatedDeformableBytes :=
      gone.foldl (fun bytes e => sizeSub bytes e.2.estimatedDeformableBytes) s.estimatedDeformableBytes
    uiVersion := if drawn then 0 else s.uiVersion
    estimatedUiBytes := if drawn then 0 else s.estimatedUiBytes
    fullResyncVersion := if resynced then 0 else s.fullResyncVersion
    diagnostics := if resynced then [] else s.diagnostics }

def acknowledgeVersion (s : ScopeState κ) (consumer version : Nat) : ScopeState κ :=
  match s.consumerVersions.find? consumer with
  | none => s
  | some known =>
    let versions := s.consumerVersions.insert consumer (max known version)
    forget { s with consumerVersions := versions } (minimumAcknowledged versions)

def isPending (d : RenderDirtyAccumulator κ) : Prop :=
  d.globalFailureVersion ≠ 0 ∧ (d.consumerGlobalVersions.isEmpty = true ∨
    ∃ e ∈ d.consumerGlobalVersions.entries, e.2 < d.globalFailureVersion)

instance (d : RenderDirtyAccumulator κ) : Decidable (isPending d) :=
  inferInstanceAs (Decidable (_ ∧ (_ ∨ ∃ e ∈ d.consumerGlobalVersions.entries, e.2 < d.globalFailureVersion)))

def markGlobalFailure (d : RenderDirtyAccumulator κ) : RenderDirtyAccumulator κ :=
  if isPending d then d
  else if d.nextGlobalVersion = maximumVersion then { d with globalFailureVersion := d.nextGlobalVersion }
  else { d with globalFailureVersion := d.nextGlobalVersion, nextGlobalVersion := d.nextGlobalVersion + 1 }

def hasPlace (limits : RenderDirtyLimits) (d : RenderDirtyAccumulator κ) (scope : κ) : Prop :=
  d.scopes.contains scope = true ∨ d.scopes.size < limits.maximumScopes

instance (limits : RenderDirtyLimits) (d : RenderDirtyAccumulator κ) (scope : κ) : Decidable (hasPlace limits d scope) :=
  inferInstanceAs (Decidable (_ ∨ _))

/-- Changes a scope, which is made if it does not exist and there is a place for it. -/
def withScope (limits : RenderDirtyLimits) (d : RenderDirtyAccumulator κ) (scope : κ)
    (change : ScopeState κ → ScopeState κ) : RenderDirtyAccumulator κ :=
  match d.scopes.find? scope with
  | some s => { d with scopes := d.scopes.insert scope (change s) }
  | none =>
    if d.scopes.size ≥ limits.maximumScopes then d.markGlobalFailure
    else { d with scopes := d.scopes.insert scope (change {}) }

def mark (limits : RenderDirtyLimits) (d : RenderDirtyAccumulator κ) (scope object : κ) (domains : RenderUpdateDomain)
    (bytes : Nat) : RenderDirtyAccumulator κ :=
  if domains = 0 then d else withScope limits d scope (markObject limits object domains bytes)

def markUi (limits : RenderDirtyLimits) (d : RenderDirtyAccumulator κ) (scope : κ) (bytes : Nat) :
    RenderDirtyAccumulator κ :=
  withScope limits d scope (markUiBytes limits bytes)

def requestFullResync (limits : RenderDirtyLimits) (d : RenderDirtyAccumulator κ) (scope : κ) (diagnostic : String) :
    RenderDirtyAccumulator κ :=
  withScope limits d scope fun s => markFailure limits s diagnostic

/-- The new consumer, unless the identities or the places are exhausted. -/
def createConsumer (limits : RenderDirtyLimits) (d : RenderDirtyAccumulator κ) :
    Option Nat × RenderDirtyAccumulator κ :=
  if d.nextConsumer = 0 ∨ d.nextConsumer = maximumVersion then (none,d)
  else
    let taken := { d with nextConsumer := d.nextConsumer + 1 }
    if d.consumerGlobalVersions.size ≥ limits.maximumConsumers then (none,taken)
    else
      (some d.nextConsumer,{ taken with consumerGlobalVersions := d.consumerGlobalVersions.insert d.nextConsumer 0 })

/-- Whether a release is about a scope; one without a scope is about all. -/
def releases (scope : Option κ) (k : κ) : Bool := decide (scope = none ∨ scope = some k)

def releaseConsumer (d : RenderDirtyAccumulator κ) (consumer : Nat) (scope : Option κ) : RenderDirtyAccumulator κ :=
  if consumer = 0 then d
  else
    let left := d.scopes.mapValues fun k s =>
      if releases scope k then { s with consumerVersions := s.consumerVersions.erase consumer } else s
    { d with
      consumerGlobalVersions :=
        if scope = none then d.consumerGlobalVersions.erase consumer else d.consumerGlobalVersions
      scopes := left.filter fun k s => !(releases scope k && s.consumerVersions.isEmpty) }

def captureVersion (s : ScopeState κ) : Nat :=
  if s.nextVersion = maximumVersion then s.nextVersion else s.nextVersion - 1

def batchOf (d : RenderDirtyAccumulator κ) (scope : κ) (consumer globalVersion : Nat) (s : ScopeState κ) :
    RenderDirtyBatch κ :=
  let version := (s.consumerVersions.find? consumer).getD 0
  { scope, consumer
    captureVersion := captureVersion s
    globalCaptureVersion := d.globalFailureVersion
    fullResyncRequired := decide (globalVersion < d.globalFailureVersion) || decide (version < s.fullResyncVersion)
    uiDirty := decide (version < s.uiVersion)
    estimatedDeformableBytes := s.estimatedDeformableBytes
    estimatedUiBytes := s.estimatedUiBytes
    records := (s.entries.entries.filter fun e => decide (version < e.2.version)).map fun e =>
      ⟨e.1,e.2.domains,e.2.estimatedDeformableBytes,e.2.version⟩
    diagnostics := s.diagnostics }

def join (s : ScopeState κ) (consumer : Nat) : ScopeState κ :=
  if s.consumerVersions.contains consumer then s
  else { s with consumerVersions := s.consumerVersions.insert consumer 0 }

def capture (limits : RenderDirtyLimits) (d : RenderDirtyAccumulator κ) (scope : κ) (consumer : Nat) :
    Option (RenderDirtyBatch κ × RenderDirtyAccumulator κ) :=
  match d.consumerGlobalVersions.find? consumer with
  | none => none
  | some globalVersion =>
    if hasPlace limits d scope then
      let s := join ((d.scopes.find? scope).getD {}) consumer
      some (batchOf d scope consumer globalVersion s,{ d with scopes := d.scopes.insert scope s })
    else
      let failed := d.markGlobalFailure
      some ({
        scope, consumer, globalCaptureVersion := failed.globalFailureVersion, fullResyncRequired := true
        diagnostics := ["Render dirty scope limit exceeded; a full resync is required"] },failed)

def acknowledge (d : RenderDirtyAccumulator κ) (batch : RenderDirtyBatch κ) : RenderDirtyAccumulator κ :=
  match d.consumerGlobalVersions.find? batch.consumer with
  | none => d
  | some globalVersion =>
    let heard := { d with
      consumerGlobalVersions :=
        d.consumerGlobalVersions.insert batch.consumer (max globalVersion batch.globalCaptureVersion) }
    match d.scopes.find? batch.scope with
    | none => heard
    | some s =>
      { heard with scopes := d.scopes.insert batch.scope (acknowledgeVersion s batch.consumer batch.captureVersion) }

end RenderDirtyAccumulator
end Gargantuan
