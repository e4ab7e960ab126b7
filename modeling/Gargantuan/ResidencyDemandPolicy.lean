import Gargantuan.Buckets
import Gargantuan.WireValue
import Mathlib.Data.Prod.Lex

/-!
Which content units are asked for. Foci attach candidates to units, requirements name units, and
what is desired is requested from the service and released after a grace; the deltas that are
not yet applied wait in an order of their ranks.

What is computed with floating-point numbers is taken as it comes (`ResidencyGeometry`), and so
are the pages of the coarse index. Metrics, diagnostics and allocation failures are left out.
-/
namespace Gargantuan

abbrev ResidencyFocusId := Nat

def maximumTick : Nat := 2 ^ 64 - 1

inductive ResidencyDemandClass where
  | critical | gameplay | predictive | presentation | speculative
deriving DecidableEq

namespace ResidencyDemandClass

def toNat : ResidencyDemandClass → Nat
  | .critical => 0
  | .gameplay => 1
  | .predictive => 2
  | .presentation => 3
  | .speculative => 4

theorem toNat_injective : Function.Injective toNat := by
  intro a b same
  cases a <;> cases b <;> first | rfl | cases same

instance : LinearOrder ResidencyDemandClass := LinearOrder.lift' toNat toNat_injective

end ResidencyDemandClass

/-- Distances in their order, and what is computed of positions and volumes. -/
structure ResidencyGeometry where
  Distance : Type
  [order : LinearOrder Distance]
  nearest : Distance
  farthest : Distance
  Vector : Type
  origin : Vector
  sameVector : Vector → Vector → Bool
  /-- Finite, with each coordinate within the bounds of foci. -/
  isPosition : Vector → Bool
  isFinite : Vector → Bool
  /-- Where a focus is after the time of the lookahead. -/
  lookahead : Vector → Vector → Vector
  Bounds : Type
  sameBounds : Bounds → Bounds → Bool
  requiredBounds : Vector → Vector → Bounds
  withSlack : Bounds → Bounds
  covers : Bounds → Bounds → Bool
  distanceSquared : Vector → Bounds → Distance
  segmentDistanceSquared : Vector → Vector → Bounds → Distance
  /-- The squares of the radii. -/
  enter : Distance
  leave : Distance

attribute [instance] ResidencyGeometry.order

structure ResidencyDemandPolicyLimits where
  maximumFocuses : Nat := 512
  maximumCandidatesPerFocus : Nat := 256
  maximumFocusEvaluationsPerTick : Nat := 16
  maximumQueryCellsPerTick : Nat := 512
  maximumMembershipVisitsPerTick : Nat := 4096
  maximumDemandDeltasPerTick : Nat := 32
  maximumCandidateRevalidationsPerTick : Nat := 8192
  maximumRequestValidationVisitsPerTick : Nat := 4096
  graceTicks : Nat := 30

def maximumPackageCoarseQueryCells : Nat := 4096
def maximumPackageCoarseQueryMembershipVisits : Nat := 262144

def ResidencyDemandPolicyLimits.isValid (l : ResidencyDemandPolicyLimits) : Bool :=
  let within (value bound : Nat) := value != 0 && decide (value ≤ bound)
  within l.maximumFocuses 512 && within l.maximumCandidatesPerFocus 1024 && within l.maximumFocusEvaluationsPerTick
      512 &&
    within l.maximumQueryCellsPerTick maximumPackageCoarseQueryCells &&
    within l.maximumMembershipVisitsPerTick maximumPackageCoarseQueryMembershipVisits &&
    within l.maximumDemandDeltasPerTick 1024 &&
    decide (2 * l.maximumCandidatesPerFocus ≤ l.maximumCandidateRevalidationsPerTick) &&
    decide (l.maximumCandidateRevalidationsPerTick ≤ 65536) &&
    within l.maximumRequestValidationVisitsPerTick 65536 && decide (l.graceTicks ≤ 60000)

/-- What the policy reads of an entry of a manifest, and what it compares. -/
structure ResidencyEntry (κ Bounds : Type) where
  key : κ
  blobReference : ByteString := []
  digest : ByteString := []
  compressedBytes : Nat := 0
  uncompressedBytes : Nat := 0
  objectCount : Nat := 0
  dependencies : List κ := []
  packageSpaceKey : ByteString
  flags : Nat := 0
  coarseBounds : Option Bounds := none

structure ResidencyManifest (κ Bounds : Type) where
  package : ByteString := []
  instanceSchemaVersion : Nat := 0
  entries : List (ResidencyEntry κ Bounds)

structure ManifestSnapshot (κ Bounds : Type) extends ResidencyManifest κ Bounds where
  owner : Nat

inductive PackageCoarseQueryStatus where
  | complete | more | invalidInput | invalidCursor | queryCellLimit | allocationFailure
deriving DecidableEq

structure PackageCoarseQueryLimits where
  maximumCells : Nat
  maximumMembershipVisits : Nat
  maximumResults : Nat

structure PackageCoarseQueryPage (Cursor : Type) where
  status : PackageCoarseQueryStatus
  entries : List Nat := []
  nextCursor : Option Cursor := none
  cellsVisited : Nat := 0
  membershipVisits : Nat := 0

namespace ResidencyDemandPolicy

structure Candidate (D : Type) where
  index : Nat
  demandClass : ResidencyDemandClass := .presentation
  deadlineTick : Option Nat := none
  distanceSquared : D
  costBytes : Nat := 0
  revision : Nat := 0

structure Requirement where
  demandClass : ResidencyDemandClass := .gameplay
  deadlineTick : Option Nat := none
  revision : Nat := 0

abbrev RankKey (κ D : Type) := ResidencyDemandClass ×ₗ Nat ×ₗ D ×ₗ Nat ×ₗ κ ×ₗ Nat

structure Focus (G : ResidencyGeometry) (Cursor : Type) where
  position : G.Vector
  velocity : G.Vector
  demandClass : ResidencyDemandClass
  revision : Nat
  needsEvaluation : Bool := true
  needsRevalidation : Bool := false
  movedDuringSweep : Bool := false
  unhealthy : Bool := false
  retryAtTick : Nat := 0
  attached : Bool := false
  /-- Set when the sweep begins, and then with a lookahead. -/
  queryBounds : Option G.Bounds := none
  lookahead : G.Vector
  cursor : Option Cursor := none
  working : SortedMap Nat (Candidate G.Distance) := ∅
  committed : SortedMap Nat (Candidate G.Distance) := ∅

structure DemandRecord (κ D : Type) [LinearOrder κ] [LinearOrder D] where
  focuses : SortedMap ResidencyFocusId (Candidate D) := ∅
  rankedFocuses : SortedSet (RankKey κ D ×ₗ ResidencyFocusId) := ∅
  required : Option Requirement := none
  graceUntil : Option Nat := none
  requested : Bool := false
  desiredObserved : Bool := false

structure PendingDelta (κ D : Type) where
  release : Bool := false
  demandClass : ResidencyDemandClass := .speculative
  deadlineTick : Nat := maximumTick
  distanceSquared : D
  costBytes : Nat
  key : κ
  index : Nat

namespace PendingDelta
variable {κ D : Type}

def order (d : PendingDelta κ D) : Bool ×ₗ RankKey κ D :=
  toLex (d.release,toLex (d.demandClass,toLex (d.deadlineTick,toLex (d.distanceSquared,
    toLex (d.costBytes,toLex (d.key,d.index))))))

theorem order_injective : Function.Injective (order : PendingDelta κ D → Bool ×ₗ RankKey κ D) := by
  rintro ⟨⟩ ⟨⟩ same
  simpa [order] using same

instance linearOrder [LinearOrder κ] [LinearOrder D] : LinearOrder (PendingDelta κ D) :=
  LinearOrder.lift' order order_injective

end PendingDelta

/-- An accepted call of the service. -/
structure Call where
  release : Bool
  unit : Nat
deriving DecidableEq

end ResidencyDemandPolicy

open ResidencyDemandPolicy in
structure ResidencyDemandPolicy (κ : Type) [LinearOrder κ] (G : ResidencyGeometry) (Cursor : Type) where
  desiredUnits : Nat := 0
  ownedRequests : Nat := 0
  focuses : SortedMap ResidencyFocusId (Focus G Cursor) := ∅
  demands : SortedMap Nat (DemandRecord κ G.Distance) := ∅
  expiries : SortedSet (Nat ×ₗ Nat) := ∅
  pending : SortedSet (PendingDelta κ G.Distance) := ∅
  pendingByIndex : SortedMap Nat (PendingDelta κ G.Distance) := ∅
  pendingScanAfter : Option (PendingDelta κ G.Distance) := none
  nextFocus : ResidencyFocusId := 0
  revision : Nat := 0
  lastTick : Nat := 0
  nextRelease : Bool := false
  stopped : Bool := false
  boundAvailability : Option Nat := none
  boundManifest : Option Nat := none

namespace ResidencyDemandPolicy

structure Setting (κ : Type) (G : ResidencyGeometry) (Cursor : Type) where
  limits : ResidencyDemandPolicyLimits
  valid : limits.isValid = true
  manifest : ManifestSnapshot κ G.Bounds
  exactSnapshotRequired : Bool
  queryPage : G.Bounds → PackageCoarseQueryLimits → Option Cursor → PackageCoarseQueryPage Cursor

/-- A service as a call finds it, with what it answers in turn. -/
structure Availability (κ : Type) (G : ResidencyGeometry) where
  id : Nat
  isManifestAvailable : Bool
  manifest : Option (ManifestSnapshot κ G.Bounds)
  answers : List Bool

def defaultPackageSpace : ByteString := ascii "default"

variable {κ : Type} [LinearOrder κ] [Inhabited κ] {G : ResidencyGeometry} {Cursor : Type}

section
variable (m : Setting κ G Cursor)

abbrev Policy (_ : Setting κ G Cursor) := ResidencyDemandPolicy κ G Cursor

def Setting.key (unit : Nat) : κ := ((m.manifest.entries[unit]?).map ResidencyEntry.key).getD default

def Setting.cost (unit : Nat) : Nat := ((m.manifest.entries[unit]?).map ResidencyEntry.uncompressedBytes).getD 0

def Setting.unit? (key : κ) : Option Nat :=
  let unit := m.manifest.entries.findIdx fun e => !decide (e.key < key)
  match m.manifest.entries[unit]? with
  | some e => if e.key = key then some unit else none
  | none => none

def Candidate.deadline (c : Candidate G.Distance) : Nat := c.deadlineTick.getD maximumTick

def better (left right : Candidate G.Distance) : Bool :=
  let order (c : Candidate G.Distance) : ResidencyDemandClass ×ₗ Nat ×ₗ G.Distance ×ₗ Nat ×ₗ κ :=
    toLex (c.demandClass,toLex (c.deadline,toLex (c.distanceSquared,toLex (c.costBytes,m.key c.index))))
  decide (order left < order right)

def rank (c : Candidate G.Distance) : RankKey κ G.Distance :=
  toLex (c.demandClass,toLex (c.deadline,toLex (c.distanceSquared,toLex (c.costBytes,toLex (m.key c.index,
      c.index)))))

/-! ### Demands -/

def DemandRecord.isDesired (r : DemandRecord κ G.Distance) : Bool := !r.focuses.isEmpty || r.required.isSome

def requiredCandidate (unit : Nat) (r : Requirement) : Candidate G.Distance :=
  { index := unit, demandClass := r.demandClass, deadlineTick := r.deadlineTick, distanceSquared := G.nearest
    costBytes := m.cost unit, revision := r.revision }

def best (unit : Nat) (r : DemandRecord κ G.Distance) : Candidate G.Distance :=
  let required := r.required.map (requiredCandidate m unit)
  let first := r.rankedFocuses.entries.head?.bind fun e => r.focuses.find? (ofLex e.1).2
  match required, first with
  | none, none => { index := unit, distanceSquared := G.nearest, costBytes := m.cost unit }
  | none, some c => c
  | some c, none => c
  | some c, some value => if better m value c then value else c

def deltaOf (unit : Nat) (c : Candidate G.Distance) : PendingDelta κ G.Distance :=
  { release := false, demandClass := c.demandClass, deadlineTick := c.deadline, distanceSquared := c.distanceSquared
    costBytes := c.costBytes, key := m.key unit, index := unit }

def releaseOf (unit : Nat) : PendingDelta κ G.Distance :=
  { release := true, distanceSquared := G.farthest, costBytes := 0, key := m.key unit, index := unit }

end

section
variable (m : Setting κ G Cursor) (s : ResidencyDemandPolicy κ G Cursor)

def removePending (unit : Nat) : ResidencyDemandPolicy κ G Cursor :=
  { s with
    pending := match s.pendingByIndex.find? unit with
      | some d => s.pending.erase d
      | none => s.pending
    pendingByIndex := s.pendingByIndex.erase unit }

def addPending (d : PendingDelta κ G.Distance) : ResidencyDemandPolicy κ G Cursor :=
  { s with pending := s.pending.insert d (), pendingByIndex := s.pendingByIndex.insert d.index d }

def dropExpiry (unit : Nat) (graceUntil : Option Nat) : ResidencyDemandPolicy κ G Cursor :=
  { s with expiries := match graceUntil with
    | some tick => s.expiries.erase (toLex (tick,unit))
    | none => s.expiries }

def setRecord (unit : Nat) (r : DemandRecord κ G.Distance) : ResidencyDemandPolicy κ G Cursor :=
  { s with demands := s.demands.insert unit r }

def graceEnd (tick : Nat) : Nat :=
  if maximumTick - m.limits.graceTicks < tick then maximumTick else tick + m.limits.graceTicks

def observe (was is : Bool) : ResidencyDemandPolicy κ G Cursor :=
  { s with desiredUnits := if is = was then s.desiredUnits else if is then s.desiredUnits + 1 else s.desiredUnits - 1 }

def refresh (unit tick : Nat) : ResidencyDemandPolicy κ G Cursor :=
  match s.demands.find? unit with
  | none => s
  | some r =>
    let desired := r.isDesired
    let s := observe (removePending s unit) r.desiredObserved desired
    if desired then
      let s := setRecord (dropExpiry s unit r.graceUntil) unit { r with desiredObserved := desired, graceUntil := none }
      if r.requested then s else addPending s (deltaOf m unit (best m unit r))
    else if r.requested then
      let until_ := r.graceUntil.getD (graceEnd m tick)
      let s := setRecord s unit { r with desiredObserved := desired, graceUntil := some until_ }
      let s := { s with
        expiries := if r.graceUntil.isSome then s.expiries else s.expiries.insert (toLex (until_,unit)) () }
      if until_ ≤ tick then addPending s (releaseOf m unit) else s
    else
      let s := dropExpiry s unit r.graceUntil
      { s with demands := s.demands.erase unit }

def DemandRecord.take (m : Setting κ G Cursor) (r : DemandRecord κ G.Distance) (id : ResidencyFocusId) :
    DemandRecord κ G.Distance :=
  match r.focuses.find? id with
  | some existing =>
    { r with rankedFocuses := r.rankedFocuses.erase (toLex (rank m existing,id)), focuses := r.focuses.erase id }
  | none => r

def DemandRecord.put (m : Setting κ G Cursor) (r : DemandRecord κ G.Distance) (id : ResidencyFocusId)
    (value : Candidate G.Distance) : DemandRecord κ G.Distance :=
  { r with focuses := r.focuses.insert id value, rankedFocuses := r.rankedFocuses.insert (toLex (rank m value,id)) () }

def changeContribution (id : ResidencyFocusId) (value : Candidate G.Distance) (add : Bool) (tick : Nat) :
    ResidencyDemandPolicy κ G Cursor :=
  let r := ((s.demands.find? value.index).getD {}).take m id
  refresh m (setRecord s value.index (if add then r.put m id value else r)) value.index tick

end

section
variable (m : Setting κ G Cursor)

def candidateFor (f : Focus G Cursor) (unit : Nat) (wasDesired : Bool) : Option (Candidate G.Distance) := do
  let e ← m.manifest.entries[unit]?
  let bounds ← e.coarseBounds
  if e.packageSpaceKey ≠ defaultPackageSpace then none
  else
    let current := G.distanceSquared f.position bounds
    let ahead := G.segmentDistanceSquared f.position f.lookahead bounds
    if G.enter < current ∧ G.enter < ahead ∧ (wasDesired = false ∨ G.leave < current) then none
    else
      some {
        index := unit, demandClass := if current ≤ G.enter then f.demandClass else .predictive
        distanceSquared := min current ahead, costBytes := e.uncompressedBytes, revision := f.revision }

abbrev Retained (κ : Type) [LinearOrder κ] (G : ResidencyGeometry) :=
  SortedMap Nat (Candidate G.Distance) × SortedSet (RankKey κ G.Distance)

def retain (kept : Retained κ G) (c : Candidate G.Distance) : Retained κ G :=
  match kept.1.find? c.index with
  | some found =>
    if better m c found then (kept.1.insert c.index c,(kept.2.erase (rank m found)).insert (rank m c) ()) else kept
  | none =>
    if kept.1.size < m.limits.maximumCandidatesPerFocus then (kept.1.insert c.index c,kept.2.insert (rank m c) ())
    else
      match kept.2.entries.getLast? with
      | some (worst,_) =>
        if rank m c < worst then
          let unit := (ofLex (ofLex (ofLex (ofLex (ofLex worst).2).2).2).2).2
          ((kept.1.erase unit).insert c.index c,(kept.2.erase worst).insert (rank m c) ())
        else kept
      | none => kept

def ranksOf (candidates : SortedMap Nat (Candidate G.Distance)) : SortedSet (RankKey κ G.Distance) :=
  candidates.entries.foldl (fun ranks e => ranks.insert (rank m e.2) ()) ∅

def consider (f : Focus G Cursor) (kept : Retained κ G) (unit : Nat) : Retained κ G :=
  match candidateFor m f unit (f.committed.contains unit) with
  | some c => retain m kept c
  | none => kept

def resolveLookahead (f : Focus G Cursor) : Focus G Cursor := { f with lookahead := G.lookahead f.position f.velocity }

def requiredBounds (f : Focus G Cursor) : G.Bounds := G.requiredBounds f.position f.lookahead

def buildBounds (f : Focus G Cursor) : Focus G Cursor :=
  let f := resolveLookahead f
  { f with queryBounds := some (G.withSlack (requiredBounds f)) }

end

section
variable (m : Setting κ G Cursor) (s : ResidencyDemandPolicy κ G Cursor)

def followMove (f : Focus G Cursor) : Focus G Cursor :=
  if f.cursor.isNone then f
  else if f.queryBounds.any fun bounds => G.covers bounds (requiredBounds f) then { f with movedDuringSweep := true }
  else { f with cursor := none, working := ∅, movedDuringSweep := false }

def revalidateCommitted (f : Focus G Cursor) (id : ResidencyFocusId) (tick : Nat) :
    List (Nat × Candidate G.Distance) → SortedMap Nat (Candidate G.Distance) → ResidencyDemandPolicy κ G Cursor →
      SortedMap Nat (Candidate G.Distance) × ResidencyDemandPolicy κ G Cursor
  | [], committed, s => (committed,s)
  | (unit,current) :: rest, committed, s =>
    match candidateFor m f unit true with
    | none =>
      revalidateCommitted f id tick rest (committed.erase unit)
        (if f.attached then changeContribution m s id current false tick else s)
    | some c =>
      revalidateCommitted f id tick rest (committed.insert unit c)
        (if f.attached then changeContribution m s id c true tick else s)

def revalidateWorking (f : Focus G Cursor) : SortedMap Nat (Candidate G.Distance) :=
  f.working.entries.foldl (fun working e =>
    match candidateFor m f e.1 (f.committed.contains e.1) with
    | none => working.erase e.1
    | some c => working.insert e.1 c) f.working

def revalidate (f : Focus G Cursor) (id : ResidencyFocusId) (tick : Nat) :
    Focus G Cursor × ResidencyDemandPolicy κ G Cursor :=
  let f := followMove (resolveLookahead f)
  let (committed,s) := revalidateCommitted m f id tick f.committed.entries f.committed s
  let f := { f with committed := committed }
  ({ f with working := revalidateWorking m f, needsRevalidation := false },s)

def replacement (f : Focus G Cursor) : SortedMap Nat (Candidate G.Distance) :=
  if f.movedDuringSweep then
    (f.committed.entries.foldl (fun kept e => retain m kept e.2) (f.working,ranksOf m f.working)).1
  else f.working

def detach (f : Focus G Cursor) (id : ResidencyFocusId) (tick : Nat) (keep : Nat → Bool) :
    ResidencyDemandPolicy κ G Cursor :=
  f.committed.entries.foldl (fun s e => if keep e.1 then s else changeContribution m s id e.2 false tick) s

def complete (f : Focus G Cursor) (id : ResidencyFocusId) (tick : Nat) : Focus G Cursor × ResidencyDemandPolicy κ G
    Cursor :=
  let committed := replacement m f
  let s := if f.attached then detach m s f id tick committed.contains else s
  ({ f with
      committed := committed, working := ∅, cursor := none, needsEvaluation := f.movedDuringSweep
      movedDuringSweep := false, attached := true, unhealthy := false },
    committed.entries.foldl (fun s e => changeContribution m s id e.2 true tick) s)

/-- What is left of the work of a tick. -/
structure Budget where
  cells : Nat
  visits : Nat
  focuses : Nat
  revalidations : Nat

/-- The next page of a focus. -/
def serve (f : Focus G Cursor) (id : ResidencyFocusId) (tick : Nat) (budget : Budget) :
    Budget × ResidencyDemandPolicy κ G Cursor :=
  let f := if f.cursor.isNone then buildBounds f else f
  let limits : PackageCoarseQueryLimits := {
    maximumCells := min budget.cells maximumPackageCoarseQueryCells
    maximumMembershipVisits := min budget.visits maximumPackageCoarseQueryMembershipVisits
    maximumResults := min budget.visits m.limits.maximumCandidatesPerFocus }
  let page := m.queryPage (f.queryBounds.getD (requiredBounds f)) limits f.cursor
  let budget := { budget with
    cells := budget.cells - page.cellsVisited, visits := budget.visits - page.membershipVisits
    focuses := budget.focuses - 1 }
  let swept := { f with working := (page.entries.foldl (consider m f) (f.working,ranksOf m f.working)).1 }
  match page.status with
  | .complete =>
    let (f,s) := complete m s swept id tick
    (budget,{ s with focuses := s.focuses.insert id f })
  | .more => (budget,{ s with focuses := s.focuses.insert id { swept with cursor := page.nextCursor } })
  | _ =>
    let delay := max 1 m.limits.graceTicks
    let f := { f with
      working := ∅, cursor := none, needsEvaluation := true, movedDuringSweep := false, unhealthy := true
      retryAtTick := if maximumTick - delay < tick then maximumTick else tick + delay }
    (budget,{ s with focuses := s.focuses.insert id f })

def evaluateFrom (tick : Nat) :
    List ResidencyFocusId → Budget → ResidencyDemandPolicy κ G Cursor → ResidencyDemandPolicy κ G Cursor
  | [], _, s => s
  | id :: rest, budget, s =>
    if budget.focuses = 0 ∨ budget.cells = 0 ∨ budget.visits = 0 then s
    else
      match s.focuses.find? id with
      | none => evaluateFrom tick rest budget s
      | some f =>
        if f.needsEvaluation = false ∨ (f.unhealthy = true ∧ tick < f.retryAtTick) then evaluateFrom tick rest budget s
        else
          let work := if f.needsRevalidation then f.committed.size + f.working.size else 0
          if budget.revalidations < work then s
          else
            let (f,s) := if f.needsRevalidation then revalidate m s f id tick else (f,s)
            let (budget,s) := serve m { s with nextFocus := id } f id tick
              { budget with revalidations := budget.revalidations - work }
            evaluateFrom tick rest budget s

/-- The foci after the one that was served last, and then the others. -/
def evaluate (tick : Nat) : ResidencyDemandPolicy κ G Cursor :=
  let ids := s.focuses.keys
  evaluateFrom m tick (ids.filter (s.nextFocus < ·) ++ ids.filter (· ≤ s.nextFocus)) {
    cells := m.limits.maximumQueryCellsPerTick, visits := m.limits.maximumMembershipVisitsPerTick
    focuses := m.limits.maximumFocusEvaluationsPerTick
    revalidations := m.limits.maximumCandidateRevalidationsPerTick } s

def expire (tick : Nat) : Nat → ResidencyDemandPolicy κ G Cursor → ResidencyDemandPolicy κ G Cursor
  | 0, s => s
  | n + 1, s =>
    match s.expiries.entries.head? with
    | none => s
    | some (due,_) =>
      if (ofLex due).1 ≤ tick then
        let s := { s with expiries := s.expiries.erase due }
        let known := (s.demands.find? (ofLex due).2).any fun r => r.graceUntil.isSome
        expire tick n (if known then refresh m s (ofLex due).2 tick else s)
      else s

end

/-! ### Requests and releases -/

section
variable (m : Setting κ G Cursor) (s : ResidencyDemandPolicy κ G Cursor)

def sameEntry (left right : ResidencyEntry κ G.Bounds) : Bool :=
  decide (left.key = right.key) && decide (left.blobReference = right.blobReference) &&
    decide (left.digest = right.digest) && left.compressedBytes == right.compressedBytes &&
    left.uncompressedBytes == right.uncompressedBytes && left.objectCount == right.objectCount &&
    decide (left.dependencies = right.dependencies) && decide (left.packageSpaceKey = right.packageSpaceKey) &&
    left.flags == right.flags &&
    match left.coarseBounds, right.coarseBounds with
    | none, none => true
    | some l, some r => G.sameBounds l r
    | _, _ => false

def sameManifest (left right : ResidencyManifest κ G.Bounds) : Bool :=
  decide (left.package = right.package) && left.instanceSchemaVersion == right.instanceSchemaVersion &&
    left.entries.length == right.entries.length && (left.entries.zip right.entries).all fun e => sameEntry e.1 e.2

def bind (service : Availability κ G) : Option (ResidencyDemandPolicy κ G Cursor) :=
  if !service.isManifestAvailable then none
  else if s.boundAvailability.any (· ≠ service.id) then none
  else
    match service.manifest with
    | none => none
    | some current =>
      if s.boundManifest.any (· ≠ current.owner) then none
      else if s.boundAvailability.isSome then some s
      else if current.owner ≠ m.manifest.owner ∧
          (m.exactSnapshotRequired = true ∨
            sameManifest current.toResidencyManifest m.manifest.toResidencyManifest = false) then none
      else some { s with boundAvailability := some service.id, boundManifest := some current.owner }

def firstFresh (r : DemandRecord κ G.Distance) :
    List ResidencyFocusId → Option (Candidate G.Distance) → Nat → Option (Candidate G.Distance) × Nat
  | [], known, left => (known,left)
  | id :: rest, known, left =>
    if left = 0 then (known,left)
    else
      match s.focuses.find? id, r.focuses.find? id with
      | some f, some c =>
        if f.needsRevalidation ∨ f.revision ≠ c.revision then firstFresh r rest known (left - 1)
        else (if known.all (better m c) then some c else known,left - 1)
      | _, _ => firstFresh r rest known (left - 1)

/-- The request as it is now, unless nothing fresh is found, and what is left of the validation. -/
def inspectRequest (d : PendingDelta κ G.Distance) (left : Nat) : Option (PendingDelta κ G.Distance) × Nat :=
  match s.demands.find? d.index with
  | none => (none,left)
  | some r =>
    let (found,left) := firstFresh m s r (r.rankedFocuses.keys.map fun k => (ofLex k).2)
      (r.required.map (requiredCandidate m d.index)) left
    (found.map fun c => { deltaOf m d.index c with key := d.key },left)

def inspectFront : List (PendingDelta κ G.Distance) → Nat → List (PendingDelta κ G.Distance) × Nat
  | [], left => ([],left)
  | d :: rest, left =>
    let (found,left) := inspectRequest m s d left
    let (more,left) := inspectFront rest left
    (found.toList ++ more,left)

/-- Goes on where the last scan ended, from the first request after the last one. -/
def inspectOn (requests : List (PendingDelta κ G.Distance)) :
    Nat → List (PendingDelta κ G.Distance) → Option (PendingDelta κ G.Distance) → Nat →
      List (PendingDelta κ G.Distance) × Option (PendingDelta κ G.Distance)
  | 0, _, after, _ => ([],after)
  | n + 1, rest, after, left =>
    match (if rest.isEmpty then requests else rest) with
    | [] => ([],after)
    | d :: rest =>
      let (found,left) := inspectRequest m s d left
      if left = 0 then (found.toList,some d)
      else
        let (more,after) := inspectOn requests n rest (some d) left
        (found.toList ++ more,after)

def requests : List (PendingDelta κ G.Distance) := s.pending.keys.takeWhile fun d => !d.release

def releases : List (PendingDelta κ G.Distance) := s.pending.keys.dropWhile fun d => !d.release

/-- The requests that stand, and the policy with the place where the scan ended. -/
def scan : List (PendingDelta κ G.Distance) × ResidencyDemandPolicy κ G Cursor :=
  let frontLeft := max 1 (m.limits.maximumRequestValidationVisitsPerTick / 2)
  let continuationLeft := m.limits.maximumRequestValidationVisitsPerTick - frontLeft
  let searchLimit := 8 * m.limits.maximumDemandDeltasPerTick
  let front := (requests s).take searchLimit
  let (found,_) := inspectFront m s front frontLeft
  match front.getLast? with
  | none => (found,s)
  | some lastFront =>
    if !found.isEmpty || continuationLeft == 0 then (found,s)
    else
      let after := s.pendingScanAfter.getD lastFront
      let rest := (requests s).dropWhile (· ≤ after)
      let (found,after) := inspectOn m s (requests s) searchLimit rest (some after) continuationLeft
      (found,{ s with pendingScanAfter := after })

/-- The next delta to apply, of the requests unless it is the turn of the releases. -/
def nextDelta (nextRelease : Bool) :
    List (PendingDelta κ G.Distance) → List (PendingDelta κ G.Distance) →
      Option (PendingDelta κ G.Distance × Bool × List (PendingDelta κ G.Distance) × List (PendingDelta κ G.Distance))
  | [], [] => none
  | [], release :: releases => some (release,true,[],releases)
  | request :: requests, [] => some (request,false,requests,[])
  | request :: requests, release :: releases =>
    if nextRelease then some (release,true,request :: requests,releases)
    else some (request,false,requests,release :: releases)

/-- What follows from an accepted call. -/
def accept (d : PendingDelta κ G.Distance) (r : DemandRecord κ G.Distance) : ResidencyDemandPolicy κ G Cursor :=
  let s := setRecord s d.index { r with requested := !d.release }
  let s := { s with ownedRequests := if d.release then s.ownedRequests - 1 else s.ownedRequests + 1 }
  let s := removePending s d.index
  if d.release then refresh m s d.index s.lastTick else s

def settle (answers : List Bool) : Nat → Nat → List (PendingDelta κ G.Distance) → List (PendingDelta κ G.Distance) →
    ResidencyDemandPolicy κ G Cursor → List Call → ResidencyDemandPolicy κ G Cursor × List Call
  | 0, _, _, _, s, calls => (s,calls)
  | n + 1, left, requests, releases, s, calls =>
    if left = 0 then (s,calls)
    else
      match nextDelta s.nextRelease requests releases with
      | none => (s,calls)
      | some (d,release,requests,releases) =>
        let s := { s with nextRelease := !release }
        match s.demands.find? d.index with
        | none => settle answers n left requests releases (removePending s d.index) calls
        | some r =>
          if answers.getD calls.length false then
            settle answers n (left - 1) requests releases (accept m s d r) (calls ++ [⟨d.release,d.index⟩])
          else (s,calls)

def sorted (deltas : List (PendingDelta κ G.Distance)) : List (PendingDelta κ G.Distance) :=
  deltas.insertionSort (· ≤ ·)

def applyPending (service : Option (Availability κ G)) : ResidencyDemandPolicy κ G Cursor × List Call :=
  match service with
  | none => (s,[])
  | some service =>
    match bind m s service with
    | none => (s,[])
    | some s =>
      let (requests,s) := scan m s
      let requests := sorted requests
      let releases := sorted ((releases s).take (8 * m.limits.maximumDemandDeltasPerTick))
      settle m service.answers (requests.length + releases.length) m.limits.maximumDemandDeltasPerTick requests releases
        s []

def updateFocus (id : ResidencyFocusId) (position velocity : G.Vector) (demandClass : ResidencyDemandClass) :
    Bool × ResidencyDemandPolicy κ G Cursor :=
  if s.stopped ∨ id = 0 ∨ G.isPosition position = false ∨ G.isFinite velocity = false ∨ s.revision = maximumTick then
    (false,s)
  else
    match s.focuses.find? id with
    | none =>
      if m.limits.maximumFocuses ≤ s.focuses.size then (false,s)
      else
        (true,{ s with
          revision := s.revision + 1
          focuses := s.focuses.insert id {
            position := position, velocity := velocity, demandClass := demandClass, revision := s.revision + 1
            needsRevalidation := true, lookahead := G.origin } })
    | some f =>
      if G.sameVector f.position position ∧ G.sameVector f.velocity velocity ∧ f.demandClass = demandClass then
          (true,s)
      else
        (true,{ s with
          revision := s.revision + 1
          focuses := s.focuses.insert id { f with
            position := position, velocity := velocity, demandClass := demandClass, revision := s.revision + 1
            needsRevalidation := true, needsEvaluation := true, unhealthy := false, retryAtTick := 0 } })

def removeFocus (id : ResidencyFocusId) : Bool × ResidencyDemandPolicy κ G Cursor :=
  if s.stopped then (false,s)
  else
    match s.focuses.find? id with
    | none => (false,s)
    | some f =>
      let s := if f.attached then detach m s f id s.lastTick fun _ => false else s
      (true,{ s with focuses := s.focuses.erase id })

def setRequirement (key : κ) (demandClass : ResidencyDemandClass) (deadlineTick : Option Nat) :
    Bool × ResidencyDemandPolicy κ G Cursor :=
  if s.stopped ∨ s.revision = maximumTick then (false,s)
  else
    match m.unit? key with
    | none => (false,s)
    | some unit =>
      let r := (s.demands.find? unit).getD {}
      if r.required.any fun known => decide (known.demandClass = demandClass ∧ known.deadlineTick = deadlineTick) then
        (true,s)
      else
        let s := { s with revision := s.revision + 1 }
        let s := setRecord s unit { r with required := some ⟨demandClass,deadlineTick,s.revision⟩ }
        (true,refresh m s unit s.lastTick)

def clearRequirement (key : κ) : Bool × ResidencyDemandPolicy κ G Cursor :=
  if s.stopped then (false,s)
  else
    match m.unit? key with
    | none => (false,s)
    | some unit =>
      match s.demands.find? unit with
      | none => (false,s)
      | some r =>
        if r.required.isNone then (false,s)
        else (true,refresh m (setRecord s unit { r with required := none }) unit s.lastTick)

def step (service : Option (Availability κ G)) (tick : Nat) : ResidencyDemandPolicy κ G Cursor × List Call :=
  if s.stopped ∨ tick ≤ s.lastTick then (s,[])
  else
    let s := evaluate m { s with lastTick := tick } tick
    applyPending m (expire m tick m.limits.maximumDemandDeltasPerTick s) service

def ownedUnits : List Nat := (s.demands.entries.filter fun e => e.2.requested).map Prod.fst

def isBound (service : Availability κ G) : Bool :=
  decide (s.boundAvailability = some service.id) && service.manifest.any fun current =>
    decide (s.boundManifest = some current.owner)

def released : List Nat → List Bool → List Call
  | [], _ => []
  | unit :: rest, answers =>
    if answers.headD false then ⟨true,unit⟩ :: released rest answers.tail else released rest answers.tail

def stop (service : Option (Availability κ G)) : ResidencyDemandPolicy κ G Cursor × List Call :=
  if s.stopped then (s,[])
  else
    ({ s with
        stopped := true, focuses := ∅, demands := ∅, expiries := ∅, pending := ∅, pendingByIndex := ∅
        desiredUnits := 0, ownedRequests := 0 },
      match service with
      | none => []
      | some service => if isBound s service then released (ownedUnits s) service.answers else [])

end
end ResidencyDemandPolicy
end Gargantuan
