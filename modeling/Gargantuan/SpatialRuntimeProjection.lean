import Gargantuan.SpatialRegionIndex

/-!
The projection store: the spaces of one world, the projections of its objects
over a region index, and the list of the objects marked dirty. The projections'
own metrics are left out. What the index leaves behind when it fails is kept as
the last index failure.
-/
namespace Gargantuan

/-- What the store asks of single-precision numbers. -/
class SinglePrecision (φ : Type) where
  isFinite : φ → Bool

structure CFrame (φ : Type) where
  position : Vector3 φ
  rotation : Vector3 (Vector3 φ)

def CFrame.finite {φ : Type} [SinglePrecision φ] (v : CFrame φ) : Bool :=
  let finite (v : Vector3 φ) := SinglePrecision.isFinite v.x && SinglePrecision.isFinite v.y &&
    SinglePrecision.isFinite v.z
  finite v.position && finite v.rotation.x && finite v.rotation.y && finite v.rotation.z

structure SpatialPose (φ : Type) where
  space : SpatialSpaceId := defaultSpatialSpace
  localTransform : CFrame φ

structure SpatialRuntimeProjection (ρ φ : Type) where
  pose : SpatialPose φ
  bounds : SpatialBounds ρ
  revision : Nat := 0
  dirty : Bool := false

structure SpatialRuntimeProjectionConfiguration (ρ : Type) where
  index : SpatialRegionIndexConfiguration ρ
  maximumSpaces : Nat := 16

def maximumSpatialRuntimeSpaces : Nat := 256

def SpatialRuntimeProjectionConfiguration.isValid {ρ : Type} [DoubleArithmetic ρ]
    (c : SpatialRuntimeProjectionConfiguration ρ) : Bool :=
  c.index.isValid && c.maximumSpaces != 0 && c.maximumSpaces ≤ maximumSpatialRuntimeSpaces

inductive SpatialRuntimeProjectionStatus
  | success | invalidConfiguration | invalidObject | invalidSpace | invalidProjection | duplicateProjection
  | missingProjection | spaceLimit | spaceOccupied | dirtyLimit | indexFailure | allocationFailure
deriving DecidableEq, Repr

namespace SpatialRuntimeProjectionStore

structure SpaceSlot where
  generation : UInt32 := 1
  projectionCount : Nat := 0
  active : Bool := false
  retired : Bool := false
deriving DecidableEq

/-- The greatest generation; a slot that has reached it is not used again. -/
def maximumGeneration : UInt32 := 0xffffffff

end SpatialRuntimeProjectionStore

open SpatialRuntimeProjectionStore in
structure SpatialRuntimeProjectionStore (ρ φ : Type) where
  index : SpatialRegionIndex := {}
  spaces : List SpaceSlot
  projections : SortedMap ObjectId (SpatialRuntimeProjection ρ φ) := ∅
  dirtyObjects : List ObjectId := []
  lastIndexFailure : SpatialRegionStatus := .success

namespace SpatialRuntimeProjectionStore
variable {ρ φ : Type} [DoubleArithmetic ρ] [SinglePrecision φ]

def new (c : SpatialRuntimeProjectionConfiguration ρ) : SpatialRuntimeProjectionStore ρ φ :=
  { spaces := (List.replicate (c.maximumSpaces + 1) {}).set defaultSpatialSpace.slot.toNat
      { generation := defaultSpatialSpace.generation, active := true } }

def isSpaceAlive (s : SpatialRuntimeProjectionStore ρ φ) (space : SpatialSpaceId) : Bool :=
  space.isValid && match s.spaces[space.slot.toNat]? with
  | some slot => slot.active && slot.generation == space.generation
  | none => false

def validProjection (s : SpatialRuntimeProjectionStore ρ φ) (pose : SpatialPose φ) (bounds : SpatialBounds ρ) : Bool :=
  s.isSpaceAlive pose.space && pose.localTransform.finite && bounds.isValid

def indexFailed (s : SpatialRuntimeProjectionStore ρ φ) (status : SpatialRegionStatus) :
    SpatialRuntimeProjectionStatus × SpatialRuntimeProjectionStore ρ φ :=
  (.indexFailure,{ s with lastIndexFailure := status })

def SpaceSlot.opened (slot : SpaceSlot) : SpaceSlot := { slot with active := true }

def createSpace (s : SpatialRuntimeProjectionStore ρ φ) :
    Option SpatialSpaceId × SpatialRuntimeProjectionStore ρ φ :=
  match (List.range' 2 (s.spaces.length - 2)).find? fun slot =>
      (s.spaces[slot]?).any fun candidate => !candidate.active && !candidate.retired with
  | none => (none,s)
  | some slot =>
    (s.spaces[slot]?.map fun candidate => ⟨UInt32.ofNat slot,candidate.generation⟩,
      { s with spaces := s.spaces.modify slot SpaceSlot.opened })

def SpaceSlot.vacated (slot : SpaceSlot) : SpaceSlot :=
  if slot.generation = maximumGeneration then { slot with active := false, retired := true }
  else { slot with active := false, generation := slot.generation + 1 }

def destroySpace (s : SpatialRuntimeProjectionStore ρ φ) (space : SpatialSpaceId) :
    SpatialRuntimeProjectionStatus × SpatialRuntimeProjectionStore ρ φ :=
  if !s.isSpaceAlive space || space == defaultSpatialSpace then (.invalidSpace,s)
  else if (s.spaces[space.slot.toNat]?).any fun slot => slot.projectionCount != 0 then (.spaceOccupied,s)
  else (.success,{ s with spaces := s.spaces.modify space.slot.toNat SpaceSlot.vacated })

def SpaceSlot.more (slot : SpaceSlot) : SpaceSlot := { slot with projectionCount := slot.projectionCount + 1 }

def SpaceSlot.fewer (slot : SpaceSlot) : SpaceSlot :=
  { slot with projectionCount := SpatialRegionIndex.sizeSub slot.projectionCount 1 }

def register (c : SpatialRuntimeProjectionConfiguration ρ) (s : SpatialRuntimeProjectionStore ρ φ)
    (a : SpatialRegionIndex.Allocations) (stores : Bool) (object : ObjectId) (pose : SpatialPose φ)
    (bounds : SpatialBounds ρ) : SpatialRuntimeProjectionStatus × SpatialRuntimeProjectionStore ρ φ :=
  if !object.isValid then (.invalidObject,s)
  else if !s.isSpaceAlive pose.space then (.invalidSpace,s)
  else if !s.validProjection pose bounds then (.invalidProjection,s)
  else if s.projections.contains object then (.duplicateProjection,s)
  else
    let indexed := s.index.register c.index a object pose.space bounds
    let t := { s with index := indexed.2 }
    if indexed.1 ≠ .success then t.indexFailed indexed.1
    else if !stores then (.allocationFailure,{ t with index := (t.index.remove object).2 })
    else (.success,{ t with
      projections := t.projections.insert object ⟨pose,bounds,1,false⟩,
      spaces := t.spaces.modify pose.space.slot.toNat SpaceSlot.more })

def moved (p : SpatialRuntimeProjection ρ φ) (pose : SpatialPose φ) (bounds : SpatialBounds ρ) :
    SpatialRuntimeProjection ρ φ :=
  { p with pose := pose, bounds := bounds, revision := SpatialRegionIndex.saturatingAdd p.revision 1 }

def update (c : SpatialRuntimeProjectionConfiguration ρ) (s : SpatialRuntimeProjectionStore ρ φ)
    (a : SpatialRegionIndex.Allocations) (object : ObjectId) (pose : SpatialPose φ) (bounds : SpatialBounds ρ) :
    SpatialRuntimeProjectionStatus × SpatialRuntimeProjectionStore ρ φ :=
  match s.projections.find? object with
  | none => (.missingProjection,s)
  | some p =>
    if !s.isSpaceAlive pose.space then (.invalidSpace,s)
    else if pose.space ≠ p.pose.space then (.invalidSpace,s)
    else if !s.validProjection pose bounds then (.invalidProjection,s)
    else
      let indexed := s.index.update c.index a object pose.space bounds
      let t := { s with index := indexed.2 }
      if indexed.1 ≠ .success then t.indexFailed indexed.1
      else (.success,{ t with projections := t.projections.insert object (moved p pose bounds) })

def transfer (c : SpatialRuntimeProjectionConfiguration ρ) (s : SpatialRuntimeProjectionStore ρ φ)
    (a : SpatialRegionIndex.Allocations) (object : ObjectId) (destination : SpatialPose φ) (bounds : SpatialBounds ρ) :
    SpatialRuntimeProjectionStatus × SpatialRuntimeProjectionStore ρ φ :=
  match s.projections.find? object with
  | none => (.missingProjection,s)
  | some p =>
    if !s.isSpaceAlive destination.space then (.invalidSpace,s)
    else if !s.validProjection destination bounds then (.invalidProjection,s)
    else if destination.space = p.pose.space then s.update c a object destination bounds
    else
      let indexed := s.index.update c.index a object destination.space bounds
      let t := { s with index := indexed.2 }
      if indexed.1 ≠ .success then t.indexFailed indexed.1
      else (.success,{ t with
        spaces := (t.spaces.modify p.pose.space.slot.toNat SpaceSlot.fewer).modify destination.space.slot.toNat
          SpaceSlot.more,
        projections := t.projections.insert object (moved p destination bounds) })

def remove (s : SpatialRuntimeProjectionStore ρ φ) (object : ObjectId) :
    SpatialRuntimeProjectionStatus × SpatialRuntimeProjectionStore ρ φ :=
  match s.projections.find? object with
  | none => (.missingProjection,s)
  | some p =>
    let indexed := s.index.remove object
    let t := { s with index := indexed.2 }
    if indexed.1 ≠ .success then t.indexFailed indexed.1
    else (.success,{ t with
      spaces := t.spaces.modify p.pose.space.slot.toNat SpaceSlot.fewer,
      projections := t.projections.erase object })

def isDirty (s : SpatialRuntimeProjectionStore ρ φ) (object : ObjectId) : Bool :=
  (s.projections.find? object).any SpatialRuntimeProjection.dirty

def compacted (c : SpatialRuntimeProjectionConfiguration ρ) (s : SpatialRuntimeProjectionStore ρ φ) : List ObjectId :=
  if s.dirtyObjects.length ≥ c.index.maximumObjects then s.dirtyObjects.filter s.isDirty else s.dirtyObjects

def markDirty (c : SpatialRuntimeProjectionConfiguration ρ) (s : SpatialRuntimeProjectionStore ρ φ)
    (object : ObjectId) : SpatialRuntimeProjectionStatus × SpatialRuntimeProjectionStore ρ φ :=
  match s.projections.find? object with
  | none => (.missingProjection,s)
  | some p =>
    if p.dirty then (.success,s)
    else if (s.compacted c).length ≥ c.index.maximumObjects then
      (.dirtyLimit,{ s with dirtyObjects := s.compacted c })
    else (.success,{ s with
      projections := s.projections.insert object { p with dirty := true },
      dirtyObjects := s.compacted c ++ [object] })

def clearDirtyObjects (s : SpatialRuntimeProjectionStore ρ φ) : SpatialRuntimeProjectionStore ρ φ :=
  { s with
    projections := s.dirtyObjects.foldl
      (fun projections object => projections.modify object fun p => { p with dirty := false }) s.projections,
    dirtyObjects := [] }

def inSlot (slot : Nat) (p : SpatialRuntimeProjection ρ φ) : Nat := if p.pose.space.slot.toNat = slot then 1 else 0

def verifyConsistency (s : SpatialRuntimeProjectionStore ρ φ) : Bool :=
  s.index.verifyConsistency && s.index.metrics.spatialObjectCount == s.projections.size &&
  s.projections.entries.all (fun row =>
    s.isSpaceAlive row.2.pose.space && s.validProjection row.2.pose row.2.bounds &&
    s.index.objects.contains row.1 &&
    (s.index.objects.find? row.1).any fun e => e.primary.space == row.2.pose.space) &&
  (List.range' 1 (s.spaces.length - 1)).all fun slot =>
    (s.spaces[slot]?).any fun space => s.projections.total (inSlot slot) == space.projectionCount

inductive Operation (ρ φ : Type)
  | createSpace
  | destroySpace (space : SpatialSpaceId)
  | register (a : SpatialRegionIndex.Allocations) (stores : Bool) (object : ObjectId) (pose : SpatialPose φ)
      (bounds : SpatialBounds ρ)
  | update (a : SpatialRegionIndex.Allocations) (object : ObjectId) (pose : SpatialPose φ) (bounds : SpatialBounds ρ)
  | transfer (a : SpatialRegionIndex.Allocations) (object : ObjectId) (destination : SpatialPose φ)
      (bounds : SpatialBounds ρ)
  | remove (object : ObjectId)
  | markDirty (object : ObjectId)
  | clearDirtyObjects

def operate (c : SpatialRuntimeProjectionConfiguration ρ) (s : SpatialRuntimeProjectionStore ρ φ) :
    Operation ρ φ → SpatialRuntimeProjectionStore ρ φ
  | .createSpace => s.createSpace.2
  | .destroySpace space => (s.destroySpace space).2
  | .register a stores object pose bounds => (s.register c a stores object pose bounds).2
  | .update a object pose bounds => (s.update c a object pose bounds).2
  | .transfer a object destination bounds => (s.transfer c a object destination bounds).2
  | .remove object => (s.remove object).2
  | .markDirty object => (s.markDirty c object).2
  | .clearDirtyObjects => s.clearDirtyObjects

end SpatialRuntimeProjectionStore
end Gargantuan
