import Gargantuan.Buckets
import Gargantuan.Identity
import Mathlib.Data.Prod.Lex

/-!
The region index: the object table, the buckets of the regions and the sets of
large objects of each space, with the operations that register an object, move
it and remove it. Doubles are a parameter, as the index only compares them,
takes their neighbours and centres and divides them into cells. An operation is
told which of its allocations fail. The gauges and the membership count are
kept as the source keeps them; the counters that only the metrics report are
left out, and so are the queries.
-/
namespace Gargantuan

inductive SpaceDomain

/-- One runtime-local coordinate space; a slot is reused under another generation. -/
abbrev SpatialSpaceId := GenerationalId SpaceDomain

def defaultSpatialSpace : SpatialSpaceId := ⟨1,1⟩

structure SpatialCellCoordinate where
  x : Int := 0
  y : Int := 0
  z : Int := 0
deriving DecidableEq

structure SpatialCellAddress where
  space : SpatialSpaceId := defaultSpatialSpace
  cell : SpatialCellCoordinate := {}
deriving DecidableEq

namespace SpatialCellAddress

def isValid (a : SpatialCellAddress) : Bool := a.space.isValid

/-- The members in the order in which they are compared. -/
def key (a : SpatialCellAddress) : SpatialSpaceId ×ₗ (Int ×ₗ (Int ×ₗ Int)) :=
  toLex (a.space,toLex (a.cell.x,toLex (a.cell.y,a.cell.z)))

theorem key_injective : Function.Injective key := by
  rintro ⟨spaceA,xA,yA,zA⟩ ⟨spaceB,xB,yB,zB⟩ same
  obtain ⟨rfl,rfl,rfl,rfl⟩ := same
  rfl

instance linearOrder : LinearOrder SpatialCellAddress := LinearOrder.lift' key key_injective

end SpatialCellAddress

/-- What the index asks of doubles. The last three are the neighbour towards minus infinity, half
    of one added to half of the other, and the floor of the extended quotient, if that is finite. -/
class DoubleArithmetic (ρ : Type) where
  isFinite : ρ → Bool
  lt : ρ → ρ → Bool
  le : ρ → ρ → Bool
  ofNat : Nat → ρ
  nextBelow : ρ → ρ
  halfSum : ρ → ρ → ρ
  floorQuotient : ρ → ρ → Option Int

structure Vector3 (ρ : Type) where
  x : ρ
  y : ρ
  z : ρ

structure SpatialBounds (ρ : Type) where
  minimum : Vector3 ρ
  maximum : Vector3 ρ

structure SpatialRegionIndexConfiguration (ρ : Type) where
  regionSize : ρ
  maximumObjects : Nat := 65536
  maximumRegions : Nat := 65536
  maximumMemberships : Nat := 262144
  maximumRegionsPerObject : Nat := 64
  maximumLargeObjects : Nat := 1024
  maximumQueryVolumes : Nat := 4
  maximumQueryRegions : Nat := 4096
  maximumQueryCandidates : Nat := 65536
  maximumQueryMembershipVisits : Nat := 262144

inductive SpatialRegionStatus
  | success | invalidConfiguration | invalidIdentity | invalidSpace | invalidBounds | invalidCoordinate
  | duplicateObject | missingObject | objectLimit | regionLimit | membershipLimit | largeObjectLimit
  | queryVolumeLimit | queryRegionLimit | queryCandidateLimit | queryMembershipVisitLimit | allocationFailure
deriving DecidableEq, Repr

def maximumSpatialRegionIndexObjects : Nat := 1000000
def maximumSpatialRegionIndexRegions : Nat := 1000000
def maximumSpatialRegionIndexMemberships : Nat := 4000000
def maximumSpatialRegionsPerObject : Nat := 4096
def maximumSpatialLargeObjects : Nat := 4096
def maximumSpatialQueryVolumes : Nat := 64
def maximumSpatialQueryRegions : Nat := 65536
def maximumSpatialQueryCandidates : Nat := 1000000
def maximumSpatialQueryMembershipVisits : Nat := 4000000

namespace SpatialRegionIndexConfiguration
variable {ρ : Type} [DoubleArithmetic ρ]
open DoubleArithmetic

def isValid (c : SpatialRegionIndexConfiguration ρ) : Bool :=
  isFinite c.regionSize && le (ofNat 1) c.regionSize && le c.regionSize (ofNat 1048576) &&
  c.maximumObjects != 0 && c.maximumObjects ≤ maximumSpatialRegionIndexObjects &&
  c.maximumRegions != 0 && c.maximumRegions ≤ maximumSpatialRegionIndexRegions &&
  c.maximumMemberships ≥ c.maximumObjects && c.maximumMemberships ≤ maximumSpatialRegionIndexMemberships &&
  c.maximumRegionsPerObject != 0 && c.maximumRegionsPerObject ≤ maximumSpatialRegionsPerObject &&
  c.maximumLargeObjects != 0 && c.maximumLargeObjects ≤ maximumSpatialLargeObjects &&
  c.maximumQueryVolumes != 0 && c.maximumQueryVolumes ≤ maximumSpatialQueryVolumes &&
  c.maximumQueryRegions != 0 && c.maximumQueryRegions ≤ maximumSpatialQueryRegions &&
  c.maximumQueryCandidates != 0 && c.maximumQueryCandidates ≤ maximumSpatialQueryCandidates &&
  c.maximumQueryMembershipVisits != 0 && c.maximumQueryMembershipVisits ≤ maximumSpatialQueryMembershipVisits &&
  c.maximumQueryMembershipVisits ≥ c.maximumQueryCandidates

theorem bounds {c : SpatialRegionIndexConfiguration ρ} (valid : c.isValid) :
    c.maximumRegions ≤ maximumSpatialRegionIndexRegions ∧ c.maximumMemberships ≤ maximumSpatialRegionIndexMemberships ∧
      c.maximumLargeObjects ≤ maximumSpatialLargeObjects := by
  simp only [isValid,Bool.and_eq_true,decide_eq_true_eq] at valid
  omega

end SpatialRegionIndexConfiguration

section
variable {ρ : Type} [DoubleArithmetic ρ]
open DoubleArithmetic

def finite (v : Vector3 ρ) : Bool := isFinite v.x && isFinite v.y && isFinite v.z

def SpatialBounds.isValid (b : SpatialBounds ρ) : Bool :=
  finite b.minimum && finite b.maximum && le b.minimum.x b.maximum.x && le b.minimum.y b.maximum.y &&
  le b.minimum.z b.maximum.z

/-- The cell of a coordinate, unless it lies outside the signed 64-bit integers. -/
def regionCoordinate (value regionSize : ρ) : Option Int :=
  if !isFinite value || !isFinite regionSize || le regionSize (ofNat 0) then none
  else (floorQuotient value regionSize).filter fun coordinate => -2 ^ 63 ≤ coordinate && coordinate ≤ 2 ^ 63 - 1

def spatialCellAddressForPosition (position : Vector3 ρ) (regionSize : ρ) (space : SpatialSpaceId) :
    Option SpatialCellAddress :=
  if !space.isValid || !finite position then none
  else do
    let x ← regionCoordinate position.x regionSize
    let y ← regionCoordinate position.y regionSize
    let z ← regionCoordinate position.z regionSize
    return ⟨space,⟨x,y,z⟩⟩

/-- How many cells an axis spans, if no more than the limit. -/
def axisCount (minimum maximum : Int) (limit : Nat) : Option Nat :=
  if maximum < minimum then none
  else if maximum - minimum + 1 > limit then none
  else some (maximum - minimum + 1).toNat

/-- The cells from one coordinate to another, both included. -/
def axis (minimum maximum : Int) : List Int :=
  (List.range (maximum - minimum + 1).toNat).map fun (offset : Nat) => minimum + offset

/-- The addresses of the box between two cells, in ascending order. -/
def box (space : SpatialSpaceId) (minimum maximum : SpatialCellCoordinate) : List SpatialCellAddress :=
  (axis minimum.x maximum.x).flatMap fun x =>
    (axis minimum.y maximum.y).flatMap fun y =>
      (axis minimum.z maximum.z).map fun z => ⟨space,⟨x,y,z⟩⟩

/-- The regions an object is filed under, or that it is filed with the large ones. -/
structure Derived where
  large : Bool
  memberships : List SpatialCellAddress
deriving DecidableEq

/-- The greatest coordinate an extent covers: its upper bound belongs to the next cell. -/
def maximumCoordinate (minimum maximum : ρ) : ρ := if lt minimum maximum then nextBelow maximum else maximum

def deriveMemberships (c : SpatialRegionIndexConfiguration ρ) (space : SpatialSpaceId) (bounds : SpatialBounds ρ) :
    Except SpatialRegionStatus Derived :=
  if !space.isValid then .error .invalidSpace
  else if !bounds.isValid then .error .invalidBounds
  else
    let maximumPoint : Vector3 ρ := ⟨maximumCoordinate bounds.minimum.x bounds.maximum.x,
      maximumCoordinate bounds.minimum.y bounds.maximum.y,maximumCoordinate bounds.minimum.z bounds.maximum.z⟩
    match spatialCellAddressForPosition bounds.minimum c.regionSize space,
        spatialCellAddressForPosition maximumPoint c.regionSize space with
    | some minimum, some maximum =>
      match axisCount minimum.cell.x maximum.cell.x c.maximumRegionsPerObject,
          axisCount minimum.cell.y maximum.cell.y c.maximumRegionsPerObject,
          axisCount minimum.cell.z maximum.cell.z c.maximumRegionsPerObject with
      | some xCount, some yCount, some zCount =>
        if xCount > c.maximumRegionsPerObject / yCount || xCount * yCount > c.maximumRegionsPerObject / zCount then
          .ok ⟨true,[]⟩
        else .ok ⟨false,box space minimum.cell maximum.cell⟩
      | _, _, _ => .ok ⟨true,[]⟩
    | _, _ => .error .invalidCoordinate

def centerAddress (c : SpatialRegionIndexConfiguration ρ) (space : SpatialSpaceId) (bounds : SpatialBounds ρ) :
    Option SpatialCellAddress :=
  spatialCellAddressForPosition ⟨halfSum bounds.minimum.x bounds.maximum.x,
    halfSum bounds.minimum.y bounds.maximum.y,halfSum bounds.minimum.z bounds.maximum.z⟩ c.regionSize space

end

/-! ### The index -/

namespace SpatialRegionIndex

structure Entry where
  primary : SpatialCellAddress := {}
  additional : List SpatialCellAddress := []
  large : Bool := false
deriving DecidableEq

namespace Entry

def membershipCount (e : Entry) : Nat := if e.large then 0 else e.additional.length + 1

def contains (e : Entry) (address : SpatialCellAddress) : Bool :=
  !e.large && (e.primary == address || address ∈ e.additional)

/-- The regions the object is filed under, the primary one first. -/
def copyMemberships (e : Entry) : List SpatialCellAddress := if e.large then [] else e.primary :: e.additional

/-- Makes the address of the centre the primary one. The additional ones stay sorted. -/
def updatePrimaryAddress (e : Entry) (center : Option SpatialCellAddress) : Entry :=
  match center with
  | none => e
  | some address =>
    if e.primary = address then e
    else if e.large then { e with primary := address }
    else if address ∈ e.additional then
      { e with primary := address, additional := (e.additional.erase address).orderedInsert (· ≤ ·) e.primary }
    else e

end Entry

/-- The primary address is that of the centre where the object is filed under it or is large. -/
def makeEntry (center : Option SpatialCellAddress) (d : Derived) : Entry :=
  if d.large then { primary := center.getD {}, large := true }
  else
    let primary := (center.filter (· ∈ d.memberships)).getD (d.memberships.headD {})
    { primary := primary, additional := d.memberships.filter (· ≠ primary) }

structure Metrics where
  regionCount : Nat := 0
  spatialObjectCount : Nat := 0
  membershipCount : Nat := 0
  largeObjectCount : Nat := 0
deriving DecidableEq

def maximumUnsigned : Nat := 2 ^ 64 - 1

def saturatingAdd (counter amount : Nat) : Nat :=
  if amount > maximumUnsigned - counter then maximumUnsigned else counter + amount

/-- The difference of two 64-bit sizes, which wraps. -/
def sizeSub (a b : Nat) : Nat := if b ≤ a then a - b else a + 2 ^ 64 - b

end SpatialRegionIndex

structure SpatialRegionIndex where
  objects : SortedMap ObjectId SpatialRegionIndex.Entry := ∅
  regions : Buckets SpatialCellAddress ObjectId := ∅
  largeObjects : Buckets SpatialSpaceId ObjectId := ∅
  metrics : SpatialRegionIndex.Metrics := {}
deriving DecidableEq

namespace SpatialRegionIndex

/-- Where the insertion of a large object fails. -/
inductive LargeAllocation
  | granted | bucketFails | memberFails
deriving DecidableEq

structure Allocations where
  entry : Bool := true
  large : LargeAllocation := .granted
  memberships : Option (Nat × Bool) := none
  object : Bool := true
deriving DecidableEq

def refreshGauges (s : SpatialRegionIndex) : SpatialRegionIndex :=
  { s with metrics :=
    { regionCount := s.regions.size
      spatialObjectCount := s.objects.size
      membershipCount := s.metrics.membershipCount
      largeObjectCount := s.largeObjects.entries.foldl (fun count bucket => saturatingAdd count bucket.2.size) 0 } }

def settle (s : SpatialRegionIndex) (objects : SortedMap ObjectId Entry) (membershipCount : Nat) :
    SpatialRegionIndex :=
  refreshGauges ⟨objects,s.regions,s.largeObjects,{ s.metrics with membershipCount := membershipCount }⟩

def newRegionCount (s : SpatialRegionIndex) (addresses : List SpatialCellAddress) : Nat :=
  addresses.countP fun address => !s.regions.contains address

/-- Files the object under the addresses, or takes it out again when an allocation fails. -/
def insertMemberships (s : SpatialRegionIndex) (object : ObjectId) (addresses : List SpatialCellAddress)
    (failure : Option (Nat × Bool)) : Bool × SpatialRegionIndex :=
  let entered := Buckets.addUntil object failure addresses s.regions
  if entered.1 then (true,{ s with regions := entered.2 })
  else (false,refreshGauges { s with regions := Buckets.dropAll object addresses entered.2 })

def removeMemberships (s : SpatialRegionIndex) (object : ObjectId) (addresses : List SpatialCellAddress) :
    SpatialRegionIndex :=
  { s with regions := Buckets.dropAll object addresses s.regions }

def insertLargeObject (s : SpatialRegionIndex) (space : SpatialSpaceId) (object : ObjectId) :
    LargeAllocation → Bool × SpatialRegionIndex
  | .granted => (true,{ s with largeObjects := s.largeObjects.add space object })
  | .bucketFails => (false,s)
  | .memberFails =>
    let bucket := s.largeObjects.opened space
    let created := !s.largeObjects.contains space
    (false,{ s with largeObjects := if created then bucket.erase space else bucket })

def removeLargeObject (s : SpatialRegionIndex) (space : SpatialSpaceId) (object : ObjectId) : SpatialRegionIndex :=
  { s with largeObjects := s.largeObjects.drop space object }

def containsLargeObject (s : SpatialRegionIndex) (e : Entry) (object : ObjectId) : Bool :=
  s.largeObjects.holds e.primary.space object

section
variable {ρ : Type} [DoubleArithmetic ρ]

def insertDerived (s : SpatialRegionIndex) (a : Allocations) (object : ObjectId) (space : SpatialSpaceId)
    (d : Derived) : Bool × SpatialRegionIndex :=
  if d.large then s.insertLargeObject space object a.large
  else s.insertMemberships object d.memberships a.memberships

def register (c : SpatialRegionIndexConfiguration ρ) (s : SpatialRegionIndex) (a : Allocations) (object : ObjectId)
    (space : SpatialSpaceId) (bounds : SpatialBounds ρ) : SpatialRegionStatus × SpatialRegionIndex :=
  if !object.isValid then (.invalidIdentity,s)
  else if !space.isValid then (.invalidSpace,s)
  else if s.objects.contains object then (.duplicateObject,s)
  else if s.objects.size ≥ c.maximumObjects then (.objectLimit,s)
  else
    match deriveMemberships c space bounds with
    | .error status => (status,s)
    | .ok d =>
      if d.large && s.metrics.largeObjectCount ≥ c.maximumLargeObjects then (.largeObjectLimit,s)
      else if !d.large && (d.memberships.length > c.maximumMemberships ||
          s.metrics.membershipCount > sizeSub c.maximumMemberships d.memberships.length) then (.membershipLimit,s)
      else if !d.large && s.newRegionCount d.memberships > sizeSub c.maximumRegions s.regions.size then
        (.regionLimit,s)
      else if !d.large && !a.entry then (.allocationFailure,s)
      else
        let entered := s.insertDerived a object space d
        if !entered.1 then (.allocationFailure,entered.2)
        else if !a.object then
          (.allocationFailure,if d.large then entered.2.removeLargeObject space object
            else entered.2.removeMemberships object d.memberships)
        else
          (.success,entered.2.settle (s.objects.insert object (makeEntry (centerAddress c space bounds) d))
            (if d.large then s.metrics.membershipCount
              else saturatingAdd s.metrics.membershipCount d.memberships.length))

/-- Whether the object stays where it is filed: as a large object of the same space, or under the
    same regions. -/
def sameMemberships (e : Entry) (space : SpatialSpaceId) (d : Derived) : Bool :=
  e.large == d.large && e.primary.space == space &&
    (d.large || (e.membershipCount == d.memberships.length && d.memberships.all e.contains))

def addedMemberships (e : Entry) (d : Derived) : List SpatialCellAddress :=
  if d.large then [] else d.memberships.filter fun address => !e.contains address

def removedMemberships (e : Entry) (d : Derived) : List SpatialCellAddress :=
  if e.large then []
  else if d.large then e.copyMemberships
  else (e.primary :: e.additional).filter fun address => address ∉ d.memberships

/-- Whether a move files the object with the large ones of its new space. -/
def addsLarge (e : Entry) (space : SpatialSpaceId) (d : Derived) : Bool :=
  d.large && (!e.large || e.primary.space != space)

/-- Whether a move takes the object out of the large ones of its old space. -/
def dropsLarge (e : Entry) (space : SpatialSpaceId) (d : Derived) : Bool :=
  e.large && (!d.large || e.primary.space != space)

/-- The part of an update behind its limits: the object is filed under its new places, then taken
    out of the old ones. -/
def move (s : SpatialRegionIndex) (a : Allocations) (object : ObjectId) (e : Entry) (space : SpatialSpaceId)
    (d : Derived) (center : Option SpatialCellAddress) : SpatialRegionStatus × SpatialRegionIndex :=
  let large := if addsLarge e space d then s.insertLargeObject space object a.large else (true,s)
  if !large.1 then (.allocationFailure,large.2)
  else
    let entered := large.2.insertMemberships object (addedMemberships e d) a.memberships
    if !entered.1 then
      (.allocationFailure,if addsLarge e space d then entered.2.removeLargeObject space object else entered.2)
    else
      let left := entered.2.removeMemberships object (removedMemberships e d)
      let t := if dropsLarge e space d then left.removeLargeObject e.primary.space object else left
      (.success,t.settle (s.objects.insert object (makeEntry center d))
        (saturatingAdd (sizeSub s.metrics.membershipCount e.membershipCount) d.memberships.length))

def update (c : SpatialRegionIndexConfiguration ρ) (s : SpatialRegionIndex) (a : Allocations) (object : ObjectId)
    (space : SpatialSpaceId) (bounds : SpatialBounds ρ) : SpatialRegionStatus × SpatialRegionIndex :=
  match s.objects.find? object with
  | none => (.missingObject,s)
  | some e =>
    if !space.isValid then (.invalidSpace,s)
    else
      match deriveMemberships c space bounds with
      | .error status => (status,s)
      | .ok d =>
        if sameMemberships e space d then
          (.success,
            { s with objects := s.objects.insert object (e.updatePrimaryAddress (centerAddress c space bounds)) })
        else if d.large && !e.large && s.metrics.largeObjectCount ≥ c.maximumLargeObjects then (.largeObjectLimit,s)
        else
          let additional := d.memberships.length - e.membershipCount
          if d.memberships.length > e.membershipCount && (additional > c.maximumMemberships ||
              s.metrics.membershipCount > sizeSub c.maximumMemberships additional) then (.membershipLimit,s)
          else
            let reclaimable := (removedMemberships e d).countP s.regions.single
            let retained := sizeSub s.regions.size reclaimable
            if s.newRegionCount (addedMemberships e d) > sizeSub c.maximumRegions retained then (.regionLimit,s)
            else if !d.large && !a.entry then (.allocationFailure,s)
            else s.move a object e space d (centerAddress c space bounds)

end

def remove (s : SpatialRegionIndex) (object : ObjectId) : SpatialRegionStatus × SpatialRegionIndex :=
  match s.objects.find? object with
  | none => (.missingObject,s)
  | some e =>
    let left := s.removeMemberships object e.copyMemberships
    let t := if e.large then left.removeLargeObject e.primary.space object else left
    (.success,t.settle (s.objects.erase object) (sizeSub s.metrics.membershipCount e.membershipCount))

/-- What the verification asks of a row of the object table. -/
def verifyObject (s : SpatialRegionIndex) (object : ObjectId) (e : Entry) : Bool :=
  if e.large then s.containsLargeObject e object && e.primary.isValid && e.membershipCount == 0
  else !s.containsLargeObject e object && e.primary.isValid &&
    (e.primary :: e.additional).all fun address => s.regions.holds address object

def verifyConsistency (s : SpatialRegionIndex) : Bool :=
  s.objects.entries.all (fun row => s.verifyObject row.1 row.2) &&
  s.regions.entries.all (fun region => !region.2.isEmpty && region.2.keys.all fun object =>
    match s.objects.find? object with
    | some e => e.contains region.1
    | none => false) &&
  s.largeObjects.entries.all (fun bucket => bucket.1.isValid && !bucket.2.isEmpty && bucket.2.keys.all fun object =>
    match s.objects.find? object with
    | some e => e.large && e.primary.space == bucket.1
    | none => false) &&
  s.objects.total Entry.membershipCount == s.metrics.membershipCount &&
  s.regions.size == s.metrics.regionCount && s.objects.size == s.metrics.spatialObjectCount &&
  s.largeObjects.count == s.metrics.largeObjectCount

inductive Operation (ρ : Type)
  | register (a : Allocations) (object : ObjectId) (space : SpatialSpaceId) (bounds : SpatialBounds ρ)
  | update (a : Allocations) (object : ObjectId) (space : SpatialSpaceId) (bounds : SpatialBounds ρ)
  | remove (object : ObjectId)

def operate {ρ : Type} [DoubleArithmetic ρ] (c : SpatialRegionIndexConfiguration ρ) (s : SpatialRegionIndex) :
    Operation ρ → SpatialRegionStatus × SpatialRegionIndex
  | .register a object space bounds => s.register c a object space bounds
  | .update a object space bounds => s.update c a object space bounds
  | .remove object => s.remove object

end SpatialRegionIndex
end Gargantuan
