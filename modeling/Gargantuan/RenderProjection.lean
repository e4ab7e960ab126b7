import Gargantuan.MapBatches
import Gargantuan.WireValue
import Gargantuan.RenderDirtyAccumulator

/-!
The projection of render publications. A publication is checked as a whole against the
projection before anything is applied; what its objects, poses and frames refer to has to be
there afterwards.

What consists of floating-point values is taken as it comes, with the checks of these values
(`RenderValues`). The counts of changes that `Apply` returns, and allocation failures, are left out.
-/
namespace Gargantuan

def maximumRenderSkinPaletteEntries : Nat := 256

/-- Floating-point values, each with the check that a publication makes of them. -/
structure RenderValues where
  /-- The matrices and the colour of an item. -/
  Placement : Type
  isFinitePlacement : Placement → Bool
  /-- The factors of a material. -/
  Surface : Type
  isValidSurface : Surface → Bool
  /-- The camera, the light and the fog of a frame, and its scale. -/
  Optics : Type
  isValidOptics : Optics → Bool
  Vertex : Type
  isFiniteVertex : Vertex → Bool
  Bounds : Type
  isValidBounds : Bounds → Bool
  /-- The weights of a vertex, which are finite and not negative, and which add up to one. -/
  Weights : Type
  areWeights : Weights → Bool
  areNormalized : Weights → Bool
  PaletteEntry : Type
  isFinitePaletteEntry : PaletteEntry → Bool
  Scale : Type
  isPositiveScale : Scale → Bool
  Opacity : Type
  isUnitOpacity : Opacity → Bool
  Clip : Type
  isValidClip : Clip → Bool
  UiVertex : Type
  isFiniteUiVertex : UiVertex → Bool

structure RenderIdentity (domain : Type) where
  slot : UInt64 := 0
  generation : UInt32 := 0
deriving DecidableEq

namespace RenderIdentity
variable {domain : Type}

def isValid (id : RenderIdentity domain) : Bool := id.slot != 0 && id.generation != 0

def key (id : RenderIdentity domain) : Nat := id.slot.toNat * 2 ^ 32 + id.generation.toNat

theorem key_injective : Function.Injective (key : RenderIdentity domain → Nat) := by
  rintro ⟨slotA,generationA⟩ ⟨slotB,generationB⟩ same
  simp only [key] at same
  have boundA := generationA.toNat_lt
  have boundB := generationB.toNat_lt
  have slots : slotA = slotB := UInt64.toNat_inj.mp (by omega)
  have generations : generationA = generationB := UInt32.toNat_inj.mp (by omega)
  rw [slots,generations]

instance linearOrder : LinearOrder (RenderIdentity domain) := LinearOrder.lift' key key_injective

end RenderIdentity

inductive MeshDomain
inductive TextureDomain

abbrev RenderMeshIdentity := RenderIdentity MeshDomain
abbrev RenderTextureIdentity := RenderIdentity TextureDomain

abbrev RenderSkeletonIdentity := ByteString

def RenderSkeletonIdentity.isValid (id : RenderSkeletonIdentity) : Bool := id.any fun value => value != 0

structure RenderItem (V : RenderValues) where
  object : ObjectId
  placement : V.Placement

structure RenderMaterialState (V : RenderValues) where
  revision : Nat := 1
  surface : V.Surface
  baseColorTexture : Option RenderTextureIdentity := none
  normalTexture : Option RenderTextureIdentity := none

structure RenderPrimitiveMaterialState (V : RenderValues) where
  firstIndex : Nat := 0
  indexCount : Nat := 0
  material : RenderMaterialState V

structure RenderProjectedObject (V : RenderValues) where
  item : RenderItem V
  mesh : Option RenderMeshIdentity := none
  material : RenderMaterialState V
  visible : Bool := true
  primitives : Option (List (RenderPrimitiveMaterialState V)) := none

structure RenderObjectUpdate (V : RenderValues) extends RenderProjectedObject V where
  object : ObjectId
  domains : RenderUpdateDomain

structure RenderSkinInfluence (V : RenderValues) where
  joints : List Nat
  weights : V.Weights

structure RenderMeshCreate (V : RenderValues) where
  mesh : RenderMeshIdentity
  topologyRevision : Nat := 0
  vertexRevision : Nat := 0
  vertices : Option (List V.Vertex) := none
  indices : Option (List Nat) := none
  bounds : V.Bounds
  skinInfluences : Option (List (RenderSkinInfluence V)) := none
  skeleton : RenderSkeletonIdentity := []
  skeletonJointCount : Nat := 0

structure RenderMeshVertexUpdate (V : RenderValues) where
  mesh : RenderMeshIdentity
  vertexRevision : Nat := 0
  firstVertex : Nat := 0
  vertices : Option (List V.Vertex) := none
  bounds : V.Bounds

inductive RenderAnimationSkinningMode where
  | gpuPalette | cpuFallback
deriving DecidableEq

structure RenderSkinPalette (V : RenderValues) where
  skeleton : RenderSkeletonIdentity := []
  entries : Option (List V.PaletteEntry) := none

structure RenderAnimationPoseUpdate (V : RenderValues) where
  object : ObjectId
  sourceMesh : RenderMeshIdentity := {}
  posedMesh : RenderMeshIdentity := {}
  poseRevision : Nat := 0
  palette : RenderSkinPalette V
  mode : RenderAnimationSkinningMode := .gpuPalette

structure RenderTextureCreate where
  texture : RenderTextureIdentity
  revision : Nat := 0
  width : Nat := 0
  height : Nat := 0
  pixels : Option ByteString := none

structure RenderTextureUpdate where
  texture : RenderTextureIdentity
  revision : Nat := 0
  x : Nat := 0
  y : Nat := 0
  width : Nat := 0
  height : Nat := 0
  pixels : Option ByteString := none

structure RenderSkyFaceState where
  texture : RenderTextureIdentity
  contentRevision : Nat

structure RenderSkyState where
  faceDimension : Nat
  faces : List RenderSkyFaceState

structure RenderFrameState (V : RenderValues) where
  viewportWidth : Nat := 0
  viewportHeight : Nat := 0
  optics : V.Optics
  sky : Option RenderSkyState := none

structure RenderUiBatch (V : RenderValues) where
  texture : Option RenderTextureIdentity := none
  clip : Option V.Clip := none
  opacity : V.Opacity
  vertices : List V.UiVertex := []
  indices : List Nat := []

structure RenderUiFrame (V : RenderValues) where
  viewportWidth : Nat := 0
  viewportHeight : Nat := 0
  /-- Without a value where it is the initial one. -/
  dpiScale : Option V.Scale := none
  batches : List (RenderUiBatch V) := []

structure RenderPublication (V : RenderValues) where
  id : Nat := 0
  baseId : Nat := 0
  fullResync : Bool := false
  frame : RenderFrameState V
  creates : List (RenderProjectedObject V) := []
  updates : List (RenderObjectUpdate V) := []
  removes : List ObjectId := []
  meshCreates : List (RenderMeshCreate V) := []
  meshVertexUpdates : List (RenderMeshVertexUpdate V) := []
  meshRemoves : List RenderMeshIdentity := []
  animationPoseUpdates : List (RenderAnimationPoseUpdate V) := []
  animationPoseRemoves : List ObjectId := []
  textureCreates : List RenderTextureCreate := []
  textureUpdates : List RenderTextureUpdate := []
  textureRemoves : List RenderTextureIdentity := []
  uiChanged : Bool := false
  ui : RenderUiFrame V := {}
  sharedUi : Option (RenderUiFrame V) := none

namespace RenderProjection

structure MeshEntry (V : RenderValues) where
  topologyRevision : Nat
  vertexRevision : Nat
  vertexCount : Nat
  indexCount : Nat
  bounds : V.Bounds
  skinInfluences : Option (List (RenderSkinInfluence V))
  skeleton : RenderSkeletonIdentity
  skeletonJointCount : Nat

structure TextureEntry where
  revision : Nat
  width : Nat
  height : Nat

end RenderProjection

open RenderProjection in
structure RenderProjection (V : RenderValues) where
  entries : SortedMap ObjectId (RenderProjectedObject V) := ∅
  meshes : SortedMap RenderMeshIdentity (MeshEntry V) := ∅
  textures : SortedMap RenderTextureIdentity TextureEntry := ∅
  animationPoses : SortedMap ObjectId (RenderAnimationPoseUpdate V) := ∅
  lastPublicationId : Nat := 0
  /-- Nothing before the first publication. -/
  frame : Option (RenderFrameState V) := none
  ui : RenderUiFrame V := {}

namespace RenderProjection
variable {V : RenderValues}

def require (ok : Bool) (failure : String) : Option String := if ok then none else some failure

def checkEach {α κ : Type} [DecidableEq κ] (valid : α → Bool) (key : α → κ) (failure : String)
    (further : α → Option String) : List κ → List α → Option String
  | _, [] => none
  | seen, x :: rest =>
    if !valid x || decide (key x ∈ seen) then some failure
    else (further x).or (checkEach valid key failure further (key x :: seen) rest)

def isValidItem (item : RenderItem V) : Bool := item.object.isValid && V.isFinitePlacement item.placement

def isValidMaterial (m : RenderMaterialState V) : Bool :=
  m.revision != 0 && V.isValidSurface m.surface && m.baseColorTexture.all RenderIdentity.isValid &&
    m.normalTexture.all RenderIdentity.isValid

def areValidFrom (previousEnd : Nat) : List (RenderPrimitiveMaterialState V) → Bool
  | [] => true
  | p :: rest =>
    p.indexCount != 0 && p.indexCount % 3 == 0 && decide (previousEnd ≤ p.firstIndex) &&
      decide (p.firstIndex + p.indexCount ≤ 2 ^ 32 - 1) && isValidMaterial p.material &&
      areValidFrom (p.firstIndex + p.indexCount) rest

def areValidPrimitives : Option (List (RenderPrimitiveMaterialState V)) → Bool
  | none => true
  | some primitives => !primitives.isEmpty && areValidFrom 0 primitives

def isValidObject (o : RenderProjectedObject V) : Bool :=
  isValidItem o.item && isValidMaterial o.material && areValidPrimitives o.primitives &&
    o.mesh.all RenderIdentity.isValid

def validUpdateDomains : RenderUpdateDomain := 255#32

def isValidUpdate (u : RenderObjectUpdate V) : Bool :=
  u.object.isValid && decide (u.item.object = u.object) && isValidObject u.toRenderProjectedObject &&
    decide (u.domains ≠ 0) && decide (u.domains &&& ~~~validUpdateDomains = 0)

def isValidSky (sky : RenderSkyState) : Bool :=
  sky.faceDimension != 0 && decide (sky.faceDimension ≤ 1024) &&
    sky.faces.all fun face => face.texture.isValid && face.contentRevision != 0

def isValidFrame (frame : RenderFrameState V) : Bool :=
  frame.viewportWidth != 0 && frame.viewportHeight != 0 && V.isValidOptics frame.optics && frame.sky.all isValidSky

def isValidMeshCreate (c : RenderMeshCreate V) : Bool :=
  c.mesh.isValid && c.topologyRevision != 0 && c.vertexRevision != 0 && c.vertices.any (!·.isEmpty) &&
    c.indices.any (!·.isEmpty) && V.isValidBounds c.bounds

def checkInfluence (jointCount : Nat) (i : RenderSkinInfluence V) : Option String :=
  (require (i.joints.all (fun joint => decide (joint < jointCount)) && V.areWeights i.weights)
    "Render publication rejects malformed skin weights").or
  (require (V.areNormalized i.weights) "Render publication rejects non-normalized skin weights")

def checkMeshCreate (c : RenderMeshCreate V) : Option String :=
  let vertices := c.vertices.getD []
  (require (vertices.all V.isFiniteVertex) "Render publication rejects non-finite mesh vertices").or <|
  (require ((c.indices.getD []).all fun index => decide (index < vertices.length))
    "Render publication rejects out-of-range mesh indices").or <|
  match c.skinInfluences with
  | some influences =>
    (require (c.skeleton.isValid && c.skeletonJointCount != 0 &&
        decide (c.skeletonJointCount ≤ maximumRenderSkinPaletteEntries) && influences.length == vertices.length)
      "Render publication skin influence count differs from vertices").or
    (influences.findSome? (checkInfluence c.skeletonJointCount))
  | none =>
    require (!(c.skeleton.isValid || c.skeletonJointCount != 0))
      "Render publication rejects skeleton metadata without skin influences"

def isValidVertexUpdate (u : RenderMeshVertexUpdate V) : Bool :=
  u.mesh.isValid && u.vertexRevision != 0 && u.vertices.any (!·.isEmpty) && V.isValidBounds u.bounds

def hasExactRgba8Bytes (width height : Nat) (pixels : Option ByteString) : Bool :=
  width != 0 && height != 0 && pixels.any fun bytes => bytes.length == width * height * 4

def isValidTextureCreate (c : RenderTextureCreate) : Bool :=
  c.texture.isValid && c.revision != 0 && hasExactRgba8Bytes c.width c.height c.pixels

def isValidTextureUpdate (u : RenderTextureUpdate) : Bool :=
  u.texture.isValid && u.revision != 0 && hasExactRgba8Bytes u.width u.height u.pixels

/-! ### What there is after a publication -/

section
variable (p : RenderProjection V) (pub : RenderPublication V)

def publishedUi : RenderUiFrame V := pub.sharedUi.getD pub.ui

def isEmptyUi (ui : RenderUiFrame V) : Bool := ui.viewportWidth == 0 && ui.viewportHeight == 0 && ui.batches.isEmpty

def hasUiUpdate : Bool := pub.fullResync || pub.uiChanged || pub.sharedUi.isSome || !isEmptyUi (publishedUi pub)

def touchedObjects : List ObjectId :=
  pub.removes ++ pub.creates.map (fun c => c.item.object) ++ pub.updates.map RenderObjectUpdate.object

def textureExistsAfterPublication (texture : RenderTextureIdentity) : Bool :=
  (pub.textureCreates.any fun c => decide (c.texture = texture)) ||
    (!pub.fullResync && p.textures.contains texture && decide (texture ∉ pub.textureRemoves))

def textureMatchesSkyFace (face : RenderSkyFaceState) (dimension : Nat) : Bool :=
  match pub.textureCreates.find? fun c => decide (c.texture = face.texture) with
  | some c => c.revision == face.contentRevision && c.width == dimension && c.height == dimension
  | none =>
    if pub.fullResync || decide (face.texture ∈ pub.textureRemoves) then false
    else
      match p.textures.find? face.texture with
      | none => false
      | some known =>
        if known.width != dimension || known.height != dimension then false
        else
          match pub.textureUpdates.find? fun u => decide (u.texture = face.texture) with
          | some u => u.revision == face.contentRevision
          | none => known.revision == face.contentRevision

def materialTexturesExist (m : RenderMaterialState V) : Bool :=
  m.baseColorTexture.all (textureExistsAfterPublication p pub) &&
    m.normalTexture.all (textureExistsAfterPublication p pub)

def objectTexturesExist (o : RenderProjectedObject V) : Bool :=
  materialTexturesExist p pub o.material && o.primitives.all (·.all fun q => materialTexturesExist p pub q.material)

def meshExistsAfterPublication (mesh : RenderMeshIdentity) : Bool :=
  (pub.meshCreates.any fun c => decide (c.mesh = mesh)) ||
    (!pub.fullResync && p.meshes.contains mesh && decide (mesh ∉ pub.meshRemoves))

def meshIndexCountAfterPublication (mesh : RenderMeshIdentity) : Option Nat :=
  match pub.meshCreates.find? fun c => decide (c.mesh = mesh) with
  | some c => some (c.indices.getD []).length
  | none =>
    if pub.fullResync || decide (mesh ∈ pub.meshRemoves) then none else (p.meshes.find? mesh).map MeshEntry.indexCount

def primitiveRangesFit (o : RenderProjectedObject V) : Bool :=
  match o.primitives, o.mesh with
  | none, _ => true
  | some _, none => false
  | some primitives, some mesh =>
    match meshIndexCountAfterPublication p pub mesh with
    | none => false
    | some count =>
      primitives.all fun q => decide (q.firstIndex ≤ count) && decide (q.indexCount ≤ count - q.firstIndex)

def objectMeshAfterPublication (object : ObjectId) : Option RenderMeshIdentity :=
  match pub.creates.find? fun c => decide (c.item.object = object) with
  | some c => c.mesh
  | none =>
    match pub.updates.find? fun u => decide (u.object = object) with
    | some u => u.mesh
    | none =>
      if object ∈ pub.removes ∨ pub.fullResync = true then none
      else (p.entries.find? object).bind RenderProjectedObject.mesh

def skeletonAfterPublication (mesh : RenderMeshIdentity) : Option RenderSkeletonIdentity :=
  match pub.meshCreates.find? fun c => decide (c.mesh = mesh) && c.skinInfluences.isSome with
  | some c => some c.skeleton
  | none =>
    if pub.fullResync then none
    else (p.meshes.find? mesh).bind fun known => if known.skinInfluences.isSome then some known.skeleton else none

def skeletonJointCountAfterPublication (mesh : RenderMeshIdentity) : Nat :=
  match pub.meshCreates.find? fun c => decide (c.mesh = mesh) with
  | some c => c.skeletonJointCount
  | none => if pub.fullResync then 0 else ((p.meshes.find? mesh).map MeshEntry.skeletonJointCount).getD 0

def touchedPoses : List ObjectId :=
  pub.animationPoseRemoves ++ pub.animationPoseUpdates.map RenderAnimationPoseUpdate.object

def isCoherentPose (u : RenderAnimationPoseUpdate V) : Bool :=
  let entries := u.palette.entries.getD []
  u.object.isValid && u.sourceMesh.isValid && u.poseRevision != 0 && u.palette.skeleton.isValid &&
    u.palette.entries.isSome && !entries.isEmpty && decide (entries.length ≤ maximumRenderSkinPaletteEntries) &&
    meshExistsAfterPublication p pub u.sourceMesh &&
    decide (skeletonAfterPublication p pub u.sourceMesh = some u.palette.skeleton) &&
    skeletonJointCountAfterPublication p pub u.sourceMesh == entries.length

def checkPose (u : RenderAnimationPoseUpdate V) : Option String :=
  (require (isCoherentPose p pub u) "Render publication animation pose update is invalid or incoherent").or <|
  (match u.mode with
    | .gpuPalette =>
      require (!u.posedMesh.isValid && decide (objectMeshAfterPublication p pub u.object = some u.sourceMesh))
        "Render publication GPU pose must retain the source mesh binding"
    | .cpuFallback =>
      require (u.posedMesh.isValid && decide (u.sourceMesh ≠ u.posedMesh) &&
          meshExistsAfterPublication p pub u.posedMesh &&
          decide (objectMeshAfterPublication p pub u.object = some u.posedMesh))
        "Render publication CPU fallback pose must bind its posed mesh").or <|
  (require ((u.palette.entries.getD []).all V.isFinitePaletteEntry)
    "Render publication rejects a non-finite animation pose palette").or <|
  require (pub.fullResync || (p.animationPoses.find? u.object).all fun (known : RenderAnimationPoseUpdate V) =>
      decide (known.poseRevision < u.poseRevision))
    "Render publication rejects a stale animation pose update"

def checkUiBatch (b : RenderUiBatch V) : Option String :=
  (require (b.texture.all (fun texture => texture.isValid && textureExistsAfterPublication p pub texture) &&
      V.isUnitOpacity b.opacity) "Render publication UI batch state is invalid").or <|
  (require (b.clip.all V.isValidClip) "Render publication UI clip is invalid").or <|
  (require (b.vertices.all V.isFiniteUiVertex) "Render publication rejects non-finite UI vertices").or <|
  require (b.indices.all fun index => decide (index < b.vertices.length))
    "Render publication rejects out-of-range UI indices"

def checkUi : Option String :=
  let ui := publishedUi pub
  if hasUiUpdate pub && !isEmptyUi ui then
    (require (ui.viewportWidth == pub.frame.viewportWidth && ui.viewportHeight == pub.frame.viewportHeight &&
        ui.dpiScale.all V.isPositiveScale) "Render publication UI frame does not match frame state").or
    (ui.batches.findSome? (checkUiBatch p pub))
  else none

def isCompleteCreateState : Bool :=
  pub.updates.isEmpty && pub.removes.isEmpty && pub.meshVertexUpdates.isEmpty && pub.meshRemoves.isEmpty &&
    pub.animationPoseRemoves.isEmpty && pub.textureUpdates.isEmpty && pub.textureRemoves.isEmpty

def identityChecks : List (Option String) :=
  [require (pub.id != 0) "Render projection requires a valid RenderPublication identity",
    require (pub.fullResync || pub.baseId == p.lastPublicationId)
      "Render projection rejects a stale or out-of-order publication",
    require (pub.fullResync || decide (pub.baseId < pub.id))
      "Render projection requires publication identities to increase",
    require (!pub.fullResync || isCompleteCreateState pub)
      "A full RenderPublication may contain only complete create state",
    require (isValidFrame pub.frame) "Render publication frame state is invalid"]

/-- Each operation by itself, and that no two are about the same. -/
def operationChecks : List (Option String) :=
  let object := "Render publication contains an invalid or duplicate object operation"
  let created := pub.creates.map fun c => c.item.object
  let meshCreated := pub.meshCreates.map RenderMeshCreate.mesh
  let textureCreated := pub.textureCreates.map RenderTextureCreate.texture
  [checkEach GenerationalId.isValid id object (fun _ => none) [] pub.removes,
    checkEach isValidObject (fun c => c.item.object) object (fun _ => none) pub.removes pub.creates,
    checkEach isValidUpdate RenderObjectUpdate.object
      "Render publication contains an invalid or duplicate object update" (fun _ => none) (pub.removes ++ created)
      pub.updates,
    checkEach RenderIdentity.isValid id "Render publication contains an invalid or duplicate mesh operation"
      (fun _ => none) [] pub.meshRemoves,
    checkEach isValidMeshCreate RenderMeshCreate.mesh "Render publication mesh creation is invalid" checkMeshCreate
      pub.meshRemoves pub.meshCreates,
    checkEach isValidVertexUpdate RenderMeshVertexUpdate.mesh "Render publication mesh update is invalid"
      (fun u => require ((u.vertices.getD []).all V.isFiniteVertex)
        "Render publication rejects non-finite deformable vertices") (pub.meshRemoves ++ meshCreated)
      pub.meshVertexUpdates,
    checkEach RenderIdentity.isValid id "Render publication contains an invalid or duplicate texture operation"
      (fun _ => none) [] pub.textureRemoves,
    checkEach isValidTextureCreate RenderTextureCreate.texture "Render publication texture creation is invalid"
      (fun _ => none) pub.textureRemoves pub.textureCreates,
    checkEach isValidTextureUpdate RenderTextureUpdate.texture "Render publication texture update is invalid"
      (fun _ => none) (pub.textureRemoves ++ textureCreated) pub.textureUpdates]

def textureChecks : List (Option String) :=
  let missing := "Render publication material references a texture without residency"
  [require (pub.frame.sky.all fun sky => sky.faces.all fun face => textureMatchesSkyFace p pub face sky.faceDimension)
      "Render publication Sky references an unavailable or incoherent texture",
    require (pub.creates.all (objectTexturesExist p pub)) missing,
    require (pub.updates.all fun u => objectTexturesExist p pub u.toRenderProjectedObject) missing,
    require (pub.fullResync || pub.textureRemoves.isEmpty || p.entries.entries.all fun e =>
        decide (e.1 ∈ touchedObjects pub) || objectTexturesExist p pub e.2)
      "Render publication removes a texture that remains referenced by a material",
    checkUi p pub]

def poseChecks : List (Option String) :=
  [require (pub.animationPoseRemoves.all fun object =>
        object.isValid && (pub.fullResync || p.animationPoses.contains object))
      "Render publication contains an invalid or stale animation pose removal",
    pub.animationPoseUpdates.findSome? (checkPose p pub),
    require (decide (touchedPoses pub).Nodup) "Render publication contains duplicate animation pose operations"]

def meshChecks : List (Option String) :=
  let bound (o : RenderProjectedObject V) := o.mesh.all (meshExistsAfterPublication p pub) && primitiveRangesFit p pub o
  [require (pub.creates.all bound) "Render publication object creation references a missing mesh",
    require (pub.updates.all fun u => bound u.toRenderProjectedObject)
      "Render publication object update references a missing mesh",
    require (pub.fullResync || pub.meshRemoves.isEmpty || p.entries.entries.all fun e =>
        e.2.mesh.isNone || decide (e.1 ∈ touchedObjects pub) || e.2.mesh.all (meshExistsAfterPublication p pub))
      "Render publication removes a mesh that remains referenced",
    require (pub.fullResync || pub.meshRemoves.isEmpty || p.animationPoses.entries.all fun e =>
        decide (e.1 ∈ touchedPoses pub) || (meshExistsAfterPublication p pub e.2.sourceMesh &&
          (decide (e.2.mode ≠ .cpuFallback) || meshExistsAfterPublication p pub e.2.posedMesh)))
      "Render publication removes a mesh that remains referenced by an animation pose"]

/-- An incremental publication is about what is there, and creates what is not. -/
def staleChecks : List (Option String) :=
  let inc := fun ok failure => require (pub.fullResync || ok) failure
  [inc (pub.removes.all p.entries.contains) "Render publication rejects a stale object removal",
    inc (pub.creates.all fun c => !p.entries.contains c.item.object)
      "Render publication rejects a duplicate object creation",
    inc (pub.updates.all fun u => p.entries.contains u.object) "Render publication rejects a stale object update",
    inc (pub.meshRemoves.all p.meshes.contains) "Render publication rejects a stale mesh removal",
    inc (pub.meshCreates.all fun c => !p.meshes.contains c.mesh) "Render publication rejects a duplicate mesh creation",
    inc (pub.meshVertexUpdates.all fun u => (p.meshes.find? u.mesh).any fun known =>
        decide (known.vertexRevision < u.vertexRevision) && decide (u.firstVertex ≤ known.vertexCount) &&
          decide ((u.vertices.getD []).length ≤ known.vertexCount - u.firstVertex))
      "Render publication rejects a stale or out-of-range mesh update",
    inc (pub.textureRemoves.all p.textures.contains) "Render publication rejects a stale texture removal",
    inc (pub.textureCreates.all fun c => !p.textures.contains c.texture)
      "Render publication rejects a duplicate texture creation",
    inc (pub.textureUpdates.all fun u => (p.textures.find? u.texture).any fun known =>
        decide (known.revision < u.revision) && decide (u.x ≤ known.width) && decide (u.y ≤ known.height) &&
          decide (u.width ≤ known.width - u.x) && decide (u.height ≤ known.height - u.y))
      "Render publication rejects a stale or out-of-range texture update"]

/-- The first check that fails. -/
def refusal : Option String :=
  (identityChecks p pub ++ operationChecks pub ++ textureChecks p pub ++ poseChecks p pub ++ meshChecks p pub ++
    staleChecks p pub).findSome? id

def meshEntryOf (c : RenderMeshCreate V) : MeshEntry V :=
  { topologyRevision := c.topologyRevision, vertexRevision := c.vertexRevision
    vertexCount := (c.vertices.getD []).length, indexCount := (c.indices.getD []).length, bounds := c.bounds
    skinInfluences := c.skinInfluences, skeleton := c.skeleton, skeletonJointCount := c.skeletonJointCount }

def textureEntryOf (c : RenderTextureCreate) : TextureEntry := ⟨c.revision,c.width,c.height⟩

def cleared : RenderProjection V :=
  if pub.fullResync then { p with entries := ∅, meshes := ∅, textures := ∅, animationPoses := ∅ } else p

def created : RenderProjection V :=
  { cleared p pub with
    entries := SortedMap.emplaceAll (fun c => c.item.object) id pub.creates ((cleared p pub).entries.eraseAll pub.removes)
    meshes := SortedMap.emplaceAll RenderMeshCreate.mesh meshEntryOf pub.meshCreates
      ((cleared p pub).meshes.eraseAll pub.meshRemoves) }

def changedEntries : Bool × SortedMap ObjectId (RenderProjectedObject V) :=
  SortedMap.changeAll RenderObjectUpdate.object (fun u _ => u.toRenderProjectedObject) pub.updates (created p pub).entries

def changedMeshes : Bool × SortedMap RenderMeshIdentity (MeshEntry V) :=
  SortedMap.changeAll RenderMeshVertexUpdate.mesh
    (fun u known => { known with vertexRevision := u.vertexRevision, bounds := u.bounds }) pub.meshVertexUpdates
    (created p pub).meshes

def assignedPoses : SortedMap ObjectId (RenderAnimationPoseUpdate V) :=
  SortedMap.assignAll RenderAnimationPoseUpdate.object id pub.animationPoseUpdates
    ((cleared p pub).animationPoses.eraseAll pub.animationPoseRemoves)

def changedTextures : Bool × SortedMap RenderTextureIdentity TextureEntry :=
  SortedMap.changeAll RenderTextureUpdate.texture (fun u known => { known with revision := u.revision })
    pub.textureUpdates
    (SortedMap.emplaceAll RenderTextureCreate.texture textureEntryOf pub.textureCreates
      ((cleared p pub).textures.eraseAll pub.textureRemoves))

def outOfRange : String := "std::out_of_range"

/-- The lookups of what is updated throw where it is missing. -/
def commit : Except String Unit × RenderProjection V :=
  if (changedEntries p pub).1 = false then
    (.error outOfRange,{ cleared p pub with
      entries := (changedEntries p pub).2, meshes := (cleared p pub).meshes.eraseAll pub.meshRemoves })
  else if (changedMeshes p pub).1 = false then
    (.error outOfRange,{ cleared p pub with entries := (changedEntries p pub).2, meshes := (changedMeshes p pub).2 })
  else
    let posed := { cleared p pub with
      entries := (changedEntries p pub).2, meshes := (changedMeshes p pub).2, animationPoses := assignedPoses p pub
      textures := (changedTextures p pub).2 }
    if (changedTextures p pub).1 = false then (.error outOfRange,posed)
    else
      (.ok (),{ posed with
        ui := if hasUiUpdate pub then publishedUi pub else p.ui
        frame := some pub.frame
        lastPublicationId := pub.id })

def apply : Except String Unit × RenderProjection V :=
  match refusal p pub with
  | some failure => (.error failure,p)
  | none => commit p pub

end
end RenderProjection
end Gargantuan
