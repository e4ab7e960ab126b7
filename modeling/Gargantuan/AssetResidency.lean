import Mathlib.Tactic.SplitIfs
import Gargantuan.KeyedTables

/-!
The textures and meshes that the asset service keeps resident, the changes of them that it
queues until they are drained, and the publisher that the drained changes are handed to. An
operation of the service is taken from where it holds the service's lock and has its import
prepared: what an importer returned, and which checks of dependents, references and limits
refused it, is the operation's argument. Tables are keyed by the id of a record, from which
its reference is made. Revisions and generations do not wrap. A drained set is published
before the next.
-/
namespace Gargantuan.AssetResidency

structure AssetId where
  high : BitVec 64
  low : BitVec 64
deriving DecidableEq

/-- The identity of a texture or a mesh in the renderer. -/
structure RenderIdentity where
  slot : BitVec 64
  generation : Nat
deriving DecidableEq

def RenderIdentity.isValid (i : RenderIdentity) : Bool := i.slot ≠ 0 && i.generation ≠ 0

def textureIdentity (id : AssetId) : RenderIdentity :=
  let slot := 0x4153535400000000#64 ^^^ id.high ^^^ id.low.rotateLeft 17
  ⟨if slot = 0 then 0x4153535400000001#64 else slot,1⟩

def meshIdentity (id : AssetId) : RenderIdentity :=
  let slot := 0x4153534d00000000#64 ^^^ id.high ^^^ id.low.rotateLeft 29
  ⟨if slot = 0 then 0x4153534d00000001#64 else slot,1⟩

def RenderIdentity.next (i : RenderIdentity) : RenderIdentity := { i with generation := i.generation + 1 }

structure ImportedImage where
  width : Nat
  height : Nat
  rgba8 : List UInt8

structure ImportedSkeleton where
  compatibilityId : List UInt8
  joints : Option Nat

structure ImportedMesh (D : Type) where
  vertices : List D
  indices : List Nat
  bounds : D
  skinInfluences : Option (List D)
  skeleton : Option ImportedSkeleton

inductive ImportedAsset (D : Type) where
  | image (image : ImportedImage)
  | mesh (mesh : ImportedMesh D)
  | other

structure AssetRecord (D : Type) where
  id : AssetId
  name : String
  source : String
  contentId : Nat
  contentRevision : Nat
  asset : Option (ImportedAsset D)
  builtIn : Bool
  sourceGroupId : AssetId
  logicalKey : String

structure RenderTextureCreate where
  texture : RenderIdentity
  revision : Nat
  width : Nat
  height : Nat
  pixels : List UInt8

structure RenderTextureUpdate where
  texture : RenderIdentity
  revision : Nat
  x : Nat
  y : Nat
  width : Nat
  height : Nat
  pixels : List UInt8

structure RenderMeshCreate (D : Type) where
  mesh : RenderIdentity
  topologyRevision : Nat
  vertexRevision : Nat
  vertices : List D
  indices : List Nat
  bounds : D
  skinInfluences : Option (List D)
  skeleton : List UInt8
  skeletonJointCount : Nat

structure AssetTextureChanges where
  creates : List RenderTextureCreate := []
  updates : List RenderTextureUpdate := []
  removes : List RenderIdentity := []

structure AssetMeshChanges (D : Type) where
  creates : List (RenderMeshCreate D) := []
  removes : List RenderIdentity := []

structure TextureResidency where
  identity : RenderIdentity
  revision : Nat
  width : Nat
  height : Nat
  pixels : List UInt8

structure MeshResidency (D : Type) where
  identity : RenderIdentity
  revision : Nat
  mesh : ImportedMesh D

def TextureResidency.create (r : TextureResidency) : RenderTextureCreate :=
  { texture := r.identity, revision := r.revision, width := r.width, height := r.height, pixels := r.pixels }

def MeshResidency.create {D : Type} (r : MeshResidency D) : RenderMeshCreate D where
  mesh := r.identity
  topologyRevision := r.revision
  vertexRevision := r.revision
  vertices := r.mesh.vertices
  indices := r.mesh.indices
  bounds := r.mesh.bounds
  skinInfluences := r.mesh.skinInfluences
  skeleton := match r.mesh.skeleton with
    | some skeleton => skeleton.compatibilityId
    | none => List.replicate 32 0
  skeletonJointCount := (r.mesh.skeleton.bind ImportedSkeleton.joints).getD 0

section
variable {D : Type}

structure AssetService (D : Type) where
  records : List (AssetRecord D)
  textures : AssetId → Option TextureResidency
  meshes : AssetId → Option (MeshResidency D)
  pendingTextures : AssetTextureChanges := {}
  pendingMeshes : AssetMeshChanges D := {}

/-- The creation of a mesh that is not drained yet is cancelled; else its removal is queued, once. -/
def AssetMeshChanges.queueMeshRemoval (c : AssetMeshChanges D) (i : RenderIdentity) : AssetMeshChanges D :=
  let creates := c.creates.filter (·.mesh ≠ i)
  let unpublished := c.creates.length - creates.length
  { creates
    removes := if unpublished = 0 ∧ i ∉ c.removes then c.removes ++ [i] else c.removes }

def queueTexture (s : AssetService D) (record : AssetRecord D) (image : ImportedImage) : AssetService D :=
  let c := s.pendingTextures
  match s.textures record.id with
  | none =>
    let r : TextureResidency := ⟨textureIdentity record.id,record.contentRevision,image.width,image.height,image.rgba8⟩
    { s with
      textures := Function.update s.textures record.id (some r)
      pendingTextures := { c with creates := c.creates ++ [r.create] } }
  | some r =>
    if r.width = image.width ∧ r.height = image.height then
      let r := { r with revision := max (r.revision + 1) record.contentRevision, pixels := image.rgba8 }
      { s with
        textures := Function.update s.textures record.id (some r)
        pendingTextures :=
          { c with updates := c.updates ++ [⟨r.identity,r.revision,0,0,image.width,image.height,image.rgba8⟩] } }
    else
      let next : TextureResidency := ⟨r.identity.next,1,image.width,image.height,image.rgba8⟩
      { s with
        textures := Function.update s.textures record.id (some next)
        pendingTextures := { c with removes := c.removes ++ [r.identity], creates := c.creates ++ [next.create] } }

def queueMesh (s : AssetService D) (record : AssetRecord D) (mesh : ImportedMesh D) (replacing : Bool) : AssetService D :=
  let queued (c : AssetMeshChanges D) (r : MeshResidency D) :=
    { s with
      meshes := Function.update s.meshes record.id (some r)
      pendingMeshes := { c with creates := c.creates ++ [r.create] } }
  match s.meshes record.id, replacing with
  | some r, true =>
    queued (s.pendingMeshes.queueMeshRemoval r.identity) ⟨r.identity.next,record.contentRevision,mesh⟩
  | some r, false => queued s.pendingMeshes r
  | none, _ => queued s.pendingMeshes ⟨meshIdentity record.id,record.contentRevision,mesh⟩

def queueResidency (s : AssetService D) (record : AssetRecord D) (replacing : Bool) : AssetService D :=
  match record.asset with
  | some (.image image) => queueTexture s record image
  | some (.mesh mesh) => queueMesh s record mesh replacing
  | _ => s

def removeTexture (s : AssetService D) (id : AssetId) : AssetService D :=
  match s.textures id with
  | some r =>
    { s with
      textures := Function.update s.textures id none
      pendingTextures := { s.pendingTextures with removes := s.pendingTextures.removes ++ [r.identity] } }
  | none => s

def removeMesh (s : AssetService D) (id : AssetId) : AssetService D :=
  match s.meshes id with
  | some r =>
    { s with
      meshes := Function.update s.meshes id none
      pendingMeshes := s.pendingMeshes.queueMeshRemoval r.identity }
  | none => s

def removeResidency (s : AssetService D) (record : AssetRecord D) : AssetService D :=
  removeMesh (removeTexture s record.id) record.id

/-- A call that an operation makes while it holds the lock. -/
inductive Call (D : Type) where
  | queueResidency (record : AssetRecord D) (replacing : Bool)
  | removeResidency (record : AssetRecord D)

def AssetService.call (s : AssetService D) : Call D → AssetService D
  | .queueResidency record replacing => queueResidency s record replacing
  | .removeResidency record => removeResidency s record

structure PublishedTexture where
  revision : Nat
  width : Nat
  height : Nat
  pixels : List UInt8
deriving DecidableEq

structure PublishedAssetMesh (D : Type) where
  topologyRevision : Nat
  vertexRevision : Nat
  vertices : List D
  indices : List Nat
  bounds : D
  skinInfluences : Option (List D)
  skeleton : List UInt8
  skeletonJointCount : Nat

abbrev PublishedTextures := RenderIdentity → Option PublishedTexture

abbrev PublishedAssetMeshes (D : Type) := RenderIdentity → Option (PublishedAssetMesh D)

def RenderTextureCreate.published (c : RenderTextureCreate) : PublishedTexture :=
  ⟨c.revision,c.width,c.height,c.pixels⟩

def createTexture (c : RenderTextureCreate) (existing : Option PublishedTexture) :
    Except String (Option PublishedTexture) :=
  if !c.texture.isValid || c.revision = 0 || c.width = 0 || c.height = 0 || c.pixels.length ≠ c.width * c.height * 4 ||
      existing.isSome then
    .error "Render publisher rejects an invalid or duplicate UI texture creation"
  else .ok (some c.published)

/-- `n` bytes of a source, written over a list. -/
def copyN (source : List UInt8) (sourceOffset n : Nat) (pixels : List UInt8) (destinationOffset : Nat) : List UInt8 :=
  pixels.take destinationOffset ++ (source.drop sourceOffset).take n ++ pixels.drop (destinationOffset + n)

def copyRows (u : RenderTextureUpdate) (width : Nat) (pixels : List UInt8) : List UInt8 :=
  (List.range u.height).foldl
    (fun pixels row => copyN u.pixels (row * u.width * 4) (u.width * 4) pixels (((u.y + row) * width + u.x) * 4)) pixels

def updateTexture (u : RenderTextureUpdate) (existing : Option PublishedTexture) :
    Except String (Option PublishedTexture) :=
  match existing with
  | none => .error "Render publisher rejects an invalid UI texture update"
  | some e =>
    if u.revision ≤ e.revision || u.x > e.width || u.y > e.height || u.width > e.width - u.x ||
        u.height > e.height - u.y || u.pixels.length ≠ u.width * u.height * 4 then
      .error "Render publisher rejects an invalid UI texture update"
    else .ok (some { e with revision := u.revision, pixels := copyRows u e.width e.pixels })

def eraseTexture (_ : RenderIdentity) (existing : Option PublishedTexture) : Except String (Option PublishedTexture) :=
  if existing.isNone then .error "Render publisher rejects a stale UI texture removal" else .ok none

/-- Each creation, update and removal alters what is published under its own identity. -/
def setUiTextureChanges (published : PublishedTextures) (changes : AssetTextureChanges) :
    Except String PublishedTextures := do
  let created ← changes.creates.foldlM (alter RenderTextureCreate.texture createTexture) published
  let updated ← changes.updates.foldlM (alter RenderTextureUpdate.texture updateTexture) created
  changes.removes.foldlM (alter id eraseTexture) updated

def RenderMeshCreate.published (c : RenderMeshCreate D) : PublishedAssetMesh D where
  topologyRevision := c.topologyRevision
  vertexRevision := c.vertexRevision
  vertices := c.vertices
  indices := c.indices
  bounds := c.bounds
  skinInfluences := c.skinInfluences
  skeleton := c.skeleton
  skeletonJointCount := c.skeletonJointCount

def maximumRenderSkinPaletteEntries : Nat := 256

/-- A skeleton's identity has a byte other than zero. -/
def isValidSkeleton (skeleton : List UInt8) : Bool := skeleton.any (· ≠ 0)

def eraseMesh (i : RenderIdentity) (existing : Option (PublishedAssetMesh D)) :
    Except String (Option (PublishedAssetMesh D)) :=
  if !i.isValid || existing.isNone then .error "Render publisher rejects a stale asset mesh removal" else .ok none

/-- What is wrong with a mesh that is to be created, apart from its identity. -/
def RenderMeshCreate.defect (c : RenderMeshCreate D) : Option String :=
  if c.indices.any (c.vertices.length ≤ ·) then some "Render publisher rejects an out-of-range asset mesh index"
  else match c.skinInfluences with
    | some influences =>
      if !isValidSkeleton c.skeleton || c.skeletonJointCount = 0 ||
          c.skeletonJointCount > maximumRenderSkinPaletteEntries || influences.length ≠ c.vertices.length then
        some "Render publisher rejects incoherent asset skin metadata"
      else none
    | none =>
      if isValidSkeleton c.skeleton || c.skeletonJointCount ≠ 0 then
        some "Render publisher rejects skeleton metadata without skin influences"
      else none

def createMesh (c : RenderMeshCreate D) (existing : Option (PublishedAssetMesh D)) :
    Except String (Option (PublishedAssetMesh D)) :=
  if !c.mesh.isValid || c.topologyRevision = 0 || c.vertexRevision = 0 || c.vertices.isEmpty || c.indices.isEmpty ||
      existing.isSome then
    .error "Render publisher rejects an invalid or duplicate asset mesh creation"
  else match c.defect with
    | some message => .error message
    | none => .ok (some c.published)

def setAssetMeshChanges (published : PublishedAssetMeshes D) (changes : AssetMeshChanges D) :
    Except String (PublishedAssetMeshes D) := do
  let removed ← changes.removes.foldlM (alter id eraseMesh) published
  changes.creates.foldlM (alter RenderMeshCreate.mesh createMesh) removed

inductive Operation (D : Type) where
  | importProjectAsset (prepared : List (AssetRecord D)) (refused : Bool)
  | importFails (failed : AssetRecord D)
  | reimportProjectAsset (previous prepared : List (AssetRecord D)) (refused : Bool)
  | deleteProjectAsset (id : AssetId) (refused : Bool)
  | registerMemoryImage (fresh : AssetId) (name : String) (contentId : Nat) (image : ImportedImage) (refused : Bool)
  | configureBuiltInFont (font : AssetRecord D)
  | loadCatalog (loaded : List (AssetRecord D)) (threw : Bool)
  | drainTextureChanges
  | drainMeshChanges

def insertOrAssign (records : List (AssetRecord D)) (record : AssetRecord D) : List (AssetRecord D) :=
  if records.any (·.id = record.id) then records.map fun r => if r.id = record.id then record else r
  else records ++ [record]

structure Commit (D : Type) where
  records : List (AssetRecord D)
  calls : List (Call D) := []

def importProjectAsset (records prepared : List (AssetRecord D)) (refused : Bool) : Commit D :=
  if refused || prepared.any fun r => records.any (·.id = r.id) then { records }
  else
    { records := records ++ prepared
      calls := prepared.map (.queueResidency · false) }

def reimported (previous : List (AssetRecord D)) (next : AssetRecord D) : Option (Call D) :=
  match previous.find? (·.logicalKey = next.logicalKey) with
  | none => some (.queueResidency next false)
  | some p => if p.contentId ≠ next.contentId then some (.queueResidency next true) else none

def reimportProjectAsset (records previous prepared : List (AssetRecord D)) (refused : Bool) : Commit D :=
  let collides := prepared.any fun next => records.any fun r => r.id = next.id && previous.all (·.id ≠ r.id)
  if refused || collides then { records := previous.foldl insertOrAssign records }
  else
    let gone := previous.filter fun p => prepared.all (·.id ≠ p.id)
    { records := prepared.foldl insertOrAssign (records.filter fun r => gone.all (·.id ≠ r.id))
      calls := gone.map .removeResidency ++ prepared.filterMap (reimported previous) }

def deleteProjectAsset (records : List (AssetRecord D)) (id : AssetId) (refused : Bool) : Commit D :=
  match records.find? (·.id = id) with
  | none => { records }
  | some existing =>
    if existing.builtIn || refused then { records }
    else
      let inGroup (r : AssetRecord D) : Bool := !r.builtIn && r.sourceGroupId = existing.sourceGroupId
      { records := records.filter fun r => !inGroup r
        calls := (records.filter inGroup).map .removeResidency }

def registerMemoryImage (records : List (AssetRecord D)) (fresh : AssetId) (name : String) (contentId : Nat)
    (image : ImportedImage) (refused : Bool) : Commit D :=
  if name.isEmpty || image.width = 0 || image.height = 0 || image.rgba8.length ≠ image.width * image.height * 4 ||
      refused then
    { records }
  else match records.find? fun r => r.builtIn && r.source = "memory" && r.name = name with
    | some existing =>
      if existing.contentId = contentId then { records }
      else
        let record := { existing with
          contentId
          contentRevision := existing.contentRevision + 1
          asset := some (.image image) }
        { records := insertOrAssign records record
          calls := [.queueResidency record true] }
    | none =>
      let record : AssetRecord D := {
        id := fresh
        name
        source := "memory"
        contentId
        contentRevision := 1
        asset := some (.image image)
        builtIn := true
        sourceGroupId := fresh
        logicalKey := "asset" }
      { records := records ++ [record]
        calls := [.queueResidency record false] }

/-- A catalog that is found to be inconsistent once its records are in place throws, and leaves them there. -/
def loadCatalog (records loaded : List (AssetRecord D)) (threw : Bool) : Commit D :=
  if records.any fun r => !r.builtIn then { records }
  else if threw then { records := records ++ loaded }
  else
    { records := records ++ loaded
      calls := ((records ++ loaded).filter (·.asset.isSome)).map (.queueResidency · false) }

structure System (D : Type) where
  service : AssetService D
  publishedTextures : PublishedTextures
  publishedMeshes : PublishedAssetMeshes D

def Operation.commit (records : List (AssetRecord D)) : Operation D → Commit D
  | .importProjectAsset prepared refused => AssetResidency.importProjectAsset records prepared refused
  | .importFails failed => { records := records ++ [{ failed with asset := none }] }
  | .reimportProjectAsset previous prepared refused =>
    AssetResidency.reimportProjectAsset records previous prepared refused
  | .deleteProjectAsset id refused => AssetResidency.deleteProjectAsset records id refused
  | .registerMemoryImage fresh name contentId image refused =>
    AssetResidency.registerMemoryImage records fresh name contentId image refused
  | .configureBuiltInFont font =>
    { records := insertOrAssign records { font with asset := some .other, builtIn := true } }
  | .loadCatalog loaded threw => AssetResidency.loadCatalog records loaded threw
  | .drainTextureChanges => { records }
  | .drainMeshChanges => { records }

def System.drainTextureChanges (s : System D) : Except String (System D) := do
  let published ← setUiTextureChanges s.publishedTextures s.service.pendingTextures
  return { s with
    service := { s.service with pendingTextures := {} }
    publishedTextures := published }

def System.drainMeshChanges (s : System D) : Except String (System D) := do
  let published ← setAssetMeshChanges s.publishedMeshes s.service.pendingMeshes
  return { s with
    service := { s.service with pendingMeshes := {} }
    publishedMeshes := published }

def System.step (s : System D) (o : Operation D) : Except String (System D) :=
  match o with
  | .drainTextureChanges => s.drainTextureChanges
  | .drainMeshChanges => s.drainMeshChanges
  | _ =>
    let commit := o.commit s.service.records
    .ok { s with service := { commit.calls.foldl AssetService.call s.service with records := commit.records } }

def missingImage : ImportedImage :=
  ⟨2,2,[255,0,255,255,20,20,20,255,20,20,20,255,255,0,255,255]⟩

def builtInRecord (id : AssetId) (name : String) (asset : ImportedAsset D) : AssetRecord D where
  id := id
  name := name
  source := "engine-package"
  contentId := 0
  contentRevision := 1
  asset := some asset
  builtIn := true
  sourceGroupId := id
  logicalKey := "asset"

def System.start (missing material : AssetId) : System D :=
  let image := builtInRecord missing "Missing Image" (.image missingImage)
  let records := [image,builtInRecord material "Default Material" .other]
  { service := queueTexture { records, textures := fun _ => none, meshes := fun _ => none } image missingImage
    publishedTextures := fun _ => none
    publishedMeshes := fun _ => none }

end

end Gargantuan.AssetResidency
