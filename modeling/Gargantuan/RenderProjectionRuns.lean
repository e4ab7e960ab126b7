import Gargantuan.RenderProjection

/-!
What a projection refers to is there. A publication that is accepted leaves each map as the
checks foresee it (`find?_entries`, `find?_meshes`, `find?_textures`, `find?_poses`); with the
checks this gives that what is new refers to what is there afterwards, and that what is kept
still does.
-/
namespace Gargantuan
variable {V : RenderValues}

def RenderMaterialState.textures (m : RenderMaterialState V) : List RenderTextureIdentity :=
  m.baseColorTexture.toList ++ m.normalTexture.toList

def RenderProjectedObject.textures (o : RenderProjectedObject V) : List RenderTextureIdentity :=
  o.material.textures ++ (o.primitives.getD []).flatMap fun q => q.material.textures

def RenderAnimationPoseUpdate.boundMesh (pose : RenderAnimationPoseUpdate V) : RenderMeshIdentity :=
  match pose.mode with
  | .gpuPalette => pose.sourceMesh
  | .cpuFallback => pose.posedMesh

end Gargantuan

namespace Gargantuan.RenderProjection
open SortedMap List
variable {V : RenderValues}

structure ObjectClosed (p : RenderProjection V) (o : RenderProjectedObject V) : Prop where
  mesh : ∀ m, o.mesh = some m → p.meshes.contains m = true
  textures : ∀ t ∈ o.textures, p.textures.contains t = true
  ranges : ∀ primitives, o.primitives = some primitives → ∃ m e, o.mesh = some m ∧ p.meshes.find? m = some e ∧
    ∀ q ∈ primitives, q.firstIndex + q.indexCount ≤ e.indexCount

structure PoseClosed (p : RenderProjection V) (object : ObjectId) (pose : RenderAnimationPoseUpdate V) : Prop where
  bound : ∃ o, p.entries.find? object = some o ∧ o.mesh = some pose.boundMesh
  source : ∃ e, p.meshes.find? pose.sourceMesh = some e ∧ e.skinInfluences.isSome = true ∧
    e.skeleton = pose.palette.skeleton ∧ e.skeletonJointCount = (pose.palette.entries.getD []).length

structure Closed (p : RenderProjection V) : Prop where
  objects : ∀ object o, p.entries.find? object = some o → ObjectClosed p o
  poses : ∀ object pose, p.animationPoses.find? object = some pose → PoseClosed p object pose
  sky : ∀ frame sky, p.frame = some frame → frame.sky = some sky → ∀ face ∈ sky.faces,
    ∃ e, p.textures.find? face.texture = some e ∧ e.width = sky.faceDimension ∧ e.height = sky.faceDimension
  ui : ∀ b ∈ p.ui.batches, ∀ t, b.texture = some t → p.textures.contains t = true

/-- The objects of the poses that are kept stay bound to their meshes. -/
def KeepsPoses (p : RenderProjection V) (pub : RenderPublication V) : Prop :=
  ∀ e ∈ p.animationPoses.entries, e.1 ∈ touchedPoses pub ∨
    (e.1 ∉ pub.removes ∧ ∀ u ∈ pub.updates, u.object = e.1 → u.mesh = some e.2.boundMesh)

/-- The textures of a user interface that is kept are not removed. -/
def KeepsUi (p : RenderProjection V) (pub : RenderPublication V) : Prop :=
  hasUiUpdate pub = true ∨ ∀ b ∈ p.ui.batches, ∀ t ∈ b.texture, t ∉ pub.textureRemoves

def Admissible (p : RenderProjection V) (pub : RenderPublication V) : Prop :=
  refusal p pub ≠ none ∨ pub.fullResync = true ∨ (KeepsPoses p pub ∧ KeepsUi p pub)

instance (p : RenderProjection V) (pub : RenderPublication V) : Decidable (Admissible p pub) :=
  inferInstanceAs (Decidable (_ ≠ none ∨ _ ∨ ((∀ e ∈ p.animationPoses.entries, _ ∨ (_ ∧ ∀ u ∈ pub.updates, _ → _)) ∧
    (_ ∨ ∀ b ∈ p.ui.batches, ∀ t ∈ b.texture, _))))

def step (p : RenderProjection V) (pub : RenderPublication V) : Option (RenderProjection V) := some (apply p pub).2

section
variable {p : RenderProjection V} {pub : RenderPublication V}
variable {failure : String} {o : RenderProjectedObject V} {object : ObjectId}

theorem require_eq_none {ok : Bool} : require ok failure = none ↔ ok := by
  unfold require
  split_ifs with holds
  · simp [holds]
  · simp [holds]

theorem checkEach_eq_none {α κ : Type} [DecidableEq κ] {valid : α → Bool} {key : α → κ} {further : α → Option String}
    {seen : List κ} {items : List α} (passed : checkEach valid key failure further seen items = none) :
    (∀ x ∈ items, valid x ∧ key x ∉ seen) ∧ (items.map key).Nodup := by
  induction items generalizing seen with
  | nil => exact ⟨fun _ member => absurd member not_mem_nil,nodup_nil⟩
  | cons x rest ih =>
    unfold checkEach at passed
    split_ifs at passed with bad
    rw [Bool.or_eq_true,not_or] at bad
    obtain ⟨_,passed⟩ := Option.or_eq_none_iff.mp passed
    obtain ⟨each,distinct⟩ := ih passed
    refine ⟨?_,nodup_cons.mpr ⟨?_,distinct⟩⟩
    · intro y member
      rcases mem_cons.mp member with rfl | later
      · exact ⟨by simpa using bad.1,fun known => bad.2 (decide_eq_true known)⟩
      · exact ⟨(each y later).1,fun known => (each y later).2 (.tail _ known)⟩
    · intro repeated
      obtain ⟨y,later,same⟩ := mem_map.mp repeated
      exact (each y later).2 (by rw [same]; exact (.head _))

structure Accepted (p : RenderProjection V) (pub : RenderPublication V) : Prop where
  complete : pub.fullResync = true → isCompleteCreateState pub = true
  createsFresh : ∀ c ∈ pub.creates, c.item.object ∉ pub.removes
  updatesFresh : ∀ u ∈ pub.updates, u.object ∉ pub.removes ++ pub.creates.map fun c => c.item.object
  updatesDistinct : (pub.updates.map RenderObjectUpdate.object).Nodup
  meshCreatesFresh : ∀ c ∈ pub.meshCreates, c.mesh ∉ pub.meshRemoves
  meshCreatesDistinct : (pub.meshCreates.map RenderMeshCreate.mesh).Nodup
  meshUpdatesFresh : ∀ u ∈ pub.meshVertexUpdates, u.mesh ∉ pub.meshRemoves ++ pub.meshCreates.map RenderMeshCreate.mesh
  meshUpdatesDistinct : (pub.meshVertexUpdates.map RenderMeshVertexUpdate.mesh).Nodup
  textureCreatesFresh : ∀ c ∈ pub.textureCreates, c.texture ∉ pub.textureRemoves
  textureUpdatesFresh :
    ∀ u ∈ pub.textureUpdates, u.texture ∉ pub.textureRemoves ++ pub.textureCreates.map RenderTextureCreate.texture
  textureUpdatesDistinct : (pub.textureUpdates.map RenderTextureUpdate.texture).Nodup
  sky : (pub.frame.sky.all fun sky => sky.faces.all fun face => textureMatchesSkyFace p pub face sky.faceDimension) = true
  createdTextures : ∀ c ∈ pub.creates, objectTexturesExist p pub c = true
  updatedTextures : ∀ u ∈ pub.updates, objectTexturesExist p pub u.toRenderProjectedObject = true
  keptTextures : (pub.fullResync || pub.textureRemoves.isEmpty || p.entries.entries.all fun e =>
    decide (e.1 ∈ touchedObjects pub) || objectTexturesExist p pub e.2) = true
  ui : checkUi p pub = none
  poseUpdates : ∀ u ∈ pub.animationPoseUpdates, checkPose p pub u = none
  posesDistinct : (touchedPoses pub).Nodup
  createdMeshes : ∀ c ∈ pub.creates, c.mesh.all (meshExistsAfterPublication p pub) = true ∧
    primitiveRangesFit p pub c = true
  updatedMeshes : ∀ u ∈ pub.updates, u.mesh.all (meshExistsAfterPublication p pub) = true ∧
    primitiveRangesFit p pub u.toRenderProjectedObject = true
  keptMeshes : (pub.fullResync || pub.meshRemoves.isEmpty || p.entries.entries.all fun e =>
    e.2.mesh.isNone || decide (e.1 ∈ touchedObjects pub) || e.2.mesh.all (meshExistsAfterPublication p pub)) = true
  keptPoses : (pub.fullResync || pub.meshRemoves.isEmpty || p.animationPoses.entries.all fun e =>
    decide (e.1 ∈ touchedPoses pub) || (meshExistsAfterPublication p pub e.2.sourceMesh &&
      (decide (e.2.mode ≠ .cpuFallback) || meshExistsAfterPublication p pub e.2.posedMesh))) = true
  createsNew : pub.fullResync = false → ∀ c ∈ pub.creates, p.entries.contains c.item.object = false
  updatesKnown : pub.fullResync = false → ∀ u ∈ pub.updates, p.entries.contains u.object = true
  meshCreatesNew : pub.fullResync = false → ∀ c ∈ pub.meshCreates, p.meshes.contains c.mesh = false
  meshUpdatesKnown : pub.fullResync = false → ∀ u ∈ pub.meshVertexUpdates, p.meshes.contains u.mesh = true
  textureCreatesNew : pub.fullResync = false → ∀ c ∈ pub.textureCreates, p.textures.contains c.texture = false
  textureUpdatesKnown : pub.fullResync = false → ∀ u ∈ pub.textureUpdates, p.textures.contains u.texture = true

theorem contains_of_any {κ ν : Type} [LinearOrder κ] {m : SortedMap κ ν} {k : κ} {test : ν → Bool}
    (known : (m.find? k).any test) : m.contains k := by
  cases found : m.find? k with
  | none =>
    rw [found] at known
    cases known
  | some value => exact contains_iff.mpr ⟨value,found⟩

theorem accepted_of (accepted : refusal p pub = none) : Accepted p pub := by
  have passed := findSome?_eq_none_iff.mp accepted
  simp only [forall_mem_append,identityChecks,operationChecks,textureChecks,poseChecks,meshChecks,staleChecks,
    forall_mem_cons,not_mem_nil,false_implies,implies_true,and_true,id_eq,require_eq_none] at passed
  obtain ⟨⟨⟨⟨⟨⟨_,_,_,complete,_⟩,_,creates,updates,_,meshCreates,meshUpdates,_,textureCreates,
    textureUpdates⟩,sky,createdTextures,updatedTextures,keptTextures,ui⟩,_,poseUpdates,posesDistinct⟩,
    createdMeshes,updatedMeshes,keptMeshes,keptPoses⟩,_,createsNew,updatesKnown,_,meshCreatesNew,
    meshUpdatesKnown,_,textureCreatesNew,textureUpdatesKnown⟩ := passed
  have inc {ok : Bool} (passed : (pub.fullResync || ok)) (partly : pub.fullResync = false) : ok := by
    simpa [partly] using passed
  refine {
    complete := fun full => by simpa [full] using complete
    createsFresh := fun c member => ((checkEach_eq_none creates).1 c member).2
    updatesFresh := fun u member => ((checkEach_eq_none updates).1 u member).2
    updatesDistinct := (checkEach_eq_none updates).2
    meshCreatesFresh := fun c member => ((checkEach_eq_none meshCreates).1 c member).2
    meshCreatesDistinct := (checkEach_eq_none meshCreates).2
    meshUpdatesFresh := fun u member => ((checkEach_eq_none meshUpdates).1 u member).2
    meshUpdatesDistinct := (checkEach_eq_none meshUpdates).2
    textureCreatesFresh := fun c member => ((checkEach_eq_none textureCreates).1 c member).2
    textureUpdatesFresh := fun u member => ((checkEach_eq_none textureUpdates).1 u member).2
    textureUpdatesDistinct := (checkEach_eq_none textureUpdates).2
    sky := sky
    createdTextures := all_eq_true.mp createdTextures
    updatedTextures := all_eq_true.mp updatedTextures
    keptTextures := keptTextures
    ui := ui
    poseUpdates := findSome?_eq_none_iff.mp poseUpdates
    posesDistinct := of_decide_eq_true posesDistinct
    createdMeshes := fun c member => Bool.and_eq_true _ _ ▸ all_eq_true.mp createdMeshes c member
    updatedMeshes := fun u member => Bool.and_eq_true _ _ ▸ all_eq_true.mp updatedMeshes u member
    keptMeshes := keptMeshes
    keptPoses := keptPoses
    createsNew := fun partly c member => by simpa using all_eq_true.mp (inc createsNew partly) c member
    updatesKnown := fun partly u member => all_eq_true.mp (inc updatesKnown partly) u member
    meshCreatesNew := fun partly c member => by simpa using all_eq_true.mp (inc meshCreatesNew partly) c member
    meshUpdatesKnown := fun partly u member =>
      contains_of_any (all_eq_true.mp (inc meshUpdatesKnown partly) u member)
    textureCreatesNew := fun partly c member => by simpa using all_eq_true.mp (inc textureCreatesNew partly) c member
    textureUpdatesKnown := fun partly u member =>
      contains_of_any (all_eq_true.mp (inc textureUpdatesKnown partly) u member) }

/-! ### What is there afterwards -/

theorem not_full_of_mem {α : Type} {items : List α} {x : α} (member : x ∈ items)
    (empty : pub.fullResync → items = []) : pub.fullResync = false := by
  rw [Bool.eq_false_iff]
  intro full
  rw [empty full] at member
  exact not_mem_nil member

theorem Accepted.empty (accepted : Accepted p pub) (full : pub.fullResync) : pub.updates = [] ∧ pub.removes = [] ∧
    pub.meshVertexUpdates = [] ∧ pub.meshRemoves = [] ∧ pub.animationPoseRemoves = [] ∧ pub.textureUpdates = [] ∧
    pub.textureRemoves = [] := by
  have complete := accepted.complete full
  unfold isCompleteCreateState at complete
  simpa [and_assoc] using complete

theorem cleared_full (full : pub.fullResync) : (cleared p pub).entries = ∅ ∧ (cleared p pub).meshes = ∅ ∧
    (cleared p pub).textures = ∅ ∧ (cleared p pub).animationPoses = ∅ := by
  unfold cleared
  rw [if_pos full]
  exact ⟨rfl,rfl,rfl,rfl⟩

theorem cleared_partly (partly : pub.fullResync = false) : cleared p pub = p := by
  unfold cleared
  rw [if_neg (by simp [partly])]

section
variable (accepted : Accepted p pub)
include accepted

theorem Accepted.entries :
    SortedMap.Disjoint (cleared p pub).entries pub.removes (fun c => c.item.object) pub.creates RenderObjectUpdate.object
      pub.updates := by
  refine ⟨accepted.createsFresh,?_,accepted.updatesFresh,?_,accepted.updatesDistinct⟩
  · intro c member
    cases full : pub.fullResync with
    | true =>
      rw [(cleared_full full).1]
      rfl
    | false =>
      rw [cleared_partly full]
      exact accepted.createsNew full c member
  · intro u member
    have partly := not_full_of_mem member fun full => (accepted.empty full).1
    rw [cleared_partly partly]
    exact accepted.updatesKnown partly u member

theorem Accepted.meshes :
    SortedMap.Disjoint (cleared p pub).meshes pub.meshRemoves RenderMeshCreate.mesh pub.meshCreates
      RenderMeshVertexUpdate.mesh pub.meshVertexUpdates := by
  refine ⟨accepted.meshCreatesFresh,?_,accepted.meshUpdatesFresh,?_,accepted.meshUpdatesDistinct⟩
  · intro c member
    cases full : pub.fullResync with
    | true =>
      rw [(cleared_full full).2.1]
      rfl
    | false =>
      rw [cleared_partly full]
      exact accepted.meshCreatesNew full c member
  · intro u member
    have partly := not_full_of_mem member fun full => (accepted.empty full).2.2.1
    rw [cleared_partly partly]
    exact accepted.meshUpdatesKnown partly u member

theorem Accepted.textures :
    SortedMap.Disjoint (cleared p pub).textures pub.textureRemoves RenderTextureCreate.texture pub.textureCreates
      RenderTextureUpdate.texture pub.textureUpdates := by
  refine ⟨accepted.textureCreatesFresh,?_,accepted.textureUpdatesFresh,?_,accepted.textureUpdatesDistinct⟩
  · intro c member
    cases full : pub.fullResync with
    | true =>
      rw [(cleared_full full).2.2.1]
      rfl
    | false =>
      rw [cleared_partly full]
      exact accepted.textureCreatesNew full c member
  · intro u member
    have partly := not_full_of_mem member fun full => (accepted.empty full).2.2.2.2.2.1
    rw [cleared_partly partly]
    exact accepted.textureUpdatesKnown partly u member

end

def applied (p : RenderProjection V) (pub : RenderPublication V) : RenderProjection V :=
  { entries := (changedEntries p pub).2, meshes := (changedMeshes p pub).2, textures := (changedTextures p pub).2
    animationPoses := assignedPoses p pub, lastPublicationId := pub.id, frame := some pub.frame
    ui := if hasUiUpdate pub then publishedUi pub else p.ui }

theorem apply_of_accepted (none : refusal p pub = none) : apply p pub = (.ok (),applied p pub) := by
  have accepted := accepted_of none
  have entries : (changedEntries p pub).1 := changeAll_done accepted.entries.present
  have meshes : (changedMeshes p pub).1 := changeAll_done accepted.meshes.present
  have textures : (changedTextures p pub).1 := changeAll_done accepted.textures.present
  unfold apply commit
  rw [none]
  rw [entries,meshes,textures]
  rfl

theorem apply_of_refused (refused : refusal p pub = some failure) : apply p pub = (.error failure,p) := by
  unfold apply
  rw [refused]

section
variable (accepted : Accepted p pub)
include accepted

theorem find?_entries (object : ObjectId) :
    (applied p pub).entries.find? object =
      match pub.creates.find? fun c => decide (c.item.object = object) with
      | some c => some c
      | none =>
        match pub.updates.find? fun u => decide (u.object = object) with
        | some u => some u.toRenderProjectedObject
        | none => if object ∈ pub.removes ∨ pub.fullResync = true then none else p.entries.find? object := by
  refine (accepted.entries.find? id (fun u _ => u.toRenderProjectedObject) object).trans ?_
  cases created : pub.creates.find? fun c => decide (c.item.object = object) with
  | some c => rfl
  | none =>
    cases updated : pub.updates.find? fun u => decide (u.object = object) with
    | some u =>
      have member := mem_of_find?_eq_some updated
      have here : u.object = object := by simpa using find?_some updated
      have kept : object ∉ pub.removes := by
        rw [← here]
        exact fun erased => accepted.updatesFresh u member (mem_append_left _ erased)
      obtain ⟨old,found⟩ := contains_iff.mp (accepted.entries.known u member)
      rw [here] at found
      rw [if_neg kept,found]
      rfl
    | none =>
      rw [Option.map_id']
      by_cases erased : object ∈ pub.removes
      · rw [if_pos erased,if_pos (.inl erased)]
      · cases full : pub.fullResync with
        | true =>
          rw [if_neg erased,if_pos (.inr rfl),(cleared_full full).1]
          rfl
        | false =>
          rw [if_neg erased,if_neg (by simp [erased]),cleared_partly full]

theorem find?_meshes (mesh : RenderMeshIdentity) : ((pub.meshCreates.find? fun c => decide (c.mesh = mesh)) = none ∧
      ((mesh ∈ pub.meshRemoves ∨ pub.fullResync) ∧ (applied p pub).meshes.find? mesh = none ∨
        (mesh ∉ pub.meshRemoves ∧ pub.fullResync = false) ∧ ∃ change : MeshEntry V → MeshEntry V,
          (∀ e, (change e).indexCount = e.indexCount ∧ (change e).skinInfluences = e.skinInfluences ∧
            (change e).skeleton = e.skeleton ∧ (change e).skeletonJointCount = e.skeletonJointCount) ∧
          (applied p pub).meshes.find? mesh = (p.meshes.find? mesh).map change)) ∨
    ∃ c, (pub.meshCreates.find? fun c => decide (c.mesh = mesh)) = some c ∧
      (applied p pub).meshes.find? mesh = some (meshEntryOf c) := by
  have found : (applied p pub).meshes.find? mesh = _ := accepted.meshes.find? meshEntryOf
    (fun u known => { known with vertexRevision := u.vertexRevision, bounds := u.bounds }) mesh
  cases created : pub.meshCreates.find? fun c => decide (c.mesh = mesh) with
  | some c =>
    rw [created] at found
    exact .inr ⟨c,rfl,found⟩
  | none =>
    rw [created] at found
    refine .inl ⟨rfl,?_⟩
    by_cases erased : mesh ∈ pub.meshRemoves
    · rw [if_pos erased] at found
      exact .inl ⟨.inl erased,found⟩
    · rw [if_neg erased] at found
      cases full : pub.fullResync with
      | true =>
        rw [(cleared_full full).2.1] at found
        exact .inl ⟨.inr rfl,found⟩
      | false =>
        rw [cleared_partly full] at found
        refine .inr ⟨⟨erased,rfl⟩,_,fun e => ?_,found⟩
        split
        · exact ⟨rfl,rfl,rfl,rfl⟩
        · exact ⟨rfl,rfl,rfl,rfl⟩

theorem find?_textures (texture : RenderTextureIdentity) :
    ((pub.textureCreates.find? fun c => decide (c.texture = texture)) = none ∧
      ((texture ∈ pub.textureRemoves ∨ pub.fullResync) ∧ (applied p pub).textures.find? texture = none ∨
        (texture ∉ pub.textureRemoves ∧ pub.fullResync = false) ∧ ∃ change : TextureEntry → TextureEntry,
          (∀ e, (change e).width = e.width ∧ (change e).height = e.height) ∧
          (applied p pub).textures.find? texture = (p.textures.find? texture).map change)) ∨
    ∃ c, (pub.textureCreates.find? fun c => decide (c.texture = texture)) = some c ∧
      (applied p pub).textures.find? texture = some (textureEntryOf c) := by
  have found : (applied p pub).textures.find? texture = _ :=
    accepted.textures.find? textureEntryOf (fun u known => { known with revision := u.revision }) texture
  cases created : pub.textureCreates.find? fun c => decide (c.texture = texture) with
  | some c =>
    rw [created] at found
    exact .inr ⟨c,rfl,found⟩
  | none =>
    rw [created] at found
    refine .inl ⟨rfl,?_⟩
    by_cases erased : texture ∈ pub.textureRemoves
    · rw [if_pos erased] at found
      exact .inl ⟨.inl erased,found⟩
    · rw [if_neg erased] at found
      cases full : pub.fullResync with
      | true =>
        rw [(cleared_full full).2.2.1] at found
        exact .inl ⟨.inr rfl,found⟩
      | false =>
        rw [cleared_partly full] at found
        refine .inr ⟨⟨erased,rfl⟩,_,fun e => ?_,found⟩
        split
        · exact ⟨rfl,rfl⟩
        · exact ⟨rfl,rfl⟩

theorem find?_poses (object : ObjectId) :
    (applied p pub).animationPoses.find? object =
      match pub.animationPoseUpdates.find? fun u => decide (u.object = object) with
      | some u => some u
      | none =>
        if object ∈ pub.animationPoseRemoves ∨ pub.fullResync = true then none else p.animationPoses.find? object := by
  have distinct := (nodup_append.mp accepted.posesDistinct).2.1
  refine (find?_assignAll distinct _ object).trans ?_
  rw [find?_eraseAll]
  cases pub.animationPoseUpdates.find? fun u => decide (u.object = object) with
  | some u => rfl
  | none =>
    rw [Option.map_none,Option.none_or]
    by_cases erased : object ∈ pub.animationPoseRemoves
    · rw [if_pos erased,if_pos (.inl erased)]
    · cases full : pub.fullResync with
      | true =>
        rw [if_neg erased,if_pos (.inr rfl),(cleared_full full).2.2.2]
        rfl
      | false => rw [if_neg erased,if_neg (by simp [erased]),cleared_partly full]

end

theorem contains_texture (accepted : Accepted p pub) {t : RenderTextureIdentity}
    (stays : textureExistsAfterPublication p pub t) : (applied p pub).textures.contains t := by
  unfold textureExistsAfterPublication at stays
  rcases find?_textures accepted t with ⟨none,away | ⟨_,change,_,found⟩⟩ | ⟨c,_,found⟩
  · have absent : (pub.textureCreates.any fun c => decide (c.texture = t)) = false := by
      rw [any_eq_false]
      exact find?_eq_none.mp none
    rw [absent] at stays
    rcases away.1 with removed | full
    · simp [removed] at stays
    · simp [full] at stays
  · have absent : (pub.textureCreates.any fun c => decide (c.texture = t)) = false := by
      rw [any_eq_false]
      exact find?_eq_none.mp none
    have known : p.textures.contains t := by
      simp only [absent,Bool.false_or,Bool.and_eq_true] at stays
      exact stays.1.2
    obtain ⟨e,here⟩ := contains_iff.mp known
    rw [here] at found
    exact contains_iff.mpr ⟨_,found⟩
  · exact contains_iff.mpr ⟨_,found⟩

theorem objectTexturesExist_iff :
    objectTexturesExist p pub o ↔ ∀ t ∈ o.textures, textureExistsAfterPublication p pub t := by
  have material (m : RenderMaterialState V) :
      materialTexturesExist p pub m = true ↔ ∀ t ∈ m.textures, textureExistsAfterPublication p pub t = true := by
    unfold materialTexturesExist RenderMaterialState.textures
    cases m.baseColorTexture <;> cases m.normalTexture <;> simp
  unfold objectTexturesExist RenderProjectedObject.textures
  rw [Bool.and_eq_true,material,forall_mem_append]
  refine and_congr_right fun _ => ?_
  cases o.primitives with
  | none => simp
  | some primitives =>
    rw [Option.all_some,all_eq_true]
    constructor
    · intro each t member
      obtain ⟨q,among,inside⟩ := mem_flatMap.mp member
      exact (material q.material).mp (each q among) t inside
    · intro each q among
      exact (material q.material).mpr fun t inside => each t (mem_flatMap.mpr ⟨q,among,inside⟩)

variable {mesh : RenderMeshIdentity}

section
variable (accepted : Accepted p pub)
include accepted

theorem mesh_after (stays : meshExistsAfterPublication p pub mesh) :
    ∃ e, (applied p pub).meshes.find? mesh = some e ∧ meshIndexCountAfterPublication p pub mesh = some e.indexCount ∧
      (∀ skeleton, skeletonAfterPublication p pub mesh = some skeleton →
        e.skinInfluences.isSome ∧ e.skeleton = skeleton) ∧
      skeletonJointCountAfterPublication p pub mesh = e.skeletonJointCount := by
  unfold meshExistsAfterPublication at stays
  unfold meshIndexCountAfterPublication skeletonAfterPublication skeletonJointCountAfterPublication
  rcases find?_meshes accepted mesh with ⟨none,away | ⟨⟨kept,partly⟩,change,same,found⟩⟩ | ⟨c,created,found⟩
  · have absent : (pub.meshCreates.any fun c => decide (c.mesh = mesh)) = false := by
      rw [any_eq_false]
      exact find?_eq_none.mp none
    rw [absent] at stays
    rcases away.1 with removed | full
    · simp [removed] at stays
    · simp [full] at stays
  · have absent : (pub.meshCreates.any fun c => decide (c.mesh = mesh)) = false := by
      rw [any_eq_false]
      exact find?_eq_none.mp none
    have known : p.meshes.contains mesh := by
      simp only [absent,Bool.false_or,Bool.and_eq_true] at stays
      exact stays.1.2
    obtain ⟨old,here⟩ := contains_iff.mp known
    rw [here] at found
    obtain ⟨count,influences,skeleton,joints⟩ := same old
    have skinned : (pub.meshCreates.find? fun c => decide (c.mesh = mesh) && c.skinInfluences.isSome) = .none := by
      rw [find?_eq_none] at none ⊢
      intro c member both
      exact none c member ((Bool.and_eq_true _ _).mp both).1
    refine ⟨change old,found,?_,?_,?_⟩
    · rw [none,here,count]
      simp [kept,partly]
    · intro identity
      rw [skinned,here,influences,skeleton]
      rw [if_neg (by simp [partly]),Option.bind_some]
      intro same
      split_ifs at same with both
      exact ⟨both,Option.some.inj same⟩
    · rw [none,here,joints]
      simp [partly]
  · refine ⟨meshEntryOf c,found,by rw [created]; rfl,?_,by rw [created]; rfl⟩
    have member := mem_of_find?_eq_some created
    have own : c.mesh = mesh := by simpa using find?_some created
    intro identity
    cases skinned : pub.meshCreates.find? fun c => decide (c.mesh = mesh) && c.skinInfluences.isSome with
    | some other =>
      intro same
      have among := mem_of_find?_eq_some skinned
      have both : other.mesh = mesh ∧ other.skinInfluences.isSome := by simpa using find?_some skinned
      have one : other = c := inj_on_of_nodup_map accepted.meshCreatesDistinct among member (both.1.trans own.symm)
      rw [← one]
      exact ⟨both.2,Option.some.inj same⟩
    | none =>
      intro same
      split_ifs at same with full
      have new := accepted.meshCreatesNew (by simpa using full) c member
      rw [own,SortedMap.contains,Option.isSome_eq_false_iff,Option.isNone_iff_eq_none] at new
      rw [new] at same
      cases same

theorem mesh_kept (partly : pub.fullResync = false) {old : MeshEntry V}
    (known : p.meshes.find? mesh = some old) (stays : mesh ∉ pub.meshRemoves) :
    ∃ e, (applied p pub).meshes.find? mesh = some e ∧ e.indexCount = old.indexCount ∧
      e.skinInfluences = old.skinInfluences ∧ e.skeleton = old.skeleton ∧
      e.skeletonJointCount = old.skeletonJointCount := by
  rcases find?_meshes accepted mesh with ⟨_,⟨removed | full,_⟩ | ⟨_,change,same,found⟩⟩ | ⟨c,created,_⟩
  · exact absurd removed stays
  · rw [partly] at full
    cases full
  · rw [known] at found
    exact ⟨change old,found,same old⟩
  · have member := mem_of_find?_eq_some created
    have own : c.mesh = mesh := by simpa using find?_some created
    have new := accepted.meshCreatesNew partly c member
    rw [own,SortedMap.contains,known] at new
    cases new

theorem object_closed (textures : objectTexturesExist p pub o)
    (mesh : o.mesh.all (meshExistsAfterPublication p pub)) (fits : primitiveRangesFit p pub o) :
    ObjectClosed (applied p pub) o := by
  refine ⟨?_,?_,?_⟩
  · intro m bound
    rw [bound] at mesh
    obtain ⟨e,found,_⟩ := mesh_after accepted mesh
    exact contains_iff.mpr ⟨e,found⟩
  · intro t member
    exact contains_texture accepted (objectTexturesExist_iff.mp textures t member)
  · intro primitives some
    unfold primitiveRangesFit at fits
    rw [some] at fits
    cases bound : o.mesh with
    | none =>
      rw [bound] at fits
      cases fits
    | some m =>
      rw [bound] at fits mesh
      obtain ⟨e,found,count,_⟩ := mesh_after accepted mesh
      dsimp only at fits
      rw [count] at fits
      refine ⟨m,e,rfl,found,fun q member => ?_⟩
      have range := all_eq_true.mp fits q member
      rw [Bool.and_eq_true] at range
      have first := of_decide_eq_true range.1
      have rest := of_decide_eq_true range.2
      omega

end

section
variable (accepted : Accepted p pub)
include accepted

theorem mesh_stays (partly : pub.fullResync = false) {rest : Bool}
    (kept : (pub.fullResync || pub.meshRemoves.isEmpty || rest))
    (each : rest → meshExistsAfterPublication p pub mesh) : mesh ∉ pub.meshRemoves := by
  rw [Bool.or_eq_true,Bool.or_eq_true,partly] at kept
  rcases kept with (full | none) | checked
  · cases full
  · rw [isEmpty_iff.mp none]
    exact not_mem_nil
  · intro removed
    have exists_ := each checked
    unfold meshExistsAfterPublication at exists_
    rw [Bool.or_eq_true] at exists_
    rcases exists_ with created | old
    · obtain ⟨c,member,same⟩ := any_eq_true.mp created
      exact accepted.meshCreatesFresh c member (by rw [of_decide_eq_true same]; exact removed)
    · simp [removed] at old

theorem object_kept (closed : Closed p) (partly : pub.fullResync = false)
    (known : p.entries.find? object = some o) (untouched : object ∉ touchedObjects pub) :
    ObjectClosed (applied p pub) o := by
  have before := closed.objects object o known
  have among := find?_eq_some.mp known
  have textures : objectTexturesExist p pub o := by
    have kept := accepted.keptTextures
    rw [Bool.or_eq_true,Bool.or_eq_true,partly] at kept
    rcases kept with (full | none) | each
    · cases full
    · refine objectTexturesExist_iff.mpr fun t member => ?_
      unfold textureExistsAfterPublication
      rw [partly,before.textures t member,isEmpty_iff.mp none]
      simp
    · have checked := all_eq_true.mp each _ among
      simpa [untouched] using checked
  have stays (m : RenderMeshIdentity) (bound : o.mesh = some m) : m ∉ pub.meshRemoves := by
    refine mesh_stays accepted partly accepted.keptMeshes fun each => ?_
    have checked := all_eq_true.mp each _ among
    simpa [untouched,bound] using checked
  refine ⟨?_,fun t member => contains_texture accepted (objectTexturesExist_iff.mp textures t member),?_⟩
  · intro m bound
    obtain ⟨old,found⟩ := contains_iff.mp (before.mesh m bound)
    obtain ⟨e,after,_⟩ := mesh_kept accepted partly found (stays m bound)
    exact contains_iff.mpr ⟨e,after⟩
  · intro primitives some
    obtain ⟨m,old,bound,found,ranges⟩ := before.ranges primitives some
    obtain ⟨e,after,count,_⟩ := mesh_kept accepted partly found (stays m bound)
    refine ⟨m,e,bound,after,fun q member => ?_⟩
    rw [count]
    exact ranges q member

theorem objects_closed (closed : Closed p) (object : ObjectId) (o : RenderProjectedObject V)
    (found : (applied p pub).entries.find? object = some o) : ObjectClosed (applied p pub) o := by
  rw [find?_entries accepted] at found
  cases created : pub.creates.find? fun c => decide (c.item.object = object) with
  | some c =>
    rw [created] at found
    have member := mem_of_find?_eq_some created
    obtain ⟨mesh,fits⟩ := accepted.createdMeshes c member
    rw [← Option.some.inj found]
    exact object_closed accepted (accepted.createdTextures c member) mesh fits
  | none =>
    rw [created] at found
    cases updated : pub.updates.find? fun u => decide (u.object = object) with
    | some u =>
      rw [updated] at found
      have member := mem_of_find?_eq_some updated
      obtain ⟨mesh,fits⟩ := accepted.updatedMeshes u member
      rw [← Option.some.inj found]
      exact object_closed accepted (accepted.updatedTextures u member) mesh fits
    | none =>
      rw [updated] at found
      split_ifs at found with gone
      rw [not_or,Bool.not_eq_true] at gone
      refine object_kept accepted closed gone.2 found ?_
      unfold touchedObjects
      rw [mem_append,mem_append,not_or,not_or]
      refine ⟨⟨gone.1,?_⟩,?_⟩
      · intro member
        obtain ⟨c,among,same⟩ := mem_map.mp member
        exact find?_eq_none.mp created c among (decide_eq_true same)
      · intro member
        obtain ⟨u,among,same⟩ := mem_map.mp member
        exact find?_eq_none.mp updated u among (decide_eq_true same)

theorem objectMesh_after (bound : objectMeshAfterPublication p pub object = some mesh) :
    ∃ o, (applied p pub).entries.find? object = some o ∧ o.mesh = some mesh := by
  rw [find?_entries accepted]
  unfold objectMeshAfterPublication at bound
  cases created : pub.creates.find? fun c => decide (c.item.object = object) with
  | some c =>
    rw [created] at bound
    exact ⟨c,rfl,bound⟩
  | none =>
    rw [created] at bound
    cases updated : pub.updates.find? fun u => decide (u.object = object) with
    | some u =>
      rw [updated] at bound
      exact ⟨u.toRenderProjectedObject,rfl,bound⟩
    | none =>
      rw [updated] at bound
      split_ifs at bound ⊢
      exact Option.bind_eq_some_iff.mp bound

theorem pose_closed {u : RenderAnimationPoseUpdate V} (checked : checkPose p pub u = none) :
    PoseClosed (applied p pub) u.object u := by
  obtain ⟨coherent,checked⟩ := Option.or_eq_none_iff.mp checked
  obtain ⟨binding,_⟩ := Option.or_eq_none_iff.mp checked
  rw [require_eq_none] at coherent
  unfold isCoherentPose at coherent
  simp only [Bool.and_eq_true,decide_eq_true_eq,beq_iff_eq] at coherent
  obtain ⟨⟨⟨_,stays⟩,skeleton⟩,joints⟩ := coherent
  obtain ⟨e,found,_,skinned,count⟩ := mesh_after accepted stays
  obtain ⟨influences,same⟩ := skinned _ skeleton
  refine ⟨objectMesh_after accepted ?_,e,found,influences,same,count.symm.trans joints⟩
  unfold RenderAnimationPoseUpdate.boundMesh
  cases mode : u.mode with
  | gpuPalette =>
    rw [mode] at binding
    simp only [require_eq_none,Bool.and_eq_true,decide_eq_true_eq] at binding
    exact binding.2
  | cpuFallback =>
    rw [mode] at binding
    simp only [require_eq_none,Bool.and_eq_true,decide_eq_true_eq] at binding
    exact binding.2

theorem pose_kept (closed : Closed p) (partly : pub.fullResync = false)
    (keeps : KeepsPoses p pub) {pose : RenderAnimationPoseUpdate V}
    (known : p.animationPoses.find? object = some pose) (untouched : object ∉ touchedPoses pub) :
    PoseClosed (applied p pub) object pose := by
  have before := closed.poses object pose known
  have among := find?_eq_some.mp known
  obtain ⟨kept,updates⟩ := (keeps _ among).resolve_left untouched
  obtain ⟨o,here,bound⟩ := before.bound
  constructor
  · rw [find?_entries accepted]
    have none : (pub.creates.find? fun c => decide (c.item.object = object)) = none := by
      rw [find?_eq_none]
      intro c member same
      have new := accepted.createsNew partly c member
      rw [of_decide_eq_true same,SortedMap.contains,here] at new
      cases new
    rw [none]
    cases updated : pub.updates.find? fun u => decide (u.object = object) with
    | some u =>
      exact ⟨u.toRenderProjectedObject,rfl,
        updates u (mem_of_find?_eq_some updated) (by simpa using find?_some updated)⟩
    | none =>
      rw [if_neg (by simp [kept,partly])]
      exact ⟨o,here,bound⟩
  · obtain ⟨old,found,influences,skeleton,joints⟩ := before.source
    have stays : pose.sourceMesh ∉ pub.meshRemoves := by
      refine mesh_stays accepted partly accepted.keptPoses fun each => ?_
      have checked := all_eq_true.mp each _ among
      rw [Bool.or_eq_true,Bool.and_eq_true] at checked
      exact (checked.resolve_left (by simp [untouched])).1
    obtain ⟨e,after,_,influences',skeleton',joints'⟩ := mesh_kept accepted partly found stays
    exact ⟨e,after,by rw [influences',influences],by rw [skeleton',skeleton],by rw [joints',joints]⟩

theorem sky_closed {sky : RenderSkyState} (some : pub.frame.sky = some sky)
    {face : RenderSkyFaceState} (member : face ∈ sky.faces) : ∃ e, (applied p pub).textures.find? face.texture = .some e ∧
      e.width = sky.faceDimension ∧ e.height = sky.faceDimension := by
  have checked := accepted.sky
  rw [some] at checked
  have matched := all_eq_true.mp checked face member
  unfold textureMatchesSkyFace at matched
  rcases find?_textures accepted face.texture with
    ⟨none,away | ⟨⟨kept,partly⟩,change,same,found⟩⟩ | ⟨c,created,found⟩
  · rw [none] at matched
    rw [if_pos (by rcases away.1 with removed | full <;> simp [*])] at matched
    cases matched
  · rw [none] at matched
    rw [if_neg (by simp [kept,partly])] at matched
    cases here : p.textures.find? face.texture with
    | none =>
      rw [here] at matched
      cases matched
    | some old =>
      rw [here] at matched found
      dsimp only at matched
      split_ifs at matched with other
      rw [Bool.or_eq_true,not_or] at other
      exact ⟨change old,found,(same old).1.trans (by simpa using other.1),(same old).2.trans (by simpa using other.2)⟩
  · rw [created] at matched
    simp only [Bool.and_eq_true,beq_iff_eq] at matched
    exact ⟨_,found,matched.1.2,matched.2⟩

theorem ui_closed (closed : Closed p) (keeps : pub.fullResync ∨ KeepsUi p pub)
    (b : RenderUiBatch V) (member : b ∈ (applied p pub).ui.batches) (t : RenderTextureIdentity)
    (drawn : b.texture = some t) : (applied p pub).textures.contains t := by
  have batches : (applied p pub).ui = if hasUiUpdate pub then publishedUi pub else p.ui := rfl
  rw [batches] at member
  by_cases update : hasUiUpdate pub = true
  · rw [if_pos update] at member
    have checked := accepted.ui
    unfold checkUi at checked
    have inhabited : isEmptyUi (publishedUi pub) = false := by
      rw [Bool.eq_false_iff]
      intro empty
      unfold isEmptyUi at empty
      rw [Bool.and_eq_true] at empty
      rw [isEmpty_iff.mp empty.2] at member
      exact not_mem_nil member
    dsimp only at checked
    rw [update,inhabited] at checked
    obtain ⟨_,each⟩ := Option.or_eq_none_iff.mp checked
    have passed := findSome?_eq_none_iff.mp each b member
    have first := require_eq_none.mp (Option.or_eq_none_iff.mp passed).1
    rw [drawn,Option.all_some,Bool.and_eq_true,Bool.and_eq_true] at first
    exact contains_texture accepted first.1.2
  · rw [if_neg update] at member
    have partly : pub.fullResync = false := by
      rw [Bool.eq_false_iff]
      intro full
      exact update (by simp [hasUiUpdate,full])
    have stays : t ∉ pub.textureRemoves :=
      ((keeps.resolve_left (by simp [partly])).resolve_left update) b member t drawn
    refine contains_texture accepted ?_
    unfold textureExistsAfterPublication
    rw [partly,closed.ui b member t drawn]
    simp [stays]

end

theorem applied_closed (none : refusal p pub = none) (admissible : Admissible p pub) (closed : Closed p) :
    Closed (applied p pub) := by
  have accepted := accepted_of none
  have keeps := admissible.resolve_left (not_not.mpr none)
  refine ⟨objects_closed accepted closed,?_,?_,ui_closed accepted closed (keeps.imp_right And.right)⟩
  · intro object pose found
    rw [find?_poses accepted] at found
    cases updated : pub.animationPoseUpdates.find? fun u => decide (u.object = object) with
    | some u =>
      rw [updated] at found
      have own : u.object = object := by simpa using find?_some updated
      rw [← Option.some.inj found,← own]
      exact pose_closed accepted (accepted.poseUpdates u (mem_of_find?_eq_some updated))
    | none =>
      rw [updated] at found
      split_ifs at found with gone
      rw [not_or,Bool.not_eq_true] at gone
      refine pose_kept accepted closed gone.2 (keeps.resolve_left (by simp [gone.2])).1 found ?_
      unfold touchedPoses
      rw [mem_append,not_or]
      refine ⟨gone.1,fun member => ?_⟩
      obtain ⟨u,among,same⟩ := mem_map.mp member
      exact find?_eq_none.mp updated u among (decide_eq_true same)
  · intro frame sky framed some face member
    cases framed
    exact sky_closed accepted some member

theorem apply_error (failed : ∃ failure, (apply p pub).1 = .error failure) : (apply p pub).2 = p := by
  cases result : refusal p pub with
  | some failure => rw [apply_of_refused result]
  | none =>
    obtain ⟨failure,failed⟩ := failed
    rw [apply_of_accepted result] at failed
    cases failed

end

theorem closed_new : Closed ({} : RenderProjection V) := by
  refine ⟨?_,?_,?_,?_⟩
  · intro object o found
    cases found
  · intro object pose found
    cases found
  · intro frame sky framed
    cases framed
  · intro b member
    cases member

/-- One value of each kind, all of which pass. -/
def plainValues : RenderValues where
  Placement := Unit
  isFinitePlacement _ := true
  Surface := Unit
  isValidSurface _ := true
  Optics := Unit
  isValidOptics _ := true
  Vertex := Unit
  isFiniteVertex _ := true
  Bounds := Unit
  isValidBounds _ := true
  Weights := Unit
  areWeights _ := true
  areNormalized _ := true
  PaletteEntry := Unit
  isFinitePaletteEntry _ := true
  Scale := Unit
  isPositiveScale _ := true
  Opacity := Unit
  isUnitOpacity _ := true
  Clip := Unit
  isValidClip _ := true
  UiVertex := Unit
  isFiniteUiVertex _ := true

def plainFrame : RenderFrameState plainValues := { viewportWidth := 8, viewportHeight := 8, optics := () }

def riggedObject : ObjectId := ⟨1,1⟩
def riggedMesh : RenderMeshIdentity := ⟨1,1⟩
def rig : RenderSkeletonIdentity := List.replicate 32 1

def posedResync : RenderPublication plainValues where
  id := 1
  fullResync := true
  frame := plainFrame
  creates := [{ item := ⟨riggedObject,()⟩, mesh := some riggedMesh, material := { surface := () } }]
  meshCreates := [
    { mesh := riggedMesh, topologyRevision := 1, vertexRevision := 1, vertices := some [()], indices := some [0,0,0]
      bounds := (), skinInfluences := some [⟨[0,0,0,0],()⟩], skeleton := rig, skeletonJointCount := 1 }]
  animationPoseUpdates := [
    { object := riggedObject, sourceMesh := riggedMesh, poseRevision := 1, palette := ⟨rig,some [()]⟩ }]

def objectRemoval (withPose : Bool) : RenderPublication plainValues where
  id := 2
  baseId := 1
  frame := plainFrame
  removes := [riggedObject]
  animationPoseRemoves := if withPose then [riggedObject] else []

end Gargantuan.RenderProjection
