import Gargantuan.AssetResidency

/-!
What becomes of the changes that the asset service queues. As long as no identity is
created that is still to be removed by the same changes, or that another asset holds, the
publisher accepts every drained set, and has afterwards what the service holds resident.
-/
namespace Gargantuan.AssetResidency
open List TextureResidency RenderIdentity RenderTextureUpdate AssetService
open Function (update update_of_ne update_self update_idem)

theorem copyN_prefix {source pixels : List UInt8} {k n : Nat} (within : k + n ≤ source.length) :
    copyN source k n (source.take k ++ pixels.drop k) k = source.take (k + n) ++ pixels.drop (k + n) := by
  have length : (source.take k).length = k := by
    rw [length_take]
    omega
  have short : (source.take k).length ≤ k + n := by
    omega
  unfold copyN
  rw [take_left' length,take_add,drop_append,length,drop_eq_nil_of_le short,drop_drop,
    nil_append]
  congr 2
  omega

theorem copyRows_whole {u : RenderTextureUpdate} {pixels : List UInt8} (x : u.x = 0) (y : u.y = 0)
    (new : u.pixels.length = u.width * u.height * 4) (old : pixels.length = u.width * u.height * 4) :
    copyRows u u.width pixels = u.pixels := by
  have rows (n : Nat) (within : n ≤ u.height) :
      (range n).foldl
        (fun pixels row => copyN u.pixels (row * u.width * 4) (u.width * 4) pixels (((u.y + row) * u.width + u.x) * 4))
        pixels = u.pixels.take (n * u.width * 4) ++ pixels.drop (n * u.width * 4) := by
    induction n with
    | zero => simp
    | succ n ih =>
      have next : (n + 1) * u.width * 4 = n * u.width * 4 + u.width * 4 := by
        rw [Nat.succ_mul,Nat.add_mul]
      have fits : (n + 1) * u.width * 4 ≤ u.pixels.length := by
        rw [new,Nat.mul_comm u.width]
        exact Nat.mul_le_mul_right 4 (Nat.mul_le_mul_right u.width within)
      rw [range_succ,foldl_append,ih (Nat.le_of_succ_le within),next]
      simp only [foldl_cons,foldl_nil,x,y,Nat.zero_add,Nat.add_zero]
      exact copyN_prefix (next ▸ fits)
  rw [Nat.mul_comm u.width] at new old
  unfold copyRows
  rw [rows u.height (Nat.le_refl _),take_of_length_le (Nat.le_of_eq new),drop_eq_nil_of_le (Nat.le_of_eq old),
    append_nil]

section
variable {p z : PublishedTextures} {c : AssetTextureChanges}

theorem setUiTextureChanges_iff : setUiTextureChanges p c = .ok z ↔
    ∃ x y, c.creates.foldlM (alter RenderTextureCreate.texture createTexture) p = .ok x ∧
      c.updates.foldlM (alter texture updateTexture) x = .ok y ∧
      c.removes.foldlM (alter id eraseTexture) y = .ok z := by
  unfold setUiTextureChanges
  cases created : c.creates.foldlM (alter RenderTextureCreate.texture createTexture) p with
  | error e =>
    constructor
    · intro accepted
      cases accepted
    · rintro ⟨x,y,found,-⟩
      cases found
  | ok x =>
    change (_ >>= c.removes.foldlM (alter id eraseTexture)) = .ok z ↔ _
    cases updated : c.updates.foldlM (alter texture updateTexture) x with
    | error e =>
      constructor
      · intro accepted
        cases accepted
      · rintro ⟨x,y,⟨⟩,found,-⟩
        rw [updated] at found
        cases found
    | ok y =>
      constructor
      · intro accepted
        exact ⟨x,y,rfl,updated,accepted⟩
      · rintro ⟨x,y,⟨⟩,found,erased⟩
        rw [updated] at found
        cases found
        exact erased

variable {e v : Option PublishedTexture} {u : RenderTextureUpdate}

theorem updateTexture_present (made : updateTexture u e = .ok v) : v ≠ none := by
  unfold updateTexture at made
  split at made
  · cases made
  · split_ifs at made
    cases made
    exact nofun

variable {i : RenderIdentity}

theorem eraseTexture_absent (made : eraseTexture i e = .ok v) : v = none := by
  unfold eraseTexture at made
  split_ifs at made
  cases made
  rfl

variable (accepted : setUiTextureChanges p c = .ok z)
include accepted

theorem setUiTextureChanges_create {r : RenderTextureCreate}
    (made : createTexture r none = .ok (some r.published)) (free : r.texture ∉ c.removes) (new : z r.texture = none) :
    setUiTextureChanges p { c with creates := c.creates ++ [r] } = .ok (update z r.texture (some r.published)) := by
  obtain ⟨x,y,created,updated,erased⟩ := setUiTextureChanges_iff.mp accepted
  rw [← map_id c.removes] at free
  have before : y r.texture = none := (foldlM_frame erased free).symm.trans new
  have untouched : r.texture ∉ c.updates.map texture := by
    intro touched
    exact foldlM_after updateTexture_present updated touched before
  have first : x r.texture = none := (foldlM_frame updated untouched).symm.trans before
  rw [← first] at made
  exact setUiTextureChanges_iff.mpr ⟨_,_,foldlM_concat created made,foldlM_put updated untouched _,
    foldlM_put erased free _⟩

theorem setUiTextureChanges_update {e e' : PublishedTexture}
    (held : z u.texture = some e)
    (made : updateTexture u (some e) = .ok (some e')) :
    setUiTextureChanges p { c with updates := c.updates ++ [u] } = .ok (update z u.texture (some e')) := by
  obtain ⟨x,y,created,updated,erased⟩ := setUiTextureChanges_iff.mp accepted
  have kept : u.texture ∉ c.removes.map id := by
    intro touched
    have gone := foldlM_after eraseTexture_absent erased touched
    rw [held] at gone
    cases gone
  rw [← (foldlM_frame erased kept).symm.trans held] at made
  exact setUiTextureChanges_iff.mpr ⟨_,_,created,foldlM_concat updated made,foldlM_put erased kept _⟩

theorem setUiTextureChanges_remove {e : PublishedTexture}
    (held : z i = some e) : setUiTextureChanges p { c with removes := c.removes ++ [i] } = .ok (update z i none) := by
  obtain ⟨x,y,created,updated,erased⟩ := setUiTextureChanges_iff.mp accepted
  refine setUiTextureChanges_iff.mpr ⟨x,y,created,updated,foldlM_concat erased ?_⟩
  rw [id_eq,held]
  rfl

end

section
variable {D : Type} {p z : PublishedAssetMeshes D} {c : AssetMeshChanges D} {i : RenderIdentity}

variable {e v : Option (PublishedAssetMesh D)}

theorem createMesh_fresh {r : RenderMeshCreate D} (made : createMesh r e = .ok v) : e = none ∧ v ≠ none := by
  unfold createMesh at made
  split_ifs at made with refused
  cases defect : r.defect with
  | some message =>
    rw [defect] at made
    cases made
  | none =>
    rw [defect] at made
    cases made
    simp only [Bool.or_eq_true,not_or,Bool.not_eq_true,Option.isSome_eq_false_iff,Option.isNone_iff_eq_none] at refused
    exact ⟨refused.2,nofun⟩

theorem eraseMesh_absent (made : eraseMesh i e = .ok v) : v = none := by
  unfold eraseMesh at made
  split_ifs at made
  cases made
  rfl

theorem setAssetMeshChanges_iff : setAssetMeshChanges p c = .ok z ↔
    ∃ x, c.removes.foldlM (alter id eraseMesh) p = .ok x ∧
      c.creates.foldlM (alter RenderMeshCreate.mesh createMesh) x = .ok z := by
  unfold setAssetMeshChanges
  cases erased : c.removes.foldlM (alter id eraseMesh) p with
  | error e =>
    constructor
    · intro accepted
      cases accepted
    · rintro ⟨x,found,-⟩
      cases found
  | ok x =>
    constructor
    · intro accepted
      exact ⟨x,rfl,accepted⟩
    · rintro ⟨x,⟨⟩,created⟩
      exact created

theorem setAssetMeshChanges_remove {e : PublishedAssetMesh D} (accepted : setAssetMeshChanges p c = .ok z)
    (valid : i.isValid) (held : z i = some e) :
    setAssetMeshChanges p (c.queueMeshRemoval i) = .ok (update z i none) := by
  obtain ⟨x,erased,created⟩ := setAssetMeshChanges_iff.mp accepted
  unfold AssetMeshChanges.queueMeshRemoval
  by_cases absent : x i = none
  · have queued : i ∈ c.creates.map RenderMeshCreate.mesh := by
      by_contra never
      have kept := foldlM_frame created never
      rw [held,absent] at kept
      cases kept
    obtain ⟨r,member,same⟩ := mem_map.mp queued
    have shorter := length_filter_lt_length_iff_exists (p := fun q : RenderMeshCreate D => q.mesh ≠ i).mpr
      ⟨r,member,by simp [same]⟩
    refine setAssetMeshChanges_iff.mpr ⟨x,?_,foldlM_filter createMesh_fresh created absent⟩
    dsimp only
    rwa [if_neg fun both => Nat.sub_ne_zero_of_lt shorter both.1]
  · have never : i ∉ c.creates.map RenderMeshCreate.mesh := by
      intro queued
      exact absent (foldlM_before (fun made => (createMesh_fresh made).1) created queued)
    have others : c.creates.filter (·.mesh ≠ i) = c.creates := by
      refine filter_eq_self.mpr fun r member => decide_eq_true fun same => never ?_
      rw [← same]
      exact mem_map_of_mem member
    have fresh : i ∉ c.removes := by
      intro member
      rw [← map_id c.removes] at member
      exact absent (foldlM_after eraseMesh_absent erased member)
    dsimp only
    rw [others,if_pos ⟨Nat.sub_self _,fresh⟩]
    refine setAssetMeshChanges_iff.mpr ⟨_,foldlM_concat erased ?_,foldlM_put created never none⟩
    unfold eraseMesh
    simp [valid,absent]

end

def TextureResidency.published (r : TextureResidency) : PublishedTexture := r.create.published

def MeshResidency.published {D : Type} (r : MeshResidency D) : PublishedAssetMesh D := r.create.published

structure TextureResidency.Sound (r : TextureResidency) : Prop where
  valid : r.identity.isValid
  pixels : r.pixels.length = r.width * r.height * 4

structure ImportedImage.Sound (image : ImportedImage) : Prop where
  width : 0 < image.width
  height : 0 < image.height
  pixels : image.rgba8.length = image.width * image.height * 4

/-- A mesh has indices into its vertices, and a skeleton if and only if they are skinned, as its encoder checks. -/
structure ImportedMesh.Sound {D : Type} (mesh : ImportedMesh D) : Prop where
  vertices : mesh.vertices ≠ []
  indices : mesh.indices ≠ []
  inRange : ∀ i ∈ mesh.indices, i < mesh.vertices.length
  skin : match mesh.skinInfluences, mesh.skeleton with
    | some influences, some skeleton => isValidSkeleton skeleton.compatibilityId ∧
      (∃ joints, skeleton.joints = some joints ∧ 0 < joints ∧ joints ≤ maximumRenderSkinPaletteEntries) ∧
      influences.length = mesh.vertices.length
    | none, none => True
    | _, _ => False

variable {image : ImportedImage}

section
variable {p : PublishedTextures} {c : AssetTextureChanges} {t : AssetId → Option TextureResidency} {a : AssetId}
  {r : TextureResidency}

def TexturesSettled (p : PublishedTextures) (c : AssetTextureChanges) (t : AssetId → Option TextureResidency) : Prop :=
  ∃ z, setUiTextureChanges p c = .ok z ∧ Shows TextureResidency.identity TextureResidency.published TextureResidency.Sound z t

variable (settled : TexturesSettled p c t)
include settled

theorem TexturesSettled.put (absent : t a = none) (sound : r.Sound)
    (revision : 0 < r.revision) (width : 0 < r.width) (height : 0 < r.height) (free : r.identity ∉ c.removes)
    (single : ∀ b q, t b = some q → q.identity ≠ r.identity) :
    TexturesSettled p { c with creates := c.creates ++ [r.create] } (update t a (some r)) := by
  obtain ⟨z,accepted,shows⟩ := settled
  have new : z r.identity = none := shows.absent single
  refine ⟨_,setUiTextureChanges_create accepted ?_ free new,shows.put absent new sound⟩
  unfold createTexture
  simp [create,sound.valid,sound.pixels,Nat.ne_of_gt revision,Nat.ne_of_gt width,Nat.ne_of_gt height]

theorem TexturesSettled.drop (holds : t a = some r) :
    TexturesSettled p { c with removes := c.removes ++ [r.identity] } (update t a none) := by
  obtain ⟨z,accepted,shows⟩ := settled
  exact ⟨_,setUiTextureChanges_remove accepted (shows.shown holds),shows.drop holds⟩

theorem TexturesSettled.replace {revision : Nat}
    (holds : t a = some r) (later : r.revision < revision) (width : r.width = image.width) (height : r.height = image.height)
    (pixels : image.rgba8.length = image.width * image.height * 4) :
    TexturesSettled p
      { c with updates := c.updates ++ [⟨r.identity,revision,0,0,image.width,image.height,image.rgba8⟩] }
      (update t a (some { r with revision, pixels := image.rgba8 })) := by
  obtain ⟨z,accepted,shows⟩ := settled
  obtain ⟨valid,old⟩ := shows.proper holds
  have sound : { r with revision, pixels := image.rgba8 : TextureResidency }.Sound := ⟨valid,by rw [pixels,width,height]⟩
  rw [width,height] at old
  have again := (shows.drop holds).put (r := { r with revision, pixels := image.rgba8 }) (update_self ..)
    (update_self ..) sound
  rw [update_idem,update_idem] at again
  refine ⟨_,setUiTextureChanges_update accepted (shows.shown holds) ?_,again⟩
  have whole : copyRows ⟨r.identity,revision,0,0,image.width,image.height,image.rgba8⟩ r.width r.pixels =
      image.rgba8 := by
    rw [width]
    exact copyRows_whole rfl rfl pixels old
  unfold updateTexture
  dsimp only
  rw [if_neg]
  · exact congrArg (fun pixels => Except.ok (some (⟨revision,r.width,r.height,pixels⟩ : PublishedTexture))) whole
  · simp [published,create,RenderTextureCreate.published,width,height,pixels,later]

end

section
variable {D : Type} {p : PublishedAssetMeshes D} {c : AssetMeshChanges D} {t : AssetId → Option (MeshResidency D)}
  {a : AssetId} {r : MeshResidency D}

theorem defect_none (sound : r.mesh.Sound) : r.create.defect = none := by
  have skin := sound.skin
  unfold RenderMeshCreate.defect MeshResidency.create
  rw [if_neg]
  · split at skin
    · next influences skeleton skinned bones =>
      obtain ⟨valid,⟨joints,found,some,few⟩,length⟩ := skin
      rw [skinned,bones]
      dsimp only
      simp [valid,found,length,few,Nat.ne_of_gt some]
    · next unskinned none =>
      rw [unskinned,none]
      simp [isValidSkeleton]
    · exact skin.elim
  · simp only [any_eq_true,decide_eq_true_eq,not_exists,not_and,Nat.not_le]
    exact sound.inRange

def MeshesSettled (p : PublishedAssetMeshes D) (c : AssetMeshChanges D) (t : AssetId → Option (MeshResidency D)) : Prop :=
  ∃ z, setAssetMeshChanges p c = .ok z ∧
    Shows MeshResidency.identity MeshResidency.published (fun r => r.identity.isValid) z t

theorem MeshesSettled.put (settled : MeshesSettled p c t) (absent : t a = none) (valid : r.identity.isValid)
    (sound : r.mesh.Sound) (revision : 0 < r.revision) (single : ∀ b q, t b = some q → q.identity ≠ r.identity) :
    MeshesSettled p { c with creates := c.creates ++ [r.create] } (update t a (some r)) := by
  obtain ⟨z,accepted,shows⟩ := settled
  have new : z r.identity = none := shows.absent single
  obtain ⟨x,erased,created⟩ := setAssetMeshChanges_iff.mp accepted
  have made : createMesh r.create (z r.identity) = .ok (some r.published) := by
    unfold createMesh
    rw [new,if_neg,defect_none sound]
    · rfl
    · simp [MeshResidency.create,valid,sound.vertices,sound.indices,Nat.ne_of_gt revision]
  exact ⟨_,setAssetMeshChanges_iff.mpr ⟨x,erased,foldlM_concat created made⟩,shows.put absent new valid⟩

theorem MeshesSettled.drop (settled : MeshesSettled p c t) (holds : t a = some r) :
    MeshesSettled p (c.queueMeshRemoval r.identity) (update t a none) := by
  obtain ⟨z,accepted,shows⟩ := settled
  exact ⟨_,setAssetMeshChanges_remove accepted (shows.proper holds) (shows.shown holds),shows.drop holds⟩

end

section
variable {D : Type} {pt : PublishedTextures} {pm : PublishedAssetMeshes D} {s : AssetService D} {record : AssetRecord D}
  {replacing : Bool}

def TextureFree (s : AssetService D) (i : RenderIdentity) : Prop :=
  i ∉ s.pendingTextures.removes ∧ ∀ a r, s.textures a = some r → r.identity ≠ i

def MeshFree (s : AssetService D) (i : RenderIdentity) : Prop := ∀ a r, s.meshes a = some r → r.identity ≠ i

def Call.Undisturbed (s : AssetService D) : Call D → Prop
  | .removeResidency _ => True
  | .queueResidency record replacing => match record.asset with
    | some (.image image) => image.Sound ∧ match s.textures record.id with
      | none => 0 < record.contentRevision ∧ TextureFree s (textureIdentity record.id)
      | some r => (r.width = image.width ∧ r.height = image.height) ∨ TextureFree s r.identity.next
    | some (.mesh mesh) => mesh.Sound ∧ 0 < record.contentRevision ∧ match s.meshes record.id with
      | none => MeshFree s (meshIdentity record.id)
      | some r => replacing = true ∧ MeshFree s r.identity.next
    | _ => True

structure Settled (pt : PublishedTextures) (pm : PublishedAssetMeshes D) (s : AssetService D) : Prop where
  textures : TexturesSettled pt s.pendingTextures s.textures
  meshes : MeshesSettled pm s.pendingMeshes s.meshes

theorem isValid_slot (slot other : BitVec 64) (nonzero : other ≠ 0) :
    isValid ⟨if slot = 0 then other else slot,1⟩ := by
  split_ifs with zero
  · exact Bool.and_eq_true_iff.mpr ⟨decide_eq_true nonzero,rfl⟩
  · exact Bool.and_eq_true_iff.mpr ⟨decide_eq_true zero,rfl⟩

theorem next_valid {i : RenderIdentity} (valid : i.isValid) : i.next.isValid := by
  unfold RenderIdentity.isValid RenderIdentity.next at *
  simp_all

theorem next_ne (i : RenderIdentity) : i.next ≠ i := by
  intro same
  exact Nat.succ_ne_self i.generation (congrArg generation same)

section
variable (settled : Settled pt pm s)
include settled

theorem queueTexture_settled (asset : record.asset = some (.image image))
    (undisturbed : (Call.queueResidency record replacing).Undisturbed s) :
    Settled pt pm (queueTexture s record image) := by
  simp only [Call.Undisturbed,asset] at undisturbed
  obtain ⟨sound,free⟩ := undisturbed
  unfold queueTexture
  cases held : s.textures record.id with
  | none =>
    rw [held] at free
    obtain ⟨revision,kept,single⟩ := free
    have valid : (textureIdentity record.id).isValid := isValid_slot _ _ nofun
    exact ⟨settled.textures.put held ⟨valid,sound.pixels⟩ revision sound.width sound.height kept single,settled.meshes⟩
  | some r =>
    rw [held] at free
    dsimp only
    split_ifs with same
    · have later : r.revision < max (r.revision + 1) record.contentRevision :=
        Nat.lt_of_lt_of_le (Nat.lt_succ_self _) (Nat.le_max_left ..)
      exact ⟨settled.textures.replace held later same.1 same.2 sound.pixels,settled.meshes⟩
    · obtain ⟨kept,single⟩ := free.resolve_left same
      obtain ⟨_,_,shows⟩ := settled.textures
      have placed := (settled.textures.drop held).put (r := ⟨r.identity.next,1,image.width,image.height,image.rgba8⟩)
        (update_self ..) ⟨next_valid (shows.proper held).valid,sound.pixels⟩ Nat.one_pos sound.width sound.height
        (by simp [kept,next_ne]) fun b q holds => single b q ((update_some holds).resolve_left (nomatch ·.2)).2
      rw [update_idem] at placed
      exact ⟨placed,settled.meshes⟩

theorem queueMesh_settled {mesh : ImportedMesh D} (asset : record.asset = some (.mesh mesh))
    (undisturbed : (Call.queueResidency record replacing).Undisturbed s) :
    Settled pt pm (queueMesh s record mesh replacing) := by
  simp only [Call.Undisturbed,asset] at undisturbed
  obtain ⟨sound,revision,free⟩ := undisturbed
  unfold queueMesh
  cases held : s.meshes record.id with
  | none =>
    rw [held] at free
    have valid : (meshIdentity record.id).isValid := isValid_slot _ _ nofun
    exact ⟨settled.textures,settled.meshes.put held valid sound revision free⟩
  | some r =>
    rw [held] at free
    obtain ⟨rfl,single⟩ := free
    obtain ⟨_,_,shows⟩ := settled.meshes
    have placed := (settled.meshes.drop held).put (r := ⟨r.identity.next,record.contentRevision,mesh⟩) (update_self ..)
      (next_valid (shows.proper held)) sound revision
      fun b q holds => single b q ((update_some holds).resolve_left (nomatch ·.2)).2
    rw [update_idem] at placed
    exact ⟨settled.textures,placed⟩

theorem removeResidency_settled : Settled pt pm (removeResidency s record) := by
  have without : Settled pt pm (removeTexture s record.id) := by
    unfold removeTexture
    cases held : s.textures record.id with
    | none => exact settled
    | some r => exact ⟨settled.textures.drop held,settled.meshes⟩
  unfold removeResidency removeMesh
  cases held : (removeTexture s record.id).meshes record.id with
  | none => exact without
  | some r => exact ⟨without.textures,without.meshes.drop held⟩

theorem call_settled {call : Call D} (undisturbed : call.Undisturbed s) : Settled pt pm (s.call call) := by
  cases call with
  | removeResidency record => exact removeResidency_settled settled
  | queueResidency record replacing =>
    unfold call queueResidency
    dsimp only
    split
    · next asset => exact queueTexture_settled settled asset undisturbed
    · next asset => exact queueMesh_settled settled asset undisturbed
    · exact settled

end

/-- None of the calls that are made in turn makes a texture or a mesh whose identity is taken. -/
def AssetService.Undisturbed : AssetService D → List (Call D) → Prop
  | _, [] => True
  | s, call :: rest => call.Undisturbed s ∧ (s.call call).Undisturbed rest

theorem calls_settled {calls : List (Call D)} (settled : Settled pt pm s) (undisturbed : s.Undisturbed calls) :
    Settled pt pm (calls.foldl call s) := by
  induction calls generalizing s with
  | nil => exact settled
  | cons call rest ih => exact ih (call_settled settled undisturbed.1) undisturbed.2

end

section
variable {D : Type} {s : System D} {o : Operation D}

/-- No operation of a run makes a texture or a mesh whose identity is taken. -/
def System.Undisturbed : System D → List (Operation D) → Prop
  | _, [] => True
  | s, o :: rest => s.service.Undisturbed (o.commit s.service.records).calls ∧
      ∀ next, s.step o = .ok next → next.Undisturbed rest

def System.run (s : System D) (operations : List (Operation D)) : Except String (System D) :=
  operations.foldlM System.step s

def System.Settled (s : System D) : Prop := AssetResidency.Settled s.publishedTextures s.publishedMeshes s.service

section
variable (settled : s.Settled)
include settled

theorem drainTextureChanges_settled : ∃ t, s.drainTextureChanges = .ok t ∧ t.Settled ∧
    Shows identity published TextureResidency.Sound t.publishedTextures
      t.service.textures := by
  obtain ⟨z,accepted,shows⟩ := settled.textures
  unfold System.drainTextureChanges
  rw [accepted]
  exact ⟨_,rfl,⟨⟨z,rfl,shows⟩,settled.meshes⟩,shows⟩

theorem drainMeshChanges_settled : ∃ t, s.drainMeshChanges = .ok t ∧ t.Settled ∧
    Shows MeshResidency.identity MeshResidency.published (fun r => r.identity.isValid) t.publishedMeshes
      t.service.meshes := by
  obtain ⟨z,accepted,shows⟩ := settled.meshes
  unfold System.drainMeshChanges
  rw [accepted]
  exact ⟨_,rfl,⟨settled.textures,⟨z,rfl,shows⟩⟩,shows⟩

theorem step_settled (undisturbed : s.service.Undisturbed (o.commit s.service.records).calls) :
    ∃ t, s.step o = .ok t ∧ t.Settled := by
  have committed := calls_settled settled undisturbed
  have locked : Settled s.publishedTextures s.publishedMeshes
      { (o.commit s.service.records).calls.foldl call s.service with
        records := (o.commit s.service.records).records } := ⟨committed.textures,committed.meshes⟩
  cases o with
  | drainTextureChanges =>
    obtain ⟨t,drained,settled,-⟩ := drainTextureChanges_settled settled
    exact ⟨t,drained,settled⟩
  | drainMeshChanges =>
    obtain ⟨t,drained,settled,-⟩ := drainMeshChanges_settled settled
    exact ⟨t,drained,settled⟩
  | importProjectAsset prepared refused => exact ⟨_,rfl,locked⟩
  | importFails failed => exact ⟨_,rfl,locked⟩
  | reimportProjectAsset previous prepared refused => exact ⟨_,rfl,locked⟩
  | deleteProjectAsset id refused => exact ⟨_,rfl,locked⟩
  | registerMemoryImage fresh name contentId image refused => exact ⟨_,rfl,locked⟩
  | configureBuiltInFont font => exact ⟨_,rfl,locked⟩
  | loadCatalog loaded threw => exact ⟨_,rfl,locked⟩

theorem run_settled {operations : List (Operation D)} (undisturbed : s.Undisturbed operations) :
    ∃ t, s.run operations = .ok t ∧ t.Settled := by
  induction operations generalizing s with
  | nil => exact ⟨s,rfl,settled⟩
  | cons o rest ih =>
    obtain ⟨next,stepped,after⟩ := step_settled settled undisturbed.1
    obtain ⟨t,ran,final⟩ := ih after (undisturbed.2 next stepped)
    refine ⟨t,?_,final⟩
    unfold System.run at ran ⊢
    rwa [foldlM_cons,stepped]

end

theorem start_settled (missing material : AssetId) : (System.start (D := D) missing material).Settled := by
  let service : AssetService D :=
    { records := [builtInRecord missing "Missing Image" (.image missingImage),
        builtInRecord material "Default Material" .other]
      textures := fun _ => none
      meshes := fun _ => none }
  have empty : AssetResidency.Settled (fun _ => none) (fun _ => none) service := by
    refine ⟨⟨fun _ => none,rfl,?_⟩,⟨fun _ => none,rfl,?_⟩⟩
    · exact ⟨(nomatch ·),(absurd rfl ·),(nomatch ·),(nomatch ·)⟩
    · exact ⟨(nomatch ·),(absurd rfl ·),(nomatch ·),(nomatch ·)⟩
  have undisturbed : (Call.queueResidency (builtInRecord missing "Missing Image" (.image missingImage)) false).Undisturbed
      service := by
    refine ⟨⟨by decide,by decide,by decide⟩,Nat.one_pos,not_mem_nil,?_⟩
    intro a r holds
    cases holds
  exact queueTexture_settled empty rfl undisturbed

end

def exampleMaterial : AssetRecord Unit where
  id := ⟨7,1⟩
  name := "Wall"
  source := "Wall.gltf"
  contentId := 11
  contentRevision := 1
  asset := some .other
  builtIn := false
  sourceGroupId := ⟨7,1⟩
  logicalKey := "material"

def exampleTexture : AssetRecord Unit := { exampleMaterial with
  id := ⟨7,2⟩
  contentId := 12
  asset := some (.image ⟨1,1,[9,0,0,255]⟩)
  logicalKey := "image" }

end Gargantuan.AssetResidency
