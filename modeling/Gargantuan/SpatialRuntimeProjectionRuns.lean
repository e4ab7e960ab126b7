import Gargantuan.SpatialRegionIndexRuns
import Gargantuan.SpatialRuntimeProjection
import Mathlib.Data.List.Perm.Subperm

/-!
The projection store over every run of its operations: the index, the spaces'
counts and the list of dirty objects agree with the projections, and a space
that was destroyed stays dead. An object that is marked again while the entry
of a former projection of it still stands in the list is entered twice; the
runs considered do not do so, nor do they misplace an object in the index.
-/
namespace Gargantuan
open SortedMap List SpatialRegionIndex Bool SpatialRuntimeProjectionConfiguration

theorem SortedMap.size_eq_of_contains {κ μ ν : Type} [LinearOrder κ] {m : SortedMap κ μ} {n : SortedMap κ ν}
    (same : ∀ k, m.contains k = n.contains k) : m.size = n.size := by
  have keys : m.keys.Perm n.keys := by
    refine (perm_ext_iff_of_nodup m.nodup_keys n.nodup_keys).mpr fun k => ?_
    rw [← contains_iff_mem_keys,← contains_iff_mem_keys,same]
  simpa [SortedMap.keys,SortedMap.size] using keys.length_eq

theorem SortedMap.total_exchange {κ ν : Type} [LinearOrder κ] (f : ν → Nat) (m : SortedMap κ ν) (k : κ) (x : ν) :
    total f (m.insert k x) + (m.find? k).elim 0 f = total f m + f x := by
  cases found : m.find? k with
  | none => exact total_insert_new f found x
  | some old => exact total_insert f found x

theorem SortedMap.total_modify {κ ν : Type} [LinearOrder κ] {f : ν → Nat} {g : ν → ν} (same : ∀ x, f (g x) = f x)
    (m : SortedMap κ ν) (k : κ) : total f (m.modify k g) = total f m := by
  rw [total,total,modify,mapValues,map_map]
  refine congrArg List.sum (map_congr_left fun row _ => ?_)
  by_cases here : row.1 = k
  · simp [here,same]
  · simp [here]

namespace SpatialRuntimeProjectionStore

def Gone (spaces : List SpaceSlot) (space : SpatialSpaceId) : Prop :=
  ∃ slot, spaces[space.slot.toNat]? = some slot ∧
    (space.generation.toNat < slot.generation.toNat ∨ slot.retired = true ∧ slot.active = false)

def Ages (spaces later : List SpaceSlot) : Prop :=
  ∀ (n : Nat) (slot : SpaceSlot), spaces[n]? = some slot → ∃ slot', later[n]? = some slot' ∧
    slot.generation.toNat ≤ slot'.generation.toNat ∧
    (slot.retired = true ∧ slot.active = false → slot'.retired = true ∧ slot'.active = false)

theorem Ages.refl (spaces : List SpaceSlot) : Ages spaces spaces :=
  fun _ slot found => ⟨slot,found,le_rfl,id⟩

theorem Ages.trans {a b c : List SpaceSlot} (first : Ages a b) (second : Ages b c) : Ages a c := by
  intro n slot found
  obtain ⟨middle,between,older,kept⟩ := first n slot found
  obtain ⟨last,after,oldest,still⟩ := second n middle between
  exact ⟨last,after,older.trans oldest,fun retired => still (kept retired)⟩

variable {space : SpatialSpaceId} {spaces : List SpaceSlot} {f : SpaceSlot → SpaceSlot} {n : Nat} {object : ObjectId}
  {index : SpatialRegionIndex}

theorem Ages.gone {later : List SpaceSlot} (ages : Ages spaces later) (gone : Gone spaces space) :
    Gone later space := by
  obtain ⟨slot,found,past⟩ := gone
  obtain ⟨slot',after,older,kept⟩ := ages _ slot found
  refine ⟨slot',after,?_⟩
  rcases past with before | retired
  · exact .inl (lt_of_lt_of_le before older)
  · exact .inr (kept retired)

theorem Ages.modify (older : ∀ slot, spaces[n]? = some slot → slot.generation.toNat ≤ (f slot).generation.toNat ∧
      (slot.retired ∧ slot.active = false → (f slot).retired ∧ (f slot).active = false)) :
    Ages spaces (spaces.modify n f) := by
  intro m slot found
  rw [getElem?_modify,found]
  by_cases here : n = m
  · subst here
    exact ⟨f slot,by simp,older slot found⟩
  · exact ⟨slot,by simp [here],le_rfl,id⟩

theorem ages_more (spaces : List SpaceSlot) (n : Nat) : Ages spaces (spaces.modify n SpaceSlot.more) :=
  .modify fun _ _ => ⟨le_rfl,id⟩

theorem ages_fewer (spaces : List SpaceSlot) (n : Nat) : Ages spaces (spaces.modify n SpaceSlot.fewer) :=
  .modify fun _ _ => ⟨le_rfl,id⟩

theorem vacated_spec (slot : SpaceSlot) : slot.vacated.active = false ∧
    slot.vacated.projectionCount = slot.projectionCount ∧ (slot.generation.toNat < slot.vacated.generation.toNat ∨
      slot.generation = slot.vacated.generation ∧ slot.vacated.retired) := by
  rw [SpaceSlot.vacated]
  by_cases last : slot.generation = maximumGeneration
  · simp [last]
  · rw [if_neg last]
    refine ⟨rfl,rfl,.inl ?_⟩
    have room : slot.generation.toNat ≠ 2 ^ 32 - 1 := by
      intro same
      exact last (UInt32.toNat_inj.mp same)
    have bound := slot.generation.toNat_lt
    rw [UInt32.toNat_add,UInt32.toNat_one]
    omega

section
variable {ρ φ : Type} {s : SpatialRuntimeProjectionStore ρ φ}

theorem isSpaceAlive_iff : s.isSpaceAlive space ↔ space.isValid ∧
    ∃ slot, s.spaces[space.slot.toNat]? = some slot ∧ slot.active ∧ slot.generation = space.generation := by
  rw [isSpaceAlive]
  cases s.spaces[space.slot.toNat]? <;> simp

theorem Gone.dead (gone : Gone s.spaces space) : s.isSpaceAlive space = false := by
  by_contra alive
  have alive : s.isSpaceAlive space := by simpa using alive
  obtain ⟨-,slot,found,active,same⟩ := isSpaceAlive_iff.mp alive
  obtain ⟨slot',found',past⟩ := gone
  have equal : slot = slot' := Option.some.inj (found.symm.trans found')
  subst equal
  rcases past with before | ⟨-,inactive⟩
  · rw [same] at before
    exact lt_irrefl _ before
  · rw [active] at inactive
    contradiction

def SpaceSlot.use (slot : SpaceSlot) : Bool × UInt32 := (slot.active,slot.generation)

theorem alive_congr {t : SpatialRuntimeProjectionStore ρ φ}
    (same : ∀ n : Nat, t.spaces[n]?.map SpaceSlot.use = s.spaces[n]?.map SpaceSlot.use) (space : SpatialSpaceId) :
    t.isSpaceAlive space = s.isSpaceAlive space := by
  have here := same space.slot.toNat
  rw [isSpaceAlive,isSpaceAlive]
  cases left : t.spaces[space.slot.toNat]? with
  | none => cases right : s.spaces[space.slot.toNat]? <;> simp_all
  | some slot => cases right : s.spaces[space.slot.toNat]? <;> simp_all [SpaceSlot.use]

end

variable {ρ φ : Type} [DoubleArithmetic ρ] [SinglePrecision φ]

structure Sound (c : SpatialRuntimeProjectionConfiguration ρ) (s : SpatialRuntimeProjectionStore ρ φ) : Prop where
  length : s.spaces.length = c.maximumSpaces + 1
  index : SpatialRegionIndex.Sound c.index s.index
  rows : ∀ object, (s.index.objects.find? object).map (fun e => e.primary.space) =
    (s.projections.find? object).map fun p => p.pose.space
  valid : ∀ object p, s.projections.find? object = some p → s.validProjection p.pose p.bounds = true
  counts : ∀ (n : Nat) (slot : SpaceSlot), s.spaces[n]? = some slot →
    slot.projectionCount = s.projections.total (inSlot n)
  retired : ∀ (n : Nat) (slot : SpaceSlot), s.spaces[n]? = some slot → slot.retired = true → slot.active = false
  distinct : s.dirtyObjects.Nodup
  marked : ∀ object, s.isDirty object = true → object ∈ s.dirtyObjects

variable {c : SpatialRuntimeProjectionConfiguration ρ} {s : SpatialRuntimeProjectionStore ρ φ}

theorem Sound.contains (sound : Sound c s) (object : ObjectId) :
    s.index.objects.contains object = s.projections.contains object := by
  have rows := sound.rows object
  rw [SortedMap.contains,SortedMap.contains]
  cases left : s.index.objects.find? object <;> cases right : s.projections.find? object <;> simp_all

theorem Sound.size (sound : Sound c s) : s.index.objects.size = s.projections.size :=
  size_eq_of_contains sound.contains

variable {p : SpatialRuntimeProjection ρ φ} {bounds : SpatialBounds ρ} {pose : SpatialPose φ}

theorem Sound.alive (sound : Sound c s) (found : s.projections.find? object = some p) :
    s.isSpaceAlive p.pose.space := by
  have valid := sound.valid object p found
  simp only [validProjection,and_eq_true] at valid
  exact valid.1.1

theorem Sound.verified (sound : Sound c s) : s.verifyConsistency := by
  have rows : ∀ object p, s.projections.find? object = some p →
      s.index.objects.contains object = true ∧
        (s.index.objects.find? object).any (fun e => e.primary.space == p.pose.space) = true := by
    intro object p found
    have rows := sound.rows object
    rw [found] at rows
    constructor
    · rw [sound.contains,SortedMap.contains,found,Option.isSome_some]
    · cases entry : s.index.objects.find? object with
      | none => simp [entry] at rows
      | some e =>
        rw [entry] at rows
        rw [Option.any_some]
        exact beq_iff_eq.mpr (Option.some.inj rows)
  have counted : ∀ n ∈ List.range' 1 (s.spaces.length - 1),
      (s.spaces[n]?).any (fun space => s.projections.total (inSlot n) == space.projectionCount) = true := by
    intro n member
    obtain ⟨above,below⟩ := mem_range'_1.mp member
    obtain ⟨slot,found⟩ : ∃ slot, s.spaces[n]? = some slot := ⟨_,getElem?_eq_getElem (by omega)⟩
    have count := sound.counts n slot found
    rw [found,Option.any_some,beq_iff_eq]
    exact count.symm
  have indexed := sound.index.verified
  have sizes : s.index.metrics.spatialObjectCount = s.projections.size := by
    rw [sound.index.objectCount,sound.size]
  rw [verifyConsistency,indexed,sizes,all_eq_true.mpr counted]
  simp only [beq_self_eq_true,Bool.true_and,Bool.and_true,all_eq_true]
  rintro ⟨object,p⟩ member
  have found : s.projections.find? object = some p := find?_eq_some.mpr member
  obtain ⟨contained,there⟩ := rows object p found
  rw [sound.alive found,sound.valid object p found,contained,there]
  rfl

theorem sound_failed (sound : Sound c s) (same : index = s.index) (status : SpatialRegionStatus) :
    Sound c { s with index := index, lastIndexFailure := status } := by
  subst same
  exact { sound with }

def stored (s : SpatialRuntimeProjectionStore ρ φ) (index : SpatialRegionIndex) (object : ObjectId)
    (p : SpatialRuntimeProjection ρ φ) (spaces : List SpaceSlot) : SpatialRuntimeProjectionStore ρ φ :=
  ⟨index,spaces,s.projections.insert object p,s.dirtyObjects,s.lastIndexFailure⟩

theorem Sound.place (sound : Sound c s) (indexed : SpatialRegionIndex.Sound c.index index)
    (rowed : s.index.Rowed object p.pose.space index.objects) (valid : s.validProjection p.pose p.bounds)
    (kept : p.dirty = s.isDirty object) (length : spaces.length = s.spaces.length)
    (same : ∀ n : Nat, spaces[n]?.map SpaceSlot.use = s.spaces[n]?.map SpaceSlot.use)
    (counts : ∀ (n : Nat) (slot : SpaceSlot), spaces[n]? = some slot →
      slot.projectionCount = (s.projections.insert object p).total (inSlot n))
    (retired : ∀ (n : Nat) (slot : SpaceSlot), spaces[n]? = some slot → slot.retired → slot.active = false) :
    Sound c (s.stored index object p spaces) := by
  obtain ⟨e,there,objects⟩ := rowed
  have dirty : ∀ other, (s.stored index object p spaces).isDirty other = s.isDirty other := by
    intro other
    rw [isDirty,stored,find?_insert]
    by_cases here : other = object
    · rwa [if_pos here,here]
    · rw [if_neg here]
      rfl
  have alive : ∀ space, (s.stored index object p spaces).isSpaceAlive space = s.isSpaceAlive space :=
    alive_congr same
  refine ⟨length.trans sound.length,indexed,?_,?_,counts,retired,sound.distinct,?_⟩
  · intro other
    rw [stored,objects,find?_insert,find?_insert]
    by_cases here : other = object
    · simp [here,there]
    · simpa [here] using sound.rows other
  · intro other q found
    rw [stored,find?_insert] at found
    rw [validProjection,alive]
    by_cases here : other = object
    · rw [if_pos here] at found
      cases found
      exact valid
    · rw [if_neg here] at found
      exact sound.valid other q found
  · intro other marked
    rw [dirty] at marked
    exact sound.marked other marked

theorem use_modify (same : ∀ slot, (f slot).use = slot.use) (m : Nat) :
    (spaces.modify n f)[m]?.map SpaceSlot.use = spaces[m]?.map SpaceSlot.use := by
  rw [getElem?_modify]
  cases spaces[m]? with
  | none => rfl
  | some slot => by_cases here : n = m <;> simp [here,same]

theorem modify_cases {m : Nat} {slot : SpaceSlot} (found : (spaces.modify n f)[m]? = some slot) :
    ∃ old, spaces[m]? = some old ∧ slot = if n = m then f old else old := by
  rw [getElem?_modify] at found
  cases before : spaces[m]? with
  | none => simp [before] at found
  | some old =>
    rw [before] at found
    exact ⟨old,rfl,(Option.some.inj found).symm⟩

theorem retired_modify
    (retired : ∀ (m : Nat) (slot : SpaceSlot), spaces[m]? = some slot → slot.retired → slot.active = false)
    (kept : ∀ slot, spaces[n]? = some slot → (slot.retired → slot.active = false) →
      (f slot).retired → (f slot).active = false) (m : Nat) (slot : SpaceSlot)
    (found : (spaces.modify n f)[m]? = some slot) (ended : slot.retired) : slot.active = false := by
  obtain ⟨old,before,now⟩ := modify_cases found
  rw [now] at ended ⊢
  by_cases here : n = m
  · subst here
    rw [if_pos rfl] at ended ⊢
    exact kept old before (retired n old before) ended
  · rw [if_neg here] at ended ⊢
    exact retired m old before ended

theorem counts_modify {total : Nat → Nat}
    (counts : ∀ (m : Nat) (slot : SpaceSlot), spaces[m]? = some slot → slot.projectionCount = total m)
    (same : ∀ slot, (f slot).projectionCount = slot.projectionCount) (m : Nat) (slot : SpaceSlot)
    (found : (spaces.modify n f)[m]? = some slot) : slot.projectionCount = total m := by
  obtain ⟨old,before,now⟩ := modify_cases found
  rw [now]
  by_cases here : n = m
  · rw [if_pos here,same]
    exact counts m old before
  · rw [if_neg here]
    exact counts m old before

omit [DoubleArithmetic ρ] [SinglePrecision φ] in
theorem isDirty_of_find (found : s.projections.find? object = some p) : s.isDirty object = p.dirty := by
  rw [isDirty,found]
  rfl

/-- Whether the operation misplaces the object in the index, or marks an object whose entry of
    before still stands in a list that has room. -/
def strays (c : SpatialRuntimeProjectionConfiguration ρ) (s : SpatialRuntimeProjectionStore ρ φ) :
    Operation ρ φ → Bool
  | .register a _ object pose bounds => s.validProjection pose bounds &&
      SpatialRegionIndex.misplaces c.index s.index (.register a object pose.space bounds)
  | .update a object pose bounds => s.validProjection pose bounds &&
      (s.projections.find? object).any (fun p => p.pose.space == pose.space) &&
      SpatialRegionIndex.misplaces c.index s.index (.update a object pose.space bounds)
  | .transfer a object destination bounds => s.validProjection destination bounds &&
      SpatialRegionIndex.misplaces c.index s.index (.update a object destination.space bounds)
  | .markDirty object => s.projections.contains object && !s.isDirty object && object ∈ s.dirtyObjects &&
      s.dirtyObjects.length < c.index.maximumObjects
  | _ => false

/-! ### The operations -/

theorem indexValid_of (valid : c.isValid) : c.index.isValid := by
  simp only [isValid,and_eq_true] at valid
  exact valid.1.1

structure Follows (c : SpatialRuntimeProjectionConfiguration ρ) (s t : SpatialRuntimeProjectionStore ρ φ) : Prop where
  sound : Sound c t
  ages : Ages s.spaces t.spaces

theorem Follows.refl (sound : Sound c s) : Follows c s s := ⟨sound,.refl _⟩

theorem Follows.guarded (sound : Sound c s) {p : Prop} [Decidable p] {status : SpatialRuntimeProjectionStatus}
    {rest : SpatialRuntimeProjectionStatus × SpatialRuntimeProjectionStore ρ φ} (onward : ¬ p → Follows c s rest.2) :
    Follows c s (if p then (status,s) else rest).2 := by
  by_cases refuses : p
  · rw [if_pos refuses]
    exact .refl sound
  · rw [if_neg refuses]
    exact onward refuses

theorem placed_new (sound : Sound c s) (indexed : SpatialRegionIndex.Sound c.index index)
    (rowed : s.index.Rowed object pose.space index.objects) (missing : s.projections.find? object = none)
    (fits : s.validProjection pose bounds) : Sound c (s.stored index object ⟨pose,bounds,1,false⟩
      (s.spaces.modify pose.space.slot.toNat SpaceSlot.more)) := by
  refine sound.place indexed rowed fits ?_ (length_modify ..) (use_modify (f := .more) fun _ => rfl)
    ?_ (retired_modify sound.retired fun _ _ kept => kept)
  · rw [isDirty,missing]
    rfl
  · intro m slot found
    obtain ⟨old,before,same⟩ := modify_cases found
    have count := sound.counts m old before
    have total := total_exchange (inSlot m) s.projections object ⟨pose,bounds,1,false⟩
    rw [missing] at total
    rw [same]
    by_cases here : pose.space.slot.toNat = m
    · simp only [inSlot,here,if_true,Option.elim_none] at total ⊢
      simp only [SpaceSlot.more]
      omega
    · simp only [inSlot,here,if_false,Option.elim_none] at total ⊢
      omega

variable {a : SpatialRegionIndex.Allocations}

section
variable (sound : Sound c s)
include sound

theorem register_follows (valid : c.isValid)
    {stores : Bool} (meets : strays c s (.register a stores object pose bounds) = false) :
    Follows c s (s.register c a stores object pose bounds).2 := by
  have indexValid := indexValid_of valid
  rw [register]
  refine .guarded sound fun unnamed => .guarded sound fun dead => .guarded sound fun invalid =>
    .guarded sound fun known => ?_
  have fits : s.validProjection pose bounds := by simpa using invalid
  have centered : SpatialRegionIndex.misplaces c.index s.index (.register a object pose.space bounds) = false := by
    simpa [strays,fits] using meets
  have kept := SpatialRegionIndex.register_kept sound.index indexValid centered
  have missing : s.projections.find? object = none := by simpa [SortedMap.contains] using known
  by_cases refused : (s.index.register c.index a object pose.space bounds).1 = .success
  · have succeeded := kept.rows refused
    simp only [refused,ne_eq,not_true_eq_false,if_false]
    by_cases stored : stores = true
    · simp only [stored,Bool.not_true,Bool.false_eq_true,if_false]
      exact ⟨placed_new sound kept.sound succeeded missing fits,ages_more _ _⟩
    · -- the row that was stored is taken out again
      simp only [stored,Bool.not_false,if_true]
      have removed := SpatialRegionIndex.remove_kept kept.sound indexValid object
      obtain ⟨e,there,objects⟩ := succeeded
      have done : ((s.index.register c.index a object pose.space bounds).2.remove object).1 = .success := by
        simp [SpatialRegionIndex.remove,objects]
      have back := removed.rows done
      rw [objects,erase_insert,erase_of_absent] at back
      · refine ⟨{ sound with index := removed.sound, rows := ?_ },.refl _⟩
        intro other
        rw [back]
        exact sound.rows other
      · have none := sound.contains object
        rw [SortedMap.contains,SortedMap.contains,missing] at none
        simpa using none
  · simp only [ne_eq,refused,not_false_eq_true,if_true]
    exact ⟨sound_failed sound (kept.unchanged refused) _,.refl _⟩

theorem placed_same (indexed : SpatialRegionIndex.Sound c.index index)
    (rowed : s.index.Rowed object pose.space index.objects) (found : s.projections.find? object = some p)
    (same : pose.space = p.pose.space) (fits : s.validProjection pose bounds) :
    Sound c (s.stored index object (moved p pose bounds) s.spaces) := by
  refine sound.place (p := moved p pose bounds) indexed rowed fits (isDirty_of_find found).symm rfl
    (fun _ => rfl) ?_ sound.retired
  intro m slot there
  have count := sound.counts m slot there
  have total := total_exchange (inSlot m) s.projections object (moved p pose bounds)
  have equal : inSlot m (moved p pose bounds) = inSlot m p := by
    rw [inSlot,inSlot,moved,same]
  rw [found,Option.elim_some,equal] at total
  omega

theorem placed_other (indexed : SpatialRegionIndex.Sound c.index index)
    (rowed : s.index.Rowed object pose.space index.objects) (found : s.projections.find? object = some p)
    (fits : s.validProjection pose bounds) : Sound c (s.stored index object (moved p pose bounds)
      ((s.spaces.modify p.pose.space.slot.toNat SpaceSlot.fewer).modify pose.space.slot.toNat SpaceSlot.more)) := by
  refine sound.place (p := moved p pose bounds) indexed rowed fits (isDirty_of_find found).symm ?_ ?_ ?_
    (retired_modify (retired_modify sound.retired fun _ _ kept => kept) fun _ _ kept => kept)
  · rw [length_modify,length_modify]
  · intro m
    rw [use_modify (f := SpaceSlot.more) fun _ => rfl,use_modify (f := SpaceSlot.fewer) fun _ => rfl]
  · intro m slot there
    obtain ⟨between,middle,same⟩ := modify_cases there
    obtain ⟨old,before,same'⟩ := modify_cases middle
    have count := sound.counts m old before
    have held := total_erase (inSlot m) found
    have total := total_exchange (inSlot m) s.projections object (moved p pose bounds)
    rw [found,Option.elim_some] at total
    rw [same,same']
    have now : inSlot m (moved p pose bounds) = if pose.space.slot.toNat = m then 1 else 0 := rfl
    have was : inSlot m p = if p.pose.space.slot.toNat = m then 1 else 0 := rfl
    rw [now,was] at total
    rw [was] at held
    by_cases left : p.pose.space.slot.toNat = m
    · rw [if_pos left] at total held ⊢
      have less : old.fewer.projectionCount = old.projectionCount - 1 :=
        sizeSub_of_le (by omega)
      by_cases joined : pose.space.slot.toNat = m
      · rw [if_pos joined] at total ⊢
        simp only [SpaceSlot.more]
        omega
      · rw [if_neg joined] at total ⊢
        omega
    · rw [if_neg left] at total held ⊢
      by_cases joined : pose.space.slot.toNat = m
      · rw [if_pos joined] at total ⊢
        simp only [SpaceSlot.more]
        omega
      · rw [if_neg joined] at total ⊢
        omega

theorem update_follows (valid : c.isValid) (meets : strays c s (.update a object pose bounds) = false) :
    Follows c s (s.update c a object pose bounds).2 := by
  rw [update]
  cases found : s.projections.find? object with
  | none => exact .refl sound
  | some p =>
    refine .guarded sound fun dead => .guarded sound fun elsewhere => .guarded sound fun invalid => ?_
    have fits : s.validProjection pose bounds := by simpa using invalid
    have there : pose.space = p.pose.space := not_not.mp elsewhere
    have centered : misplaces c.index s.index (.update a object pose.space bounds) = false := by
      rwa [strays,fits,found,Option.any_some,beq_iff_eq.mpr there.symm] at meets
    have kept := update_kept sound.index (indexValid_of valid) centered
    by_cases done : (s.index.update c.index a object pose.space bounds).1 = .success
    · simp only [done,ne_eq,not_true_eq_false,if_false]
      exact ⟨placed_same sound kept.sound (kept.rows done) found there fits,.refl _⟩
    · simp only [ne_eq,done,not_false_eq_true,if_true]
      exact ⟨sound_failed sound (kept.unchanged done) _,.refl _⟩

theorem transfer_follows (valid : c.isValid)
    {destination : SpatialPose φ} (meets : strays c s (.transfer a object destination bounds) = false) :
    Follows c s (s.transfer c a object destination bounds).2 := by
  rw [transfer]
  cases found : s.projections.find? object with
  | none => exact .refl sound
  | some p =>
    refine .guarded sound fun dead => .guarded sound fun invalid => ?_
    have fits : s.validProjection destination bounds := by simpa using invalid
    have centered :
        misplaces c.index s.index (.update a object destination.space bounds) = false := by
      simpa [strays,fits] using meets
    by_cases stays : destination.space = p.pose.space
    · rw [if_pos stays]
      exact update_follows sound valid (by simp [strays,centered])
    · rw [if_neg stays]
      have kept := update_kept sound.index (indexValid_of valid) centered
      by_cases done : (s.index.update c.index a object destination.space bounds).1 = .success
      · simp only [done,ne_eq,not_true_eq_false,if_false]
        exact ⟨placed_other sound kept.sound (kept.rows done) found fits,(ages_fewer _ _).trans (ages_more _ _)⟩
      · simp only [ne_eq,done,not_false_eq_true,if_true]
        exact ⟨sound_failed sound (kept.unchanged done) _,.refl _⟩

theorem remove_follows (valid : c.isValid) (object : ObjectId) : Follows c s (s.remove object).2 := by
  rw [remove]
  cases found : s.projections.find? object with
  | none => exact .refl sound
  | some p =>
    have kept := remove_kept sound.index (indexValid_of valid) object
    by_cases done : (s.index.remove object).1 = .success
    · simp only [done,ne_eq,not_true_eq_false,if_false]
      have objects := kept.rows done
      have same : ∀ m : Nat, (s.spaces.modify p.pose.space.slot.toNat SpaceSlot.fewer)[m]?.map SpaceSlot.use =
          s.spaces[m]?.map SpaceSlot.use := use_modify fun _ => rfl
      refine ⟨⟨(length_modify ..).trans sound.length,kept.sound,?_,?_,?_,
        retired_modify sound.retired fun _ _ kept => kept,sound.distinct,?_⟩,ages_fewer _ _⟩
      · intro other
        rw [objects,find?_erase,find?_erase]
        by_cases here : other = object
        · simp [here]
        · simpa [here] using sound.rows other
      · intro other q stored
        simp only [find?_erase] at stored
        by_cases here : other = object
        · simp [here] at stored
        · rw [if_neg here] at stored
          have before := sound.valid other q stored
          rwa [validProjection,alive_congr same]
      · intro m slot there
        obtain ⟨old,before,now⟩ := modify_cases there
        have count := sound.counts m old before
        have held := total_erase (inSlot m) found
        have term : inSlot m p = if p.pose.space.slot.toNat = m then 1 else 0 := rfl
        rw [term] at held
        rw [now]
        by_cases here : p.pose.space.slot.toNat = m
        · rw [if_pos here] at held ⊢
          have less : old.fewer.projectionCount = old.projectionCount - 1 :=
            sizeSub_of_le (by omega)
          simp only
          omega
        · rw [if_neg here] at held ⊢
          simp only
          omega
      · intro other marked
        refine sound.marked other ?_
        rw [isDirty] at marked ⊢
        simp only [find?_erase] at marked
        by_cases here : other = object
        · simp [here] at marked
        · simpa [here] using marked
    · simp only [ne_eq,done,not_false_eq_true,if_true]
      exact ⟨sound_failed sound (kept.unchanged done) _,.refl _⟩

theorem Sound.respace (length : spaces.length = s.spaces.length)
    (alive : ∀ object p, s.projections.find? object = some p →
      isSpaceAlive { s with spaces := spaces } p.pose.space)
    (counts : ∀ (n : Nat) (slot : SpaceSlot), spaces[n]? = some slot →
      slot.projectionCount = s.projections.total (inSlot n))
    (retired : ∀ (n : Nat) (slot : SpaceSlot), spaces[n]? = some slot → slot.retired → slot.active = false) :
    Sound c { s with spaces := spaces } := by
  refine ⟨length.trans sound.length,sound.index,sound.rows,?_,counts,retired,sound.distinct,sound.marked⟩
  intro object p found
  have valid := sound.valid object p found
  rw [validProjection,alive object p found]
  rwa [validProjection,sound.alive found] at valid

end

omit [DoubleArithmetic ρ] [SinglePrecision φ] in
theorem alive_apart (apart : n ≠ space.slot.toNat) (alive : s.isSpaceAlive space) :
    isSpaceAlive { s with spaces := s.spaces.modify n f } space := by
  obtain ⟨valid,slot,found,rest⟩ := isSpaceAlive_iff.mp alive
  refine isSpaceAlive_iff.mpr ⟨valid,slot,?_,rest⟩
  simp only
  rw [getElem?_modify,found]
  simp [apart]

omit [DoubleArithmetic ρ] [SinglePrecision φ] in
theorem createSpace_cases (s : SpatialRuntimeProjectionStore ρ φ) : s.createSpace = (none,s) ∨
    ∃ (n : Nat) (slot : SpaceSlot), s.spaces[n]? = some slot ∧ slot.active = false ∧ slot.retired = false ∧
      s.createSpace = (some ⟨UInt32.ofNat n,slot.generation⟩,
        { s with spaces := s.spaces.modify n SpaceSlot.opened }) := by
  rw [createSpace]
  cases chosen : (List.range' 2 (s.spaces.length - 2)).find? fun slot =>
      (s.spaces[slot]?).any fun candidate => !candidate.active && !candidate.retired with
  | none => exact .inl rfl
  | some n =>
    right
    have free := find?_some chosen
    cases found : s.spaces[n]? with
    | none => simp [found] at free
    | some slot =>
      rw [found] at free
      have idle : slot.active = false ∧ slot.retired = false := by simpa using free
      refine ⟨n,slot,found,idle.1,idle.2,?_⟩
      simp only
      rw [found]
      rfl

theorem createSpace_follows (sound : Sound c s) : Follows c s s.createSpace.2 := by
  rcases createSpace_cases s with none | ⟨n,slot,found,idle,fresh,opened⟩
  · rw [none]
    exact .refl sound
  · rw [opened]
    -- the slot that is opened was in nobody's use and is not retired
    have same : ∀ old, s.spaces[n]? = some old → old.active = false ∧ old.retired = false := by
      intro old before
      rw [found] at before
      cases before
      exact ⟨idle,fresh⟩
    refine ⟨sound.respace (length_modify ..) ?_ (counts_modify sound.counts fun _ => rfl)
      (retired_modify sound.retired ?_),.modify fun old before => ⟨le_rfl,?_⟩⟩
    · intro object p stored
      refine alive_apart ?_ (sound.alive stored)
      rintro rfl
      obtain ⟨-,old,before,active,-⟩ := isSpaceAlive_iff.mp (sound.alive stored)
      rw [(same old before).1] at active
      contradiction
    · intro old before _ retired
      have unretired : old.opened.retired = false := (same old before).2
      rw [unretired] at retired
      contradiction
    · rintro ⟨retired,-⟩
      rw [(same old before).2] at retired
      contradiction

omit [DoubleArithmetic ρ] [SinglePrecision φ] in
theorem destroySpace_cases (s : SpatialRuntimeProjectionStore ρ φ) (space : SpatialSpaceId) :
    (s.destroySpace space).1 ≠ .success ∧ (s.destroySpace space).2 = s ∨
    ∃ slot, s.spaces[space.slot.toNat]? = some slot ∧ slot.active ∧ slot.generation = space.generation ∧
      slot.projectionCount = 0 ∧ s.destroySpace space =
        (.success,{ s with spaces := s.spaces.modify space.slot.toNat SpaceSlot.vacated }) := by
  rw [destroySpace]
  split
  · exact .inl ⟨by simp,rfl⟩
  · rename_i dead
    have alive : s.isSpaceAlive space := by
      by_contra ended
      exact dead (by rw [eq_false_iff.mpr ended]; rfl)
    obtain ⟨-,slot,found,active,same⟩ := isSpaceAlive_iff.mp alive
    rw [found,Option.any_some]
    by_cases occupied : (slot.projectionCount != 0) = true
    · rw [if_pos occupied]
      exact .inl ⟨by simp,rfl⟩
    · rw [if_neg occupied]
      exact .inr ⟨slot,rfl,active,same,by simpa using occupied,rfl⟩

theorem destroySpace_follows (sound : Sound c s) (space : SpatialSpaceId) : Follows c s (s.destroySpace space).2 ∧
      ((s.destroySpace space).1 = .success → Gone (s.destroySpace space).2.spaces space) := by
  rcases destroySpace_cases s space with ⟨fails,same⟩ | ⟨slot,found,active,same,empty,destroyed⟩
  · rw [same]
    exact ⟨.refl sound,fun succeeds => absurd succeeds fails⟩
  · rw [destroyed]
    obtain ⟨vacant,count,older⟩ := vacated_spec slot
    have gone : Gone (s.spaces.modify space.slot.toNat SpaceSlot.vacated) space := by
      refine ⟨slot.vacated,by rw [getElem?_modify,found]; simp,?_⟩
      rcases older with later | ⟨-,retired⟩
      · left
        rwa [← same]
      · exact .inr ⟨retired,vacant⟩
    refine ⟨⟨sound.respace (length_modify ..) ?_ (counts_modify sound.counts fun old => (vacated_spec old).2.1)
      (retired_modify sound.retired fun old _ _ _ => (vacated_spec old).1),.modify ?_⟩,fun _ => gone⟩
    · intro object p stored
      refine alive_apart ?_ (sound.alive stored)
      intro here
      -- the slot counts the projection
      have held := total_erase (inSlot space.slot.toNat) stored
      have counted := sound.counts _ slot found
      have one : inSlot space.slot.toNat p = 1 := by rw [inSlot,if_pos here.symm]
      omega
    · intro old before
      rw [found] at before
      cases before
      constructor
      · rcases older with later | ⟨equal,-⟩
        · exact later.le
        · rw [← equal]
      · rintro ⟨-,inactive⟩
        rw [active] at inactive
        contradiction

section
variable (sound : Sound c s)
include sound

theorem mem_compacted (marked : s.isDirty object) : object ∈ s.compacted c := by
  have listed := sound.marked object marked
  rw [compacted]
  split
  · exact mem_filter.mpr ⟨listed,marked⟩
  · exact listed

theorem nodup_compacted : (s.compacted c).Nodup := by
  rw [compacted]
  split
  · exact sound.distinct.filter _
  · exact sound.distinct

theorem compacted_room (found : s.projections.find? object = some p) (clean : p.dirty = false) :
    (s.compacted c).length < c.index.maximumObjects := by
  rw [compacted]
  split
  · have limit := sound.index.objectLimit
    rw [sound.size] at limit
    have absent : object ∉ s.dirtyObjects.filter s.isDirty := by
      intro member
      have marked := (mem_filter.mp member).2
      rw [isDirty_of_find found,clean] at marked
      contradiction
    have distinct : (object :: s.dirtyObjects.filter s.isDirty).Nodup :=
      nodup_cons.mpr ⟨absent,sound.distinct.filter _⟩
    have within : object :: s.dirtyObjects.filter s.isDirty ⊆ s.projections.keys := by
      intro other member
      rcases mem_cons.mp member with rfl | listed
      · exact SortedMap.mem_keys.mpr ⟨p,found⟩
      · have marked := (mem_filter.mp listed).2
        rw [isDirty] at marked
        cases stored : s.projections.find? other with
        | none => simp [stored] at marked
        | some q => exact SortedMap.mem_keys.mpr ⟨q,stored⟩
    have counted := (subperm_of_subset distinct within).length_le
    rw [length_cons,SortedMap.keys,length_map] at counted
    exact lt_of_lt_of_le counted limit
  · rename_i room
    exact not_le.mp room

theorem markDirty_success (contained : s.projections.contains object) : (s.markDirty c object).1 = .success := by
  obtain ⟨p,found⟩ := contains_iff.mp contained
  rw [markDirty,found]
  by_cases marked : p.dirty = true
  · simp [marked]
  · have room := compacted_room sound found (by simpa using marked)
    simp [marked,not_le.mpr room]

theorem markDirty_follows (meets : strays c s (.markDirty object) = false) : Follows c s (s.markDirty c object).2 := by
  rw [markDirty]
  cases found : s.projections.find? object with
  | none => exact .refl sound
  | some p =>
    refine .guarded sound fun clean => ?_
    have clean : p.dirty = false := by simpa using clean
    rw [if_neg (not_le.mpr (compacted_room sound found clean))]
    have fresh : object ∉ s.compacted c := by
      have unmarked : s.isDirty object = false := (isDirty_of_find found).trans clean
      rw [compacted]
      split
      · intro member
        have marked := (mem_filter.mp member).2
        rw [unmarked] at marked
        contradiction
      · rename_i room
        have stored : s.projections.contains object := by simp [SortedMap.contains,found]
        simpa [strays,stored,unmarked,not_le.mp room] using meets
    refine ⟨⟨sound.length,sound.index,?_,?_,?_,sound.retired,?_,?_⟩,.refl _⟩
    · intro other
      rw [sound.rows]
      simp only [find?_insert]
      by_cases here : other = object
      · simp [here,found]
      · simp [here]
    · intro other q stored
      simp only [find?_insert] at stored
      by_cases here : other = object
      · rw [if_pos here] at stored
        cases stored
        exact sound.valid object p found
      · rw [if_neg here] at stored
        exact sound.valid other q stored
    · intro m slot there
      have count := sound.counts m slot there
      have total := total_exchange (inSlot m) s.projections object { p with dirty := true }
      have equal : inSlot m { p with dirty := true } = inSlot m p := rfl
      rw [found,Option.elim_some,equal] at total
      simp only
      omega
    · rw [nodup_append]
      refine ⟨nodup_compacted sound,nodup_singleton _,?_⟩
      intro a listed b added
      rw [mem_singleton] at added
      rintro rfl
      exact fresh (added ▸ listed)
    · intro other marked
      by_cases here : other = object
      · simp [here]
      · refine mem_append_left _ (mem_compacted sound ?_)
        rw [isDirty] at marked ⊢
        simpa [find?_insert,here] using marked

end

omit [DoubleArithmetic ρ] [SinglePrecision φ] in
theorem find?_cleared (objects : List ObjectId) (m : SortedMap ObjectId (SpatialRuntimeProjection ρ φ))
    (object : ObjectId) :
    (objects.foldl (fun projections object => projections.modify object fun p => { p with dirty := false })
      m).find? object = (m.find? object).map fun p => if object ∈ objects then { p with dirty := false } else p := by
  induction objects generalizing m with
  | nil => simp
  | cons head rest ih =>
    rw [foldl_cons,ih,find?_modify]
    by_cases here : object = head
    · cases m.find? object <;> by_cases later : object ∈ rest <;> simp [here]
    · simp [here]

omit [DoubleArithmetic ρ] [SinglePrecision φ] in
theorem total_cleared (objects : List ObjectId) (m : SortedMap ObjectId (SpatialRuntimeProjection ρ φ)) (n : Nat) :
    (objects.foldl (fun projections object => projections.modify object fun p => { p with dirty := false })
      m).total (inSlot n) = m.total (inSlot n) := by
  induction objects generalizing m with
  | nil => rfl
  | cons head rest ih =>
    rw [foldl_cons,ih,total_modify]
    exact fun p => rfl

theorem clearDirtyObjects_follows (sound : Sound c s) : Follows c s s.clearDirtyObjects := by
  refine ⟨⟨sound.length,sound.index,?_,?_,?_,sound.retired,.nil,?_⟩,.refl _⟩
  · intro object
    rw [clearDirtyObjects,find?_cleared,sound.rows]
    cases s.projections.find? object with
    | none => rfl
    | some p => by_cases listed : object ∈ s.dirtyObjects <;> simp [listed]
  · intro object q stored
    rw [clearDirtyObjects,find?_cleared] at stored
    cases found : s.projections.find? object with
    | none => simp [found] at stored
    | some p =>
      have valid := sound.valid object p found
      rw [found,Option.map_some] at stored
      by_cases listed : object ∈ s.dirtyObjects
      · rw [if_pos listed] at stored
        cases stored
        exact valid
      · rw [if_neg listed] at stored
        cases stored
        exact valid
  · intro n slot there
    rw [clearDirtyObjects,total_cleared]
    exact sound.counts n slot there
  · intro object marked
    rw [isDirty,clearDirtyObjects,find?_cleared] at marked
    cases found : s.projections.find? object with
    | none => simp [found] at marked
    | some p =>
      by_cases listed : object ∈ s.dirtyObjects
      · simp [found,listed] at marked
      · have before : s.isDirty object := by
          rw [isDirty_of_find found]
          simpa [found,listed] using marked
        exact absurd (sound.marked object before) listed

variable {op : Operation ρ φ}

theorem operate_follows (sound : Sound c s) (valid : c.isValid)
    (meets : strays c s op = false) : Follows c s (s.operate c op) := by
  cases op with
  | createSpace => exact createSpace_follows sound
  | destroySpace space => exact (destroySpace_follows sound space).1
  | register a stores object pose bounds => exact register_follows sound valid meets
  | update a object pose bounds => exact update_follows sound valid meets
  | transfer a object destination bounds => exact transfer_follows sound valid meets
  | remove object => exact remove_follows sound valid object
  | markDirty object => exact markDirty_follows sound meets
  | clearDirtyObjects => exact clearDirtyObjects_follows sound

theorem dead_refused (dead : s.isSpaceAlive space = false) : (s.destroySpace space).1 ≠ .success ∧
    (∀ a stores object (pose : SpatialPose φ) bounds, pose.space = space →
      (s.register c a stores object pose bounds).1 ≠ .success) ∧
    (∀ a object (pose : SpatialPose φ) bounds, pose.space = space → (s.update c a object pose bounds).1 ≠ .success) ∧
    ∀ a object (pose : SpatialPose φ) bounds, pose.space = space →
      (s.transfer c a object pose bounds).1 ≠ .success := by
  refine ⟨?_,?_,?_,?_⟩
  · rw [destroySpace,dead]
    simp
  · rintro a stores object pose bounds rfl
    rw [register,dead]
    by_cases named : object.isValid = true
    · simp [named]
    · simp [named]
  · rintro a object pose bounds rfl
    rw [update]
    cases s.projections.find? object with
    | none => simp
    | some p => simp [dead]
  · rintro a object pose bounds rfl
    rw [transfer]
    cases s.projections.find? object with
    | none => simp
    | some p => simp [dead]

theorem sound_new (c : SpatialRuntimeProjectionConfiguration ρ) :
    Sound c (new c : SpatialRuntimeProjectionStore ρ φ) := by
  have fresh : ∀ (n : Nat) (slot : SpaceSlot), (new c : SpatialRuntimeProjectionStore ρ φ).spaces[n]? = some slot →
      slot.projectionCount = 0 ∧ slot.retired = false := by
    intro n slot found
    have member := mem_of_getElem? found
    rcases mem_or_eq_of_mem_set member with plain | rfl
    · rw [eq_of_mem_replicate plain]
      exact ⟨rfl,rfl⟩
    · exact ⟨rfl,rfl⟩
  refine ⟨?_,sound_empty c.index,fun _ => rfl,?_,?_,?_,.nil,?_⟩
  · rw [new,length_set,length_replicate]
  · intro object p found
    contradiction
  · exact fun n slot found => (fresh n slot found).1
  · intro n slot found retired
    rw [(fresh n slot found).2] at retired
    contradiction
  · intro object marked
    contradiction

structure Track (ρ φ : Type) where
  store : SpatialRuntimeProjectionStore ρ φ
  destroyed : List SpatialSpaceId := []

def destroys (s : SpatialRuntimeProjectionStore ρ φ) : Operation ρ φ → List SpatialSpaceId
  | .destroySpace space => if (s.destroySpace space).1 = .success then [space] else []
  | _ => []

def Track.advance (c : SpatialRuntimeProjectionConfiguration ρ) (t : Track ρ φ) (op : Operation ρ φ) :
    Option (Track ρ φ) := some ⟨t.store.operate c op,t.store.destroys op ++ t.destroyed⟩

structure Track.Sound (c : SpatialRuntimeProjectionConfiguration ρ) (t : Track ρ φ) : Prop where
  sound : SpatialRuntimeProjectionStore.Sound c t.store
  gone : ∀ space ∈ t.destroyed, Gone t.store.spaces space

theorem Track.Sound.advance {t t' : Track ρ φ} (sound : t.Sound c) (valid : c.isValid)
    (meets : strays c t.store op = false) (stepped : t.advance c op = some t') : t'.Sound c := by
  cases stepped
  have follows := operate_follows sound.sound valid meets
  refine ⟨follows.sound,?_⟩
  intro space destroyed
  rcases mem_append.mp destroyed with now | before
  · cases op with
    | destroySpace space' =>
      simp only [destroys] at now
      split at now
      · rename_i succeeded
        rw [mem_singleton] at now
        rw [now]
        exact (destroySpace_follows sound.sound space').2 succeeded
      · contradiction
    | _ => contradiction
  · exact follows.ages.gone (sound.gone space before)

theorem Gone.unissued (sound : Sound c s) (valid : c.isValid) (gone : Gone s.spaces space) :
    s.createSpace.1 ≠ some space := by
  rcases createSpace_cases s with none | ⟨n,slot,found,idle,fresh,opened⟩
  · rw [none]
    simp
  · rw [opened]
    intro issued
    have same : (⟨.ofNat n,slot.generation⟩ : SpatialSpaceId) = space := Option.some.inj issued
    obtain ⟨slot',found',past⟩ := gone
    have few : c.maximumSpaces ≤ maximumSpatialRuntimeSpaces := by
      simp only [isValid,and_eq_true,decide_eq_true_eq] at valid
      exact valid.2
    have below : n < s.spaces.length := (List.getElem?_eq_some_iff.mp found).1
    have index : (UInt32.ofNat n).toNat = n := by
      rw [UInt32.toNat_ofNat']
      have length := sound.length
      simp only [maximumSpatialRuntimeSpaces] at few
      omega
    rw [← same] at found' past
    rw [index,found] at found'
    cases found'
    rcases past with later | ⟨retired,-⟩
    · exact lt_irrefl _ later
    · rw [fresh] at retired
      contradiction

omit [DoubleArithmetic ρ] [SinglePrecision φ] in
theorem total_inSlot (m : SortedMap ObjectId (SpatialRuntimeProjection ρ φ)) (n : Nat) :
    m.total (inSlot n) = m.entries.countP fun row => row.2.pose.space.slot.toNat == n := by
  rw [SortedMap.total]
  induction m.entries with
  | nil => rfl
  | cons row rest ih =>
    rw [map_cons,sum_cons,ih,countP_cons,inSlot]
    by_cases here : row.2.pose.space.slot.toNat = n
    · simp [here,Nat.add_comm]
    · simp [here]

/-- In every run that neither misplaces an object in the index nor marks an object whose former
    entry still stands in the list, the store passes its verification, counts its projections by
    space, issues and takes no destroyed space, lists every dirty object once, and marks every
    object that has a projection. -/
theorem projection_run {c : SpatialRuntimeProjectionConfiguration ρ} (valid : c.isValid = true)
    {operations : List (Operation ρ φ)} {t : Track ρ φ}
    (meets : RunMeets (Track.advance c) (fun t op => strays c t.store op = false) ⟨new c, []⟩ operations)
    (reached : run (Track.advance c) ⟨new c, []⟩ operations = some t) :
    t.store.verifyConsistency = true ∧
    (∀ (n : Nat) (slot : SpaceSlot), t.store.spaces[n]? = some slot → slot.projectionCount =
      t.store.projections.entries.countP fun row => row.2.pose.space.slot.toNat == n) ∧
    (∀ space ∈ t.destroyed, t.store.isSpaceAlive space = false ∧ t.store.createSpace.1 ≠ some space ∧
      (t.store.destroySpace space).1 ≠ .success ∧ (∀ a stores object (pose : SpatialPose φ) bounds, pose.space = space →
        (t.store.register c a stores object pose bounds).1 ≠ .success) ∧
      (∀ a object (pose : SpatialPose φ) bounds, pose.space = space →
        (t.store.update c a object pose bounds).1 ≠ .success) ∧
      ∀ a object (pose : SpatialPose φ) bounds, pose.space = space →
        (t.store.transfer c a object pose bounds).1 ≠ .success) ∧
    (∀ object, t.store.isDirty object = true → t.store.dirtyObjects.count object = 1) ∧
    ∀ object, t.store.projections.contains object = true → (t.store.markDirty c object).1 = .success := by
  have start : Track.Sound c (⟨new c,[]⟩ : Track ρ φ) := ⟨sound_new c,by simp⟩
  have sound : t.Sound c := run_preserves_where
    (fun t op t' meets sound stepped => .advance sound valid meets stepped) start meets reached
  refine ⟨sound.sound.verified,?_,?_,?_,?_⟩
  · intro n slot found
    rw [sound.sound.counts n slot found]
    exact total_inSlot ..
  · intro space destroyed
    have gone := sound.gone space destroyed
    exact ⟨gone.dead,gone.unissued sound.sound valid,dead_refused gone.dead⟩
  · intro object marked
    exact count_eq_one_of_mem sound.sound.distinct (sound.sound.marked object marked)
  · exact fun object contained => markDirty_success sound.sound contained

instance wholeSingles : SinglePrecision Int where
  isFinite _ := true

def twoObjects : SpatialRuntimeProjectionConfiguration Int := { index := { regionSize := 1, maximumObjects := 2 } }

def atOrigin : SpatialPose Int :=
  ⟨defaultSpatialSpace,⟨⟨0,0,0⟩,⟨⟨1,0,0⟩,⟨0,1,0⟩,⟨0,0,1⟩⟩⟩⟩

def registeredAgain : SpatialRuntimeProjectionStore Int Int :=
  [.register {} true ⟨1,1⟩ atOrigin SpatialRegionIndex.post,.markDirty ⟨1,1⟩,.remove ⟨1,1⟩,
    .register {} true ⟨1,1⟩ atOrigin SpatialRegionIndex.post,.markDirty ⟨1,1⟩,
    .register {} true ⟨2,1⟩ atOrigin SpatialRegionIndex.post].foldl (operate twoObjects) (new twoObjects)

/-- It is listed twice, and the list has no room for the other one. -/
theorem registeredAgain_listed_twice : twoObjects.isValid = true ∧ registeredAgain.isDirty ⟨1, 1⟩ = true ∧
    registeredAgain.dirtyObjects.count ⟨1, 1⟩ = 2 ∧ registeredAgain.projections.contains ⟨2, 1⟩ = true ∧
    (registeredAgain.markDirty twoObjects ⟨2, 1⟩).1 = .dirtyLimit := by decide

theorem twoObjects_marked :
    ([.register {} true ⟨1, 1⟩ atOrigin SpatialRegionIndex.post, .markDirty ⟨1, 1⟩, .clearDirtyObjects].foldl
      (operate twoObjects) (new twoObjects : SpatialRuntimeProjectionStore Int Int)).verifyConsistency = true :=
  (projection_run (by decide)
    (show RunMeets (Track.advance twoObjects) (fun t op => strays twoObjects t.store op = false) ⟨new twoObjects,[]⟩
      [.register {} true ⟨1,1⟩ atOrigin SpatialRegionIndex.post,.markDirty ⟨1,1⟩,.clearDirtyObjects] by decide)
    rfl).1

end SpatialRuntimeProjectionStore
end Gargantuan
