import Gargantuan.Identity
import Gargantuan.Runs

/-!
The registry of object identities. A slot is reused under a new generation after the
identity that named it was invalidated; a slot whose generations are used up is not.

The registry holds instances weakly: whether an instance still exists is for the caller
of `lookup` to say (`alive`). Its mutex makes every operation one step.
-/
namespace Gargantuan
open List Option GenerationalId

namespace ObjectRegistry

/-- A slot. The reference is empty before the first registration and after an invalidation. -/
structure Entry (ι : Type) where
  object : Option ι
  generation : UInt32 := 1

end ObjectRegistry

open ObjectRegistry (Entry)

/-- The last of the free slots in the source is the first one here. -/
structure ObjectRegistry (ι : Type) where
  entries : List (Entry ι) := [⟨none,0⟩]
  freeSlots : List UInt32 := []

namespace ObjectRegistry
variable {ι : Type}

/-- Fails when every slot is in use. -/
def register (r : ObjectRegistry ι) (object : ι) : Option (ObjectRegistry ι × ObjectId) :=
  match r.freeSlots with
  | [] =>
    if r.entries.length > 0xffffffff then none
    else some ({ r with entries := r.entries ++ [⟨some object,1⟩] },⟨r.entries.length.toUInt32,1⟩)
  | slot :: rest =>
    -- a free slot is one of the entries, see `Sound`
    r.entries[slot.toNat]?.map fun entry =>
      (⟨r.entries.set slot.toNat { entry with object := some object },rest⟩,⟨slot,entry.generation⟩)

def invalidate (r : ObjectRegistry ι) (id : ObjectId) : ObjectRegistry ι :=
  if !id.isValid then r
  else match r.entries[id.slot.toNat]? with
    | none => r
    | some entry =>
      if entry.generation ≠ id.generation then r
      else if entry.generation = 0xffffffff then
        { r with entries := r.entries.set id.slot.toNat { entry with object := none } }
      else ⟨r.entries.set id.slot.toNat ⟨none,entry.generation + 1⟩,id.slot :: r.freeSlots⟩

def lookup (r : ObjectRegistry ι) (alive : ι → Bool) (id : ObjectId) : Option ι :=
  if !id.isValid then none
  else match r.entries[id.slot.toNat]? with
    | none => none
    | some entry => if entry.generation ≠ id.generation then none else entry.object.filter alive

/-- The registry with the identities it returned, the last one first, and those that were
    invalidated since. -/
structure History (ι : Type) where
  registry : ObjectRegistry ι := {}
  returned : List (ObjectId × ι) := []
  invalidated : List ObjectId := []

inductive Operation (ι : Type) where
  | register (object : ι)
  | invalidate (id : ObjectId)

/-- Only identities that were returned are invalidated. A registration that throws leaves
    everything as it was. -/
def step (h : History ι) : Operation ι → Option (History ι)
  | .register object =>
    match h.registry.register object with
    | none => some h
    | some (registry,id) => some { h with registry, returned := (id,object) :: h.returned }
  | .invalidate id =>
    if id ∈ h.returned.map Prod.fst then
      some { h with registry := h.registry.invalidate id, invalidated := id :: h.invalidated }
    else none

structure Placed (h : History ι) (id : ObjectId) (object : ι) (entry : Entry ι) : Prop where
  valid : id.isValid = true
  notNewer : id.generation.toNat ≤ entry.generation.toNat
  /-- A free slot is ahead of every identity that named it. -/
  free : id.slot ∈ h.registry.freeSlots → id.generation.toNat < entry.generation.toNat
  current : id ∉ h.invalidated → entry = ⟨some object,id.generation⟩
  /-- An invalidated identity that still has the generation of its slot has the last one. -/
  stale : id ∈ h.invalidated → id.generation.toNat < entry.generation.toNat ∨
    (entry.object = none ∧ entry.generation = 0xffffffff)

structure Sound (h : History ι) : Prop where
  bounded : h.registry.entries.length ≤ 4294967296
  unused : 0 < h.registry.entries.length
  distinct : (h.returned.map Prod.fst).Nodup
  freeDistinct : h.registry.freeSlots.Nodup
  free : ∀ slot ∈ h.registry.freeSlots, slot ≠ 0 ∧
    ∃ entry, h.registry.entries[slot.toNat]? = some entry ∧ 0 < entry.generation.toNat
  known : ∀ id ∈ h.invalidated, ∃ object, (id,object) ∈ h.returned
  placed : ∀ id object, (id,object) ∈ h.returned →
    ∃ entry, h.registry.entries[id.slot.toNat]? = some entry ∧ Placed h id object entry

variable {id : ObjectId} {h : History ι} {entry : Entry ι}

theorem isValid_iff : id.isValid ↔ id.slot ≠ 0 ∧ id.generation ≠ 0 := by
  simp [isValid]

theorem sound_start : Sound ({} : History ι) where
  bounded := by
    change 1 ≤ 4294967296
    omega
  unused := Nat.one_pos
  distinct := .nil
  freeDistinct := .nil
  free := by simp
  known := by simp
  placed := by simp

theorem Sound.not_invalidated (sound : Sound h) (fresh : id ∉ h.returned.map Prod.fst) : id ∉ h.invalidated := by
  intro gone
  obtain ⟨object,member⟩ := sound.known id gone
  exact fresh (mem_map.mpr ⟨_,member,rfl⟩)

theorem Sound.extend (sound : Sound h) (object : ι) (room : h.registry.entries.length ≤ 4294967295) :
    Sound { h with
      registry := ⟨h.registry.entries ++ [⟨some object,1⟩],[]⟩
      returned := (⟨h.registry.entries.length.toUInt32,1⟩,object) :: h.returned } := by
  have number : h.registry.entries.length.toUInt32.toNat = h.registry.entries.length :=
    UInt32.toNat_ofNat_of_lt (Nat.lt_succ_of_le room)
  have behind : ∀ id other, (id,other) ∈ h.returned → id.slot.toNat < h.registry.entries.length := by
    intro id other member
    obtain ⟨entry,found,_⟩ := sound.placed id other member
    exact (List.getElem?_eq_some_iff.mp found).1
  have fresh : (⟨h.registry.entries.length.toUInt32,1⟩ : ObjectId) ∉ h.returned.map Prod.fst := by
    intro member
    obtain ⟨⟨id,other⟩,inside,same⟩ := mem_map.mp member
    have below := behind id other inside
    simp only at same
    rw [same,number] at below
    exact lt_irrefl _ below
  constructor
  · simp only [length_append,length_singleton]
    omega
  · simp
  · exact nodup_cons.mpr ⟨fresh,sound.distinct⟩
  · exact .nil
  · intro slot member
    cases member
  · intro id gone
    obtain ⟨other,member⟩ := sound.known id gone
    exact ⟨other,.tail _ member⟩
  · intro id other member
    rcases mem_cons.mp member with new | old
    · cases new
      refine ⟨⟨some object,1⟩,?_,?_⟩
      · simp only [number,getElem?_concat_length]
      · have slot : h.registry.entries.length.toUInt32 ≠ 0 := by
          intro zero
          have unused := sound.unused
          rw [← number,zero] at unused
          cases unused
        refine ⟨isValid_iff.mpr ⟨slot,by simp⟩,le_rfl,?_,fun _ => rfl,
          fun gone => absurd gone (sound.not_invalidated fresh)⟩
        intro free
        cases free
    · obtain ⟨entry,found,placed⟩ := sound.placed id other old
      refine ⟨entry,?_,placed.valid,placed.notNewer,(by intro free; cases free),placed.current,placed.stale⟩
      rwa [getElem?_append_left (behind id other old)]

theorem Sound.reuse (sound : Sound h) (object : ι) {slot : UInt32} {rest : List UInt32}
    (free : h.registry.freeSlots = slot :: rest) (found : h.registry.entries[slot.toNat]? = some entry) :
    Sound { h with
      registry := ⟨h.registry.entries.set slot.toNat { entry with object := some object },rest⟩
      returned := (⟨slot,entry.generation⟩,object) :: h.returned } := by
  have distinct := sound.freeDistinct
  rw [free] at distinct
  obtain ⟨gone,restDistinct⟩ := nodup_cons.mp distinct
  obtain ⟨slotUsed,entry',found',positive⟩ := sound.free slot (by rw [free]; simp)
  obtain rfl : entry' = entry := some.inj (found'.symm.trans found)
  have ahead : ∀ id other, (id,other) ∈ h.returned → id.slot = slot →
      id.generation.toNat < entry'.generation.toNat := by
    intro id other member same
    obtain ⟨held,at_slot,placed⟩ := sound.placed id other member
    rw [same,found] at at_slot
    cases at_slot
    exact placed.free (by rw [free,same]; simp)
  have fresh : (⟨slot,entry'.generation⟩ : ObjectId) ∉ h.returned.map Prod.fst := by
    intro member
    obtain ⟨⟨id,other⟩,inside,same⟩ := mem_map.mp member
    simp only at same
    have less := ahead id other inside (by rw [same])
    rw [same] at less
    exact lt_irrefl _ less
  have inside : slot.toNat < h.registry.entries.length := (List.getElem?_eq_some_iff.mp found).1
  constructor
  · simpa using sound.bounded
  · simpa using sound.unused
  · exact nodup_cons.mpr ⟨fresh,sound.distinct⟩
  · exact restDistinct
  · intro other member
    obtain ⟨used,held,at_other,others⟩ := sound.free other (by rw [free]; exact .tail _ member)
    have apart : slot ≠ other := fun same => gone (same ▸ member)
    refine ⟨used,held,?_,others⟩
    rwa [getElem?_set_ne (fun same => apart (UInt32.toNat_inj.mp same))]
  · intro id invalid
    obtain ⟨other,member⟩ := sound.known id invalid
    exact ⟨other,.tail _ member⟩
  · intro id other member
    rcases mem_cons.mp member with new | old
    · cases new
      refine ⟨{ entry' with object := some object },getElem?_set_self inside,?_⟩
      refine ⟨isValid_iff.mpr ⟨slotUsed,?_⟩,le_rfl,fun free => absurd free gone,fun _ => rfl,
        fun invalid => absurd invalid (sound.not_invalidated fresh)⟩
      intro zero
      have none : entry'.generation.toNat = 0 := congrArg UInt32.toNat zero
      omega
    · obtain ⟨held,at_slot,placed⟩ := sound.placed id other old
      by_cases same : id.slot = slot
      · have less := ahead id other old same
        refine ⟨{ entry' with object := some object },by rw [same]; exact getElem?_set_self inside,placed.valid,
          less.le,fun _ => less,?_,fun _ => .inl less⟩
        intro valid
        rw [same,found] at at_slot
        cases at_slot
        have current := placed.current valid
        rw [current] at less
        exact absurd less (lt_irrefl _)
      · refine ⟨held,?_,placed.valid,placed.notNewer,fun free' => placed.free ?_,placed.current,placed.stale⟩
        · rwa [getElem?_set_ne (fun equal => same (UInt32.toNat_inj.mp equal).symm)]
        · rw [free]
          exact .tail _ free'

variable {object : ι}

section
variable (sound : Sound h)
include sound

theorem register_sound {registry : ObjectRegistry ι}
    (registered : h.registry.register object = some (registry,id)) :
    Sound { h with registry, returned := (id,object) :: h.returned } := by
  unfold register at registered
  cases free : h.registry.freeSlots with
  | nil =>
    simp only [free] at registered
    split_ifs at registered with full
    cases registered
    exact sound.extend object (by omega)
  | cons slot rest =>
    simp only [free,map_eq_some_iff] at registered
    obtain ⟨entry,found,same⟩ := registered
    cases same
    exact sound.reuse object free found

section
variable (member : (id,object) ∈ h.returned)
include member

section
variable (found : h.registry.entries[id.slot.toNat]? = some entry)
include found

theorem Sound.retire
    (current : entry.generation = id.generation)
    {generation : UInt32} {freeSlots : List UInt32}
    (next : (generation = 0xffffffff ∧ entry.generation = 0xffffffff ∧ freeSlots = h.registry.freeSlots) ∨
      (generation.toNat = entry.generation.toNat + 1 ∧ freeSlots = id.slot :: h.registry.freeSlots)) :
    Sound { h with
      registry := ⟨h.registry.entries.set id.slot.toNat ⟨none,generation⟩,freeSlots⟩
      invalidated := id :: h.invalidated } := by
  obtain ⟨entry',found',placed⟩ := sound.placed id object member
  obtain rfl : entry' = entry := some.inj (found'.symm.trans found)
  have inside : id.slot.toNat < h.registry.entries.length := (List.getElem?_eq_some_iff.mp found).1
  have valid := isValid_iff.mp placed.valid
  have inUse : id.slot ∉ h.registry.freeSlots := by
    intro free
    have less := placed.free free
    rw [current] at less
    exact lt_irrefl _ less
  have elsewhere : ∀ slot : UInt32, slot ≠ id.slot →
      (h.registry.entries.set id.slot.toNat ⟨none,generation⟩)[slot.toNat]? = h.registry.entries[slot.toNat]? :=
    fun slot apart => getElem?_set_ne fun same => apart (UInt32.toNat_inj.mp same).symm
  have here : (h.registry.entries.set id.slot.toNat ⟨none,generation⟩)[id.slot.toNat]? = some ⟨none,generation⟩ :=
    getElem?_set_self inside
  have remains : ∀ slot ∈ freeSlots, slot = id.slot ∨ slot ∈ h.registry.freeSlots := by
    intro slot free
    rcases next with ⟨_,_,same⟩ | ⟨_,same⟩
    · rw [same] at free
      exact .inr free
    · rw [same] at free
      exact mem_cons.mp free
  have grown : entry'.generation.toNat ≤ generation.toNat := by
    rcases next with ⟨last,also,_⟩ | ⟨up,_⟩
    · rw [last,also]
    · omega
  constructor
  · simpa using sound.bounded
  · simpa using sound.unused
  · exact sound.distinct
  · rcases next with ⟨_,_,same⟩ | ⟨_,same⟩
    · rw [same]
      exact sound.freeDistinct
    · rw [same]
      exact nodup_cons.mpr ⟨inUse,sound.freeDistinct⟩
  · intro slot free
    by_cases same : slot = id.slot
    · have used : 0 < id.generation.toNat := Nat.pos_of_ne_zero fun zero => valid.2 (UInt32.toNat_inj.mp zero)
      refine ⟨by rw [same]; exact valid.1,⟨none,generation⟩,by rw [same]; exact here,?_⟩
      rw [← current] at used
      exact lt_of_lt_of_le used grown
    · obtain ⟨nonzero,held,at_slot,positive⟩ := sound.free slot ((remains slot free).resolve_left same)
      exact ⟨nonzero,held,by rw [elsewhere slot same]; exact at_slot,positive⟩
  · intro other invalid
    rcases mem_cons.mp invalid with rfl | older
    · exact ⟨object,member⟩
    · exact sound.known other older
  · intro other held inReturned
    obtain ⟨entry₂,found₂,placed₂⟩ := sound.placed other held inReturned
    by_cases same : other.slot = id.slot
    · rw [same,found] at found₂
      cases found₂
      refine ⟨⟨none,generation⟩,by rw [same]; exact here,placed₂.valid,placed₂.notNewer.trans grown,?_,?_,?_⟩
      · intro free
        rcases next with ⟨_,_,unchanged⟩ | ⟨up,_⟩
        · rw [same,unchanged] at free
          exact absurd free inUse
        · have bound := placed₂.notNewer
          simp only
          omega
      · intro fresh
        have older : other ∉ h.invalidated := fun gone => fresh (.tail _ gone)
        have generations : other.generation = id.generation := by
          rw [← current,placed₂.current older]
        refine absurd ?_ fresh
        rw [show other = id from by cases other; cases id; simp_all]
        exact (.head _)
      · intro _
        rcases next with ⟨last,_,_⟩ | ⟨up,_⟩
        · exact .inr ⟨rfl,last⟩
        · have bound := placed₂.notNewer
          refine .inl ?_
          simp only
          omega
    · refine ⟨entry₂,by rw [elsewhere _ same]; exact found₂,placed₂.valid,placed₂.notNewer,
        fun free => placed₂.free ((remains _ free).resolve_left same),
        fun fresh => placed₂.current fun gone => fresh (.tail _ gone),fun gone => ?_⟩
      rcases mem_cons.mp gone with equal | older
      · exact absurd (congrArg slot equal) same
      · exact placed₂.stale older

theorem Sound.outdated
    (moved : entry.generation ≠ id.generation) :
    Sound { h with invalidated := id :: h.invalidated } := by
  obtain ⟨entry',found',placed⟩ := sound.placed id object member
  obtain rfl : entry' = entry := some.inj (found'.symm.trans found)
  refine { sound with known := ?_, placed := ?_ }
  · intro other invalid
    rcases mem_cons.mp invalid with rfl | older
    · exact ⟨object,member⟩
    · exact sound.known other older
  · intro other held inReturned
    obtain ⟨entry₂,found₂,placed₂⟩ := sound.placed other held inReturned
    refine ⟨entry₂,found₂,placed₂.valid,placed₂.notNewer,placed₂.free,
      fun valid => placed₂.current fun older => valid (.tail _ older),fun invalid => ?_⟩
    rcases mem_cons.mp invalid with same | older
    · rw [same,found] at found₂
      cases found₂
      have notNewer := placed.notNewer
      have apart : entry'.generation.toNat ≠ id.generation.toNat := fun equal => moved (UInt32.toNat_inj.mp equal)
      rw [same]
      exact .inl (by omega)
    · exact placed₂.stale older

end

theorem invalidate_sound :
    Sound { h with registry := h.registry.invalidate id, invalidated := id :: h.invalidated } := by
  obtain ⟨entry,found,placed⟩ := sound.placed id object member
  simp only [invalidate,placed.valid,Bool.not_true,Bool.false_eq_true,if_false,found]
  by_cases moved : entry.generation ≠ id.generation
  · rw [if_pos moved]
    exact sound.outdated member found moved
  · have current : entry.generation = id.generation := not_not.mp moved
    rw [if_neg moved]
    by_cases last : entry.generation = 0xffffffff
    · rw [if_pos last]
      exact sound.retire member found current (.inl ⟨last,last,rfl⟩)
    · rw [if_neg last]
      refine sound.retire member found current (.inr ⟨?_,rfl⟩)
      have below : entry.generation.toNat ≠ 4294967295 := fun same => last (UInt32.toNat_inj.mp same)
      have bound := entry.generation.toNat_lt
      rw [UInt32.toNat_add,UInt32.toNat_one]
      omega

end

theorem step_sound {h' : History ι} {operation : Operation ι} (stepped : step h operation = some h') : Sound h' := by
  cases operation with
  | register object =>
    cases registered : h.registry.register object with
    | none =>
      simp only [step,registered] at stepped
      cases stepped
      exact sound
    | some result =>
      simp only [step,registered] at stepped
      cases stepped
      exact register_sound sound registered
  | invalidate id =>
    simp only [step] at stepped
    split_ifs at stepped with member
    cases stepped
    obtain ⟨⟨_,object⟩,inside,rfl⟩ := mem_map.mp member
    exact invalidate_sound sound inside

end

theorem Placed.lookup (found : h.registry.entries[id.slot.toNat]? = some entry)
    (placed : Placed h id object entry) (alive : ι → Bool) :
    h.registry.lookup alive id = if id ∈ h.invalidated then none else (some object).filter alive := by
  simp only [ObjectRegistry.lookup,placed.valid,Bool.not_true,Bool.false_eq_true,if_false,found]
  by_cases gone : id ∈ h.invalidated
  · rw [if_pos gone]
    rcases placed.stale gone with older | ⟨empty,_⟩
    · rw [if_pos fun same => absurd older (by rw [same]; exact lt_irrefl _)]
    · rw [empty]
      split_ifs <;> rfl
  · rw [if_neg gone,placed.current gone,if_neg (not_not.mpr rfl)]

/-- Over every run: identities are returned once, are valid, and resolve to their instance
    until they are invalidated and to nothing ever after; a slot is free at most once, and
    never again when its generations are used up. -/
theorem identities_run {operations : List (Operation ι)} {h : History ι} (reached : run step {} operations = some h) :
    (h.returned.map Prod.fst).Nodup ∧ h.registry.freeSlots.Nodup ∧ ∀ id object, (id, object) ∈ h.returned →
      id.isValid = true ∧ (id.generation = 0xffffffff → id.slot ∉ h.registry.freeSlots) ∧
        ∀ alive, h.registry.lookup alive id = if id ∈ h.invalidated then none else (some object).filter alive := by
  have sound : Sound h := run_preserves (fun _ _ _ sound stepped => step_sound sound stepped) sound_start reached
  refine ⟨sound.distinct,sound.freeDistinct,fun id object member => ?_⟩
  obtain ⟨entry,found,placed⟩ := sound.placed id object member
  refine ⟨placed.valid,fun last free => ?_,placed.lookup found⟩
  have less := placed.free free
  have bound := entry.generation.toNat_lt
  have top : id.generation.toNat = 4294967295 := by
    rw [last]
    simp
  omega

/-- A slot that is taken, given up twice and taken again. -/
def reusedRun : List (Operation Nat) :=
  [.register 7,.invalidate ⟨1,1⟩,.invalidate ⟨1,1⟩,.register 8]

theorem reusedRun_identities : ∃ h, run step {} reusedRun = some h ∧
    h.returned = [(⟨1, 2⟩, 8), (⟨1, 1⟩, 7)] ∧ h.registry.lookup (fun _ => true) ⟨1, 1⟩ = none ∧
      h.registry.lookup (fun _ => true) ⟨1, 2⟩ = some 8 := by
  have result : (run step {} reusedRun).map (fun h => (h.returned,h.invalidated)) =
      some ([(⟨1,2⟩,8),(⟨1,1⟩,7)],[⟨1,1⟩,⟨1,1⟩]) := by decide
  obtain ⟨h,reached,same⟩ := Option.map_eq_some_iff.mp result
  obtain ⟨returned,invalidated⟩ := Prod.mk.inj same
  obtain ⟨_,_,each⟩ := identities_run reached
  refine ⟨h,reached,returned,?_,?_⟩
  · rw [(each ⟨1,1⟩ 7 (by simp [returned])).2.2,invalidated]
    exact if_pos (by decide)
  · rw [(each ⟨1,2⟩ 8 (by simp [returned])).2.2,invalidated,if_neg (by decide)]
    rfl

end ObjectRegistry
end Gargantuan
