import Gargantuan.SpatialRegionIndex

/-!
The addresses and the rows of the region index: the memberships that bounds
derive are ascending addresses of their space, and a row names each of them
once, with the primary address among them.
-/
namespace Gargantuan
open SpatialCellAddress
namespace SpatialRegionIndex

theorem ascending_axis (minimum maximum : Int) : (axis minimum maximum).Pairwise (· < ·) := by
  rw [axis,List.pairwise_map]
  refine List.pairwise_lt_range.imp ?_
  intro a b below
  omega

theorem mem_axis {minimum maximum x : Int} : x ∈ axis minimum maximum ↔ minimum ≤ x ∧ x ≤ maximum := by
  simp only [axis,List.mem_map,List.mem_range]
  constructor
  · rintro ⟨offset,within,rfl⟩
    omega
  · rintro ⟨above,below⟩
    exact ⟨(x - minimum).toNat,by omega,by omega⟩

variable {space : SpatialSpaceId}

theorem address_lt {x y z x' y' z' : Int} : (⟨space,⟨x,y,z⟩⟩ : SpatialCellAddress) < ⟨space,⟨x',y',z'⟩⟩ ↔
      x < x' ∨ x = x' ∧ (y < y' ∨ y = y' ∧ z < z') := by
  change key _ < key _ ↔ _
  simp [key,Prod.Lex.toLex_lt_toLex]

variable {minimum maximum : SpatialCellCoordinate} {address : SpatialCellAddress}

theorem space_box (member : address ∈ box space minimum maximum) : address.space = space := by
  simp only [box,List.mem_flatMap,List.mem_map] at member
  obtain ⟨x,-,y,-,z,-,rfl⟩ := member
  rfl

theorem ascending_box (space : SpatialSpaceId) (minimum maximum : SpatialCellCoordinate) :
    (box space minimum maximum).Pairwise (· < ·) := by
  rw [box,List.pairwise_flatMap]
  constructor
  · intro x _
    rw [List.pairwise_flatMap]
    constructor
    · intro y _
      rw [List.pairwise_map]
      exact (ascending_axis ..).imp fun below => address_lt.mpr (.inr ⟨rfl,.inr ⟨rfl,below⟩⟩)
    · refine (ascending_axis ..).imp ?_
      intro y y' below a left b right
      obtain ⟨z,-,rfl⟩ := List.mem_map.mp left
      obtain ⟨z',-,rfl⟩ := List.mem_map.mp right
      exact address_lt.mpr (.inr ⟨rfl,.inl below⟩)
  · refine (ascending_axis ..).imp ?_
    intro x x' below a left b right
    simp only [List.mem_flatMap,List.mem_map] at left right
    obtain ⟨y,-,z,-,rfl⟩ := left
    obtain ⟨y',-,z',-,rfl⟩ := right
    exact address_lt.mpr (.inl below)

theorem box_ne_nil (x : minimum.x ≤ maximum.x) (y : minimum.y ≤ maximum.y)
    (z : minimum.z ≤ maximum.z) : box space minimum maximum ≠ [] := by
  have member : (⟨space,minimum⟩ : SpatialCellAddress) ∈ box space minimum maximum := by
    simp only [box,List.mem_flatMap,List.mem_map]
    exact ⟨minimum.x,mem_axis.mpr ⟨le_rfl,x⟩,minimum.y,mem_axis.mpr ⟨le_rfl,y⟩,minimum.z,
      mem_axis.mpr ⟨le_rfl,z⟩,rfl⟩
  exact List.ne_nil_of_mem member

theorem axisCount_ordered {minimum maximum : Int} {limit count : Nat}
    (counted : axisCount minimum maximum limit = some count) : minimum ≤ maximum := by
  rw [axisCount] at counted
  split_ifs at counted with below above
  omega

structure Placed (space : SpatialSpaceId) (d : Derived) : Prop where
  valid : space.isValid = true
  large : d.large = true → d.memberships = []
  filed : d.large = false → d.memberships ≠ []
  ascending : d.memberships.Pairwise (· < ·)
  within : ∀ address ∈ d.memberships, address.space = space

section
variable {ρ : Type} [DoubleArithmetic ρ] {space : SpatialSpaceId}

theorem space_of_position {position : Vector3 ρ} {regionSize : ρ}
    (found : spatialCellAddressForPosition position regionSize space = some address) : address.space = space := by
  rw [spatialCellAddressForPosition] at found
  split at found
  · contradiction
  · cases x : regionCoordinate position.x regionSize <;> cases y : regionCoordinate position.y regionSize <;>
      cases z : regionCoordinate position.z regionSize <;> simp [x,y,z] at found
    rw [← found]

theorem placed_large (valid : space.isValid) : Placed space ⟨true,[]⟩ :=
  ⟨valid,fun _ => rfl,fun small => by contradiction,.nil,by simp⟩

variable {c : SpatialRegionIndexConfiguration ρ} {bounds : SpatialBounds ρ}

theorem deriveMemberships_error
    {status : SpatialRegionStatus} (refused : deriveMemberships c space bounds = .error status) :
    status ≠ .success := by
  rw [deriveMemberships] at refused
  split at refused
  · cases refused
    decide
  split at refused
  · cases refused
    decide
  dsimp only at refused
  split at refused
  · split at refused
    · split at refused <;> contradiction
    · contradiction
  · cases refused
    decide

theorem deriveMemberships_ok {d : Derived} (derived : deriveMemberships c space bounds = .ok d) : Placed space d := by
  rw [deriveMemberships] at derived
  split at derived
  · contradiction
  rename_i valid
  have valid : space.isValid := by simpa using valid
  split at derived
  · contradiction
  dsimp only at derived
  split at derived
  · rename_i minimum maximum _ _
    split at derived
    · rename_i xCount yCount zCount x y z
      split at derived
      · cases derived
        exact placed_large valid
      · cases derived
        exact ⟨valid,fun large => by contradiction,
          fun _ => box_ne_nil (axisCount_ordered x) (axisCount_ordered y) (axisCount_ordered z),ascending_box ..,
          fun address member => space_box member⟩
    · cases derived
      exact placed_large valid
  · contradiction

end

structure Entry.Sound (e : Entry) : Prop where
  valid : e.primary.isValid = true
  within : ∀ address ∈ e.additional, address.space = e.primary.space
  distinct : (e.primary :: e.additional).Nodup
  sorted : e.additional.Pairwise (· ≤ ·)
  alone : e.large = true → e.additional = []

variable (e : Entry)

theorem Entry.contains_eq (address : SpatialCellAddress) :
    e.contains address = decide (address ∈ e.copyMemberships) := by
  rw [Entry.contains,Entry.copyMemberships]
  cases e.large with
  | true => rfl
  | false =>
    by_cases here : address = e.primary
    · simp [here]
    · simp [here,Ne.symm here]

theorem Entry.length_copyMemberships : e.copyMemberships.length = e.membershipCount := by
  rw [Entry.copyMemberships,Entry.membershipCount]
  cases e.large <;> rfl

theorem Entry.Sound.nodup {e : Entry} (sound : e.Sound) : e.copyMemberships.Nodup := by
  rw [Entry.copyMemberships]
  split
  · exact .nil
  · exact sound.distinct

variable {d : Derived}

theorem makeEntry_filed (placed : Placed space d) (small : d.large = false) (center : Option SpatialCellAddress) :
    (makeEntry center d).large = false ∧ (makeEntry center d).primary ∈ d.memberships ∧
      (makeEntry center d).additional = d.memberships.filter (· ≠ (makeEntry center d).primary) := by
  have first : ∀ l : List SpatialCellAddress, l ≠ [] → l.headD {} ∈ l := by
    intro l nonempty
    cases l with
    | nil => contradiction
    | cons head rest => exact (.head _)
  simp only [makeEntry,small,Bool.false_eq_true,if_false,true_and,and_true]
  cases kept : center.filter (· ∈ d.memberships) with
  | none => exact first d.memberships (placed.filed small)
  | some address =>
    obtain ⟨-,member⟩ := Option.filter_eq_some_iff.mp kept
    simpa using member

theorem mem_makeEntry (placed : Placed space d) (center : Option SpatialCellAddress) (address : SpatialCellAddress) :
    address ∈ (makeEntry center d).copyMemberships ↔ address ∈ d.memberships := by
  cases size : d.large with
  | true => simp [makeEntry,size,Entry.copyMemberships,placed.large size]
  | false =>
    obtain ⟨small,member,rest⟩ := makeEntry_filed placed size center
    rw [Entry.copyMemberships,small,if_neg nofun,List.mem_cons,rest]
    by_cases here : address = (makeEntry center d).primary
    · simpa [here] using member
    · simp [here]

theorem membershipCount_makeEntry (placed : Placed space d) (center : Option SpatialCellAddress) :
    (makeEntry center d).membershipCount = d.memberships.length := by
  cases size : d.large with
  | true => simp [makeEntry,size,Entry.membershipCount,placed.large size]
  | false =>
    obtain ⟨small,member,rest⟩ := makeEntry_filed placed size center
    have distinct : d.memberships.Nodup := placed.ascending.imp ne_of_lt
    have counted := List.length_erase_of_mem member
    have nonempty := List.length_pos_of_mem member
    have same : (makeEntry center d).additional = d.memberships.erase (makeEntry center d).primary := by
      rw [rest,distinct.erase_eq_filter]
      exact List.filter_congr fun address _ => by simp [bne,beq_eq_decide]
    rw [Entry.membershipCount,small,if_neg nofun,same]
    omega

variable {center : Option SpatialCellAddress}

theorem makeEntry_sound (placed : Placed space d) (near : ∀ address, center = some address → address.space = space)
    (centered : d.large → center = none → space = defaultSpatialSpace) :
    (makeEntry center d).Sound ∧ (makeEntry center d).primary.space = space ∧ (makeEntry center d).large = d.large := by
  cases size : d.large with
  | true =>
    have made : makeEntry center d = { primary := center.getD {}, large := true } := by simp [makeEntry,size]
    have there : (center.getD {}).space = space := by
      cases place : center with
      | none => exact (centered size place).symm
      | some address => exact near address place
    rw [made]
    refine ⟨⟨?_,by simp,by simp,.nil,fun _ => rfl⟩,there,rfl⟩
    rw [isValid,there]
    exact placed.valid
  | false =>
    obtain ⟨small,member,rest⟩ := makeEntry_filed placed size center
    have there := placed.within _ member
    have distinct : d.memberships.Nodup := placed.ascending.imp ne_of_lt
    refine ⟨⟨?_,?_,?_,?_,fun large => by simp [small] at large⟩,there,small⟩
    · rw [isValid,there]
      exact placed.valid
    · intro address additional
      rw [rest] at additional
      rw [there]
      exact placed.within address (List.mem_of_mem_filter additional)
    · rw [rest]
      exact List.nodup_cons.mpr ⟨by simp,distinct.filter _⟩
    · rw [rest]
      exact (placed.ascending.imp le_of_lt).filter _

/-- Where an address and a row of the object table agree that the object is filed. -/
def under (entry : Option Entry) (address : SpatialCellAddress) : Bool :=
  entry.any fun e => decide (address ∈ e.copyMemberships)

def largeIn (entry : Option Entry) (space : SpatialSpaceId) : Bool :=
  entry.any fun e => e.large && e.primary.space == space

@[simp] theorem under_none (address : SpatialCellAddress) : under none address = false := rfl

@[simp] theorem largeIn_none (space : SpatialSpaceId) : largeIn none space = false := rfl

@[simp] theorem under_some (address : SpatialCellAddress) :
    under (some e) address = decide (address ∈ e.copyMemberships) := rfl

@[simp] theorem largeIn_some (space : SpatialSpaceId) :
    largeIn (some e) space = (e.large && e.primary.space == space) := rfl

theorem under_makeEntry (placed : Placed space d) (center : Option SpatialCellAddress) (address : SpatialCellAddress) :
    under (some (makeEntry center d)) address = decide (address ∈ d.memberships) := by
  exact decide_eq_decide.mpr (mem_makeEntry placed center address)

theorem updatePrimaryAddress_sound {e : Entry} (sound : e.Sound)
    (near : ∀ address, center = some address → address.space = e.primary.space) :
    (e.updatePrimaryAddress center).Sound ∧ (e.updatePrimaryAddress center).large = e.large ∧
      (e.updatePrimaryAddress center).primary.space = e.primary.space ∧
      (e.updatePrimaryAddress center).copyMemberships.Perm e.copyMemberships := by
  cases place : center with
  | none => exact ⟨sound,rfl,rfl,.refl _⟩
  | some address =>
    have there := near address place
    have valid : address.isValid := by
      rw [isValid,there]
      exact sound.valid
    simp only [Entry.updatePrimaryAddress]
    split_ifs with same large member
    · exact ⟨sound,rfl,rfl,.refl _⟩
    · refine ⟨⟨valid,?_,?_,sound.sorted,sound.alone⟩,rfl,there,?_⟩
      · intro other additional
        exact (sound.within other additional).trans there.symm
      · simp [sound.alone large]
      · simp [Entry.copyMemberships,large]
    · have exchanged : (address :: (e.additional.erase address).orderedInsert (· ≤ ·) e.primary).Perm
          (e.primary :: e.additional) := by
        have swapped := (List.perm_orderedInsert (· ≤ ·) e.primary (e.additional.erase address)).cons address
        exact (swapped.trans (.swap ..)).trans ((List.perm_cons_erase member).symm.cons e.primary)
      refine ⟨⟨valid,?_,?_,?_,fun whole => absurd whole large⟩,rfl,there,?_⟩
      · intro other additional
        rw [List.mem_orderedInsert] at additional
        rcases additional with rfl | additional
        · exact there.symm
        · exact (sound.within other (List.mem_of_mem_erase additional)).trans there.symm
      · exact exchanged.nodup_iff.mpr sound.distinct
      · exact (sound.sorted.sublist List.erase_sublist).orderedInsert ..
      · simpa [Entry.copyMemberships,large] using exchanged
    · exact ⟨sound,rfl,rfl,.refl _⟩

end SpatialRegionIndex
end Gargantuan
