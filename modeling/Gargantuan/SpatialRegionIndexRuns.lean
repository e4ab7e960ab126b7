import Gargantuan.Runs
import Gargantuan.SpatialRegionEntries

/-!
The region index keeps its object table and its buckets in step over every run
of its operations, whichever allocations fail, as long as no large object is
filed in a space other than the default one with its centre outside every cell.
-/
namespace Gargantuan
open SortedMap List Buckets Bool SpatialRegionIndexConfiguration Ne
namespace SpatialRegionIndex

/-! ### The index as a whole -/

structure Described (objects : SortedMap ObjectId Entry) (regions : Buckets SpatialCellAddress ObjectId)
    (largeObjects : Buckets SpatialSpaceId ObjectId) : Prop where
  entries : ∀ object e, objects.find? object = some e → e.Sound
  filed : ∀ address object, regions.holds address object = under (objects.find? object) address
  filedLarge : ∀ space object, largeObjects.holds space object = largeIn (objects.find? object) space
  filledRegions : regions.Filled
  filledLarge : largeObjects.Filled

/-- The gauges are exact and within the maxima. -/
structure Sound {ρ : Type} (c : SpatialRegionIndexConfiguration ρ) (s : SpatialRegionIndex) : Prop where
  described : Described s.objects s.regions s.largeObjects
  regionCount : s.metrics.regionCount = s.regions.size
  objectCount : s.metrics.spatialObjectCount = s.objects.size
  membershipCount : s.metrics.membershipCount = s.objects.total Entry.membershipCount
  largeCount : s.metrics.largeObjectCount = s.largeObjects.count
  objectLimit : s.objects.size ≤ c.maximumObjects
  regionLimit : s.regions.size ≤ c.maximumRegions
  membershipLimit : s.metrics.membershipCount ≤ c.maximumMemberships
  largeLimit : s.largeObjects.count ≤ c.maximumLargeObjects

structure Kept {ρ : Type} (c : SpatialRegionIndexConfiguration ρ) (s : SpatialRegionIndex)
    (rows : SortedMap ObjectId Entry → Prop) (r : SpatialRegionStatus × SpatialRegionIndex) : Prop where
  sound : Sound c r.2
  unchanged : r.1 ≠ .success → r.2 = s
  rows : r.1 = .success → rows r.2.objects

def Rowed (s : SpatialRegionIndex) (object : ObjectId) (space : SpatialSpaceId)
    (objects : SortedMap ObjectId Entry) : Prop :=
  ∃ e : Entry, e.primary.space = space ∧ objects = s.objects.insert object e

theorem Described.exchange {objects objects' : SortedMap ObjectId Entry}
    {regions regions' : Buckets SpatialCellAddress ObjectId} {large large' : Buckets SpatialSpaceId ObjectId}
    (described : Described objects regions large) {object : ObjectId} {entry : Option Entry}
    (stored : ∀ other, objects'.find? other = if other = object then entry else objects.find? other)
    (sound : ∀ e, entry = some e → e.Sound) (filed : ∀ address other, regions'.holds address other =
      if other = object then under entry address else regions.holds address other)
    (filedLarge : ∀ space other, large'.holds space other =
      if other = object then largeIn entry space else large.holds space other)
    (filledRegions : regions'.Filled) (filledLarge : large'.Filled) : Described objects' regions' large' := by
  refine ⟨?_,?_,?_,filledRegions,filledLarge⟩
  · intro other e found
    rw [stored] at found
    by_cases here : other = object
    · rw [if_pos here] at found
      exact sound e found
    · rw [if_neg here] at found
      exact described.entries other e found
  · intro address other
    rw [filed,stored]
    by_cases here : other = object
    · rw [if_pos here,if_pos here]
    · rw [if_neg here,if_neg here,described.filed]
  · intro space other
    rw [filedLarge,stored]
    by_cases here : other = object
    · rw [if_pos here,if_pos here]
    · rw [if_neg here,if_neg here,described.filedLarge]

theorem saturatingAdd_of_le {a b : Nat} (room : a + b ≤ maximumUnsigned) : saturatingAdd a b = a + b := by
  rw [saturatingAdd]
  split_ifs with beyond
  · omega
  · rfl

theorem sizeSub_of_le {a b : Nat} (room : b ≤ a) : sizeSub a b = a - b := if_pos room

theorem refreshed_largeCount {m : Buckets SpatialSpaceId ObjectId} (room : m.count ≤ maximumUnsigned) :
    m.entries.foldl (fun count bucket => saturatingAdd count bucket.2.size) 0 = m.count := by
  have sums : ∀ (l : List (SpatialSpaceId × SortedSet ObjectId)) (start : Nat),
      start + (l.map fun bucket => bucket.2.size).sum ≤ maximumUnsigned →
        l.foldl (fun count bucket => saturatingAdd count bucket.2.size) start =
          start + (l.map fun bucket => bucket.2.size).sum := by
    intro l
    induction l with
    | nil => exact fun start _ => rfl
    | cons head rest ih =>
      intro start within
      rw [map_cons,sum_cons] at within
      rw [foldl_cons,saturatingAdd_of_le (by omega),ih _ (by omega),map_cons,sum_cons]
      omega
  have total := sums m.entries 0 (by simpa [Buckets.count,SortedMap.total] using room)
  rw [total,Nat.zero_add]
  rfl

section
variable {ρ : Type} [DoubleArithmetic ρ] {c : SpatialRegionIndexConfiguration ρ} {s : SpatialRegionIndex}
  {objects : SortedMap ObjectId Entry} {object : ObjectId} {space : SpatialSpaceId} {d : Derived} {a : Allocations}
  {center : Option SpatialCellAddress} {e : Entry}

theorem settle_sound {count : Nat} (valid : c.isValid) (described : Described objects s.regions s.largeObjects)
    (counted : count = objects.total Entry.membershipCount) (objectLimit : objects.size ≤ c.maximumObjects)
    (regionLimit : s.regions.size ≤ c.maximumRegions) (membershipLimit : count ≤ c.maximumMemberships)
    (largeLimit : s.largeObjects.count ≤ c.maximumLargeObjects) : Sound c (s.settle objects count) := by
  have room : s.largeObjects.count ≤ maximumUnsigned := by
    have maxima := bounds valid
    simp only [maximumSpatialLargeObjects,maximumUnsigned] at maxima ⊢
    omega
  exact ⟨described,rfl,rfl,counted,refreshed_largeCount room,objectLimit,regionLimit,membershipLimit,largeLimit⟩

theorem Sound.refreshGauges (sound : Sound c s) (valid : c.isValid) : s.refreshGauges = s := by
  have room : s.largeObjects.count ≤ maximumUnsigned := by
    have maxima := bounds valid
    have limit := sound.largeLimit
    simp only [maximumSpatialLargeObjects,maximumUnsigned] at maxima ⊢
    omega
  have regionCount := sound.regionCount
  have objectCount := sound.objectCount
  have largeCount := sound.largeCount
  obtain ⟨objects,regions,largeObjects,⟨a,b,m,l⟩⟩ := s
  simp only at regionCount objectCount largeCount room
  subst regionCount objectCount largeCount
  simp only [SpatialRegionIndex.refreshGauges,refreshed_largeCount room]

section
variable {rows : SortedMap ObjectId Entry → Prop}

omit [DoubleArithmetic ρ] in
theorem Kept.undone (sound : Sound c s) {r : SpatialRegionStatus × SpatialRegionIndex} (fails : r.1 ≠ .success)
    (same : r.2 = s) : Kept c s rows r :=
  ⟨same ▸ sound,fun _ => same,fun succeeds => absurd succeeds fails⟩

omit [DoubleArithmetic ρ] in
theorem Kept.refused (sound : Sound c s) {status : SpatialRegionStatus} (fails : status ≠ .success) :
    Kept c s rows (status,s) :=
  .undone sound fails rfl

omit [DoubleArithmetic ρ] in
theorem Kept.guarded (sound : Sound c s) {p : Prop} [Decidable p] {status : SpatialRegionStatus}
    (fails : status ≠ .success) {rest : SpatialRegionStatus × SpatialRegionIndex}
    (onward : ¬ p → Kept c s rows rest) : Kept c s rows (if p then (status,s) else rest) := by
  by_cases refuses : p
  · rw [if_pos refuses]
    exact .refused sound fails
  · rw [if_neg refuses]
    exact onward refuses

end

variable {addresses : List SpatialCellAddress} {failure : Option (Nat × Bool)}

theorem insertMemberships_failed (sound : Sound c s) (valid : c.isValid)
    (absent : ∀ address ∈ addresses, s.regions.holds address object = false)
    (failed : (s.insertMemberships object addresses failure).1 = false) :
    (s.insertMemberships object addresses failure).2 = s := by
  rw [insertMemberships] at failed ⊢
  cases done : (addUntil object failure addresses s.regions).1 with
  | true => simp [done] at failed
  | false =>
    rw [dropAll_addUntil failure sound.described.filledRegions absent]
    exact sound.refreshGauges valid

theorem insertMemberships_done
    (done : (s.insertMemberships object addresses failure).1) :
    (s.insertMemberships object addresses failure).2 =
      { s with regions := .addAll object addresses s.regions } := by
  rw [insertMemberships] at done ⊢
  cases entered : (addUntil object failure addresses s.regions).1 with
  | true =>
    simp only [if_true]
    rw [addUntil_done object failure addresses s.regions entered]
  | false => simp [entered] at done

theorem insertLargeObject_failed {space : SpatialSpaceId} {object : ObjectId} {a : LargeAllocation}
    (failed : (s.insertLargeObject space object a).1 = false) : (s.insertLargeObject space object a).2 = s := by
  cases a with
  | granted => contradiction
  | bucketFails => rfl
  | memberFails =>
    simp only [insertLargeObject]
    cases stored : s.largeObjects.contains space with
    | true => simp [opened,stored]
    | false =>
      have missing : s.largeObjects.find? space = none := by simpa [SortedMap.contains] using stored
      simp [opened,stored,erase_insert,erase_of_absent missing]

theorem insertLargeObject_refused (s : SpatialRegionIndex) (space : SpatialSpaceId) (object : ObjectId) :
    (s.insertLargeObject space object .memberFails).1 = false := rfl

theorem insertLargeObject_done {a : LargeAllocation} (done : (s.insertLargeObject space object a).1) :
    (s.insertLargeObject space object a).2 = { s with largeObjects := s.largeObjects.add space object } := by
  cases a with
  | granted => rfl
  | bucketFails => contradiction
  | memberFails => contradiction

/-- A large object of a space other than the default one whose centre lies in no cell: its entry
    names the default space. -/
def uncentered (c : SpatialRegionIndexConfiguration ρ) (space : SpatialSpaceId) (bounds : SpatialBounds ρ) : Bool :=
  match deriveMemberships c space bounds with
  | .ok d => d.large && (centerAddress c space bounds).isNone && space != defaultSpatialSpace
  | .error _ => false

/-- Whether the operation gets to file such an object: it passes the checks, and its allocations
    are granted. -/
def misplaces (c : SpatialRegionIndexConfiguration ρ) (s : SpatialRegionIndex) : Operation ρ → Bool
  | .register a object space bounds =>
    uncentered c space bounds && object.isValid && !s.objects.contains object && s.objects.size < c.maximumObjects &&
      s.metrics.largeObjectCount < c.maximumLargeObjects && a.large == .granted && a.object
  | .update a object space bounds =>
    match s.objects.find? object with
    | none => false
    | some e => uncentered c space bounds && !(e.large && e.primary.space == space) &&
        (e.large || s.metrics.largeObjectCount < c.maximumLargeObjects) && a.large == .granted
  | .remove _ => false

theorem centered_of_not {bounds : SpatialBounds ρ} (derived : deriveMemberships c space bounds = .ok d)
    (centered : uncentered c space bounds = false) (large : d.large)
    (none : centerAddress c space bounds = none) : space = defaultSpatialSpace := by
  simpa [uncentered,derived,large,none] using centered

theorem space_of_center {bounds : SpatialBounds ρ} {address : SpatialCellAddress}
    (found : centerAddress c space bounds = some address) : address.space = space := space_of_position found

theorem Described.absent {regions : Buckets SpatialCellAddress ObjectId} {large : Buckets SpatialSpaceId ObjectId}
    (described : Described objects regions large) (missing : objects.find? object = none) :
    (∀ address, regions.holds address object = false) ∧ ∀ space, large.holds space object = false := by
  constructor
  · intro address
    rw [described.filed,missing,under_none]
  · intro space
    rw [described.filedLarge,missing,largeIn_none]

def filedAs (s : SpatialRegionIndex) (object : ObjectId) (space : SpatialSpaceId) (d : Derived) :
    SpatialRegionIndex :=
  if d.large then { s with largeObjects := s.largeObjects.add space object }
  else { s with regions := Buckets.addAll object d.memberships s.regions }

theorem insertDerived_failed (sound : Sound c s) (valid : c.isValid) (missing : s.objects.find? object = none)
    (failed : (s.insertDerived a object space d).1 = false) : (s.insertDerived a object space d).2 = s := by
  rw [insertDerived] at failed ⊢
  cases large : d.large with
  | true =>
    simp only [large,if_true] at failed ⊢
    exact insertLargeObject_failed failed
  | false =>
    simp only [large,false_eq_true,if_false] at failed ⊢
    exact insertMemberships_failed sound valid (fun address _ => (sound.described.absent missing).1 address) failed

theorem insertDerived_done (done : (s.insertDerived a object space d).1) :
    (s.insertDerived a object space d).2 = s.filedAs object space d := by
  rw [insertDerived] at done
  rw [insertDerived,filedAs]
  cases large : d.large with
  | true =>
    simp only [large,if_true] at done ⊢
    exact insertLargeObject_done done
  | false =>
    simp only [large,false_eq_true,if_false] at done ⊢
    exact insertMemberships_done done

theorem insertDerived_granted (large : d.large) (done : (s.insertDerived a object space d).1) : a.large = .granted := by
  rw [insertDerived,large] at done
  cases plan : a.large with
  | granted => rfl
  | bucketFails => simp [plan,insertLargeObject] at done
  | memberFails => simp [plan,insertLargeObject] at done

omit [DoubleArithmetic ρ] in
theorem filedAs_undone (sound : Sound c s) (missing : s.objects.find? object = none) (space : SpatialSpaceId)
    (d : Derived) : (if d.large then (s.filedAs object space d).removeLargeObject space object
      else (s.filedAs object space d).removeMemberships object d.memberships) = s := by
  obtain ⟨unfiled,notLarge⟩ := sound.described.absent missing
  cases large : d.large with
  | true =>
    simp only [filedAs,large,if_true,removeLargeObject]
    rw [drop_add sound.described.filledLarge (notLarge space)]
  | false =>
    simp only [filedAs,large,false_eq_true,if_false,removeMemberships]
    rw [dropAll_addAll sound.described.filledRegions fun address _ => unfiled address]

theorem size_insert_new (missing : objects.find? object = none) (e : Entry) :
    (objects.insert object e).size = objects.size + 1 := by
  have counted := (insert_perm e missing).length_eq
  simpa [SortedMap.size] using counted

omit [DoubleArithmetic ρ] in
/-- The buckets hold a new object where its row says. -/
theorem filedAs_described (sound : Sound c s) (missing : s.objects.find? object = none) (placed : Placed space d)
    (made : (makeEntry center d).Sound ∧ (makeEntry center d).primary.space = space ∧
      (makeEntry center d).large = d.large) :
    Described (s.objects.insert object (makeEntry center d)) (s.filedAs object space d).regions
      (s.filedAs object space d).largeObjects := by
  obtain ⟨entry,there,size⟩ := made
  obtain ⟨unfiled,notLarge⟩ := sound.described.absent missing
  refine sound.described.exchange (fun other => find?_insert ..) ?_ ?_ ?_ ?_ ?_
  · intro e same
    cases same
    exact entry
  · intro address other
    rw [under_makeEntry placed]
    cases large : d.large with
    | true =>
      simp only [filedAs,large,if_true,placed.large large]
      by_cases here : other = object
      · simp [here,unfiled]
      · simp [here]
    | false =>
      simp only [filedAs,large,Bool.false_eq_true,if_false,holds_addAll]
      by_cases here : other = object
      · simp [here,unfiled]
      · simp [here]
  · intro other holder
    rw [largeIn_some,size,there]
    cases large : d.large with
    | true =>
      simp only [filedAs,large,if_true,holds_add,Bool.true_and]
      by_cases here : holder = object
      · by_cases same : other = space
        · simp [here,same]
        · simp [here,same,symm same,notLarge]
      · simp [here]
    | false =>
      simp only [filedAs,large,Bool.false_eq_true,if_false,Bool.false_and]
      by_cases here : holder = object
      · simp [here,notLarge]
      · simp [here]
  · rw [filedAs]
    split
    · exact sound.described.filledRegions
    · exact filled_addAll object d.memberships sound.described.filledRegions
  · rw [filedAs]
    split
    · exact filled_add sound.described.filledLarge space object
    · exact sound.described.filledLarge

/-- A new object that passed the checks is filed within the limits. -/
theorem register_sound (sound : Sound c s) (valid : c.isValid) (missing : s.objects.find? object = none)
    (placed : Placed space d) (made : (makeEntry center d).Sound ∧ (makeEntry center d).primary.space = space ∧
      (makeEntry center d).large = d.large) (room : s.objects.size < c.maximumObjects)
    (largeRoom : d.large → s.metrics.largeObjectCount < c.maximumLargeObjects)
    (membershipRoom : d.large = false → d.memberships.length ≤ c.maximumMemberships ∧
      s.metrics.membershipCount ≤ sizeSub c.maximumMemberships d.memberships.length)
    (regionRoom : d.large = false → s.newRegionCount d.memberships ≤ sizeSub c.maximumRegions s.regions.size) :
    Sound c ((s.filedAs object space d).settle (s.objects.insert object (makeEntry center d))
      (if d.large then s.metrics.membershipCount
        else saturatingAdd s.metrics.membershipCount d.memberships.length)) := by
  have maxima := bounds valid
  simp only [maximumSpatialRegionIndexMemberships] at maxima
  have counted := total_insert_new Entry.membershipCount missing (makeEntry center d)
  rw [membershipCount_makeEntry placed,← sound.membershipCount] at counted
  have size := size_insert_new missing (makeEntry center d)
  have distinct : d.memberships.Nodup := placed.ascending.imp ne_of_lt
  have described := filedAs_described sound missing placed made
  obtain ⟨-,notLarge⟩ := sound.described.absent missing
  have membershipLimit := sound.membershipLimit
  cases large : d.large with
  | true =>
    have none := placed.large large
    have roomLeft := largeRoom large
    rw [sound.largeCount] at roomLeft
    rw [none,length_nil] at counted
    refine settle_sound valid described ?_ (by omega) ?_ ?_ ?_
    · simpa using counted.symm
    · simpa [filedAs,large] using sound.regionLimit
    · simpa using membershipLimit
    · have grown := count_add (notLarge space)
      simp only [filedAs,large,if_true]
      omega
  | false =>
    obtain ⟨few,room'⟩ := membershipRoom large
    rw [sizeSub_of_le few] at room'
    have fits := regionRoom large
    rw [sizeSub_of_le sound.regionLimit] at fits
    have added : saturatingAdd s.metrics.membershipCount d.memberships.length =
        s.metrics.membershipCount + d.memberships.length :=
      saturatingAdd_of_le (by simp only [maximumUnsigned]; omega)
    refine settle_sound valid described ?_ (by omega) ?_ ?_ ?_
    · simpa [added] using counted.symm
    · have grown := size_addAll object distinct s.regions
      have limit := sound.regionLimit
      simp only [newRegionCount] at fits
      simp only [filedAs,large,false_eq_true,if_false]
      omega
    · simp only [false_eq_true,if_false,added]
      omega
    · simpa [filedAs,large] using sound.largeLimit

theorem register_kept (sound : Sound c s) (valid : c.isValid) {a : Allocations} {object : ObjectId}
    {space : SpatialSpaceId} {bounds : SpatialBounds ρ}
    (meets : misplaces c s (.register a object space bounds) = false) :
    Kept c s (s.Rowed object space) (s.register c a object space bounds) := by
  refine .guarded sound (by decide) fun identity => .guarded sound (by decide) fun known =>
    .guarded sound (by decide) fun stored => .guarded sound (by decide) fun full => ?_
  have missing : s.objects.find? object = none := by simpa [SortedMap.contains] using stored
  cases derived : deriveMemberships c space bounds with
  | error status => exact .refused sound (deriveMemberships_error derived)
  | ok d =>
    have placed := deriveMemberships_ok derived
    refine .guarded sound (by decide) fun largeFull => .guarded sound (by decide) fun many =>
      .guarded sound (by decide) fun regionsFull => .guarded sound (by decide) fun noEntry => ?_
    by_cases done : (s.insertDerived a object space d).1 = true
    · simp only [done,Bool.not_true,Bool.false_eq_true,if_false]
      rw [insertDerived_done done]
      by_cases stores : a.object = true
      · have made : (makeEntry (centerAddress c space bounds) d).Sound ∧
            (makeEntry (centerAddress c space bounds) d).primary.space = space ∧
              (makeEntry (centerAddress c space bounds) d).large = d.large := by
          refine makeEntry_sound placed (fun address => space_of_center) fun large none => ?_
          refine centered_of_not derived ?_ large none
          have granted := insertDerived_granted large done
          have room : s.metrics.largeObjectCount < c.maximumLargeObjects := by simpa [large] using largeFull
          have named : object.isValid := by simpa using identity
          simpa [misplaces,granted,stored,named,not_le.mp full,room,stores] using meets
        simp only [stores,Bool.not_true,Bool.false_eq_true,if_false]
        refine ⟨?_,absurd rfl,fun _ => ⟨_,made.2.1,rfl⟩⟩
        refine register_sound sound valid missing placed made (not_le.mp full) ?_ ?_ ?_
        · intro large
          simpa [large] using largeFull
        · intro large
          simpa [large] using many
        · intro large
          simpa [large] using regionsFull
      · simp only [stores,Bool.not_false,if_true]
        exact .undone sound (by simp) (filedAs_undone sound missing space d)
    · simp only [done,Bool.not_false,if_true]
      exact .undone sound (by simp) (insertDerived_failed sound valid missing (by simpa using done))

/-! ### Updates and removals -/

omit [DoubleArithmetic ρ] in
theorem Sound.counts (sound : Sound c s) (found : s.objects.find? object = some e) :
    s.metrics.membershipCount = (s.objects.erase object).total Entry.membershipCount + e.membershipCount := by
  rw [sound.membershipCount]
  exact total_erase Entry.membershipCount found

theorem size_insert_found (found : objects.find? object = some e) (e' : Entry) :
    (objects.insert object e').size = objects.size := by
  have erased := (erase_perm found).length_eq
  have entered := (insert_perm e' (find?_erase_self objects object)).length_eq
  have again : (objects.erase object).insert object e' = objects.insert object e' := by
    refine ext_find? fun other => ?_
    simp only [find?_insert,find?_erase]
    split_ifs <;> rfl
  rw [again] at entered
  simp only [SortedMap.size]
  rw [entered,erased]
  simp

omit [DoubleArithmetic ρ] in
theorem same_kept (sound : Sound c s) (found : s.objects.find? object = some e)
    (near : ∀ address, center = some address → address.space = e.primary.space) :
    Kept c s (s.Rowed object e.primary.space)
      (.success,{ s with objects := s.objects.insert object (e.updatePrimaryAddress center) }) := by
  obtain ⟨entry,large,there,moved⟩ := updatePrimaryAddress_sound (sound.described.entries object e found) near
  have count : (e.updatePrimaryAddress center).membershipCount = e.membershipCount := by
    rw [← Entry.length_copyMemberships,← Entry.length_copyMemberships,moved.length_eq]
  have total := total_insert Entry.membershipCount found (e.updatePrimaryAddress center)
  have size := size_insert_found found (e.updatePrimaryAddress center)
  refine ⟨{ sound with described := ?_, objectCount := ?_, membershipCount := ?_, objectLimit := ?_ },
    fun failed => absurd rfl failed,fun _ => ⟨_,there,rfl⟩⟩
  · refine sound.described.exchange (fun other => find?_insert ..) ?_ ?_ ?_
      sound.described.filledRegions sound.described.filledLarge
    · intro e' same
      cases same
      exact entry
    · intro address other
      rw [sound.described.filed]
      by_cases here : other = object
      · simp [here,found,moved.mem_iff]
      · simp [here]
    · intro space other
      rw [sound.described.filedLarge]
      by_cases here : other = object
      · simp [here,found,large,there]
      · simp [here]
  · exact sound.objectCount.trans size.symm
  · have counted := sound.membershipCount
    change s.metrics.membershipCount = (s.objects.insert object (e.updatePrimaryAddress center)).total _
    omega
  · exact size.le.trans sound.objectLimit

def takenOut (s : SpatialRegionIndex) (object : ObjectId) (e : Entry) : SpatialRegionIndex :=
  if e.large then (s.removeMemberships object e.copyMemberships).removeLargeObject e.primary.space object
  else s.removeMemberships object e.copyMemberships

omit [DoubleArithmetic ρ] in
theorem regions_takenOut (s : SpatialRegionIndex) (object : ObjectId) (e : Entry) :
    (s.takenOut object e).regions = dropAll object e.copyMemberships s.regions := by
  rw [takenOut]
  split <;> rfl

omit [DoubleArithmetic ρ] in
theorem large_takenOut (s : SpatialRegionIndex) (object : ObjectId) (e : Entry) : (s.takenOut object e).largeObjects =
      if e.large then s.largeObjects.drop e.primary.space object else s.largeObjects := by
  rw [takenOut]
  split <;> rfl

omit [DoubleArithmetic ρ] in
theorem Sound.held (sound : Sound c s) (found : s.objects.find? object = some e) :
    (∀ address, s.regions.holds address object = decide (address ∈ e.copyMemberships)) ∧
      ∀ space, s.largeObjects.holds space object = (e.large && e.primary.space == space) := by
  constructor
  · intro address
    rw [sound.described.filed,found,under_some]
  · intro space
    rw [sound.described.filedLarge,found,largeIn_some]

omit [DoubleArithmetic ρ] in
theorem takenOut_described (sound : Sound c s) (found : s.objects.find? object = some e) :
    Described (s.objects.erase object) (s.takenOut object e).regions (s.takenOut object e).largeObjects := by
  obtain ⟨filed,filedLarge⟩ := sound.held found
  have gone : ∀ other, (s.objects.erase object).find? other =
      if other = object then none else s.objects.find? other := fun other => find?_erase ..
  rw [regions_takenOut,large_takenOut]
  refine sound.described.exchange gone ?_ ?_ ?_ (sound.described.filledRegions.dropAll object e.copyMemberships) ?_
  · intro e' same
    contradiction
  · intro address other
    rw [holds_dropAll]
    by_cases here : other = object
    · simp [here,filed]
    · simp [here]
  · intro space other
    by_cases large : e.large = true
    · rw [if_pos large,holds_drop]
      by_cases here : other = object
      · by_cases same : space = e.primary.space
        · simp [here,same]
        · simp [here,same,filedLarge,symm same]
      · simp [here]
    · rw [if_neg large]
      by_cases here : other = object
      · simp [here,filedLarge,large]
      · simp [here]
  · split
    · exact filled_drop (sound.described.filledLarge.weaken (by simp)) object
    · exact sound.described.filledLarge

theorem remove_kept (sound : Sound c s) (valid : c.isValid) (object : ObjectId) :
    Kept c s (fun objects => objects = s.objects.erase object) (s.remove object) := by
  rw [remove]
  cases found : s.objects.find? object with
  | none => exact .refused sound (by decide)
  | some e =>
    have entry := sound.described.entries object e found
    obtain ⟨filed,filedLarge⟩ := sound.held found
    have counted := sound.counts found
    have limit := sound.membershipLimit
    have left : sizeSub s.metrics.membershipCount e.membershipCount =
        (s.objects.erase object).total Entry.membershipCount := by
      rw [sizeSub_of_le (by omega)]
      omega
    have size : (s.objects.erase object).size ≤ s.objects.size := by
      have erased := (erase_perm found).length_eq
      rw [length_cons] at erased
      simp only [SortedMap.size]
      omega
    have regions : (s.takenOut object e).regions.size ≤ c.maximumRegions := by
      have shrunk := size_dropAll object entry.nodup fun address member => by
        rw [filed]
        exact decide_eq_true member
      have before := sound.regionLimit
      rw [regions_takenOut]
      omega
    have largeLimit : (s.takenOut object e).largeObjects.count ≤ c.maximumLargeObjects := by
      have before := sound.largeLimit
      rw [large_takenOut]
      by_cases large : e.large = true
      · have held : s.largeObjects.holds e.primary.space object := by simp [filedLarge,large]
        have shrunk := count_drop held
        rw [if_pos large]
        omega
      · rwa [if_neg large]
    exact ⟨settle_sound valid (takenOut_described sound found) left (size.trans sound.objectLimit) regions
      (by omega) largeLimit,absurd rfl,fun _ => rfl⟩

/-- The buckets after a move. -/
def moved (s : SpatialRegionIndex) (object : ObjectId) (e : Entry) (space : SpatialSpaceId) (d : Derived) :
    SpatialRegionIndex :=
  let entered := if addsLarge e space d then s.largeObjects.add space object else s.largeObjects
  { s with
    regions := Buckets.dropAll object (removedMemberships e d)
      (Buckets.addAll object (addedMemberships e d) s.regions)
    largeObjects := if dropsLarge e space d then entered.drop e.primary.space object else entered }

theorem mem_added {e : Entry} {d : Derived} {address : SpatialCellAddress} :
    address ∈ addedMemberships e d ↔ d.large = false ∧ address ∈ d.memberships ∧ address ∉ e.copyMemberships := by
  rw [addedMemberships]
  by_cases large : d.large = true
  · simp [large]
  · simp [large,Entry.contains_eq]

theorem mem_removed {e : Entry} {space : SpatialSpaceId} {d : Derived} (placed : Placed space d)
    {address : SpatialCellAddress} :
    address ∈ removedMemberships e d ↔ address ∈ e.copyMemberships ∧ address ∉ d.memberships := by
  rw [removedMemberships]
  by_cases large : e.large = true
  · simp [large,Entry.copyMemberships]
  · by_cases whole : d.large = true
    · simp [large,whole,placed.large whole]
    · simp [large,whole,Entry.copyMemberships]

theorem nodup_removed (entry : e.Sound) (d : Derived) : (removedMemberships e d).Nodup := by
  rw [removedMemberships]
  split_ifs
  · exact .nil
  · exact entry.nodup
  · exact entry.distinct.filter _

theorem move_granted (granted : a.large = .granted) (object : ObjectId) (adds : addsLarge e space d)
    (center : Option SpatialCellAddress) :
    s.move a object e space d center = (.success,(s.moved object e space d).settle
      (s.objects.insert object (makeEntry center d))
      (saturatingAdd (sizeSub s.metrics.membershipCount e.membershipCount) d.memberships.length)) := by
  have large : d.large := by
    rw [addsLarge,Bool.and_eq_true] at adds
    exact adds.1
  have none : addedMemberships e d = [] := by simp [addedMemberships,large]
  simp only [move,moved,adds,if_true,none,granted,insertLargeObject,insertMemberships,addUntil,
    Bool.not_true,Bool.false_eq_true,if_false,removeMemberships]
  by_cases drops : dropsLarge e space d = true
  · simp [drops,addAll,removeLargeObject]
  · simp [drops,addAll]

theorem move_cases (sound : Sound c s) (valid : c.isValid) (found : s.objects.find? object = some e)
    (center : Option SpatialCellAddress) : s.move a object e space d center = (.allocationFailure,s) ∨
      (addsLarge e space d → a.large = .granted) ∧
      s.move a object e space d center = (.success,(s.moved object e space d).settle
        (s.objects.insert object (makeEntry center d))
        (saturatingAdd (sizeSub s.metrics.membershipCount e.membershipCount) d.memberships.length)) := by
  have absent : ∀ address ∈ addedMemberships e d, s.regions.holds address object = false := by
    intro address member
    rw [sound.described.filed,found]
    exact decide_eq_false (mem_added.mp member).2.2
  by_cases adds : addsLarge e space d = true
  · cases plan : a.large with
    | granted => exact .inr ⟨fun _ => rfl,move_granted plan object adds center⟩
    | bucketFails =>
      left
      simp [move,adds,plan,insertLargeObject]
    | memberFails =>
      left
      have back := @insertLargeObject_failed s space object .memberFails rfl
      simp only [move,adds,plan,back,insertLargeObject_refused,Bool.not_false,if_true]
  · simp only [move,moved,adds,Bool.false_eq_true,if_false,Bool.not_true]
    by_cases done : (s.insertMemberships object (addedMemberships e d) a.memberships).1 = true
    · right
      refine ⟨fun whole => by contradiction,?_⟩
      simp only [done,Bool.not_true,Bool.false_eq_true,if_false,insertMemberships_done done,removeMemberships]
      by_cases drops : dropsLarge e space d = true
      · simp [drops,removeLargeObject]
      · simp [drops]
    · left
      have back := insertMemberships_failed sound valid absent (Bool.eq_false_iff.mpr done)
      simp only [done,Bool.not_false,if_true,back]

omit [DoubleArithmetic ρ] in
/-- The buckets hold a moved object where its new row says. -/
theorem moved_described (sound : Sound c s) (found : s.objects.find? object = some e) (placed : Placed space d)
    (made : (makeEntry center d).Sound ∧ (makeEntry center d).primary.space = space ∧
      (makeEntry center d).large = d.large) :
    Described (s.objects.insert object (makeEntry center d)) (s.moved object e space d).regions
      (s.moved object e space d).largeObjects := by
  obtain ⟨entry,there,size⟩ := made
  refine sound.described.exchange (fun other => find?_insert ..) ?_ ?_ ?_ ?_ ?_
  · intro e' same
    cases same
    exact entry
  · intro address other
    rw [under_makeEntry placed]
    simp only [moved,holds_dropAll,holds_addAll]
    by_cases here : other = object
    · rw [here,sound.described.filed,found]
      have old := @mem_removed e space d placed address
      have new := @mem_added e d address
      -- a large object has no memberships
      have none : d.large → address ∉ d.memberships := by
        intro large
        rw [placed.large large]
        exact not_mem_nil
      by_cases was : address ∈ e.copyMemberships
      · by_cases is : address ∈ d.memberships
        · simp [old,was,is]
        · simp [old,was,is]
      · by_cases is : address ∈ d.memberships
        · have small : d.large = false := by
            by_contra large
            exact none (by simpa using large) is
          simp [old,new,was,is,small]
        · simp [new,was,is]
    · simp [here]
  · intro other holder
    rw [largeIn_some,size,there]
    by_cases here : holder = object
    · have was : s.largeObjects.holds other object = (e.large && e.primary.space == other) := by
        rw [sound.described.filedLarge,found,largeIn_some]
      rw [here]
      simp only [moved]
      by_cases whole : d.large = true
      · by_cases large : e.large = true
        · by_cases stays : e.primary.space = space
          · simp [addsLarge,dropsLarge,whole,large,stays,was]
          · by_cases new : other = space
            · simp [addsLarge,dropsLarge,whole,large,stays,holds_add,holds_drop,new,
                symm stays]
            · by_cases old : other = e.primary.space
              · simp [addsLarge,dropsLarge,whole,large,stays,holds_drop,old,symm stays]
              · simp [addsLarge,dropsLarge,whole,large,stays,holds_add,holds_drop,new,old,
                  was,symm new,symm old]
        · by_cases new : other = space
          · simp [addsLarge,dropsLarge,whole,large,holds_add,new]
          · simp [addsLarge,dropsLarge,whole,large,holds_add,new,was,symm new]
      · by_cases large : e.large = true
        · by_cases old : other = e.primary.space
          · simp [addsLarge,dropsLarge,whole,large,holds_drop,old]
          · simp [addsLarge,dropsLarge,whole,large,holds_drop,old,was,symm old]
        · simp [addsLarge,dropsLarge,whole,large,was]
    · rw [if_neg here]
      simp only [moved]
      by_cases adds : addsLarge e space d = true <;> by_cases drops : dropsLarge e space d = true <;>
        simp [adds,drops,here,holds_add,holds_drop]
  · exact .dropAll (filled_addAll object _ sound.described.filledRegions) object _
  · have entered : Buckets.Filled
        (if addsLarge e space d then s.largeObjects.add space object else s.largeObjects) := by
      split
      · exact filled_add sound.described.filledLarge space object
      · exact sound.described.filledLarge
    simp only [moved]
    split
    · exact filled_drop (entered.weaken (by simp)) object
    · exact entered

omit [DoubleArithmetic ρ] in
theorem size_moved (sound : Sound c s) (found : s.objects.find? object = some e) (placed : Placed space d) :
    (removedMemberships e d).countP s.regions.single ≤ s.regions.size ∧
      (s.moved object e space d).regions.size + (removedMemberships e d).countP s.regions.single =
        s.regions.size + s.newRegionCount (addedMemberships e d) := by
  have entry := sound.described.entries object e found
  obtain ⟨held,-⟩ := sound.held found
  have filed : ∀ address ∈ removedMemberships e d, s.regions.holds address object := by
    intro address member
    rw [held]
    exact decide_eq_true ((mem_removed placed).mp member).1
  have apart : ∀ address ∈ removedMemberships e d, address ∉ addedMemberships e d := by
    intro address member new
    exact (mem_added.mp new).2.2 ((mem_removed placed).mp member).1
  have addedDistinct : (addedMemberships e d).Nodup := by
    have distinct : d.memberships.Nodup := placed.ascending.imp ne_of_lt
    rw [addedMemberships]
    split
    · exact .nil
    · exact distinct.filter _
  have still : ∀ address ∈ removedMemberships e d,
      (addAll object (addedMemberships e d) s.regions).holds address object = true := by
    intro address member
    rw [holds_addAll,filed address member,Bool.or_true]
  -- the buckets of the old regions are as they were when the object was filed under the new ones
  have same : (removedMemberships e d).countP
      (single (.addAll object (addedMemberships e d) s.regions)) =
        (removedMemberships e d).countP s.regions.single := by
    refine countP_congr fun address member => ?_
    rw [single,single,find?_addAll_of_not_mem object (apart address member)]
  have reclaimed := size_dropAll object (nodup_removed entry d) filed
  have grown := size_addAll object addedDistinct s.regions
  have shrunk := size_dropAll object (nodup_removed entry d) still
  simp only [moved,newRegionCount]
  omega

omit [DoubleArithmetic ρ] in
theorem count_moved (sound : Sound c s) (found : s.objects.find? object = some e) (space : SpatialSpaceId)
    (d : Derived) : (s.moved object e space d).largeObjects.count ≤
      s.largeObjects.count + if d.large = true ∧ e.large = false then 1 else 0 := by
  obtain ⟨-,was⟩ := sound.held found
  simp only [moved]
  by_cases adds : addsLarge e space d = true
  · have whole : d.large := by
      rw [addsLarge,and_eq_true] at adds
      exact adds.1
    have absent : s.largeObjects.holds space object = false := by
      rw [addsLarge] at adds
      by_cases large : e.large = true <;> simp_all
    have grown := count_add absent
    by_cases large : e.large = true
    · have elsewhere : e.primary.space ≠ space := by
        rw [addsLarge,whole,large] at adds
        simpa using adds
      have drops : dropsLarge e space d := by simp [dropsLarge,large,elsewhere]
      have still : (s.largeObjects.add space object).holds e.primary.space object := by
        simp [holds_add,was,large]
      have shrunk := count_drop still
      rw [if_pos adds,if_pos drops]
      omega
    · have stays : ¬ dropsLarge e space d := by simp [dropsLarge,large]
      rw [if_pos adds,if_neg stays,if_pos ⟨whole,by simpa using large⟩]
      omega
  · rw [if_neg adds]
    by_cases drops : dropsLarge e space d = true
    · have large : e.large := by
        rw [dropsLarge,and_eq_true] at drops
        exact drops.1
      have held : s.largeObjects.holds e.primary.space object := by simp [was,large]
      have shrunk := count_drop held
      rw [if_pos drops]
      omega
    · rw [if_neg drops]
      omega

/-- A move within the limits leaves a sound index. -/
theorem moved_sound (sound : Sound c s) (valid : c.isValid) (found : s.objects.find? object = some e)
    (placed : Placed space d) (made : (makeEntry center d).Sound ∧ (makeEntry center d).primary.space = space ∧
      (makeEntry center d).large = d.large)
    (largeRoom : d.large → e.large = false → s.metrics.largeObjectCount < c.maximumLargeObjects)
    (membershipRoom : e.membershipCount < d.memberships.length →
      d.memberships.length - e.membershipCount ≤ c.maximumMemberships ∧
        s.metrics.membershipCount ≤ sizeSub c.maximumMemberships (d.memberships.length - e.membershipCount))
    (regionRoom : s.newRegionCount (addedMemberships e d) ≤
      sizeSub c.maximumRegions (sizeSub s.regions.size ((removedMemberships e d).countP s.regions.single))) :
    Sound c ((s.moved object e space d).settle (s.objects.insert object (makeEntry center d))
      (saturatingAdd (sizeSub s.metrics.membershipCount e.membershipCount) d.memberships.length)) := by
  have maxima := bounds valid
  simp only [maximumSpatialRegionIndexMemberships] at maxima
  have held : s.metrics.membershipCount = (s.objects.erase object).total Entry.membershipCount + e.membershipCount :=
    sound.counts found
  have exchanged := total_insert Entry.membershipCount found (makeEntry center d)
  rw [membershipCount_makeEntry placed,← sound.membershipCount] at exchanged
  have size := size_insert_found found (makeEntry center d)
  have limit := sound.membershipLimit
  have fits : s.metrics.membershipCount + d.memberships.length ≤ c.maximumMemberships + e.membershipCount := by
    by_cases grows : e.membershipCount < d.memberships.length
    · obtain ⟨few,room⟩ := membershipRoom grows
      rw [sizeSub_of_le few] at room
      omega
    · omega
  have added : saturatingAdd (sizeSub s.metrics.membershipCount e.membershipCount) d.memberships.length =
      s.metrics.membershipCount - e.membershipCount + d.memberships.length := by
    rw [sizeSub_of_le (by omega)]
    exact saturatingAdd_of_le (by simp only [maximumUnsigned]; omega)
  have regionLimit : (s.moved object e space d).regions.size ≤ c.maximumRegions := by
    obtain ⟨within,resized⟩ := size_moved sound found placed
    have before := sound.regionLimit
    rw [sizeSub_of_le within,sizeSub_of_le (by omega)] at regionRoom
    omega
  have largeLimit : (s.moved object e space d).largeObjects.count ≤ c.maximumLargeObjects := by
    have counted := count_moved sound found space d
    have before := sound.largeLimit
    by_cases joins : d.large = true ∧ e.large = false
    · have room := largeRoom joins.1 joins.2
      have gauge := sound.largeCount
      rw [if_pos joins] at counted
      omega
    · rw [if_neg joins] at counted
      omega
  refine settle_sound valid (moved_described sound found placed made) ?_ (size.le.trans sound.objectLimit)
    regionLimit ?_ largeLimit
  · rw [added]
    omega
  · rw [added]
    omega

theorem update_kept (sound : Sound c s) (valid : c.isValid) {a : Allocations} {object : ObjectId}
    {space : SpatialSpaceId} {bounds : SpatialBounds ρ}
    (meets : misplaces c s (.update a object space bounds) = false) :
    Kept c s (s.Rowed object space) (s.update c a object space bounds) := by
  rw [update]
  cases found : s.objects.find? object with
  | none => exact .refused sound (by decide)
  | some e =>
    refine .guarded sound (by decide) fun known => ?_
    cases derived : deriveMemberships c space bounds with
    | error status => exact .refused sound (deriveMemberships_error derived)
    | ok d =>
      have placed := deriveMemberships_ok derived
      dsimp only
      by_cases same : sameMemberships e space d = true
      · rw [if_pos same]
        have there : e.primary.space = space := by
          simp only [sameMemberships,and_eq_true,beq_iff_eq] at same
          exact same.1.2
        have near : ∀ address, centerAddress c space bounds = some address → address.space = e.primary.space :=
          fun address center => (space_of_center center).trans there.symm
        have kept := same_kept sound found near
        rwa [there] at kept
      · rw [if_neg same]
        refine .guarded sound (by decide) fun largeFull => .guarded sound (by decide) fun many =>
          .guarded sound (by decide) fun regionsFull => .guarded sound (by decide) fun noEntry => ?_
        rcases move_cases sound valid found (centerAddress c space bounds) with failed | ⟨granted,done⟩
        · rw [failed]
          exact .refused sound (by decide)
        · have largeRoom : d.large = true → e.large = false →
              s.metrics.largeObjectCount < c.maximumLargeObjects := by
            intro whole small
            simpa [whole,small] using largeFull
          have made : (makeEntry (centerAddress c space bounds) d).Sound ∧
              (makeEntry (centerAddress c space bounds) d).primary.space = space ∧
                (makeEntry (centerAddress c space bounds) d).large = d.large := by
            refine makeEntry_sound placed (fun address => space_of_center) fun whole none => ?_
            refine centered_of_not derived ?_ whole none
            have moves : ¬ (e.large ∧ e.primary.space = space) := by
              rintro ⟨large,there⟩
              simp [sameMemberships,whole,large,there] at same
            have adds : addsLarge e space d := by
              by_cases large : e.large = true
              · simpa [addsLarge,whole,large] using moves
              · simp [addsLarge,whole,large]
            have room : e.large ∨ s.metrics.largeObjectCount < c.maximumLargeObjects := by
              by_cases large : e.large = true
              · exact .inl large
              · exact .inr (largeRoom whole (by simpa using large))
            have stays : (e.large && e.primary.space == space) = false := by simpa using moves
            have fits : (e.large || decide (s.metrics.largeObjectCount < c.maximumLargeObjects)) := by
              simpa using room
            simpa [misplaces,found,stays,fits,granted adds] using meets
          rw [done]
          refine ⟨?_,absurd rfl,fun _ => ⟨_,made.2.1,rfl⟩⟩
          refine moved_sound sound valid found placed made largeRoom ?_ (not_lt.mp regionsFull)
          intro grows
          simpa [grows] using many

theorem operate_kept (sound : Sound c s) (valid : c.isValid) {op : Operation ρ} (meets : misplaces c s op = false) :
    Sound c (s.operate c op).2 ∧ ((s.operate c op).1 ≠ .success → (s.operate c op).2 = s) := by
  cases op with
  | register a object space bounds =>
    have kept := @register_kept ρ _ c s sound valid a object space bounds meets
    exact ⟨kept.sound,kept.unchanged⟩
  | update a object space bounds =>
    have kept := @update_kept ρ _ c s sound valid a object space bounds meets
    exact ⟨kept.sound,kept.unchanged⟩
  | remove object =>
    have kept := remove_kept sound valid object
    exact ⟨kept.sound,kept.unchanged⟩

omit [DoubleArithmetic ρ] in
/-- A sound index passes its own verification. -/
theorem Sound.verified (sound : Sound c s) : s.verifyConsistency := by
  have row : ∀ object e, (object,e) ∈ s.objects.entries → s.objects.find? object = some e :=
    fun object e member => find?_eq_some.mpr member
  have held : ∀ {κ : Type} [LinearOrder κ] {m : Buckets κ ObjectId} {k : κ} {bucket : SortedSet ObjectId}
      {object : ObjectId}, (k,bucket) ∈ m.entries → object ∈ bucket.keys → m.holds k object = true := by
    intro κ _ m k bucket object member inside
    exact holds_iff.mpr
      ⟨bucket,find?_eq_some.mpr member,contains_iff_mem_keys.mpr inside⟩
  have nonempty : ∀ {κ : Type} [LinearOrder κ] {m : Buckets κ ObjectId} {k : κ} {bucket : SortedSet ObjectId},
      m.Filled → (k,bucket) ∈ m.entries → bucket.isEmpty = false := by
    intro κ _ m k bucket filled member
    by_contra empty
    have named := filled k bucket (find?_eq_some.mpr member) (by simpa using empty)
    contradiction
  rw [verifyConsistency]
  simp only [Bool.and_eq_true,all_eq_true,beq_iff_eq]
  refine ⟨⟨⟨⟨⟨⟨?_,?_⟩,?_⟩,sound.membershipCount.symm⟩,sound.regionCount.symm⟩,sound.objectCount.symm⟩,
    sound.largeCount.symm⟩
  · rintro ⟨object,e⟩ member
    have found := row object e member
    have entry := sound.described.entries object e found
    have large : s.containsLargeObject e object = e.large := by
      rw [containsLargeObject,sound.described.filedLarge,found]
      simp
    rw [verifyObject,large]
    by_cases whole : e.large = true
    · simp [whole,entry.valid,Entry.membershipCount]
    · have filed : ∀ address ∈ e.primary :: e.additional, s.regions.holds address object := by
        intro address there
        rw [sound.described.filed,found,under_some,Entry.copyMemberships,if_neg whole]
        exact decide_eq_true there
      simp only [whole,Bool.false_eq_true,if_false,Bool.not_false,entry.valid,Bool.true_and,all_eq_true]
      exact filed
  · rintro ⟨address,bucket⟩ member
    refine ⟨by simpa using nonempty sound.described.filledRegions member,?_⟩
    intro object inside
    have filed := held member inside
    rw [sound.described.filed] at filed
    cases found : s.objects.find? object with
    | none => simp [found] at filed
    | some e =>
      rw [found] at filed
      simpa [Entry.contains_eq] using filed
  · rintro ⟨space,bucket⟩ member
    have filled := nonempty sound.described.filledLarge member
    have inhabited : ∃ object, object ∈ bucket.keys := by
      by_contra none
      have empty : bucket.isEmpty := by
        refine isEmpty_iff.mpr fun object => ?_
        by_contra inside
        exact none ⟨object,contains_iff_mem_keys.mp (by simpa using inside)⟩
      rw [filled] at empty
      contradiction
    have rows : ∀ object ∈ bucket.keys, ∃ e, s.objects.find? object = some e ∧
        e.large = true ∧ e.primary.space = space := by
      intro object inside
      have filed := held member inside
      rw [sound.described.filedLarge] at filed
      cases found : s.objects.find? object with
      | none => simp [found] at filed
      | some e =>
        refine ⟨e,rfl,?_⟩
        simpa [found] using filed
    refine ⟨⟨?_,by simpa using filled⟩,?_⟩
    · obtain ⟨object,inside⟩ := inhabited
      obtain ⟨e,found,-,there⟩ := rows object inside
      rw [← there]
      exact (sound.described.entries object e found).valid
    · intro object inside
      obtain ⟨e,found,large,there⟩ := rows object inside
      simp [found,large,there]

omit [DoubleArithmetic ρ] in
theorem sound_empty (c : SpatialRegionIndexConfiguration ρ) : Sound c {} := by
  refine ⟨⟨?_,?_,?_,?_,?_⟩,rfl,rfl,rfl,rfl,Nat.zero_le _,Nat.zero_le _,Nat.zero_le _,Nat.zero_le _⟩
  · intro object e found
    contradiction
  · exact fun address object => rfl
  · exact fun space object => rfl
  · intro address bucket found
    contradiction
  · intro space bucket found
    contradiction

/-- An operation always has an outcome. -/
def advance (c : SpatialRegionIndexConfiguration ρ) (s : SpatialRegionIndex) (op : Operation ρ) :
    Option SpatialRegionIndex := some (s.operate c op).2

omit [DoubleArithmetic ρ] in
theorem unverified_of_row (found : s.objects.find? object = some e) (large : e.large)
    (absent : s.largeObjects.holds e.primary.space object = false) : s.verifyConsistency = false := by
  by_contra verified
  have verified : s.verifyConsistency := by simpa using verified
  simp only [verifyConsistency,and_eq_true,all_eq_true] at verified
  have row := verified.1.1.1.1.1.1 (object,e) (find?_eq_some.mp found)
  simp [verifyObject,large,containsLargeObject,absent] at row

theorem uncentered_spec {bounds : SpatialBounds ρ} (off : uncentered c space bounds) :
    ∃ d, deriveMemberships c space bounds = .ok d ∧ Placed space d ∧ d.large ∧
      centerAddress c space bounds = none ∧ space ≠ defaultSpatialSpace := by
  rw [uncentered] at off
  cases derived : deriveMemberships c space bounds with
  | error status => simp [derived] at off
  | ok d =>
    simp only [derived,and_eq_true,Option.isNone_iff_eq_none,bne_iff_ne] at off
    exact ⟨d,rfl,deriveMemberships_ok derived,off.1.1,off.1.2,off.2⟩

/-- An object that the condition excludes is filed, under a row that names the default space. -/
theorem misplaced_unverified (sound : Sound c s) {op : Operation ρ} (misplaced : misplaces c s op) :
    (s.operate c op).1 = .success ∧ (s.operate c op).2.verifyConsistency = false := by
  cases op with
  | remove object => contradiction
  | register a object space bounds =>
    simp only [misplaces,Bool.and_eq_true,Bool.not_eq_true',decide_eq_true_eq,beq_iff_eq] at misplaced
    obtain ⟨⟨⟨⟨⟨⟨off,named⟩,stored⟩,room⟩,largeRoom⟩,granted⟩,stores⟩ := misplaced
    obtain ⟨d,derived,placed,large,center,other⟩ := uncentered_spec off
    have missing : s.objects.find? object = none := by simpa [SortedMap.contains] using stored
    have done : s.operate c (.register a object space bounds) = (.success,(s.filedAs object space d).settle
        (s.objects.insert object (makeEntry none d)) s.metrics.membershipCount) := by
      simp only [operate,register,named,placed.valid,stored,not_le.mpr room,derived,large,not_le.mpr largeRoom,
        center,insertDerived,granted,insertLargeObject,stores,filedAs,Bool.not_true,Bool.false_eq_true,
        if_false,if_true,decide_false,Bool.and_false,Bool.false_and]
    rw [done]
    refine ⟨rfl,unverified_of_row (find?_insert_self ..) ?_ ?_⟩
    · simp [makeEntry,large]
    · obtain ⟨-,absent⟩ := sound.described.absent missing
      simp [makeEntry,large,settle,refreshGauges,filedAs,holds_add,absent,Ne.symm other]
  | update a object space bounds =>
    rw [misplaces] at misplaced
    cases found : s.objects.find? object with
    | none => simp [found] at misplaced
    | some e =>
      simp only [found,Bool.and_eq_true,Bool.not_eq_true',beq_iff_eq] at misplaced
      obtain ⟨⟨⟨off,moves⟩,room⟩,granted⟩ := misplaced
      obtain ⟨d,derived,placed,large,center,other⟩ := uncentered_spec off
      have adds : addsLarge e space d := by
        by_cases was : e.large = true
        · simpa [addsLarge,large,was] using moves
        · simp [addsLarge,large,was]
      have apart : ¬ sameMemberships e space d := by
        intro same
        simp only [sameMemberships,large,Bool.and_eq_true,beq_iff_eq] at same
        simp [same.1.1,same.1.2] at moves
      have fits : (true && !e.large && decide (s.metrics.largeObjectCount ≥ c.maximumLargeObjects)) = false := by
        by_cases was : e.large = true
        · simp [was]
        · simpa [was] using room
      have added : addedMemberships e d = [] := by simp [addedMemberships,large]
      have done : s.operate c (.update a object space bounds) = (.success,(s.moved object e space d).settle
          (s.objects.insert object (makeEntry none d))
          (saturatingAdd (sizeSub s.metrics.membershipCount e.membershipCount) d.memberships.length)) := by
        simp only [operate,update,found,placed.valid,derived,apart,fits,placed.large large,added,newRegionCount,
          countP_nil,length_nil,Nat.not_lt_zero,gt_iff_lt,large,Bool.not_true,Bool.false_eq_true,
          if_false,decide_false,Bool.false_and]
        rw [move_granted granted object adds,center,placed.large large,length_nil]
      rw [done]
      refine ⟨rfl,unverified_of_row (find?_insert_self ..) ?_ ?_⟩
      · simp [makeEntry,large]
      · have was : s.largeObjects.holds defaultSpatialSpace object =
            (e.large && e.primary.space == defaultSpatialSpace) := by
          rw [sound.described.filedLarge,found,largeIn_some]
        have named : (makeEntry none d).primary.space = defaultSpatialSpace := by simp [makeEntry,large]
        rw [named]
        simp only [settle,refreshGauges,moved,adds,if_true]
        by_cases drops : dropsLarge e space d = true
        · rw [if_pos drops,holds_drop,holds_add,was]
          by_cases there : e.primary.space = defaultSpatialSpace
          · simp [there]
          · simp [there,Ne.symm other]
        · rw [if_neg drops,holds_add,was]
          have elsewhere : (e.large && e.primary.space == defaultSpatialSpace) = false := by
            by_contra home
            have home : e.large ∧ e.primary.space = defaultSpatialSpace := by simpa using home
            exact drops (by simp [dropsLarge,home.1,home.2,Ne.symm other])
          simp [elsewhere,Ne.symm other]

/-- In every run that files no large object outside every cell of its own space, the index passes
    its verification and keeps to its maxima. The next operation passes it again exactly if it
    files no such object either, and if it fails it leaves the index as it was. -/
theorem index_run {c : SpatialRegionIndexConfiguration ρ} (valid : c.isValid = true) {operations : List (Operation ρ)}
    {s : SpatialRegionIndex} (centered : RunMeets (advance c) (fun s op => misplaces c s op = false) {} operations)
    (reached : run (advance c) {} operations = some s) :
    (s.verifyConsistency = true ∧ s.objects.size ≤ c.maximumObjects ∧ s.regions.size ≤ c.maximumRegions ∧
        s.objects.total Entry.membershipCount ≤ c.maximumMemberships ∧ s.largeObjects.count ≤ c.maximumLargeObjects) ∧
      ∀ op, ((s.operate c op).2.verifyConsistency = true ↔ misplaces c s op = false) ∧
        ((s.operate c op).1 ≠ .success → (s.operate c op).2 = s) := by
  have sound : Sound c s := by
    refine run_preserves_where ?_ (sound_empty c) centered reached
    intro t op t' meets before stepped
    cases stepped
    exact (operate_kept before valid meets).1
  refine ⟨⟨sound.verified,sound.objectLimit,sound.regionLimit,?_,sound.largeLimit⟩,?_⟩
  · rw [← sound.membershipCount]
    exact sound.membershipLimit
  · intro op
    cases meets : misplaces c s op with
    | false =>
      obtain ⟨after,unchanged⟩ := operate_kept sound valid meets
      exact ⟨⟨fun _ => rfl,fun _ => after.verified⟩,unchanged⟩
    | true =>
      obtain ⟨succeeds,unverified⟩ := misplaced_unverified sound meets
      exact ⟨by simp [unverified],absurd succeeds⟩

end

/-- The distance of a whole double to the next one away from zero. -/
def spacing (value : Int) : Int := 2 ^ (Nat.log2 value.natAbs + 1 - 53)

def nearestDouble (value : Int) : Int :=
  let below := value / spacing value
  let rest := 2 * (value % spacing value)
  if rest < spacing value ∨ rest = spacing value ∧ below % 2 = 0 then below * spacing value
  else (below + 1) * spacing value

instance wholeDoubles : DoubleArithmetic Int where
  isFinite _ := true
  lt a b := a < b
  le a b := a ≤ b
  ofNat n := n
  nextBelow value := value - spacing (value - 1)
  halfSum a b := nearestDouble (a / 2 + b / 2)
  floorQuotient value size := if size = 0 then none else some (value / size)

def unitRegions : SpatialRegionIndexConfiguration Int := { regionSize := 1 }

/-- A wall at the greatest coordinates that have a cell: its centre rounds to the first that has none. -/
def farWall : SpatialBounds Int := ⟨⟨0,2 ^ 63 - 1024,0⟩,⟨2 ^ 53,2 ^ 63,0⟩⟩

def post : SpatialBounds Int := ⟨⟨0,0,0⟩,⟨0,0,0⟩⟩

/-- The wall is filed in a space other than the default one, and the index does not verify then. -/
theorem far_wall_is_misplaced : unitRegions.isValid = true ∧
    (({} : SpatialRegionIndex).operate unitRegions (.register {} ⟨1, 1⟩ ⟨2, 1⟩ farWall)).1 = .success ∧
    (({} : SpatialRegionIndex).operate unitRegions (.register {} ⟨1, 1⟩ ⟨2, 1⟩ farWall)).2.verifyConsistency =
      false := by decide

theorem post_registered :
    (({} : SpatialRegionIndex).operate unitRegions (.register {} ⟨1, 1⟩ ⟨2, 1⟩ post)).2.verifyConsistency = true :=
  (index_run (by decide)
    (show RunMeets (advance unitRegions) (fun s op => misplaces unitRegions s op = false) {}
      [.register {} ⟨1,1⟩ ⟨2,1⟩ post] by decide) rfl).1.1

end SpatialRegionIndex
end Gargantuan
