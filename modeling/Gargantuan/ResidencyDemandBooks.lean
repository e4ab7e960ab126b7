import Gargantuan.ResidencyDemandPolicy

/-!
The books of the demands. `Sound` is what holds of the demands as a whole, also while a record is
being changed; `UnitTidy` is what holds of a unit once it is refreshed. A change of a record that
is followed by a refresh of its unit keeps both (`refresh_sound`, `refresh_tidy`), so every change
of a contribution does.
-/
namespace Gargantuan.ResidencyDemandPolicy
open SortedMap Option Buckets DemandRecord
variable {κ : Type} [LinearOrder κ] [Inhabited κ] {G : ResidencyGeometry} {Cursor : Type} {m : Setting κ G Cursor}

def DemandRecord.Ranked (m : Setting κ G Cursor) (r : DemandRecord κ G.Distance) : Prop :=
  ∀ k id, r.rankedFocuses.contains (toLex (k,id)) = true ↔ ∃ c, r.focuses.find? id = some c ∧ rank m c = k

def focusAt (s : ResidencyDemandPolicy κ G Cursor) (unit : Nat) (id : ResidencyFocusId) : Option
    (Candidate G.Distance) :=
  (s.demands.find? unit).bind fun r => r.focuses.find? id

def isRequested (s : ResidencyDemandPolicy κ G Cursor) (unit : Nat) : Bool := (s.demands.find? unit).any (·.requested)

structure Sound (m : Setting κ G Cursor) (s : ResidencyDemandPolicy κ G Cursor) : Prop where
  owned : s.ownedRequests = s.demands.total fun r => r.requested.toNat
  desired : s.desiredUnits = s.demands.total fun r => r.desiredObserved.toNat
  ranked : ∀ unit r, s.demands.find? unit = some r → r.Ranked m
  mirrored : ∀ d, s.pending.contains d = true ↔ s.pendingByIndex.find? d.index = some d
  indexed : ∀ unit d, s.pendingByIndex.find? unit = some d → d.index = unit
  expiring : ∀ tick unit, s.expiries.contains (toLex (tick,unit)) = true →
    ∃ r, s.demands.find? unit = some r ∧ r.graceUntil = some tick
  grace : ∀ unit r tick, s.demands.find? unit = some r → r.graceUntil = some tick →
    s.expiries.contains (toLex (tick,unit)) = true ∨ tick ≤ s.lastTick

def Fits (d : PendingDelta κ G.Distance) (r : DemandRecord κ G.Distance) : Prop :=
  r.requested = d.release ∧ r.isDesired = !d.release

structure UnitTidy (s : ResidencyDemandPolicy κ G Cursor) (unit : Nat) : Prop where
  observed : ∀ r, s.demands.find? unit = some r → r.desiredObserved = r.isDesired
  wanted : ∀ r, s.demands.find? unit = some r → r.isDesired = true → r.graceUntil = none
  unleaked : ∀ r, s.demands.find? unit = some r → r.requested = true → r.isDesired = false →
    (∃ tick, r.graceUntil = some tick ∧ s.expiries.contains (toLex (tick,unit)) = true) ∨
      ∃ d, s.pendingByIndex.find? unit = some d ∧ d.release = true
  waiting : ∀ d, s.pendingByIndex.find? unit = some d → ∃ r, s.demands.find? unit = some r ∧ Fits d r

def Tidy (m : Setting κ G Cursor) (s : ResidencyDemandPolicy κ G Cursor) : Prop := Sound m s ∧ ∀ unit, UnitTidy s unit

variable {s t : ResidencyDemandPolicy κ G Cursor} {unit other tick : Nat}

theorem UnitTidy.congr (tidy : UnitTidy s unit) (demands : t.demands.find? unit = s.demands.find? unit)
    (pending : t.pendingByIndex.find? unit = s.pendingByIndex.find? unit)
    (expiries : ∀ tick, t.expiries.contains (toLex (tick,unit)) = s.expiries.contains (toLex (tick,unit))) :
    UnitTidy t unit := by
  refine ⟨?_,?_,?_,?_⟩
  · rw [demands]
    exact tidy.observed
  · rw [demands]
    exact tidy.wanted
  · rw [demands,pending]
    simp only [expiries]
    exact tidy.unleaked
  · rw [demands,pending]
    exact tidy.waiting

/-! ### Refreshing -/

def refreshed (m : Setting κ G Cursor) (r : DemandRecord κ G.Distance) (tick : Nat) : Option
    (DemandRecord κ G.Distance) :=
  if r.isDesired = true then some { r with desiredObserved := true, graceUntil := none }
  else if r.requested = true then
    some { r with desiredObserved := false, graceUntil := some (r.graceUntil.getD (graceEnd m tick)) }
  else none

def awaited (m : Setting κ G Cursor) (unit : Nat) (r : DemandRecord κ G.Distance) (tick : Nat) :
    Option (PendingDelta κ G.Distance) :=
  if r.isDesired = true then if r.requested = true then none else some (deltaOf m unit (best m unit r))
  else if r.requested = true ∧ r.graceUntil.getD (graceEnd m tick) ≤ tick then some (releaseOf m unit)
  else none

theorem refresh_of_absent (absent : s.demands.find? unit = none) : refresh m s unit tick = s := by
  unfold refresh
  rw [absent]

variable {r : DemandRecord κ G.Distance}

theorem refresh_fields (found : s.demands.find? unit = some r) :
    refresh m s unit tick = { s with
      demands := match refreshed m r tick with
        | some r => s.demands.insert unit r
        | none => s.demands.erase unit
      desiredUnits := (observe s r.desiredObserved r.isDesired).desiredUnits
      pending := match awaited m unit r tick with
        | some d => (removePending s unit).pending.insert d ()
        | none => (removePending s unit).pending
      pendingByIndex := match awaited m unit r tick with
        | some d => (s.pendingByIndex.erase unit).insert unit d
        | none => s.pendingByIndex.erase unit
      expiries :=
        if r.isDesired = false ∧ r.requested = true then
          if r.graceUntil.isSome then s.expiries else s.expiries.insert (toLex (graceEnd m tick,unit)) ()
        else (dropExpiry s unit r.graceUntil).expiries } := by
  unfold refresh refreshed awaited
  rw [found]
  dsimp only
  cases desired : r.isDesired with
  | true => cases requested : r.requested <;> rfl
  | false =>
    cases requested : r.requested with
    | false => rfl
    | true =>
      cases graced : r.graceUntil with
      | none =>
        by_cases due : graceEnd m tick ≤ tick
        · simp [due,setRecord,addPending,removePending,observe,releaseOf]
        · simp [due,setRecord,removePending,observe]
      | some until_ =>
        by_cases due : until_ ≤ tick
        · simp [due,setRecord,addPending,removePending,observe,releaseOf]
        · simp [due,setRecord,removePending,observe]

theorem find?_demands_refresh (m : Setting κ G Cursor) (s : ResidencyDemandPolicy κ G Cursor) (unit tick other : Nat) :
    (refresh m s unit tick).demands.find? other =
      if other = unit then (s.demands.find? unit).bind fun r => refreshed m r tick else s.demands.find? other := by
  cases found : s.demands.find? unit with
  | none =>
    rw [refresh_of_absent found]
    split_ifs with same
    · rw [same,found]
      rfl
    · rfl
  | some r =>
    rw [refresh_fields found,bind_some]
    cases refreshed m r tick with
    | some r' => exact find?_insert _ unit other r'
    | none => exact find?_erase _ unit other

theorem find?_pending_refresh (found : s.demands.find? unit = some r) (other : Nat) :
    (refresh m s unit tick).pendingByIndex.find? other =
      if other = unit then awaited m unit r tick else s.pendingByIndex.find? other := by
  rw [refresh_fields found]
  cases awaited m unit r tick with
  | some d =>
    rw [find?_insert,find?_erase]
    split_ifs <;> rfl
  | none => exact find?_erase _ unit other

theorem index_awaited {d : PendingDelta κ G.Distance} (here : awaited m unit r tick = some d) :
    d.index = unit ∧ Fits d r := by
  unfold awaited at here
  split_ifs at here with desired requested due
  · rw [← Option.some.inj here]
    exact ⟨rfl,by simpa [deltaOf] using requested,by simpa [deltaOf] using desired⟩
  · rw [← Option.some.inj here]
    exact ⟨rfl,by simpa [releaseOf] using due.1,by simpa [releaseOf] using desired⟩

theorem contains_expiries_refresh (found : s.demands.find? unit = some r) (other due : Nat) :
    (refresh m s unit tick).expiries.contains (toLex (due,other)) = if other = unit then
        if r.isDesired = false ∧ r.requested = true then
          s.expiries.contains (toLex (due,unit)) || decide (r.graceUntil = none ∧ due = graceEnd m tick)
        else s.expiries.contains (toLex (due,unit)) && decide (r.graceUntil ≠ some due)
      else s.expiries.contains (toLex (due,other)) := by
  rw [refresh_fields found]
  by_cases same : other = unit
  · subst same
    rw [if_pos rfl]
    split_ifs with kept graced
    · obtain ⟨until_,here⟩ := isSome_iff_exists.mp graced
      simp [here]
    · have none : r.graceUntil = none := by simpa using graced
      rw [contains_insert,Bool.or_comm]
      simp [none]
    · unfold dropExpiry
      cases here : r.graceUntil with
      | none => simp
      | some until_ =>
        rw [contains_erase,Bool.and_comm]
        simp [eq_comm]
  · rw [if_neg same]
    have apart (tick : Nat) : toLex (due,other) ≠ toLex (tick,unit) := by simp [same]
    split_ifs with kept graced
    · rfl
    · rw [contains_insert,decide_eq_false (apart _),Bool.false_or]
    · unfold dropExpiry
      cases r.graceUntil with
      | none => rfl
      | some until_ =>
        rw [contains_erase,decide_eq_true (apart _),Bool.true_and]

theorem total_refresh (tick : Nat) (f : DemandRecord κ G.Distance → Nat) (found : s.demands.find? unit = some r) :
    (refresh m s unit tick).demands.total f + f r = s.demands.total f + ((refreshed m r tick).map f).getD 0 := by
  rw [refresh_fields found]
  cases refreshed m r tick with
  | some r' => exact total_insert f found r'
  | none => exact (total_erase f found).symm

variable {r' : DemandRecord κ G.Distance}

theorem refreshed_eq_some (here : refreshed m r tick = some r') :
    r'.focuses = r.focuses ∧ r'.rankedFocuses = r.rankedFocuses ∧ r'.required = r.required ∧
      r'.requested = r.requested ∧ r'.desiredObserved = r.isDesired ∧
      r'.graceUntil = if r.isDesired = true then none else some (r.graceUntil.getD (graceEnd m tick)) := by
  unfold refreshed at here
  split_ifs at here with desired requested
  · cases here
    exact ⟨rfl,rfl,rfl,rfl,desired.symm,by rw [if_pos desired]⟩
  · cases here
    exact ⟨rfl,rfl,rfl,rfl,(Bool.eq_false_iff.mpr desired).symm,by rw [if_neg desired]⟩

theorem refreshed_eq_none : refreshed m r tick = none ↔ r.isDesired = false ∧ r.requested = false := by
  unfold refreshed
  cases r.isDesired <;> cases r.requested <;> simp

theorem isDesired_congr (focuses : r'.focuses = r.focuses)
    (required : r'.required = r.required) : r'.isDesired = r.isDesired := by
  unfold isDesired
  rw [focuses,required]

variable {f : DemandRecord κ G.Distance → Nat}

theorem le_total (found : s.demands.find? unit = some r) : f r ≤ s.demands.total f := by
  have split := total_erase f found
  omega

section
variable {r : DemandRecord κ G.Distance}

theorem refresh_keeps (m : Setting κ G Cursor) (s : ResidencyDemandPolicy κ G Cursor) (unit tick : Nat) :
    (refresh m s unit tick).focuses = s.focuses ∧ (refresh m s unit tick).lastTick = s.lastTick ∧
      (refresh m s unit tick).ownedRequests = s.ownedRequests ∧ (refresh m s unit tick).stopped = s.stopped := by
  cases found : s.demands.find? unit with
  | none =>
    rw [refresh_of_absent found]
    exact ⟨rfl,rfl,rfl,rfl⟩
  | some r =>
    rw [refresh_fields found]
    exact ⟨rfl,rfl,rfl,rfl⟩

variable (sound : Sound m s)
include sound

theorem refresh_owned (found : s.demands.find? unit = some r) :
    (refresh m s unit tick).ownedRequests = (refresh m s unit tick).demands.total fun r => r.requested.toNat := by
  have moved := total_refresh (m := m) tick (·.requested.toNat) found
  rw [(refresh_keeps m s unit tick).2.2.1,sound.owned]
  cases here : refreshed m r tick with
  | some r' =>
    rw [here,map_some,getD_some,(refreshed_eq_some here).2.2.2.1] at moved
    omega
  | none =>
    rw [here,(refreshed_eq_none.mp here).2] at moved
    exact moved.symm

theorem refresh_desired (found : s.demands.find? unit = some r) :
    (refresh m s unit tick).desiredUnits = (refresh m s unit tick).demands.total fun r => r.desiredObserved.toNat := by
  have moved := total_refresh (m := m) tick (·.desiredObserved.toNat) found
  have bound := le_total (f := fun r => r.desiredObserved.toNat) found
  have counted : (refresh m s unit tick).desiredUnits = (observe s r.desiredObserved r.isDesired).desiredUnits := by
    rw [refresh_fields found]
  have after : ((refreshed m r tick).map fun r => r.desiredObserved.toNat).getD 0 = r.isDesired.toNat := by
    cases here : refreshed m r tick with
    | some r' => rw [map_some,getD_some,(refreshed_eq_some here).2.2.2.2.1]
    | none =>
      rw [(refreshed_eq_none.mp here).1]
      rfl
  rw [after] at moved
  rw [counted]
  unfold observe
  rw [sound.desired]
  cases was : r.desiredObserved <;> cases is : r.isDesired <;> rw [was,is] at moved <;> rw [was] at bound <;>
    simp at moved bound ⊢ <;> omega

theorem contains_removePending (unit : Nat) (d : PendingDelta κ G.Distance) :
    (removePending s unit).pending.contains d ↔ s.pending.contains d ∧ d.index ≠ unit := by
  unfold removePending
  cases waiting : s.pendingByIndex.find? unit with
  | none =>
    refine ⟨fun known => ⟨known,fun same => ?_⟩,And.left⟩
    rw [sound.mirrored d,same,waiting] at known
    cases known
  | some old =>
    rw [contains_erase,Bool.and_eq_true,decide_eq_true_eq]
    refine ⟨fun ⟨apart,known⟩ => ⟨known,fun same => apart ?_⟩,fun ⟨known,apart⟩ => ⟨fun same => apart ?_,known⟩⟩
    · rw [sound.mirrored d,same,waiting] at known
      exact (Option.some.inj known).symm
    · rw [same]
      exact sound.indexed unit old waiting

section
variable (found : s.demands.find? unit = some r)
include found

theorem refresh_mirrored (d : PendingDelta κ G.Distance) : (refresh m s unit tick).pending.contains d ↔
      (refresh m s unit tick).pendingByIndex.find? d.index = some d := by
  have pending : (refresh m s unit tick).pending = match awaited m unit r tick with
      | some d => (removePending s unit).pending.insert d ()
      | none => (removePending s unit).pending := by
    rw [refresh_fields found]
  rw [find?_pending_refresh found,pending]
  cases here : awaited m unit r tick with
  | none =>
    rw [contains_removePending sound,sound.mirrored d]
    by_cases same : d.index = unit <;> simp [same]
  | some new =>
    have own := (index_awaited here).1
    rw [contains_insert,Bool.or_eq_true,contains_removePending sound,sound.mirrored d]
    by_cases same : d.index = unit
    · simp [same,eq_comm]
    · have apart : d ≠ new := fun equal => same (by rw [equal,own])
      simp [same,apart]

theorem refresh_expiring (due other : Nat) (known : (refresh m s unit tick).expiries.contains (toLex (due,other))) :
    ∃ r, (refresh m s unit tick).demands.find? other = some r ∧ r.graceUntil = some due := by
  rw [contains_expiries_refresh found] at known
  rw [find?_demands_refresh,found,bind_some]
  split_ifs at known ⊢ with same kept
  · unfold refreshed
    rw [if_neg (by simp [kept.1]),if_pos kept.2]
    refine ⟨_,rfl,?_⟩
    rw [Bool.or_eq_true,decide_eq_true_eq] at known
    rcases known with old | ⟨none,new⟩
    · obtain ⟨r',found',here⟩ := sound.expiring due unit old
      cases found.symm.trans found'
      simp [here]
    · simp [none,new]
  · rw [Bool.and_eq_true,decide_eq_true_eq] at known
    obtain ⟨r',found',here⟩ := sound.expiring due unit known.1
    cases found.symm.trans found'
    exact absurd here known.2
  · exact sound.expiring due other known

theorem refresh_grace (other : Nat)
    (r' : DemandRecord κ G.Distance) (due : Nat) (here : (refresh m s unit tick).demands.find? other = some r')
    (graced : r'.graceUntil = some due) :
    (refresh m s unit tick).expiries.contains (toLex (due,other)) ∨ due ≤ (refresh m s unit tick).lastTick := by
  rw [find?_demands_refresh,found,bind_some] at here
  rw [contains_expiries_refresh found,(refresh_keeps m s unit tick).2.1]
  split_ifs at here ⊢ with same kept
  · have until_ := (refreshed_eq_some here).2.2.2.2.2
    rw [graced,if_neg (by simp [kept.1])] at until_
    cases old : r.graceUntil with
    | none =>
      rw [old] at until_
      exact .inl (by simpa using .inr (Option.some.inj until_))
    | some tick' =>
      rw [old] at until_
      rw [Option.some.inj until_]
      exact (sound.grace unit r tick' found old).imp_left fun known => by simp [known]
  · rw [not_and,Bool.not_eq_true] at kept
    have until_ := (refreshed_eq_some here).2.2.2.2.2
    rw [graced] at until_
    split_ifs at until_ with desired
    rw [Bool.not_eq_true] at desired
    rw [refreshed_eq_none.mpr ⟨desired,kept desired⟩] at here
    cases here
  · exact sound.grace other r' due here graced

end

theorem refresh_sound (unit tick : Nat) : Sound m (refresh m s unit tick) := by
  cases found : s.demands.find? unit with
  | none =>
    rwa [refresh_of_absent found]
  | some r =>
    refine ⟨refresh_owned sound found,refresh_desired sound found,?_,refresh_mirrored sound found,?_,
      refresh_expiring sound found,refresh_grace sound found⟩
    · intro other r' here
      rw [find?_demands_refresh,found] at here
      split_ifs at here with same
      · obtain ⟨focuses,ranked,_⟩ := refreshed_eq_some here
        unfold DemandRecord.Ranked
        rw [focuses,ranked]
        exact sound.ranked unit r found
      · exact sound.ranked other r' here
    · intro other d here
      rw [find?_pending_refresh found] at here
      split_ifs at here with same
      · rw [same]
        exact (index_awaited here).1
      · exact sound.indexed other d here

end

theorem refresh_elsewhere (tidy : UnitTidy s other) (apart : other ≠ unit) :
    UnitTidy (refresh m s unit tick) other := by
  cases found : s.demands.find? unit with
  | none =>
    rwa [refresh_of_absent found]
  | some r =>
    refine tidy.congr ?_ ?_ fun due => ?_
    · rw [find?_demands_refresh,if_neg apart]
    · rw [find?_pending_refresh found,if_neg apart]
    · rw [contains_expiries_refresh found,if_neg apart]

theorem refresh_tidy (sound : Sound m s) (now : tick = s.lastTick) (absent : s.demands.find? unit = none →
    s.pendingByIndex.find? unit = none) : UnitTidy (refresh m s unit tick) unit := by
  cases found : s.demands.find? unit with
  | none =>
    rw [refresh_of_absent found]
    refine ⟨?_,?_,?_,?_⟩ <;> simp [found,absent found]
  | some r =>
    have known : (refresh m s unit tick).demands.find? unit = refreshed m r tick := by
      rw [find?_demands_refresh,if_pos rfl,found,bind_some]
    have waits : (refresh m s unit tick).pendingByIndex.find? unit = awaited m unit r tick := by
      rw [find?_pending_refresh found,if_pos rfl]
    refine ⟨?_,?_,?_,?_⟩
    · intro r' here
      rw [known] at here
      obtain ⟨focuses,_,required,_,observed,_⟩ := refreshed_eq_some here
      rw [observed,isDesired_congr focuses required]
    · intro r' here desired
      rw [known] at here
      obtain ⟨focuses,_,required,_,_,until_⟩ := refreshed_eq_some here
      rw [until_,if_pos (by rw [← isDesired_congr focuses required,desired])]
    · intro r' here requested undesired
      rw [known] at here
      obtain ⟨focuses,_,required,kept,_,until_⟩ := refreshed_eq_some here
      rw [isDesired_congr focuses required] at undesired
      rw [kept] at requested
      rw [if_neg (by simp [undesired])] at until_
      by_cases due : r.graceUntil.getD (graceEnd m tick) ≤ tick
      · refine .inr ⟨releaseOf m unit,?_,rfl⟩
        rw [waits,awaited,if_neg (by simp [undesired]),if_pos ⟨requested,due⟩]
      · refine .inl ⟨_,until_,?_⟩
        rw [contains_expiries_refresh found,if_pos rfl,if_pos ⟨undesired,requested⟩]
        cases old : r.graceUntil with
        | none => simp
        | some tick' =>
          rw [old] at due
          rw [getD_some] at due ⊢
          have kept := (sound.grace unit r tick' found old).resolve_right (by omega)
          simp [kept]
    · intro d here
      rw [waits] at here
      have fits := (index_awaited here).2
      have some : ∃ r', refreshed m r tick = some r' := by
        rw [← ne_none_iff_exists']
        intro none
        obtain ⟨undesired,unrequested⟩ := refreshed_eq_none.mp none
        rw [awaited,if_neg (by simp [undesired]),if_neg (by simp [unrequested])] at here
        cases here
      obtain ⟨r',here'⟩ := some
      obtain ⟨focuses,_,required,kept,_⟩ := refreshed_eq_some here'
      refine ⟨r',known.trans here',kept.trans fits.1,(isDesired_congr focuses required).trans fits.2⟩

theorem focusAt_refresh (m : Setting κ G Cursor) (s : ResidencyDemandPolicy κ G Cursor) (unit tick other : Nat)
    (id : ResidencyFocusId) : focusAt (refresh m s unit tick) other id = focusAt s other id := by
  unfold focusAt
  rw [find?_demands_refresh]
  split_ifs with same
  · rw [same]
    cases s.demands.find? unit with
    | none => rfl
    | some r =>
      rw [bind_some,bind_some]
      cases here : refreshed m r tick with
      | some r' => rw [bind_some,(refreshed_eq_some here).1]
      | none =>
        have undesired := (refreshed_eq_none.mp here).1
        unfold isDesired at undesired
        rw [Bool.or_eq_false_iff,Bool.not_eq_false'] at undesired
        have empty : r.focuses = ∅ := ext_entries (List.isEmpty_iff.mp undesired.1)
        rw [empty]
        rfl
  · rfl

theorem isRequested_refresh (m : Setting κ G Cursor) (s : ResidencyDemandPolicy κ G Cursor) (unit tick other : Nat) :
    isRequested (refresh m s unit tick) other = isRequested s other := by
  unfold isRequested
  rw [find?_demands_refresh]
  split_ifs with same
  · rw [same]
    cases s.demands.find? unit with
    | none => rfl
    | some r =>
      rw [bind_some]
      cases here : refreshed m r tick with
      | some r' => simp [(refreshed_eq_some here).2.2.2.1]
      | none => simp [(refreshed_eq_none.mp here).2]
  · rfl

def recordAt (s : ResidencyDemandPolicy κ G Cursor) (unit : Nat) : DemandRecord κ G.Distance :=
  (s.demands.find? unit).getD {}

structure Alike (r r' : DemandRecord κ G.Distance) : Prop where
  requested : r'.requested = r.requested
  observed : r'.desiredObserved = r.desiredObserved
  grace : r'.graceUntil = r.graceUntil

theorem total_setRecord (new : f {} = 0) (same : f r = f (recordAt s unit)) :
    (setRecord s unit r).demands.total f = s.demands.total f := by
  unfold setRecord
  dsimp only
  unfold recordAt at same
  cases found : s.demands.find? unit with
  | none =>
    rw [total_insert_new f found,same,found,getD_none,new]
    rfl
  | some old =>
    have moved := total_insert f found r
    rw [found,getD_some] at same
    omega

theorem find?_setRecord (s : ResidencyDemandPolicy κ G Cursor) (unit : Nat) (r : DemandRecord κ G.Distance)
    (other : Nat) : (setRecord s unit r).demands.find? other = if other = unit then some r else s.demands.find? other :=
  find?_insert _ unit other r

theorem setRecord_sound (sound : Sound m s) (alike : Alike (recordAt s unit) r) (ranked : r.Ranked m) :
    Sound m (setRecord s unit r) := by
  refine ⟨?_,?_,?_,sound.mirrored,sound.indexed,?_,?_⟩
  · rw [total_setRecord rfl (congrArg Bool.toNat alike.requested)]
    exact sound.owned
  · rw [total_setRecord rfl (congrArg Bool.toNat alike.observed)]
    exact sound.desired
  · intro other r' here
    rw [find?_setRecord] at here
    split_ifs at here with same
    · rwa [← Option.some.inj here]
    · exact sound.ranked other r' here
  · intro due other known
    rw [find?_setRecord]
    obtain ⟨r',found,here⟩ := sound.expiring due other known
    split_ifs with same
    · refine ⟨r,rfl,?_⟩
      rw [alike.grace,recordAt,← same,found,getD_some,here]
    · exact ⟨r',found,here⟩
  · intro other r' due here graced
    rw [find?_setRecord] at here
    split_ifs at here with same
    · rw [← Option.some.inj here,alike.grace,recordAt] at graced
      cases found : s.demands.find? unit with
      | none =>
        rw [found] at graced
        cases graced
      | some old =>
        rw [found] at graced
        rw [same]
        exact sound.grace unit old due found graced
    · exact sound.grace other r' due here graced

theorem Tidy.change (tidy : Tidy m s) (alike : Alike (recordAt s unit) r) (ranked : r.Ranked m)
    (now : tick = s.lastTick) : Tidy m (refresh m (setRecord s unit r) unit tick) := by
  have sound := setRecord_sound tidy.1 alike ranked
  refine ⟨refresh_sound sound unit tick,fun other => ?_⟩
  by_cases same : other = unit
  · subst same
    refine refresh_tidy sound now fun absent => ?_
    rw [find?_setRecord,if_pos rfl] at absent
    cases absent
  · refine refresh_elsewhere ((tidy.2 other).congr ?_ rfl fun _ => rfl) same
    rw [find?_setRecord,if_neg same]

theorem Sound.recordAt_ranked (sound : Sound m s) (unit : Nat) : (recordAt s unit).Ranked m := by
  unfold recordAt
  cases found : s.demands.find? unit with
  | none =>
    intro k id
    constructor
    · intro known
      cases known
    · rintro ⟨c,here,_⟩
      cases here
  | some r => exact sound.ranked unit r found

theorem focusAt_eq (s : ResidencyDemandPolicy κ G Cursor) (unit : Nat) (id : ResidencyFocusId) :
    focusAt s unit id = (recordAt s unit).focuses.find? id := by
  unfold focusAt recordAt
  cases s.demands.find? unit <;> rfl

theorem find?_take (r : DemandRecord κ G.Distance) (id other : ResidencyFocusId) :
    (r.take m id).focuses.find? other = if other = id then none else r.focuses.find? other := by
  unfold take
  cases found : r.focuses.find? id with
  | none =>
    split_ifs with same
    · rw [same,found]
    · rfl
  | some c => exact find?_erase _ id other

theorem take_ranked (ranked : r.Ranked m) (id : ResidencyFocusId) : (r.take m id).Ranked m := by
  intro k other
  rw [find?_take]
  unfold take
  cases found : r.focuses.find? id with
  | none =>
    rw [ranked]
    by_cases same : other = id <;> simp [same,found]
  | some c =>
    rw [contains_erase,Bool.and_eq_true,decide_eq_true_eq,ranked]
    by_cases same : other = id
    · subst same
      simp [found,eq_comm]
    · simp [same]

theorem put_ranked (ranked : r.Ranked m) {id : ResidencyFocusId} (free : r.focuses.find? id = none)
    (value : Candidate G.Distance) : (r.put m id value).Ranked m := by
  intro k other
  unfold put
  rw [find?_insert,contains_insert,Bool.or_eq_true,ranked]
  by_cases same : other = id
  · subst same
    simp [free,eq_comm]
  · simp [same]

theorem take_alike (r : DemandRecord κ G.Distance) (id : ResidencyFocusId) : Alike r (r.take m id) := by
  unfold take
  split <;> exact ⟨rfl,rfl,rfl⟩

theorem Tidy.changeContribution (tidy : Tidy m s) (now : tick = s.lastTick) (id : ResidencyFocusId)
    (value : Candidate G.Distance) (add : Bool) : Tidy m (changeContribution m s id value add tick) := by
  have taken := take_ranked (tidy.1.recordAt_ranked value.index) id
  have alike := take_alike (m := m) (recordAt s value.index) id
  cases add with
  | false => exact tidy.change alike taken now
  | true =>
    refine tidy.change ⟨alike.requested,alike.observed,alike.grace⟩ (put_ranked taken ?_ value) now
    rw [find?_take,if_pos rfl]

variable (m : Setting κ G Cursor)

variable (s : ResidencyDemandPolicy κ G Cursor)

variable (id : ResidencyFocusId)

section
variable (value : Candidate G.Distance)
include value

theorem focusAt_changeContribution
    (add : Bool) (tick unit : Nat) (other : ResidencyFocusId) :
    focusAt (changeContribution m s id value add tick) unit other =
      if unit = value.index ∧ other = id then (if add then some value else none) else focusAt s unit other := by
  unfold changeContribution
  rw [focusAt_refresh,focusAt_eq,focusAt_eq]
  by_cases same : unit = value.index
  · subst same
    have known (r : DemandRecord κ G.Distance) : recordAt (setRecord s value.index r) value.index = r := by
      rw [recordAt,find?_setRecord,if_pos rfl,getD_some]
    rw [known]
    cases add with
    | false =>
      rw [if_neg nofun,find?_take]
      by_cases own : other = id <;> simp [own,recordAt]
    | true =>
      rw [if_pos rfl,put]
      rw [find?_insert,find?_take]
      by_cases own : other = id <;> simp [own,recordAt]
  · have kept (r : DemandRecord κ G.Distance) : recordAt (setRecord s value.index r) unit = recordAt s unit := by
      rw [recordAt,find?_setRecord,if_neg same,recordAt]
    rw [kept,if_neg (by simp [same])]

theorem isRequested_changeContribution (add : Bool) (tick unit : Nat) :
    isRequested (changeContribution m s id value add tick) unit = isRequested s unit := by
  have alike := take_alike (m := m) (recordAt s value.index) id
  unfold changeContribution
  rw [isRequested_refresh,isRequested,find?_setRecord]
  split_ifs with same added
  · rw [isRequested,same]
    refine .trans alike.requested ?_
    unfold recordAt
    cases s.demands.find? value.index <;> rfl
  · rw [isRequested,same]
    refine .trans alike.requested ?_
    unfold recordAt
    cases s.demands.find? value.index <;> rfl
  · rfl

theorem changeContribution_keeps (add : Bool) (tick : Nat) :
    (changeContribution m s id value add tick).focuses = s.focuses ∧
      (changeContribution m s id value add tick).lastTick = s.lastTick ∧
        (changeContribution m s id value add tick).stopped = s.stopped := by
  obtain ⟨focuses,last,_,stopped⟩ := refresh_keeps m (setRecord s value.index
    (if add then (((s.demands.find? value.index).getD {}).take m id).put m id value
      else ((s.demands.find? value.index).getD {}).take m id)) value.index tick
  exact ⟨focuses,last,stopped⟩

end

end Gargantuan.ResidencyDemandPolicy
