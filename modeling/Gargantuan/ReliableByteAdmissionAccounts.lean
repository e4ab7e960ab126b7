import Gargantuan.ReliableByteAdmissionSound

/-!
What became of the bytes that were committed. In every run of a pooled admission
outstanding bytes, grants and native capacity are the sums over the peers, and
every committed reservation is outstanding, retired or released, exactly one of
these and under its own token (`accounts_run`).
-/
namespace Gargantuan
open SortedMap List
namespace ReliableByteAdmission
variable {profile : ReliableServiceProfile} {a b : ReliableByteAdmission}

variable {m : SortedMap ConnectionId Peer} {id : ConnectionId}

theorem debts_insert (value : Peer) :
    (debts (m.insert id value)).Perm ((debtOf (id,value)).toList ++ debts (m.erase id)) := by
  have perm := erase_perm (find?_insert_self m id value)
  rw [erase_insert] at perm
  have kept := perm.filterMap debtOf
  rw [filterMap_cons] at kept
  cases owed : debtOf (id,value) with
  | none =>
    rwa [owed] at kept
  | some r =>
    rwa [owed] at kept

variable {id : ConnectionId} {m : SortedMap ConnectionId Peer} {s : Audit} {value : Peer}

theorem debts_erase (found : m.find? id = some value) :
    (debts m).Perm ((debtOf (id,value)).toList ++ debts (m.erase id)) := by
  have same : m.insert id value = m := by
    refine ext_find? fun k => ?_
    rw [find?_insert]
    split_ifs with here
    · rw [here,found]
    · rfl
  have perm := @debts_insert m id value
  rwa [same] at perm

variable {new : Peer}

theorem debts_change
    (found : m.find? id = some value) :
    ((debtOf (id,value)).toList ++ debts (m.insert id new)).Perm ((debtOf (id,new)).toList ++ debts m) := by
  have left := (@debts_insert m id new).append_left (debtOf (id,value)).toList
  have right := (debts_erase found).append_left (debtOf (id,new)).toList
  refine left.trans (.trans ?_ right.symm)
  rw [← append_assoc,← append_assoc]
  exact perm_append_comm.append_right _

theorem debts_same (found : m.find? id = some value) (debt : new.debt = value.debt)
    (token : new.debtToken = value.debtToken) : (debts (m.insert id new)).Perm (debts m) := by
  have same : debtOf (id,new) = debtOf (id,value) := by rw [debtOf,debtOf,debt,token]
  have change := @debts_change _ _ _ new found
  rw [same] at change
  exact (perm_append_left_iff _).mp change

theorem debts_new (absent : m.find? id = none) (free : new.debt = 0) :
    (debts (m.insert id new)).Perm (debts m) := by
  have perm := @debts_insert m id new
  rwa [debtOf,if_pos free,erase_of_absent absent] at perm

theorem debts_gone (found : m.find? id = some value) (free : value.debt = 0) :
    (debts (m.erase id)).Perm (debts m) := by
  have perm := debts_erase found
  rw [debtOf,if_pos free] at perm
  exact perm.symm

theorem debts_mapValues {f : ConnectionId → Peer → Peer}
    (same : ∀ id value, (f id value).debt = value.debt ∧ (f id value).debtToken = value.debtToken) :
    debts (m.mapValues f) = debts m := by
  rw [debts,SortedMap.mapValues,filterMap_map]
  refine filterMap_congr fun e _ => ?_
  rw [Function.comp_apply,debtOf,debtOf,(same e.1 e.2).1,(same e.1 e.2).2]

structure Untouched (a b : ReliableByteAdmission) : Prop where
  debts : (debts b.peers).Perm (debts a.peers)
  tokens : a.nextToken ≤ b.nextToken
  active : ∀ receipt, b.active = some receipt → a.active = some receipt ∨ a.nextToken < receipt.token

theorem Untouched.refl (a : ReliableByteAdmission) : Untouched a a := ⟨.refl _,le_rfl,fun _ held => .inl held⟩

theorem Untouched.trans {a b c : ReliableByteAdmission} (first : Untouched a b) (second : Untouched b c) :
    Untouched a c := by
  refine ⟨second.debts.trans first.debts,first.tokens.trans second.tokens,?_⟩
  intro receipt held
  rcases second.active receipt held with before | new
  · exact first.active receipt before
  · exact .inr (first.tokens.trans_lt new)

theorem Untouched.releaseWait (a : ReliableByteAdmission) (id : ConnectionId) : Untouched a (a.releaseWait id) := by
  obtain ⟨wait,same,-⟩ := releaseWait_eq a id
  rw [same]
  exact ⟨.refl _,le_rfl,fun _ held => .inl held⟩

theorem Untouched.advance {time : Nat} (moved : a.advance profile time = some b) : Untouched a b := by
  unfold ReliableByteAdmission.advance at moved
  by_cases back : a.initialized = true ∧ time < a.now
  · rw [if_pos back] at moved
    cases moved
  rw [if_neg back] at moved
  obtain rfl := Option.some.inj moved
  exact ⟨.refl _,le_rfl,fun _ held => .inl held⟩

/-! ### Upkeep -/

inductive Upkeep (profile : ReliableServiceProfile) : ReliableByteAdmission → ReliableByteAdmission → Prop where
  | refl (a : ReliableByteAdmission) : Upkeep profile a a
  | trans {a b c : ReliableByteAdmission} (first : Upkeep profile a b) (second : Upkeep profile b c) : Upkeep profile a c
  | advance {a b : ReliableByteAdmission} {time : Nat} (sound : Sound profile a) (valid : profile.isValid = true)
      (moved : a.advance profile time = some b) : Upkeep profile a b
  | releaseWait (a : ReliableByteAdmission) (id : ConnectionId) : Upkeep profile a (a.releaseWait id)
  | peer {a b : ReliableByteAdmission} {id : ConnectionId} {value new : Peer}
      (known : a.peers.find? id = some value ∨ a.peers.find? id = none ∧ value = { credit := { updated := a.now } })
      (peers : b.peers = a.peers.insert id new)
      (same : (new.debt,new.debtToken,new.credit) = (value.debt,value.debtToken,value.credit))
      (demand : new.demandStep = 0 ∨ new.demandStep = value.demandStep)
      (rest : (b.active,b.nextToken,b.now,b.global,b.step,b.globalWait) =
        (a.active,a.nextToken,a.now,a.global,a.step,a.globalWait)) : Upkeep profile a b

section
variable (a : ReliableByteAdmission)

variable (id : ConnectionId)

theorem observe_upkeep (exposure : Option Nat) : Upkeep profile a (a.observe profile id exposure).1 := by
  unfold observe
  split
  · exact .refl a
  cases entering : a.entered profile id with
  | none => exact .refl a
  | some pair =>
    obtain ⟨value,unobserved⟩ := pair
    dsimp only
    split
    · exact .refl a
    have known : a.peers.find? id = some value ∨ a.peers.find? id = none ∧ value = { credit := { updated := a.now } } :=
      (entered_eq_some entering).imp And.left fun ⟨absent,same,_⟩ => ⟨absent,same⟩
    split
    · exact .peer known rfl rfl (.inr rfl) rfl
    · exact .peer known rfl rfl (.inr rfl) rfl

variable (service : Option ServiceObservation)

theorem refreshService_upkeep : Upkeep profile a (a.refreshService profile id service).1 := by
  unfold refreshService
  cases found : a.peers.find? id with
  | none => exact .refl a
  | some value =>
    dsimp only
    split
    · exact .refl a
    split
    · split
      · exact .peer (.inl found) rfl rfl (.inr rfl) rfl
      split
      · exact .peer (.inl found) rfl rfl (.inr rfl) rfl
      · exact .peer (.inl found) rfl rfl (.inr rfl) rfl
    · exact .peer (.inl found) rfl rfl (.inr rfl) rfl

theorem observeService_upkeep : Upkeep profile a (a.observeService profile id service).1 := by
  unfold observeService
  split
  · exact .refl a
  dsimp only
  split
  · exact (observe_upkeep a id _).trans (refreshService_upkeep _ id service)
  · exact observe_upkeep a id _

end

theorem completeNativeSend_upkeep (sound : Sound profile a) (valid : profile.isValid) (id : ConnectionId)
    (token bytes observedAt consumedAt completedAt : Nat) :
    Upkeep profile a (a.completeNativeSend profile id token bytes observedAt consumedAt completedAt).1 := by
  unfold completeNativeSend
  split
  · exact .refl a
  cases moved : a.advance profile consumedAt with
  | none => exact .refl a
  | some b =>
    have first := Upkeep.advance sound valid moved
    dsimp only
    cases found : b.peers.find? id with
    | none => exact first
    | some value =>
      dsimp only
      split
      · exact first
      split
      · exact first
      split
      · exact first
      · exact first.trans (.peer (.inl found) rfl rfl (.inr rfl) rfl)

theorem setOrdinaryUnsent_upkeep (a : ReliableByteAdmission) (id : ConnectionId) (bytes : Nat) :
    Upkeep profile a (a.setOrdinaryUnsent profile id bytes).1 := by
  unfold setOrdinaryUnsent
  cases found : a.peers.find? id with
  | none => exact .refl a
  | some value =>
    dsimp only
    split
    · exact .refl a
    split
    · exact .refl a
    split
    · exact .refl a
    · exact .peer (.inl found) rfl rfl (.inr rfl) rfl

theorem becomeIdle_upkeep (a : ReliableByteAdmission) (id : ConnectionId) : Upkeep profile a (a.becomeIdle id) := by
  unfold becomeIdle
  cases found : a.peers.find? id with
  | none => exact .releaseWait a id
  | some value =>
    refine .trans ?_ (.releaseWait _ id)
    exact .peer (.inl found) rfl rfl (.inl rfl) rfl

theorem noWork_upkeep (sound : Sound profile a) (valid : profile.isValid) (id : ConnectionId)
    (sourceEmpty : Bool) (time : Nat) : Upkeep profile a (a.noWork profile id sourceEmpty time).1 := by
  unfold noWork
  split
  · split
    · exact .refl a
    · cases moved : a.advance profile time with
      | none => exact .refl a
      | some b => exact (Upkeep.advance sound valid moved).trans (becomeIdle_upkeep b id)
  · exact becomeIdle_upkeep a id

theorem endStep_upkeep (sound : Sound profile a) (valid : profile.isValid) : Upkeep profile a (a.endStep profile) := by
  unfold endStep
  generalize a.peers.keys = ids
  induction ids generalizing a with
  | nil => exact .refl a
  | cons id rest ih =>
    rw [foldl_cons]
    split
    · split
      · exact (noWork_upkeep sound valid id _ _).trans (ih (noWork_sound sound valid id _ _))
      · exact ih sound
    · exact ih sound

theorem Upkeep.untouched (upkeep : Upkeep profile a b) : Untouched a b := by
  induction upkeep with
  | refl a => exact .refl a
  | trans _ _ first second => exact first.trans second
  | advance _ _ moved => exact .advance moved
  | releaseWait a id => exact .releaseWait a id
  | peer known peers same _ rest =>
    simp only [Prod.mk.injEq] at same rest
    refine ⟨?_,rest.2.1.ge,fun _ held => .inl (rest.1 ▸ held)⟩
    rw [peers]
    rcases known with found | ⟨absent,rfl⟩
    · exact debts_same found same.1 same.2.1
    · exact debts_new absent same.1

section
variable (a : ReliableByteAdmission)

theorem beginStep_untouched (time : Nat) : Untouched a (a.beginStep profile time).1 := by
  unfold beginStep
  split
  · exact .refl a
  cases moved : a.advance profile time with
  | none => exact .refl a
  | some b =>
    refine (Untouched.advance moved).trans ⟨?_,le_rfl,fun _ held => .inl held⟩
    exact .of_eq (debts_mapValues fun _ _ => ⟨rfl,rfl⟩)

theorem allowance_untouched (id : ConnectionId) (time : Nat) : Untouched a (a.allowance profile id time).1 := by
  rcases @allowance_cases profile a id time with ⟨same,-⟩ | ⟨-,b,moved,⟨same,-⟩ | ⟨value,found,allowed⟩⟩
  · rw [same]
    exact .refl a
  · rw [same]
    exact .advance moved
  · refine (Untouched.advance moved).trans ?_
    obtain ⟨⟨backlogged,totals,globalBacklogged,same⟩,-,-,-⟩ := allowed
    rw [same]
    exact ⟨debts_same found rfl rfl,le_rfl,fun _ held => .inl held⟩

theorem deferSize_untouched (id : ConnectionId) (completeBytes : Nat) :
    Untouched a (a.deferSize profile id completeBytes) := by
  unfold deferSize
  cases found : a.peers.find? id with
  | none => exact .refl a
  | some value =>
    dsimp only
    split
    · exact .refl a
    · refine .trans ?_ (allowance_untouched _ _ _)
      exact ⟨debts_same found rfl rfl,le_rfl,fun _ held => .inl held⟩

end

section
variable (sound : Sound profile a)
include sound

theorem reserve_untouched (valid : profile.isValid) (id : ConnectionId) (bytes : Nat) :
    Untouched a (a.reserve profile id bytes).1 := by
  rcases reserve_cases sound valid id bytes with (same | same) |
    ⟨b,value,exposure,aggregateExposure,totals,isAsked,-,found,-,-,-,-,-,-,-,-,same⟩
  · rw [same]
    exact .refl a
  · rw [same]
    exact allowance_untouched a id _
  · have first : Untouched a b := by
      rw [isAsked]
      exact allowance_untouched a id _
    rw [same]
    refine first.trans ⟨debts_same found rfl rfl,Nat.le_succ _,?_⟩
    intro receipt held
    cases held
    exact .inr (Nat.lt_succ_self _)

theorem rollback_untouched (receipt : Reservation) : Untouched a (a.rollback profile receipt).1 := by
  rcases rollback_cases sound receipt with ⟨same,-⟩ | ⟨-,value,exposure,aggregateExposure,totals,found,-,same⟩
  · rw [same]
    exact .refl a
  · rw [same]
    refine ⟨debts_same found rfl rfl,le_rfl,?_⟩
    intro other held
    cases held

theorem remove_untouched (id : ConnectionId) : Untouched a (a.remove profile id) := by
  have first : Untouched a (a.rollbackActive profile id) := by
    unfold rollbackActive
    split
    · exact .refl a
    split
    · exact rollback_untouched sound _
    · exact .refl a
  unfold remove
  obtain ⟨after,-⟩ := rollbackActive_sound sound id
  generalize a.rollbackActive profile id = b at after first
  dsimp only
  cases found : b.peers.find? id with
  | none => exact first.trans (.releaseWait b id)
  | some value =>
    dsimp only
    split
    · exact first
    · next free =>
      have holds := after.peers id value found
      have none : value.ownsGrant = false := by
        cases pooled : profile.isPooled with
        | true => exact eq_false_of_ne_true fun owns => free ⟨pooled,owns⟩
        | false => exact holds.reserved pooled
      refine first.trans (.trans ?_ (.releaseWait _ id))
      exact ⟨debts_gone found (holds.freeShare none).1,le_rfl,fun _ held => .inl held⟩

end

structure Settled (s : Audit) : Prop where
  kept : s.committed.Perm (debts s.admission.peers ++ (s.retired ++ s.released))
  distinct : (s.committed.map Reservation.token).Nodup
  given : ∀ receipt ∈ s.committed, receipt.token ≤ s.admission.nextToken
  waiting : ∀ receipt, s.admission.active = some receipt → ∀ r ∈ s.committed, r.token < receipt.token

theorem Settled.untouched (settled : Settled s) {b : ReliableByteAdmission} (same : Untouched s.admission b) :
    Settled { s with admission := b } := by
  refine ⟨settled.kept.trans (same.debts.symm.append_right _),settled.distinct,
    fun receipt member => (settled.given receipt member).trans same.tokens,?_⟩
  intro receipt held r member
  rcases same.active receipt held with before | new
  · exact settled.waiting receipt before r member
  · exact (settled.given r member).trans_lt new

theorem commit_settled (settled : Settled s) (sound : Sound profile s.admission) (pooled : profile.isPooled)
    (receipt : Reservation) : Settled (operate profile s (.commit receipt)) := by
  simp only [operate]
  unfold commit
  by_cases idle : s.admission.active ≠ some receipt
  · rwa [if_pos idle]
  rw [if_neg idle]
  have busy : s.admission.active = some receipt := not_not.mp idle
  obtain ⟨latest,⟨-,positive⟩,-,⟨value,found,free⟩,-⟩ := sound.active receipt busy
  have debt := ((sound.peers _ value found).freeShare free).1
  rw [found]
  dsimp only
  rw [if_pos pooled]
  obtain ⟨wait,same,-⟩ := releaseWait_eq (setPeer _ receipt.connection _) receipt.connection
  rw [same]
  refine ⟨?_,?_,?_,?_⟩
  · have change := @debts_change _ _ _ { value with
      required := minimumFrameBytes, debt := receipt.bytes, debtToken := receipt.token, ownsGrant := true
      ownsNativeCapacity := true, grantBytes := receipt.bytes
      nextQualification := (s.admission.now + profile.pooled.requalificationMicroseconds) % 2 ^ 64 } found
    rw [debtOf,debtOf,if_pos debt,if_neg positive.ne'] at change
    exact ((settled.kept.cons receipt).trans (.refl _)).trans (change.symm.append_right _)
  · refine nodup_cons.mpr ⟨?_,settled.distinct⟩
    intro again
    obtain ⟨r,member,equal⟩ := mem_map.mp again
    have less := settled.waiting receipt busy r member
    omega
  · intro r member
    rcases mem_cons.mp member with rfl | old
    · exact latest.le
    · exact settled.given r old
  · intro other held
    cases held

theorem retire_cases (a : ReliableByteAdmission) (id : ConnectionId) (token bytes : Nat) :
    a.retire profile id token bytes = (a,false) ∨ ∃ value c, a.retire profile id token bytes = (c,true) ∧
      a.peers.find? id = some value ∧ debtOf (id,value) = some ⟨token,id,bytes⟩ ∧
      c.peers = a.peers.insert id { value with debt := 0, debtToken := 0 } ∧ c.active = a.active ∧
      c.nextToken = a.nextToken := by
  unfold retire
  cases found : a.peers.find? id with
  | none => exact .inl rfl
  | some value =>
    dsimp only
    split
    · exact .inl rfl
    next granted =>
    push Not at granted
    obtain ⟨-,-,positive,sameToken,sameBytes,-⟩ := granted
    refine .inr ⟨value,_,rfl,rfl,?_,rfl,rfl,rfl⟩
    rw [debtOf,if_neg (by rw [sameBytes]; exact positive),sameToken,sameBytes]

theorem retire_settled (settled : Settled s) (id : ConnectionId) (token bytes : Nat) :
    Settled (operate profile s (.retire id token bytes)) := by
  simp only [operate]
  rcases @retire_cases profile s.admission id token bytes with
    same | ⟨value,c,same,found,owed,peers,active,tokens⟩
  · rwa [same]
  · rw [same]
    have change := @debts_change _ _ _ { value with debt := 0, debtToken := 0 } found
    rw [owed,debtOf,← peers] at change
    refine ⟨?_,settled.distinct,?_,?_⟩
    · refine (settled.kept.trans (change.symm.append_right _)).trans ?_
      exact perm_middle.symm
    · change ∀ receipt ∈ s.committed, receipt.token ≤ c.nextToken
      rw [tokens]
      exact settled.given
    · change ∀ receipt, c.active = some receipt → _
      rw [active]
      exact settled.waiting

theorem terminalRelease_settled (settled : Settled s) (sound : Sound profile s.admission) (id : ConnectionId) :
    Settled (operate profile s (.terminalRelease id)) := by
  simp only [operate]
  rcases terminalRelease_cases sound id with same | ⟨value,c,same,found,after,peers,active,tokens,-⟩
  · rwa [same]
  · rw [same,found]
    have change := @debts_change _ _ _ { value with
      ownsGrant := false, ownsNativeCapacity := false, grantBytes := 0, debt := 0, debtToken := 0 } found
    rw [← peers] at change
    have next : Settled { s with
        admission := c, released := (debtOf (id,value)).toList ++ s.released } := by
      refine ⟨?_,settled.distinct,?_,?_⟩
      · refine (settled.kept.trans (change.symm.append_right _)).trans ?_
        simp only [append_assoc]
        exact (perm_append_comm_assoc _ _ _).trans ((perm_append_comm_assoc _ _ _).append_left _)
      · change ∀ receipt ∈ s.committed, receipt.token ≤ c.nextToken
        rw [tokens]
        exact settled.given
      · change ∀ receipt, c.active = some receipt → _
        rw [active]
        exact settled.waiting
    exact next.untouched (remove_untouched after id)

theorem operate_settled (valid : profile.isValid) (pooled : profile.isPooled)
    (sound : Sound profile s.admission) (settled : Settled s) (o : Operation) : Settled (operate profile s o) := by
  cases o with
  | beginStep time =>
    have next := settled.untouched (@beginStep_untouched profile s.admission time)
    exact { next with }
  | observe id exposure => exact settled.untouched (observe_upkeep _ id exposure).untouched
  | observeService id service => exact settled.untouched (observeService_upkeep _ id service).untouched
  | refreshService id service => exact settled.untouched (refreshService_upkeep _ id service).untouched
  | completeNativeSend id token bytes observedAt consumedAt completedAt =>
    exact settled.untouched
      (completeNativeSend_upkeep sound valid id token bytes observedAt consumedAt completedAt).untouched
  | setOrdinaryFunding bytes => exact settled.untouched ⟨.refl _,le_rfl,fun _ held => .inl held⟩
  | setOrdinaryUnsent id bytes => exact settled.untouched (setOrdinaryUnsent_upkeep _ id bytes).untouched
  | retire id token bytes => exact retire_settled settled id token bytes
  | terminalRelease id => exact terminalRelease_settled settled sound id
  | allowance id time =>
    have next := settled.untouched (@allowance_untouched profile s.admission id time)
    exact { next with }
  | deferSize id completeBytes =>
    have next := settled.untouched (@deferSize_untouched profile s.admission id completeBytes)
    exact { next with }
  | reserve id bytes =>
    have next := settled.untouched (reserve_untouched sound valid id bytes)
    exact { next with }
  | commit receipt => exact commit_settled settled sound pooled receipt
  | rollback receipt => exact settled.untouched (rollback_untouched sound receipt)
  | noWork id sourceEmpty time => exact settled.untouched (noWork_upkeep sound valid id sourceEmpty time).untouched
  | deferSource id => exact settled.untouched (.releaseWait _ id)
  | remove id => exact settled.untouched (remove_untouched sound id)
  | endStep => exact settled.untouched (endStep_upkeep sound valid).untouched

theorem settled_empty : Settled {} := by
  refine ⟨.refl _,nodup_nil,?_,?_⟩
  · intro receipt member
    cases member
  · intro receipt held
    cases held

theorem operations_settled (valid : profile.isValid) (pooled : profile.isPooled)
    (sound : Sound profile s.admission) (settled : Settled s) (l : List Operation) :
    Settled (operations profile s l) := by
  induction l generalizing s with
  | nil => exact settled
  | cons o rest ih => exact ih (operate_sound valid sound o) (operate_settled valid pooled sound settled o)

theorem total_filter (p : Peer → Bool) (f : Peer → Nat) (m : SortedMap ConnectionId Peer) :
    m.total (fun value => if p value then f value else 0) = ((m.entries.filter fun e => p e.2).map fun e => f e.2).sum := by
  have each : ∀ l : List (ConnectionId × Peer), (l.map fun e => if p e.2 then f e.2 else 0).sum =
      ((l.filter fun e => p e.2).map fun e => f e.2).sum := by
    intro l
    induction l with
    | nil => rfl
    | cons e rest ih =>
      rw [map_cons,sum_cons,ih]
      cases taken : p e.2 with
      | true => simp [taken]
      | false => simp [taken]
  exact each m.entries

theorem sum_ones {α : Type} (l : List α) : (l.map fun _ => 1).sum = l.length := by
  induction l with
  | nil => rfl
  | cons e rest ih => rw [map_cons,sum_cons,ih,length_cons,Nat.add_comm]

structure Accounted (profile : ReliableServiceProfile) (s : Audit) : Prop where
  outstanding : s.admission.totals.outstandingBytes = (s.admission.peers.entries.map fun e => e.2.debt).sum
  grants : s.admission.totals.activeDrainGrants =
    (s.admission.peers.entries.filter fun e => e.2.ownsNativeCapacity).length
  native : s.admission.totals.nativeCapacityBytes =
    ((s.admission.peers.entries.filter fun e => e.2.ownsNativeCapacity).map fun e => e.2.grantBytes).sum
  fewGrants : s.admission.totals.activeDrainGrants ≤ profile.pooled.maximumDrainGrants
  pending : s.admission.totals.outstandingBytes ≤ profile.pooled.globalPendingCap
  debts : ∀ id value, s.admission.peers.find? id = some value →
    (value.debt ≠ 0 ↔ value.debtToken ≠ 0) ∧ (value.debt ≠ 0 → value.ownsGrant = true)
  balance : s.admission.totals.acceptedBytes = s.admission.totals.outstandingBytes +
    s.admission.totals.verifiedAttributedRetirement + s.admission.totals.terminalReleasedBytes
  kept : s.committed.Perm (ReliableByteAdmission.debts s.admission.peers ++ (s.retired ++ s.released))
  distinct : (s.committed.map Reservation.token).Nodup

/-- Along every run of a pooled admission, outstanding bytes, active grants and native capacity are the sums over the
    peers and within their limits, a debt has a token and a grant, accepted bytes are outstanding, retired or
    released, and every committed reservation is in exactly one of these three, under its own token. -/
theorem accounts_run (valid : profile.isValid = true) (pooled : profile.isPooled = true) (l : List Operation) :
    Accounted profile (operations profile {} l) := by
  have sound := operations_sound valid (s := {}) sound_empty l
  have settled := operations_settled valid pooled sound_empty settled_empty l
  refine ⟨sound.outstanding,?_,?_,sound.fewGrants,sound.pending,?_,sound.balance pooled,settled.kept,
    settled.distinct⟩
  · exact (sound.grants.trans (total_filter Peer.ownsNativeCapacity (fun _ => 1) _)).trans (sum_ones _)
  · exact sound.native.trans (total_filter Peer.ownsNativeCapacity Peer.grantBytes _)
  · intro id value found
    have holds := sound.peers id value found
    exact ⟨holds.token,holds.granted⟩

def firstPeer : ConnectionId := ⟨1,1⟩
def secondPeer : ConnectionId := ⟨2,1⟩
def available : ServiceObservation := ⟨0,true,true⟩

def retiredAndReleased : List Operation :=
  [.beginStep 0,.setOrdinaryFunding 0,.observeService firstPeer (some available),
    .observeService secondPeer (some available),.allowance firstPeer 40000,.reserve firstPeer 1000,
    .commit ⟨1,firstPeer,1000⟩,.reserve secondPeer 68,.commit ⟨2,secondPeer,68⟩,.retire firstPeer 2 1000,
    .retire firstPeer 1 1000,.remove secondPeer,.terminalRelease secondPeer]

theorem retired_and_released :
    ((operations (.pooledService true) {} retiredAndReleased).retired = [⟨1, firstPeer, 1000⟩] ∧
      (operations (.pooledService true) {} retiredAndReleased).released = [⟨2, secondPeer, 68⟩]) ∧
      Accounted (.pooledService true) (operations (.pooledService true) {} retiredAndReleased) :=
  ⟨by decide +kernel,accounts_run (by decide +kernel) (by decide +kernel) retiredAndReleased⟩

end ReliableByteAdmission
end Gargantuan
