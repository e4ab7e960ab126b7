import Gargantuan.ReliableByteAdmissionAccounts

/-!
The funding turn. A peer that may spend but finds too little global credit takes the
turn, and other peers wait for it. The turn is held by a peer that is present,
without a grant, and that asked for an allowance in the step that ended; nobody but
the peer itself can take the turn for it, and only the holder of the turn makes
others wait (`wait_run`).
-/
namespace Gargantuan
open SortedMap List
namespace ReliableByteAdmission
variable {profile : ReliableServiceProfile} {a b c : ReliableByteAdmission}

/-! ### Operations that do not ask -/

structure Quiet (a b : ReliableByteAdmission) : Prop where
  step : b.step = a.step
  demands : ∀ id value, b.peers.find? id = some value →
    value.demandStep = 0 ∨ ∃ v, a.peers.find? id = some v ∧ v.demandStep = value.demandStep
  wait : ∀ id, b.globalWait = some id → a.globalWait = some id

theorem Quiet.of_peers (step : b.step = a.step) (wait : b.globalWait = a.globalWait)
    (demands : ∀ id value, b.peers.find? id = some value →
      value.demandStep = 0 ∨ ∃ v, a.peers.find? id = some v ∧ v.demandStep = value.demandStep) : Quiet a b :=
  ⟨step,demands,fun _ held => wait ▸ held⟩

theorem Quiet.same (step : b.step = a.step) (wait : b.globalWait = a.globalWait) (peers : b.peers = a.peers) :
    Quiet a b := by
  refine .of_peers step wait ?_
  intro id value found
  exact .inr ⟨value,peers ▸ found,rfl⟩

theorem Quiet.refl (a : ReliableByteAdmission) : Quiet a a := .same rfl rfl rfl

theorem Quiet.trans (first : Quiet a b) (second : Quiet b c) : Quiet a c := by
  refine ⟨second.step.trans first.step,?_,fun id held => first.wait id (second.wait id held)⟩
  intro id value found
  rcases second.demands id value found with zero | ⟨v,there,same⟩
  · exact .inl zero
  rcases first.demands id v there with zero | ⟨v',there',same'⟩
  · exact .inl (same ▸ zero)
  · exact .inr ⟨v',there',same'.trans same⟩

variable {id : ConnectionId} {s : Audit}

theorem Quiet.change {new : Peer} (step : b.step = a.step) (wait : b.globalWait = a.globalWait)
    (peers : b.peers = a.peers.insert id new)
    (demand : new.demandStep = 0 ∨ ∃ v, a.peers.find? id = some v ∧ v.demandStep = new.demandStep) : Quiet a b := by
  refine .of_peers step wait ?_
  intro id' value found
  rw [peers,find?_insert] at found
  split_ifs at found with here
  · cases found
    rwa [here]
  · exact .inr ⟨value,found,rfl⟩

theorem Quiet.modify {value new : Peer} (found : a.peers.find? id = some value) (step : b.step = a.step)
    (wait : b.globalWait = a.globalWait) (peers : b.peers = a.peers.insert id new)
    (same : value.demandStep = new.demandStep) : Quiet a b :=
  .change step wait peers (.inr ⟨value,found,same⟩)

theorem Quiet.releaseWait (a : ReliableByteAdmission) (id : ConnectionId) : Quiet a (a.releaseWait id) := by
  obtain ⟨wait,same,which,-⟩ := releaseWait_eq a id
  rw [same]
  refine ⟨rfl,fun _ value found => .inr ⟨value,found,rfl⟩,?_⟩
  intro id' held
  rcases which with kept | none
  · exact kept ▸ held
  · change wait = some id' at held
    rw [none] at held
    cases held

theorem Quiet.advance (sound : Sound profile a) (valid : profile.isValid) {time : Nat}
    (moved : a.advance profile time = some b) : Quiet a b := by
  obtain ⟨-,-,-,-,same⟩ := sound.advance valid moved
  exact .same (by rw [same]) (by rw [same]) (by rw [same])

theorem Upkeep.quiet (upkeep : Upkeep profile a b) : Quiet a b := by
  induction upkeep with
  | refl a => exact .refl a
  | trans _ _ first second => exact first.trans second
  | advance sound valid moved => exact .advance sound valid moved
  | releaseWait a id => exact .releaseWait a id
  | peer known peers _ demand rest =>
    simp only [Prod.mk.injEq] at rest
    refine .change rest.2.2.2.2.1 rest.2.2.2.2.2 peers ?_
    rcases demand with zero | same
    · exact .inl zero
    rcases known with found | ⟨-,rfl⟩
    · exact .inr ⟨_,found,same.symm⟩
    · exact .inl same

section
variable (a : ReliableByteAdmission)

theorem retire_quiet (id : ConnectionId) (token bytes : Nat) : Quiet a (a.retire profile id token bytes).1 := by
  unfold retire
  cases found : a.peers.find? id with
  | none => exact .refl a
  | some value =>
    dsimp only
    split
    · exact .refl a
    · exact .modify found rfl rfl rfl rfl

theorem commit_quiet (receipt : Reservation) : Quiet a (a.commit profile receipt).1 := by
  unfold commit
  split
  · exact .refl a
  cases found : a.peers.find? receipt.connection with
  | none => exact .refl a
  | some value =>
    refine .trans ?_ (.releaseWait _ _)
    split
    · exact .modify found rfl rfl rfl rfl
    · exact .modify found rfl rfl rfl rfl

theorem rollback_quiet (receipt : Reservation) : Quiet a (a.rollback profile receipt).1 := by
  unfold rollback
  split
  · exact .refl a
  cases found : a.peers.find? receipt.connection with
  | none => exact .refl a
  | some value =>
    exact .modify found rfl rfl rfl rfl

theorem becomeIdle_spec (id : ConnectionId) : Quiet a (a.becomeIdle id) ∧ (a.becomeIdle id).globalWait ≠ some id ∧
      (∀ id', id' ≠ id → (a.becomeIdle id).peers.find? id' = a.peers.find? id') ∧
      (((a.becomeIdle id).peers.find? id).isSome = (a.peers.find? id).isSome) := by
  unfold becomeIdle
  cases found : a.peers.find? id with
  | none =>
    obtain ⟨wait,same,-,other⟩ := releaseWait_eq a id
    refine ⟨.releaseWait a id,?_⟩
    rw [same]
    exact ⟨other,fun _ _ => rfl,by rw [found]⟩
  | some value =>
    dsimp only
    have quiet : Quiet a (a.setPeer id { value with required := minimumFrameBytes, demandStep := 0 }) :=
      .change rfl rfl rfl (.inl rfl)
    obtain ⟨wait,same,-,other⟩ :=
      releaseWait_eq (a.setPeer id { value with required := minimumFrameBytes, demandStep := 0 }) id
    refine ⟨quiet.trans (.releaseWait _ id),?_⟩
    rw [same]
    refine ⟨other,fun id' apart => find?_insert_of_ne _ _ apart,?_⟩
    change ((a.peers.insert id _).find? id).isSome = _
    rw [find?_insert_self]
    rfl

theorem remove_quiet (id : ConnectionId) : Quiet a (a.remove profile id) := by
  have first : Quiet a (a.rollbackActive profile id) := by
    unfold rollbackActive
    split
    · exact .refl a
    split
    · exact rollback_quiet a _
    · exact .refl a
  unfold remove
  generalize a.rollbackActive profile id = b at first
  dsimp only
  cases found : b.peers.find? id with
  | none => exact first.trans (.releaseWait b id)
  | some value =>
    dsimp only
    split
    · exact first
    · refine first.trans (.trans ?_ (.releaseWait _ id))
      refine .of_peers rfl rfl ?_
      intro id' v found'
      rw [find?_erase] at found'
      split_ifs at found'
      exact .inr ⟨v,found',rfl⟩

end

theorem terminalRelease_quiet (sound : Sound profile a) (id : ConnectionId) :
    Quiet a (a.terminalRelease profile id).1 := by
  rcases terminalRelease_cases sound id with same | ⟨value,c,same,found,-,peers,-,-,-,-,step,wait⟩
  · rw [same]
    exact .refl a
  · rw [same]
    exact .trans (.modify found step wait peers rfl) (remove_quiet c id)

def TurnAsked (a : ReliableByteAdmission) (id : ConnectionId) : Prop :=
  a.globalWait = some id → ∀ value, a.peers.find? id = some value → value.demandStep = a.step

def endStepFor (profile : ReliableServiceProfile) (b : ReliableByteAdmission) (id : ConnectionId) :
    ReliableByteAdmission :=
  match b.peers.find? id with
  | some value => if value.demandStep ≠ b.step then (b.noWork profile id false maximumUInt64).1 else b
  | none => b

section
variable (b : ReliableByteAdmission)

theorem endStepFor_cases (id : ConnectionId) :
    endStepFor profile b id = b.becomeIdle id ∨ endStepFor profile b id = b ∧ TurnAsked b id := by
  unfold endStepFor
  cases found : b.peers.find? id with
  | none =>
    refine .inr ⟨rfl,?_⟩
    intro _ value found'
    rw [found] at found'
    cases found'
  | some value =>
    dsimp only
    split_ifs with asked
    · exact .inl rfl
    · refine .inr ⟨rfl,?_⟩
      intro _ value' found'
      rw [found] at found'
      cases found'
      exact not_not.mp asked

theorem endStepFor_turn (id : ConnectionId) :
    TurnAsked (endStepFor profile b id) id ∧ ∀ other, TurnAsked b other → TurnAsked (endStepFor profile b id) other := by
  rcases @endStepFor_cases profile b id with same | ⟨same,asked⟩
  · rw [same]
    obtain ⟨quiet,lost,elsewhere,-⟩ := becomeIdle_spec b id
    refine ⟨fun held => absurd held lost,?_⟩
    intro other before held value found
    have apart : other ≠ id := by
      rintro rfl
      exact lost held
    rw [elsewhere other apart] at found
    rw [quiet.step]
    exact before (quiet.wait other held) value found
  · rw [same]
    exact ⟨asked,fun _ before => before⟩

theorem endStepFor_find (id other : ConnectionId) :
    ((endStepFor profile b id).peers.find? other).isSome = (b.peers.find? other).isSome := by
  rcases @endStepFor_cases profile b id with same | ⟨same,-⟩
  · rw [same]
    obtain ⟨-,-,elsewhere,stays⟩ := becomeIdle_spec b id
    by_cases here : other = id
    · rwa [here]
    · rw [elsewhere other here]
  · rw [same]

end

theorem endStep_turn (a : ReliableByteAdmission) (id : ConnectionId) : TurnAsked (a.endStep profile) id := by
  have fold : ∀ (ids : List ConnectionId) (b : ReliableByteAdmission),
      (TurnAsked b id ∨ id ∈ ids → TurnAsked (ids.foldl (endStepFor profile) b) id) ∧
        ((ids.foldl (endStepFor profile) b).peers.find? id).isSome = (b.peers.find? id).isSome := by
    intro ids
    induction ids with
    | nil =>
      intro b
      exact ⟨fun either => either.resolve_right not_mem_nil,rfl⟩
    | cons first rest ih =>
      intro b
      obtain ⟨turn,finds⟩ := ih (endStepFor profile b first)
      obtain ⟨here,others⟩ := @endStepFor_turn profile b first
      refine ⟨?_,finds.trans (endStepFor_find b first id)⟩
      rintro (before | member)
      · exact turn (.inl (others id before))
      · rcases mem_cons.mp member with rfl | later
        · exact turn (.inl here)
        · exact turn (.inr later)
  obtain ⟨turn,finds⟩ := fold a.peers.keys a
  by_cases known : id ∈ a.peers.keys
  · exact turn (.inr known)
  · intro _ value found
    have absent : a.peers.find? id = none := by
      cases there : a.peers.find? id with
      | none => rfl
      | some value => exact absurd (SortedMap.mem_keys.mpr ⟨value,there⟩) known
    change ((a.endStep profile).peers.find? id).isSome = _ at finds
    rw [found,absent] at finds
    cases finds


structure AsksFor (id : ConnectionId) (a b : ReliableByteAdmission) : Prop where
  step : b.step = a.step
  demands : ∀ other value, other ≠ id → b.peers.find? other = some value →
    value.demandStep = 0 ∨ ∃ v, a.peers.find? other = some v ∧ v.demandStep = value.demandStep
  wait : ∀ other, other ≠ id → b.globalWait = some other → a.globalWait = some other

theorem Quiet.asksFor (quiet : Quiet a b) (id : ConnectionId) : AsksFor id a b :=
  ⟨quiet.step,fun other value _ => quiet.demands other value,fun other _ => quiet.wait other⟩

theorem AsksFor.trans (first : AsksFor id a b) (second : AsksFor id b c) : AsksFor id a c := by
  refine ⟨second.step.trans first.step,?_,fun other apart held => first.wait other apart (second.wait other apart held)⟩
  intro other value apart found
  rcases second.demands other value apart found with zero | ⟨v,there,same⟩
  · exact .inl zero
  rcases first.demands other v apart there with zero | ⟨v',there',same'⟩
  · exact .inl (same ▸ zero)
  · exact .inr ⟨v',there',same'.trans same⟩

theorem AsksFor.change (step : b.step = a.step) (peers : ∃ new, b.peers = a.peers.insert id new)
    (wait : b.globalWait = a.globalWait ∨ b.globalWait = none ∨ b.globalWait = some id) : AsksFor id a b := by
  refine ⟨step,?_,?_⟩
  · intro other value apart found
    obtain ⟨new,peers⟩ := peers
    rw [peers,find?_insert_of_ne _ _ apart] at found
    exact .inr ⟨value,found,rfl⟩
  · intro other apart held
    rcases wait with same | none | own
    · rwa [← same]
    · rw [none] at held
      cases held
    · rw [own] at held
      cases held
      exact absurd rfl apart

section
variable (sound : Sound profile a)
include sound

variable (valid : profile.isValid)
include valid

variable (id : ConnectionId)

theorem allowance_asksFor (time : Nat) : AsksFor id a (a.allowance profile id time).1 := by
  rcases @allowance_cases profile a id time with
    ⟨same,-⟩ | ⟨-,b,moved,⟨same,-⟩ | ⟨value,-,allowed⟩⟩
  · rw [same]
    exact (Quiet.refl a).asksFor id
  · rw [same]
    exact (Quiet.advance sound valid moved).asksFor id
  · obtain ⟨⟨backlogged,totals,globalBacklogged,same⟩,-,wait,-⟩ := allowed
    refine ((Quiet.advance sound valid moved).asksFor id).trans (.change ?_ ?_ ?_)
    · rw [same]
    · rw [same]
      exact ⟨_,rfl⟩
    · rcases wait with before | none | ⟨own,-⟩
      · exact .inl before
      · exact .inr (.inl none)
      · exact .inr (.inr own)

theorem deferSize_asksFor (completeBytes : Nat) : AsksFor id a (a.deferSize profile id completeBytes) := by
  unfold deferSize
  cases found : a.peers.find? id with
  | none => exact (Quiet.refl a).asksFor id
  | some value =>
    dsimp only
    split
    · exact (Quiet.refl a).asksFor id
    have told : Sound profile (a.setPeer id { value with required := completeBytes }) :=
      sound.setPeer found { sound.peers id value found with } ⟨rfl,rfl,rfl,rfl,rfl⟩
    have first : AsksFor id a (a.setPeer id { value with required := completeBytes }) := .change rfl ⟨_,rfl⟩ (.inl rfl)
    refine .trans ?_ (allowance_asksFor ?_ valid id _)
    · exact ⟨first.step,first.demands,first.wait⟩
    · exact { told with active := fun receipt held => { told.active receipt held with } }

theorem reserve_asksFor (bytes : Nat) : AsksFor id a (a.reserve profile id bytes).1 := by
  rcases reserve_cases sound valid id bytes with (same | same) |
    ⟨b,value,exposure,aggregateExposure,totals,isAsked,-,-,-,-,-,-,-,-,-,-,same⟩
  · rw [same]
    exact (Quiet.refl a).asksFor id
  · rw [same]
    exact allowance_asksFor sound valid id a.now
  · rw [same,isAsked]
    exact (allowance_asksFor sound valid id a.now).trans (.change rfl ⟨_,rfl⟩ (.inl rfl))

end

def Operation.asks : Operation → Option ConnectionId
  | .allowance id _ | .deferSize id _ | .reserve id _ => some id
  | _ => none

theorem operate_asks (valid : profile.isValid) (sound : Sound profile s.admission) (o : Operation) :
    (∃ time, o = .beginStep time) ∨
      (o.asks = none ∧ (operate profile s o).asked = s.asked ∧ Quiet s.admission (operate profile s o).admission) ∨
      (∃ id, o.asks = some id ∧ AsksFor id s.admission (operate profile s o).admission ∧
        (id ∈ (operate profile s o).asked ∧ (∀ other ∈ s.asked, other ∈ (operate profile s o).asked) ∨
          (operate profile s o).asked = s.asked ∧ (operate profile s o).admission = s.admission)) := by
  cases o with
  | beginStep time => exact .inl ⟨time,rfl⟩
  | observe id exposure => exact .inr (.inl ⟨rfl,rfl,(observe_upkeep _ id exposure).quiet⟩)
  | observeService id service => exact .inr (.inl ⟨rfl,rfl,(observeService_upkeep _ id service).quiet⟩)
  | refreshService id service => exact .inr (.inl ⟨rfl,rfl,(refreshService_upkeep _ id service).quiet⟩)
  | completeNativeSend id token bytes observedAt consumedAt completedAt =>
    exact .inr (.inl ⟨rfl,rfl,
      (completeNativeSend_upkeep sound valid id token bytes observedAt consumedAt completedAt).quiet⟩)
  | setOrdinaryFunding bytes => exact .inr (.inl ⟨rfl,rfl,.same rfl rfl rfl⟩)
  | setOrdinaryUnsent id bytes => exact .inr (.inl ⟨rfl,rfl,(setOrdinaryUnsent_upkeep _ id bytes).quiet⟩)
  | retire id token bytes => exact .inr (.inl ⟨rfl,rfl,retire_quiet _ id token bytes⟩)
  | terminalRelease id => exact .inr (.inl ⟨rfl,rfl,terminalRelease_quiet sound id⟩)
  | allowance id time =>
    exact .inr (.inr ⟨id,rfl,allowance_asksFor sound valid id time,.inl ⟨.head _,fun _ => mem_cons_of_mem _⟩⟩)
  | deferSize id completeBytes =>
    refine .inr (.inr ⟨id,rfl,deferSize_asksFor sound valid id completeBytes,?_⟩)
    by_cases refused : s.admission.peers.contains id = false ∨ completeBytes < minimumFrameBytes ∨
        maximumReliableServiceGroupBytes < completeBytes
    · refine .inr ⟨if_pos refused,?_⟩
      change s.admission.deferSize profile id completeBytes = s.admission
      unfold deferSize
      rcases refused with absent | size
      · cases found : s.admission.peers.find? id with
        | none => rfl
        | some value => rw [SortedMap.contains,found] at absent; cases absent
      · split
        · rfl
        · exact if_pos size
    · refine .inl ?_
      have asked : (operate profile s (.deferSize id completeBytes)).asked = id :: s.asked := if_neg refused
      rw [asked]
      exact ⟨.head _,fun _ => mem_cons_of_mem _⟩
  | reserve id bytes =>
    refine .inr (.inr ⟨id,rfl,reserve_asksFor sound valid id bytes,?_⟩)
    by_cases small : bytes < minimumFrameBytes
    · refine .inr ⟨if_pos small,?_⟩
      change (s.admission.reserve profile id bytes).1 = s.admission
      rw [reserve,if_pos small]
    · refine .inl ?_
      have asked : (operate profile s (.reserve id bytes)).asked = id :: s.asked := if_neg small
      rw [asked]
      exact ⟨.head _,fun _ => mem_cons_of_mem _⟩
  | commit receipt => exact .inr (.inl ⟨rfl,rfl,commit_quiet _ receipt⟩)
  | rollback receipt => exact .inr (.inl ⟨rfl,rfl,rollback_quiet _ receipt⟩)
  | noWork id sourceEmpty time => exact .inr (.inl ⟨rfl,rfl,(noWork_upkeep sound valid id sourceEmpty time).quiet⟩)
  | deferSource id => exact .inr (.inl ⟨rfl,rfl,.releaseWait _ id⟩)
  | remove id => exact .inr (.inl ⟨rfl,rfl,remove_quiet _ id⟩)
  | endStep => exact .inr (.inl ⟨rfl,rfl,(endStep_upkeep sound valid).quiet⟩)

def Recorded (s : Audit) : Prop :=
  ∀ id value, s.admission.peers.find? id = some value → value.demandStep = s.admission.step → id ∈ s.asked

theorem beginStep_wait (sound : Sound profile a) (valid : profile.isValid) (time : Nat) :
    (a.beginStep profile time).1.globalWait = a.globalWait := by
  unfold beginStep
  split
  · rfl
  cases moved : a.advance profile time with
  | none => rfl
  | some b =>
    obtain ⟨-,-,-,-,same⟩ := sound.advance valid moved
    rw [same]

theorem beginStep_recorded (sound : Sound profile s.admission) (valid : profile.isValid)
    (recorded : Recorded s) (time : Nat) : Recorded (operate profile s (.beginStep time)) := by
  change Recorded { s with
    admission := (s.admission.beginStep profile time).1
    asked := if (s.admission.beginStep profile time).2 then [] else s.asked }
  unfold beginStep
  split
  · exact recorded
  cases moved : s.admission.advance profile time with
  | none => exact recorded
  | some b =>
    obtain ⟨after,-,-,-,-⟩ := sound.advance valid moved
    intro id value found asks
    rw [find?_mapValues] at found
    obtain ⟨v,there,rfl⟩ := Option.map_eq_some_iff.mp found
    have before := (after.peers id v there).demand
    change v.demandStep = b.step + 1 at asks
    omega

section
variable (valid : profile.isValid)
include valid

variable (sound : Sound profile s.admission)
include sound

theorem operate_recorded (recorded : Recorded s) (o : Operation) : Recorded (operate profile s o) := by
  have after := operate_sound valid sound o
  rcases operate_asks valid sound o with ⟨time,rfl⟩ | ⟨-,asked,quiet⟩ | ⟨id,-,asks,either⟩
  · exact beginStep_recorded sound valid recorded time
  · intro id value found current
    rw [asked]
    have begun := (after.peers id value found).begun
    rcases quiet.demands id value found with zero | ⟨v,there,same⟩
    · omega
    · exact recorded id v there (same.trans (current.trans quiet.step))
  · intro other value found current
    rcases either with ⟨own,others⟩ | ⟨asked,same⟩
    · by_cases here : other = id
      · rwa [here]
      have begun := (after.peers other value found).begun
      rcases asks.demands other value here found with zero | ⟨v,there,same⟩
      · omega
      · exact others other (recorded other v there (same.trans (current.trans asks.step)))
    · rw [asked]
      rw [same] at found current
      exact recorded other value found current

theorem operations_recorded (recorded : Recorded s) (l : List Operation) : Recorded (operations profile s l) := by
  induction l generalizing s with
  | nil => exact recorded
  | cons o rest ih => exact ih (operate_sound valid sound o) (operate_recorded valid sound recorded o)

theorem operate_wait {o : Operation}
    (silent : o.asks ≠ some id) (held : (operate profile s o).admission.globalWait = some id) :
    s.admission.globalWait = some id := by
  rcases operate_asks valid sound o with ⟨time,rfl⟩ | ⟨-,-,quiet⟩ | ⟨id',asksFor,asks,-⟩
  · exact (beginStep_wait sound valid time).symm.trans held
  · exact quiet.wait id held
  · refine asks.wait id ?_ held
    rintro rfl
    exact silent asksFor

theorem operations_wait {l : List Operation}
    (silent : ∀ o ∈ l, o.asks ≠ some id) (held : (operations profile s l).admission.globalWait = some id) :
    s.admission.globalWait = some id := by
  induction l generalizing s with
  | nil => exact held
  | cons o rest ih =>
    have later := ih (operate_sound valid sound o) (fun o' member => silent o' (.tail _ member)) held
    exact operate_wait valid sound (silent o (.head _)) later

end

theorem releaseWait_totals (a : ReliableByteAdmission) (id : ConnectionId) : (a.releaseWait id).totals = a.totals := by
  obtain ⟨wait,freed,-⟩ := releaseWait_eq a id
  rw [freed]

theorem decideAllowance_fair (a : ReliableByteAdmission) (id : ConnectionId) (value : Peer) :
    (∃ other, other ≠ id ∧ a.globalWait = some other) ∨
      (a.decideAllowance profile id value).1.totals.fairnessDeferrals = a.totals.fairnessDeferrals := by
  unfold decideAllowance
  split
  · rw [releaseWait_totals]
    exact .inr rfl
  split
  · rw [releaseWait_totals]
    exact .inr rfl
  generalize a.rooms profile value = rooms
  obtain ⟨peerRoom,globalRoom,retainedRoom⟩ := rooms
  dsimp only
  split
  · rw [releaseWait_totals]
    exact .inr rfl
  split
  · rw [releaseWait_totals]
    exact .inr rfl
  split
  next turn =>
    refine .inl ?_
    simp only [waitsElsewhere,Option.any_eq_true,decide_eq_true_eq] at turn
    obtain ⟨other,held,apart⟩ := turn
    exact ⟨other,apart,held⟩
  split
  · exact .inr rfl
  · exact .inr rfl

theorem allowance_fair (sound : Sound profile a) (valid : profile.isValid) (id : ConnectionId) (time : Nat) :
    (∃ other, other ≠ id ∧ a.globalWait = some other) ∨
      (a.allowance profile id time).1.totals.fairnessDeferrals = a.totals.fairnessDeferrals := by
  unfold allowance
  split
  · exact .inr rfl
  cases moved : a.advance profile time with
  | none => exact .inr rfl
  | some b =>
    obtain ⟨-,-,-,-,same⟩ := sound.advance valid moved
    have totals : b.totals = a.totals := by rw [same]
    have wait : b.globalWait = a.globalWait := by rw [same]
    rw [← totals,← wait]
    dsimp only
    cases found : b.peers.find? id with
    | none => exact .inr rfl
    | some value => exact decideAllowance_fair b id _

structure TurnSound (profile : ReliableServiceProfile) (l : List Operation) : Prop where
  present : ∀ id, (operations profile {} l).admission.globalWait = some id →
    ∃ value, (operations profile {} l).admission.peers.find? id = some value ∧ value.ownsGrant = false
  unobserved : (operations profile {} l).admission.unobserved =
    ((operations profile {} l).admission.peers.entries.filter fun e => !e.2.seen).length
  asked : ∀ id, (operations profile {} (l ++ [.endStep])).admission.globalWait = some id →
    id ∈ (operations profile {} l).asked
  silent : ∀ id rest, id ∉ (operations profile {} l).asked → (∀ o ∈ rest, o.asks ≠ some id) →
    (operations profile {} (l ++ .endStep :: rest)).admission.globalWait ≠ some id
  fair : ∀ id time, ((operations profile {} l).admission.allowance profile id time).1.totals.fairnessDeferrals ≠
    (operations profile {} l).admission.totals.fairnessDeferrals →
      ∃ other, other ≠ id ∧ (operations profile {} l).admission.globalWait = some other

/-- Along every run the turn is held by a peer that is present and owns no grant, and after the end of a step by one
    that asked in it; a peer that did not ask is without the turn until it asks again, so nobody waits for it. -/
theorem wait_run (valid : profile.isValid = true) (l : List Operation) : TurnSound profile l := by
  have sound := operations_sound valid (s := {}) sound_empty l
  have recorded : Recorded (operations profile {} l) :=
    operations_recorded valid sound_empty (fun id value found => by cases found) l
  have ended : ∀ rest, operations profile {} (l ++ .endStep :: rest) =
      operations profile (operate profile (operations profile {} l) .endStep) rest := by
    intro rest
    rw [operations,foldl_append]
    rfl
  have asked : ∀ id, (operate profile (operations profile {} l) .endStep).admission.globalWait = some id →
      id ∈ (operations profile {} l).asked := by
    intro id held
    have after := operate_sound valid sound .endStep
    obtain ⟨value,found,-⟩ := after.wait id held
    have quiet := (endStep_upkeep sound valid).quiet
    have current : value.demandStep = (operations profile {} l).admission.step :=
      (endStep_turn (operations profile {} l).admission id held value found).trans quiet.step
    have begun : 0 < (operations profile {} l).admission.step := (after.peers id value found).begun.trans_eq quiet.step
    rcases quiet.demands id value found with zero | ⟨v,there,same⟩
    · omega
    · exact recorded id v there (same.trans current)
  refine ⟨sound.wait,?_,?_,?_,fun id time counted => (allowance_fair sound valid id time).resolve_right counted⟩
  · have counts : unseen = fun value : Peer => if !value.seen then 1 else 0 := by
      funext value
      rw [unseen]
      cases value.seen with
      | true => rfl
      | false => rfl
    rw [sound.unobserved,counts]
    exact (total_filter (fun value => !value.seen) (fun _ => 1) _).trans (sum_ones _)
  · intro id held
    rw [ended []] at held
    exact asked id held
  · intro id rest quiet silent held
    rw [ended rest] at held
    exact quiet (asked id (operations_wait valid (operate_sound valid sound .endStep) silent held))

def twoPeers : ReliableServiceProfile :=
  { maximumConnections := 2
    aggregateRate := 512 * 1024
    globalBacklog := maximumReliableServiceGroupBytes + 4 * (256 * 1024 + reliableServiceEnvelopeBytes) }

/-- One peer spends the global credit, and the other takes the turn. -/
def turnTaken : List Operation :=
  [.beginStep 0,.observe firstPeer (some 0),.observe secondPeer (some 0),.allowance firstPeer 3000000,
    .reserve firstPeer 524288,.commit ⟨1,firstPeer,524288⟩,.allowance secondPeer 3000000]

theorem turn_taken :
    (operations twoPeers {} turnTaken).admission.globalWait = some secondPeer ∧ TurnSound twoPeers turnTaken :=
  ⟨by decide +kernel,wait_run (by decide +kernel) turnTaken⟩
end ReliableByteAdmission
end Gargantuan
