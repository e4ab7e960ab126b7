import Gargantuan.Ledger
import Gargantuan.Runs
import Gargantuan.StructuralPlanning

/-!
The accounts of structural planning. In every run the coordinator's record count
is what its peers' selections and all plans hold, each plan and the whole within
their limits, and each tick is charged at most its allowance. A connection that
waits for planning is passed over at most once by every other one
(`planning_run`).
-/
namespace Gargantuan.StructuralPlanning
open SortedMap List Option PlanningContinuation Coordinator PeerState Nat Coordinator.Opportunity

theorem sizeSub_of_le {a b : Nat} (le : b ≤ a) : sizeSub a b = a - b := if_pos le

section
variable {ω ρ : Type} {co : Coroutine ω ρ}

structure Charged (plan : PlanningContinuation ρ) (count : Nat) (plan' : PlanningContinuation ρ) (count' : Nat) :
    Prop where
  moved : count' + plan.records = count + plan'.records
  bounded : count ≤ maximumPlanningRecords → count' ≤ maximumPlanningRecords
  within : plan.records ≤ maximumPlanningRecordsPerPeer → plan'.records ≤ maximumPlanningRecordsPerPeer

variable {count : Nat} {plan : PlanningContinuation ρ} {plan' : PlanningContinuation ρ}

theorem Charged.of_same (same : plan'.records = plan.records) : Charged plan count plan' count :=
  ⟨by rw [same],id,fun within => by rwa [same]⟩

theorem Charged.trans {plan' plan'' : PlanningContinuation ρ} {count' count'' : Nat}
    (first : Charged plan count plan' count') (second : Charged plan' count' plan'' count'') :
    Charged plan count plan'' count'' := by
  refine ⟨?_,second.bounded ∘ first.bounded,second.within ∘ first.within⟩
  have one := first.moved
  have two := second.moved
  omega

theorem retain_charged {count' amount : Nat}
    (retained : plan.retain count amount = some (plan',count')) (bounded : count ≤ maximumPlanningRecords)
    (within : plan.records ≤ maximumPlanningRecordsPerPeer) : Charged plan count plan' count' := by
  unfold retain at retained
  rw [sizeSub_of_le within,sizeSub_of_le bounded] at retained
  split_ifs at retained with refused
  cases retained
  constructor
  · change count + amount + plan.records = count + (plan.records + amount)
    omega
  · intro _
    omega
  · intro _
    change plan.records + amount ≤ _
    omega

theorem take_charged {slice : Slice ρ} (bounded : count ≤ maximumPlanningRecords)
    (within : plan.records ≤ maximumPlanningRecordsPerPeer) :
    Charged plan count (slice.take plan count).plan (slice.take plan count).recordCount := by
  induction slice generalizing plan count with
  | retain amount refused next ih =>
    rw [Slice.take]
    cases retained : plan.retain count amount with
    | none => exact .of_same rfl
    | some result =>
      have charged : Charged plan count result.1 result.2 := retain_charged retained bounded within
      exact charged.trans (ih (charged.bounded bounded) (charged.within within))
  | suspends scratch => exact .of_same rfl
  | awaitsSelection scratch => exact .of_same rfl
  | returns cost pendingTransitions scratch => exact .of_same rfl
  | throws what scratch => exact .of_same rfl

variable {c : ConnectionId} {s : Coordinator ω ρ} {peer : PeerState ρ}

theorem resume_charged {world : ω} (bounded : count ≤ maximumPlanningRecords)
    (within : plan.records ≤ maximumPlanningRecordsPerPeer) :
    Charged plan count (resume co world c plan count).plan (resume co world c plan count).recordCount := by
  unfold resume
  split
  · exact .of_same rfl
  · exact take_charged bounded within
  · exact .of_same rfl
  · exact .of_same rfl

theorem resumes_charged {world : ω} {allowance : Nat} (bounded : count ≤ maximumPlanningRecords)
    (within : plan.records ≤ maximumPlanningRecordsPerPeer) :
    Charged plan count (resumes co world c allowance plan count).plan
      (resumes co world c allowance plan count).recordCount := by
  induction allowance generalizing plan count with
  | zero => exact .of_same rfl
  | succ allowance ih =>
    have once : Charged plan count (resume co world c plan count).plan (resume co world c plan count).recordCount :=
      resume_charged bounded within
    rw [resumes]
    split
    · exact once.trans (ih (once.bounded bounded) (once.within within))
    · exact once

theorem resumes_used_le (world : ω) (c : ConnectionId) (plan : PlanningContinuation ρ) (count allowance : Nat) :
    (resumes co world c allowance plan count).used ≤ allowance := by
  induction allowance generalizing plan count with
  | zero => exact le_refl 0
  | succ allowance ih =>
    rw [resumes]
    split
    · exact succ_le_succ (ih _ _)
    · exact succ_le_succ (zero_le _)

theorem resumes_used_pos (world : ω) (c : ConnectionId) (plan : PlanningContinuation ρ) (count : Nat) {allowance : Nat}
    (positive : 0 < allowance) : 0 < (resumes co world c allowance plan count).used := by
  obtain ⟨fewer,rfl⟩ := exists_eq_succ_of_ne_zero positive.ne'
  rw [resumes]
  split
  · exact succ_pos _
  · exact one_pos

def PeerState.held (peer : PeerState ρ) : Nat :=
  peer.planningInputRecords + peer.planning.elim 0 PlanningContinuation.records

structure Balanced (s : Coordinator ω ρ) : Prop where
  counted : s.planningRecordCount =
    s.peers.total PeerState.held + s.detachedPlanning.total PlanningContinuation.records
  bounded : s.planningRecordCount ≤ maximumPlanningRecords
  plans : ∀ c peer plan, s.peers.find? c = some peer → peer.planning = some plan →
    plan.records ≤ maximumPlanningRecordsPerPeer
  detached : ∀ c plan, s.detachedPlanning.find? c = some plan → plan.records ≤ maximumPlanningRecordsPerPeer
  apart : ∀ c plan, s.detachedPlanning.find? c = some plan → s.peers.find? c = none

namespace Balanced
variable {s s' : Coordinator ω ρ} {c : ConnectionId} {peer peer' : PeerState ρ}

variable (balanced : Balanced s)
include balanced

theorem congr (peers : s'.peers = s.peers) (detached : s'.detachedPlanning = s.detachedPlanning)
    (count : s'.planningRecordCount = s.planningRecordCount) : Balanced s' := by
  constructor
  · rw [count,peers,detached]
    exact balanced.counted
  · rw [count]
    exact balanced.bounded
  · rw [peers]
    exact balanced.plans
  · rw [detached]
    exact balanced.detached
  · rw [peers,detached]
    exact balanced.apart

theorem held_le (found : s.peers.find? c = some peer) : peer.held ≤ s.planningRecordCount := by
  rw [balanced.counted,total_erase _ found]
  omega

theorem detached_le (found : s.detachedPlanning.find? c = some plan) : plan.records ≤ s.planningRecordCount := by
  rw [balanced.counted,total_erase _ found]
  omega

theorem change (found : s.peers.find? c = some peer)
    (peers : s'.peers = s.peers.insert c peer') (detached : s'.detachedPlanning = s.detachedPlanning)
    (moved : s'.planningRecordCount + peer.held = s.planningRecordCount + peer'.held)
    (bounded : s'.planningRecordCount ≤ maximumPlanningRecords)
    (within : ∀ plan, peer'.planning = some plan → plan.records ≤ maximumPlanningRecordsPerPeer) : Balanced s' := by
  constructor
  · have counted := balanced.counted
    have exchanged := total_insert PeerState.held found peer'
    rw [peers,detached]
    omega
  · exact bounded
  · intro d other plan found' planned
    rw [peers,find?_insert] at found'
    split_ifs at found' with here
    · cases found'
      exact within plan planned
    · exact balanced.plans d other plan found' planned
  · rw [detached]
    exact balanced.detached
  · intro d plan found'
    rw [detached] at found'
    have absent := balanced.apart d plan found'
    have other : d ≠ c := by
      rintro rfl
      rw [found] at absent
      cases absent
    rwa [peers,find?_insert_of_ne _ _ other]

theorem retouch (found : s.peers.find? c = some peer)
    (peers : s'.peers = s.peers.insert c peer') (detached : s'.detachedPlanning = s.detachedPlanning)
    (count : s'.planningRecordCount = s.planningRecordCount)
    (input : peer'.planningInputRecords = peer.planningInputRecords)
    (records : peer'.planning.map PlanningContinuation.records = peer.planning.map PlanningContinuation.records) :
    Balanced s' := by
  have held : peer'.held = peer.held := by
    have option : ∀ plan : Option (PlanningContinuation ρ),
        plan.elim 0 PlanningContinuation.records = (plan.map PlanningContinuation.records).elim 0 id := by
      intro plan
      cases plan <;> rfl
    rw [PeerState.held,PeerState.held,option,option,input,records]
  refine balanced.change found peers detached (by omega) (by rw [count]; exact balanced.bounded) ?_
  intro plan planned
  rw [planned] at records
  obtain ⟨before,planned',same⟩ := map_eq_some_iff.mp records.symm
  rw [← same]
  exact balanced.plans c peer before found planned'

end Balanced

/-! ### What a service opportunity does -/

/-- What bounds the rotation stays; only this connection may have left it. -/
structure Settles (s : Coordinator ω ρ) (c : ConnectionId) (s' : Coordinator ω ρ) : Prop where
  configuration : s'.configuration = s.configuration
  tick : s'.planningTick = s.planningTick
  after : s'.planningAfter = s.planningAfter
  others : ∀ d, d ≠ c → s'.planningPeers.find? d = s.planningPeers.find? d

theorem Settles.refl (s : Coordinator ω ρ) (c : ConnectionId) : Settles s c s :=
  ⟨rfl,rfl,rfl,fun _ _ => rfl⟩

theorem Settles.leave {s' : Coordinator ω ρ} (settles : Settles s c s') : Settles s c (s'.leave c) :=
  ⟨settles.configuration,settles.tick,settles.after,fun d other => by
    rw [← settles.others d other]
    change (s'.planningPeers.erase c).find? d = _
    rw [find?_erase,if_neg other]⟩

theorem absent_leave (s : Coordinator ω ρ) (c : ConnectionId) : (s.leave c).planningPeers.find? c = none :=
  find?_erase_self _ _

structure Visited (s : Coordinator ω ρ) (c : ConnectionId) (visited : Coordinator ω ρ × Nat) : Prop where
  balanced : Balanced visited.1
  settles : Settles s c visited.1
  used_le : visited.2 ≤ s.planningRemaining
  remaining : visited.1.planningRemaining = s.planningRemaining - visited.2
  served : visited.1.planningPeers.find? c = none ∨ 0 < visited.2

theorem Balanced.leave (balanced : Balanced s) (c : ConnectionId) : Balanced (s.leave c) :=
  balanced.congr rfl rfl rfl

section
variable (owing : Balanced (s.setPeer c { peer with planning := some plan }))
include owing

theorem install_settles : Balanced (s.install co c peer plan) ∧ Settles s c (s.install co c peer plan) ∧
      (s.install co c peer plan).planningRemaining = s.planningRemaining := by
  have found := find?_insert_self s.peers c { peer with planning := some plan }
  unfold install
  dsimp only
  split_ifs with full empty
  · refine ⟨.leave ?_ c,.leave ⟨rfl,rfl,rfl,fun _ _ => rfl⟩,rfl⟩
    exact owing.retouch found (insert_insert ..).symm rfl rfl rfl rfl
  · refine ⟨?_,⟨rfl,rfl,rfl,fun _ _ => rfl⟩,rfl⟩
    exact owing.retouch found (insert_insert ..).symm rfl rfl rfl rfl
  · refine ⟨.leave ?_ c,.leave ⟨rfl,rfl,rfl,fun _ _ => rfl⟩,rfl⟩
    exact owing.retouch found (insert_insert ..).symm rfl rfl rfl rfl

theorem finish_settles : Balanced (s.finish co c peer plan) ∧ Settles s c (s.finish co c peer plan) ∧
      (s.finish co c peer plan).planningRemaining = s.planningRemaining := by
  have found := find?_insert_self s.peers c { peer with planning := some plan }
  have covered : peer.planningInputRecords + plan.records ≤ s.planningRecordCount := owing.held_le found
  have bounded : s.planningRecordCount ≤ maximumPlanningRecords := owing.bounded
  have freed : sizeSub s.planningRecordCount plan.records = s.planningRecordCount - plan.records :=
    sizeSub_of_le (by omega)
  have released : Balanced (.setPeer
      { s with planningRecordCount := sizeSub s.planningRecordCount plan.records } c { peer with planning := none }) := by
    refine owing.change found (insert_insert ..).symm rfl ?_ ?_ fun _ gone => by cases gone
    · change sizeSub s.planningRecordCount plan.records + (peer.planningInputRecords + plan.records) =
        s.planningRecordCount + (peer.planningInputRecords + 0)
      omega
    · change sizeSub s.planningRecordCount plan.records ≤ _
      omega
  unfold finish
  split_ifs with disposing planned awaiting
  · exact ⟨released.leave c,.leave ⟨rfl,rfl,rfl,fun _ _ => rfl⟩,rfl⟩
  · exact ⟨released,⟨rfl,rfl,rfl,fun _ _ => rfl⟩,rfl⟩
  · refine ⟨?_,⟨rfl,rfl,rfl,fun _ _ => rfl⟩,rfl⟩
    exact owing.retouch found (insert_insert ..).symm rfl rfl rfl rfl
  · exact install_settles owing

end

theorem allowance_pos (remaining : 0 < s.planningRemaining) : 0 < s.allowance :=
  Nat.lt_min.mpr ⟨remaining,Nat.pos_of_ne_zero s.configuration.quantumValid.1⟩

theorem serve_visited (remaining : 0 < s.planningRemaining) (planned : peer.planning = some plan)
    (owing : Balanced (setPeer { s with planningRecordCount := count } c peer)) :
    Visited s c (s.serve co c peer plan count) := by
  have found := find?_insert_self s.peers c peer
  have within := owing.plans c peer plan found planned
  have bounded : count ≤ maximumPlanningRecords := owing.bounded
  have charged : Charged plan count (resumes co s.world c s.allowance plan count).plan
      (resumes co s.world c s.allowance plan count).recordCount := resumes_charged bounded within
  have used : (resumes co s.world c s.allowance plan count).used ≤ s.allowance := resumes_used_le ..
  have positive : 0 < (resumes co s.world c s.allowance plan count).used :=
    resumes_used_pos s.world c plan count (allowance_pos remaining)
  have affordable : s.allowance ≤ s.planningRemaining := min_le_left ..
  unfold serve
  split_ifs with ready
  · exact ⟨owing.leave c,.leave ⟨rfl,rfl,rfl,fun _ _ => rfl⟩,zero_le _,rfl,.inl (absent_leave _ c)⟩
  dsimp only
  generalize resumes co s.world c s.allowance plan count = resumed at charged used positive ⊢
  -- The plan that the resumption left is in the peer's place; the count went up by what it retained.
  have held : ∀ (peer' : PeerState ρ), peer'.planningInputRecords = peer.planningInputRecords →
      peer'.planning = some resumed.plan → Balanced (.setPeer
        { s with planningRecordCount := resumed.recordCount, planningRemaining := s.planningRemaining - resumed.used }
        c peer') := by
    intro peer' input planned'
    refine owing.change found (insert_insert ..).symm rfl ?_ (charged.bounded bounded) ?_
    · change resumed.recordCount + peer.held = count + peer'.held
      have moved := charged.moved
      rw [PeerState.held,PeerState.held,planned,planned']
      simp only [elim_some]
      omega
    · intro plan' same
      rw [planned'] at same
      cases same
      exact charged.within within
  split
  · exact ⟨held _ rfl rfl,⟨rfl,rfl,rfl,fun _ _ => rfl⟩,used.trans affordable,rfl,.inr positive⟩
  · refine ⟨.leave ?_ c,.leave ⟨rfl,rfl,rfl,fun _ _ => rfl⟩,used.trans affordable,rfl,
      .inl (absent_leave _ c)⟩
    exact held _ rfl rfl
  · obtain ⟨balanced,settles,same⟩ := finish_settles (held { peer with planning := some resumed.plan } rfl rfl)
    exact ⟨balanced,{ settles with },used.trans affordable,same,
      .inr positive⟩

theorem visitDetached_visited (balanced : Balanced s) (remaining : 0 < s.planningRemaining) :
    Visited s c (s.visitDetached co c) := by
  unfold visitDetached
  cases found : s.detachedPlanning.find? c with
  | none =>
    exact ⟨balanced.leave c,(Settles.refl s c).leave,zero_le _,rfl,.inl (absent_leave s c)⟩
  | some plan =>
    have within := balanced.detached c plan found
    have charged : Charged plan s.planningRecordCount (resumes co s.world c s.allowance plan s.planningRecordCount).plan
        (resumes co s.world c s.allowance plan s.planningRecordCount).recordCount :=
      resumes_charged balanced.bounded within
    have used : (resumes co s.world c s.allowance plan s.planningRecordCount).used ≤ s.allowance := resumes_used_le ..
    have positive : 0 < (resumes co s.world c s.allowance plan s.planningRecordCount).used :=
      resumes_used_pos s.world c plan s.planningRecordCount (allowance_pos remaining)
    have affordable : s.allowance ≤ s.planningRemaining := min_le_left ..
    have whole := total_erase records found
    have counted := balanced.counted
    have bounded := balanced.bounded
    dsimp only
    generalize resumes co s.world c s.allowance plan s.planningRecordCount = resumed at charged used positive ⊢
    have moved := charged.moved
    have ended : ∀ s' : Coordinator ω ρ, s'.peers = s.peers → s'.detachedPlanning = s.detachedPlanning.erase c →
        s'.planningRecordCount = sizeSub resumed.recordCount resumed.plan.records → Balanced s' := by
      intro s' peers detached count
      have kept : ∀ d other, s'.detachedPlanning.find? d = some other → s.detachedPlanning.find? d = some other := by
        intro d other found'
        rw [detached,find?_erase] at found'
        split_ifs at found' with here
        exact found'
      rw [sizeSub_of_le (by omega)] at count
      constructor
      · rw [peers,detached]
        omega
      · omega
      · rw [peers]
        exact balanced.plans
      · intro d other found'
        exact balanced.detached d other (kept d other found')
      · intro d other found'
        rw [peers]
        exact balanced.apart d other (kept d other found')
    split
    · refine ⟨?_,⟨rfl,rfl,rfl,fun _ _ => rfl⟩,used.trans affordable,rfl,.inr positive⟩
      have exchanged := total_insert records found resumed.plan
      constructor
      · change resumed.recordCount =
          s.peers.total PeerState.held + (s.detachedPlanning.insert c resumed.plan).total records
        omega
      · exact charged.bounded bounded
      · exact balanced.plans
      · intro d other found'
        rw [find?_insert] at found'
        split_ifs at found' with here
        · cases found'
          exact charged.within within
        · exact balanced.detached d other found'
      · intro d other found'
        rw [find?_insert] at found'
        split_ifs at found' with here
        · rw [here]
          exact balanced.apart c plan found
        · exact balanced.apart d other found'
    · refine ⟨.leave ?_ c,.leave ⟨rfl,rfl,rfl,fun _ _ => rfl⟩,used.trans affordable,rfl,
        .inl (absent_leave _ c)⟩
      exact ended _ rfl rfl rfl

theorem create_balanced {before : PeerState ρ} (balanced : Balanced s) (found : s.peers.find? c = some before)
    (input : peer.planningInputRecords = before.planningInputRecords) (unplanned : peer.planning = none)
    (unplanned' : before.planning = none) :
    Balanced (setPeer { s with planningRecordCount := (s.create co c peer).2.2 } c (s.create co c peer).1) ∧
      ∀ plan, (s.create co c peer).2.1 = some plan → (s.create co c peer).1.planning = some plan := by
  have bounded := balanced.bounded
  have empty : ∀ plan : PlanningContinuation ρ, plan.records = 0 → plan.records ≤ maximumPlanningRecordsPerPeer := by
    intro plan none
    rw [none]
    exact zero_le _
  unfold create
  split_ifs with exhausted
  · refine ⟨balanced.retouch found rfl rfl rfl input ?_,fun plan none => by cases none⟩
    rw [unplanned',← unplanned]
  dsimp only
  split
  · refine ⟨balanced.change found rfl rfl ?_ bounded ?_,fun plan none => by cases none⟩
    · rw [PeerState.held,unplanned',← input]
      rfl
    · intro plan planned
      cases planned
      exact empty _ rfl
  · next leased count retained =>
    have charged := retain_charged retained bounded (empty _ rfl)
    have moved := charged.moved
    refine ⟨balanced.change found rfl rfl ?_ (charged.bounded bounded) ?_,fun plan same => same⟩
    · change count + before.held = s.planningRecordCount + (peer.planningInputRecords + leased.records)
      change count + 0 = s.planningRecordCount + leased.records at moved
      rw [PeerState.held,unplanned',← input]
      change count + (peer.planningInputRecords + 0) = _
      omega
    · intro plan planned
      cases planned
      exact charged.within (empty _ rfl)

theorem visit_visited (balanced : Balanced s) (remaining : 0 < s.planningRemaining) : Visited s c (s.visit co c) := by
  unfold visit
  cases found : s.peers.find? c with
  | none => exact visitDetached_visited balanced remaining
  | some peer =>
    dsimp only
    generalize (if s.catalogError = "" then peer.planningError else s.catalogError) = error
    have told : Balanced (s.setPeer c { peer with planningError := error }) := balanced.retouch found rfl rfl rfl rfl rfl
    split_ifs with stopped
    · exact ⟨told.leave c,.leave ⟨rfl,rfl,rfl,fun _ _ => rfl⟩,zero_le _,rfl,.inl (absent_leave _ c)⟩
    obtain ⟨input,records⟩ : (s.invalidate co { peer with planningError := error }).planningInputRecords =
          peer.planningInputRecords ∧
        (s.invalidate co { peer with planningError := error }).planning.map records =
          peer.planning.map records := by
      unfold invalidate
      split
      · exact ⟨rfl,rfl⟩
      · next plan planned =>
        split_ifs
        · rw [planned]
          exact ⟨rfl,rfl⟩
        · exact ⟨rfl,rfl⟩
    generalize s.invalidate co { peer with planningError := error } = checked at input records ⊢
    split
    · next plan planned =>
      refine serve_visited remaining planned ?_
      exact balanced.retouch found rfl rfl rfl input records
    · next unplanned =>
      have unplanned' : peer.planning = none := by
        rw [unplanned] at records
        exact map_eq_none_iff.mp records.symm
      obtain ⟨created,same⟩ : Balanced
            (.setPeer { s with planningRecordCount := (s.create co c checked).2.2 } c (s.create co c checked).1) ∧
          ∀ plan, (s.create co c checked).2.1 = some plan → (s.create co c checked).1.planning = some plan :=
        create_balanced balanced found input unplanned unplanned'
      split
      · next failed count result =>
        rw [result] at created
        exact ⟨created.leave c,.leave ⟨rfl,rfl,rfl,fun _ _ => rfl⟩,zero_le _,rfl,
          .inl (absent_leave _ c)⟩
      · next started plan count result =>
        rw [result] at created same
        exact serve_visited remaining (same plan rfl) created

abbrev charged (given : List Coordinator.Opportunity) (tick : Nat) : Nat :=
  charge Coordinator.Opportunity.tick Coordinator.Opportunity.units given tick

structure Served (s : Coordinator ω ρ) (result : Coordinator ω ρ × List Coordinator.Opportunity) : Prop where
  balanced : Balanced result.1
  configuration : result.1.configuration = s.configuration
  tick : result.1.planningTick = s.planningTick
  ticks : ∀ o ∈ result.2, o.tick = s.planningTick
  spent : result.1.planningRemaining + charged result.2 s.planningTick = s.planningRemaining
  stays : ∀ c, result.1.planningPeers.contains c = true → s.planningPeers.contains c = true
  worked : ∀ c, result.1.planningPeers.contains c = true → ∀ o ∈ result.2, o.connection = c → 2 ≤ o.units
  ascends : ∀ c, s.planningPeers.contains c = true → c ∉ result.2.map Coordinator.Opportunity.connection →
    Ascends c s.planningAfter (result.2.map Coordinator.Opportunity.connection) result.1.planningAfter

section
variable (balanced : Balanced s)
include balanced

theorem Served.nothing : Served s (s,[]) :=
  ⟨balanced,rfl,rfl,by simp,rfl,fun _ => id,by simp,fun _ _ _ => rfl⟩

theorem opportunities_served : Served s (s.opportunities co count) := by
  induction count generalizing s with
  | zero => exact .nothing balanced
  | succ count ih =>
    rw [opportunities]
    split_ifs with exhausted
    · exact .nothing balanced
    cases next : firstAfter s.planningPeers.keys s.planningAfter with
    | none => exact .nothing balanced
    | some k =>
      dsimp only
      generalize start : ({ s with planningAfter := k, planningRemaining := s.planningRemaining - 1 } :
        Coordinator ω ρ) = charged'
      have left : charged'.planningRemaining = s.planningRemaining - 1 := by rw [← start]
      have visited : Visited charged' k (charged'.visit co k) := by
        refine visit_visited ?_ (by omega)
        rw [← start]
        exact balanced.congr rfl rfl rfl
      obtain ⟨balanced',settles,usedLe,remaining,served⟩ := visited
      have onward := ih balanced'
      generalize charged'.visit co k = visit at balanced' settles usedLe remaining served onward ⊢
      have tick : visit.1.planningTick = s.planningTick := by rw [settles.tick,← start]
      have after : visit.1.planningAfter = k := by rw [settles.after,← start]
      have others : ∀ d, d ≠ k → visit.1.planningPeers.find? d = s.planningPeers.find? d := by
        intro d other
        rw [settles.others d other,← start]
      have member := mem_of_firstAfter next
      have kept : ∀ d, visit.1.planningPeers.contains d → s.planningPeers.contains d := by
        intro d within
        by_cases same : d = k
        · rw [same]
          exact contains_iff_mem_keys.mpr member
        · rwa [SortedMap.contains,← others d same]
      constructor
      · exact onward.balanced
      · rw [onward.configuration,settles.configuration,← start]
      · rw [onward.tick,tick]
      · intro o there
        rcases mem_cons.mp there with rfl | later
        · rfl
        · rw [onward.ticks o later,tick]
      · have spent := onward.spent
        rw [tick] at spent
        rw [charged,charge_cons,if_pos rfl]
        dsimp only
        rw [charged] at spent
        omega
      · intro c within
        exact kept c (onward.stays c within)
      · intro c within o there same
        rcases mem_cons.mp there with rfl | later
        · change k = c at same
          change 2 ≤ visit.2 + 1
          have here := onward.stays c within
          rw [← same,SortedMap.contains] at here
          rcases served with gone | positive
          · rw [gone] at here
            cases here
          · omega
        · exact onward.worked c within o later same
      · intro c within unserved
        simp only [map_cons,mem_cons,not_or] at unserved
        obtain ⟨other,unserved⟩ := unserved
        refine ⟨?_,.symm other,?_⟩
        · intro elsewhere
          have listed := contains_iff_mem_keys.mp within
          have sorted : s.planningPeers.keys.Pairwise (· < ·) := pairwise_map.mpr s.planningPeers.sorted
          exact towards_firstAfter sorted listed next elsewhere (.symm other)
        · have still : visit.1.planningPeers.contains c := by
            rwa [SortedMap.contains,others c other]
          have ascends := onward.ascends c still unserved
          rwa [after] at ascends

theorem refill_balanced (tick : Nat) : Balanced (s.refill tick) := by
  unfold refill
  split_ifs
  · exact balanced.congr rfl rfl rfl
  · exact balanced

theorem processPlanning_served (tick : Nat) : Served (s.refill tick) (s.processPlanning co tick) := by
  have refilled := refill_balanced balanced tick
  unfold processPlanning
  dsimp only
  split_ifs
  · exact .nothing refilled
  · exact opportunities_served refilled

end

theorem processPlanning_gives {tick : Nat} (later : s.planningTick < tick)
    (waiting : s.planningPeers.contains c) : (s.processPlanning co tick).2 ≠ [] := by
  have enough := s.configuration.workValid.1
  have listed := contains_iff_mem_keys.mp waiting
  have refilled : s.refill tick =
      { s with planningTick := tick, planningRemaining := s.configuration.planningWorkPerTick } := if_pos later
  have positive : s.planningPeers.size ≠ 0 := by
    intro none
    rw [← length_keys,length_eq_zero_iff] at none
    rw [none] at listed
    cases listed
  obtain ⟨fewer,size⟩ := exists_eq_succ_of_ne_zero positive
  unfold processPlanning
  rw [refilled]
  dsimp only
  rw [if_neg (by omega),size,opportunities]
  dsimp only
  rw [if_neg (by omega)]
  cases next : firstAfter s.planningPeers.keys s.planningAfter with
  | none =>
    rw [firstAfter_eq_none next] at listed
    cases listed
  | some k => simp

/-- An operation that gives no opportunity keeps the balance and what the rotation goes by. -/
structure Steady (s s' : Coordinator ω ρ) : Prop where
  balanced : Balanced s'
  configuration : s'.configuration = s.configuration
  tick : s'.planningTick = s.planningTick
  remaining : s'.planningRemaining = s.planningRemaining
  after : s'.planningAfter = s.planningAfter

theorem Steady.of_balanced (balanced : Balanced s) : Steady s s :=
  ⟨balanced,rfl,rfl,rfl,rfl⟩

theorem Steady.trans {m t : Coordinator ω ρ} (first : Steady s m) (second : Steady m t) : Steady s t :=
  ⟨second.balanced,second.configuration.trans first.configuration,second.tick.trans first.tick,
    second.remaining.trans first.remaining,second.after.trans first.after⟩

section
variable (balanced : Balanced s)
include balanced

variable (c : ConnectionId)

theorem removePeer_steady : Steady s (s.removePeer co c) := by
  unfold Coordinator.removePeer
  cases found : s.peers.find? c with
  | none => exact .of_balanced balanced
  | some peer =>
    have held := balanced.held_le found
    have whole := total_erase PeerState.held found
    have counted := balanced.counted
    have bounded := balanced.bounded
    have input : peer.planningInputRecords ≤ peer.held := Nat.le_add_right ..
    have freed : sizeSub s.planningRecordCount peer.planningInputRecords =
        s.planningRecordCount - peer.planningInputRecords := sizeSub_of_le (input.trans held)
    have fewer : ∀ d, (s.peers.erase c).find? d = none ∨ (s.peers.erase c).find? d = s.peers.find? d := by
      intro d
      rw [find?_erase]
      split_ifs
      · exact .inl rfl
      · exact .inr rfl
    have plans : ∀ d other plan, (s.peers.erase c).find? d = some other → other.planning = some plan →
        plan.records ≤ maximumPlanningRecordsPerPeer := by
      intro d other plan found' planned
      rcases fewer d with gone | same
      · rw [gone] at found'
        cases found'
      · rw [same] at found'
        exact balanced.plans d other plan found' planned
    have apart : ∀ d, s.peers.find? d = none → (s.peers.erase c).find? d = none := by
      intro d absent
      rcases fewer d with gone | same
      · exact gone
      · rw [same,absent]
    dsimp only
    cases planned : peer.planning with
    | none =>
      refine ⟨.leave ?_ c,rfl,rfl,rfl,rfl⟩
      have whole' : peer.held = peer.planningInputRecords := by
        rw [PeerState.held,planned]
        rfl
      constructor
      · change sizeSub s.planningRecordCount peer.planningInputRecords =
          (s.peers.erase c).total PeerState.held + s.detachedPlanning.total PlanningContinuation.records
        omega
      · change sizeSub s.planningRecordCount peer.planningInputRecords ≤ _
        omega
      · exact plans
      · exact balanced.detached
      · intro d plan found'
        exact apart d (balanced.apart d plan found')
    | some plan =>
      have fresh : s.detachedPlanning.find? c = none := by
        cases retiring : s.detachedPlanning.find? c with
        | none => rfl
        | some other =>
          rw [balanced.apart c other retiring] at found
          cases found
      have whole' : peer.held = peer.planningInputRecords + plan.records := by
        rw [PeerState.held,planned]
        rfl
      have more := total_insert_new PlanningContinuation.records fresh (plan.dispose co)
      change _ = _ + plan.records at more
      have absent : s.detachedPlanning.contains c = false := by rw [SortedMap.contains,fresh]; rfl
      rw [absent]
      have stored : ∀ d other, (s.detachedPlanning.insert c (plan.dispose co)).find? d = some other →
          (d = c ∧ other = plan.dispose co) ∨ s.detachedPlanning.find? d = some other := by
        intro d other found'
        rw [find?_insert] at found'
        split_ifs at found' with here
        · exact .inl ⟨here,(Option.some.inj found').symm⟩
        · exact .inr found'
      refine ⟨⟨?_,?_,plans,?_,?_⟩,rfl,rfl,rfl,rfl⟩
      · change sizeSub s.planningRecordCount peer.planningInputRecords =
          (s.peers.erase c).total PeerState.held +
            (s.detachedPlanning.insert c (plan.dispose co)).total PlanningContinuation.records
        omega
      · change sizeSub s.planningRecordCount peer.planningInputRecords ≤ _
        omega
      · intro d other found'
        rcases stored d other found' with ⟨-,rfl⟩ | before
        · exact balanced.plans c peer plan found planned
        · exact balanced.detached d other before
      · intro d other found'
        rcases stored d other found' with ⟨rfl,-⟩ | before
        · exact find?_erase_self _ _
        · exact apart d (balanced.apart d other before)

theorem Balanced.enlist : Balanced (s.enlist c) :=
  balanced.congr rfl rfl rfl

theorem requestPlanning_steady (selection : Option PeerRelevanceSelection)
    (tick : Nat) : Steady s (s.requestPlanning c selection tick).2 := by
  unfold Coordinator.requestPlanning
  split
  · exact .of_balanced balanced
  · exact .of_balanced balanced
  next peer chosen found =>
  have held := balanced.held_le found
  have bounded := balanced.bounded
  have input : peer.planningInputRecords ≤ peer.held := Nat.le_add_right ..
  have without : sizeSub s.planningRecordCount peer.planningInputRecords =
      s.planningRecordCount - peer.planningInputRecords := sizeSub_of_le (input.trans held)
  have room : sizeSub maximumPlanningRecords (sizeSub s.planningRecordCount peer.planningInputRecords) =
      maximumPlanningRecords - sizeSub s.planningRecordCount peer.planningInputRecords := sizeSub_of_le (by omega)
  have granted : ∀ (within : ¬ sizeSub maximumPlanningRecords (sizeSub s.planningRecordCount peer.planningInputRecords) <
        chosen.records) (s' : Coordinator ω ρ) (asked : PeerState ρ), s'.peers = s.peers.insert c asked →
      s'.detachedPlanning = s.detachedPlanning →
      s'.planningRecordCount = sizeSub s.planningRecordCount peer.planningInputRecords + chosen.records →
      asked.planningInputRecords = chosen.records → asked.planning = peer.planning → Balanced s' := by
    intro within s' asked peers detached count records planning
    refine balanced.change found peers detached ?_ (by omega) ?_
    · have before : peer.held = peer.planningInputRecords + peer.planning.elim 0 PlanningContinuation.records := rfl
      have behind : asked.held = chosen.records + peer.planning.elim 0 PlanningContinuation.records := by
        rw [PeerState.held,records,planning]
      omega
    · intro plan planned
      rw [planning] at planned
      exact balanced.plans c peer plan found planned
  dsimp only
  generalize (if sameSelection (some chosen) peer.resolvedSelection = true then peer.resolvedSelection else none) = resolved
  split_ifs with failed prepared large refused full
  · exact .of_balanced balanced
  · exact .of_balanced balanced
  · exact .of_balanced balanced
  · exact ⟨balanced.congr rfl rfl rfl,rfl,rfl,rfl,rfl⟩
  · exact ⟨balanced.congr rfl rfl rfl,rfl,rfl,rfl,rfl⟩
  · refine ⟨.enlist ?_ c,rfl,rfl,rfl,rfl⟩
    exact granted full _ _ rfl rfl rfl rfl rfl
  · refine ⟨?_,rfl,rfl,rfl,rfl⟩
    exact granted full _ _ rfl rfl rfl rfl rfl

theorem registerPeerPlanned_steady (epoch : ReplicationEpoch) (selection : Option PeerRelevanceSelection) :
    Steady s (s.registerPeerPlanned co c epoch selection).2 := by
  unfold registerPeerPlanned
  split_ifs with invalid many known taken refused
  · exact .of_balanced balanced
  · exact .of_balanced balanced
  · exact .of_balanced balanced
  · exact .of_balanced balanced
  · exact .of_balanced balanced
  rw [Bool.or_eq_true,not_or] at known
  obtain ⟨unknown,settled⟩ := known
  have absent : s.peers.find? c = none := by simpa [SortedMap.contains] using unknown
  have gone : s.detachedPlanning.find? c = none := by simpa [SortedMap.contains] using settled
  have joined : Steady s (s.setPeer c {}) := by
    refine ⟨⟨?_,balanced.bounded,?_,balanced.detached,?_⟩,rfl,rfl,rfl,rfl⟩
    · have more := total_insert_new PeerState.held absent {}
      change _ = s.peers.total PeerState.held + 0 at more
      change s.planningRecordCount =
        (s.peers.insert c {}).total PeerState.held + s.detachedPlanning.total records
      rw [more]
      exact balanced.counted
    · intro d peer plan found planned
      change (s.peers.insert c {}).find? d = some peer at found
      rw [find?_insert] at found
      split_ifs at found
      · cases found
        cases planned
      · exact balanced.plans d peer plan found planned
    · intro d plan retiring
      have other : d ≠ c := by
        rintro rfl
        change s.detachedPlanning.find? d = some plan at retiring
        rw [gone] at retiring
        cases retiring
      change (s.peers.insert c {}).find? d = none
      rw [find?_insert_of_ne _ _ other]
      exact balanced.apart d plan retiring
  have requested := joined.trans (requestPlanning_steady joined.balanced c selection s.latestSchedulingTick)
  dsimp only
  split_ifs
  · exact requested
  · exact requested.trans (removePeer_steady requested.balanced c)

theorem producePlannedFrame_steady (frame : Coordinator.PlannedFrame)
    (world : ω) : Steady s (s.producePlannedFrame co c frame world) := by
  unfold producePlannedFrame
  cases found : s.peers.find? c with
  | none => exact .of_balanced balanced
  | some peer =>
    dsimp only
    split_ifs
    · exact .of_balanced balanced
    cases frame with
    | prepared sequence => exact ⟨balanced.retouch found rfl rfl rfl rfl rfl,rfl,rfl,rfl,rfl⟩
    | reduced =>
      refine ⟨.enlist ?_ c,rfl,rfl,rfl,rfl⟩
      refine balanced.retouch found rfl rfl rfl rfl ?_
      rw [Option.map_map]
      rfl
    | deferred => exact ⟨balanced.congr rfl rfl rfl,rfl,rfl,rfl,rfl⟩

variable (sequence : ReliableReplicationSequence)

theorem commitSchedulerAcceptance_steady (commit : Coordinator.AcceptedCommit) (world : ω) :
    Steady s (s.commitSchedulerAcceptance c sequence commit world) := by
  unfold commitSchedulerAcceptance
  cases found : s.peers.find? c with
  | none => exact .of_balanced balanced
  | some peer =>
    dsimp only
    split_ifs
    · exact .of_balanced balanced
    · refine ⟨.enlist ?_ c,rfl,rfl,rfl,rfl⟩
      exact balanced.retouch found rfl rfl rfl rfl rfl
    · exact ⟨balanced.retouch found rfl rfl rfl rfl rfl,rfl,rfl,rfl,rfl⟩

theorem discardSchedulerPreparation_steady : Steady s (s.discardSchedulerPreparation c sequence) := by
  unfold discardSchedulerPreparation
  cases found : s.peers.find? c with
  | none => exact .of_balanced balanced
  | some peer =>
    dsimp only
    split_ifs
    · exact .of_balanced balanced
    · exact ⟨balanced.retouch found rfl rfl rfl rfl rfl,rfl,rfl,rfl,rfl⟩

end

variable {r t : Recorded ω ρ}

theorem step_cases {event : Event ω} (balanced : Balanced r.coordinator) (stepped : step co r event = some t) :
    (t.given = r.given ∧ Steady r.coordinator t.coordinator) ∨
      ∃ tick given, t.given = r.given ++ given ∧ Served (r.coordinator.refill tick) (t.coordinator,given) := by
  cases event with
  | registerPeerPlanned c epoch selection =>
    cases stepped
    exact .inl ⟨rfl,registerPeerPlanned_steady balanced c epoch selection⟩
  | requestPlanning c selection tick =>
    cases stepped
    exact .inl ⟨rfl,requestPlanning_steady balanced c selection tick⟩
  | processPlanning tick =>
    cases stepped
    exact .inr ⟨tick,_,rfl,processPlanning_served balanced tick⟩
  | removePeer c =>
    cases stepped
    exact .inl ⟨rfl,removePeer_steady balanced c⟩
  | producePlannedFrame c frame world =>
    cases stepped
    exact .inl ⟨rfl,producePlannedFrame_steady balanced c frame world⟩
  | commitSchedulerAcceptance c sequence commit world =>
    cases stepped
    exact .inl ⟨rfl,commitSchedulerAcceptance_steady balanced c sequence commit world⟩
  | discardSchedulerPreparation c sequence =>
    cases stepped
    exact .inl ⟨rfl,discardSchedulerPreparation_steady balanced c sequence⟩
  | catalogChange world dependencyCursor planningCursor catalogError =>
    cases stepped
    exact .inl ⟨rfl,balanced.congr rfl rfl rfl,rfl,rfl,rfl,rfl⟩

/-- The balance, and the work that was charged so far: every tick within its allowance, the present one leaving what
    remains. -/
structure Accounted (configuration : StructuralReplicationConfiguration) (r : Recorded ω ρ) : Prop where
  balanced : Balanced r.coordinator
  configured : r.coordinator.configuration = configuration
  spent : r.coordinator.planningRemaining + charged r.given r.coordinator.planningTick = configuration.planningWorkPerTick
  past : ∀ o ∈ r.given, o.tick ≤ r.coordinator.planningTick
  work : ∀ tick, charged r.given tick ≤ configuration.planningWorkPerTick

theorem initial_accounted (configuration : StructuralReplicationConfiguration) (sourceRootId : ObjectId) (world : ω) :
    Accounted configuration (initial configuration sourceRootId world : Recorded ω ρ) := by
  refine ⟨⟨rfl,zero_le _,?_,?_,?_⟩,rfl,rfl,?_,?_⟩
  · intro c peer plan found
    cases found
  · intro c plan found
    cases found
  · intro c plan found
    cases found
  · intro o member
    cases member
  · intro tick
    exact zero_le _

variable {configuration : StructuralReplicationConfiguration}

theorem refill_accounted {r : Recorded ω ρ}
    (accounted : Accounted configuration r) (tick : Nat) :
    Accounted configuration { r with coordinator := r.coordinator.refill tick } := by
  unfold refill
  split_ifs with later
  · have unused : charged r.given tick = 0 := by
      apply charge_eq_zero
      intro o member
      have past := accounted.past o member
      omega
    refine ⟨accounted.balanced.congr rfl rfl rfl,accounted.configured,?_,?_,accounted.work⟩
    · change r.coordinator.configuration.planningWorkPerTick + charged r.given tick = _
      rw [unused,accounted.configured,add_zero]
    · intro o member
      exact (accounted.past o member).trans later.le
  · exact accounted

theorem step_accounted (r : Recorded ω ρ) (event : Event ω)
    (t : Recorded ω ρ) (accounted : Accounted configuration r) (stepped : step co r event = some t) :
    Accounted configuration t := by
  rcases step_cases accounted.balanced stepped with ⟨same,steady⟩ | ⟨tick,given,longer,served⟩
  · refine ⟨steady.balanced,steady.configuration.trans accounted.configured,?_,?_,?_⟩
    · rw [steady.remaining,steady.tick,same]
      exact accounted.spent
    · rw [steady.tick,same]
      exact accounted.past
    · rw [same]
      exact accounted.work
  · have refilled := refill_accounted accounted tick
    have spent := refilled.spent
    have more := served.spent
    dsimp only at spent more
    have now : t.coordinator.planningTick = (r.coordinator.refill tick).planningTick := served.tick
    have total : t.coordinator.planningRemaining + charged t.given t.coordinator.planningTick =
        configuration.planningWorkPerTick := by
      rw [now,longer,charged,charge_append]
      rw [charged] at spent more
      omega
    refine ⟨served.balanced,served.configuration.trans refilled.configured,total,?_,?_⟩
    · intro o member
      rw [longer] at member
      rw [now]
      rcases mem_append.mp member with before | new
      · exact refilled.past o before
      · exact (served.ticks o new).le
    · intro tick'
      by_cases present : tick' = t.coordinator.planningTick
      · rw [present]
        omega
      · have none : charged given tick' = 0 := by
          apply charge_eq_zero
          intro o member
          rw [served.ticks o member,← now]
          exact .symm present
        rw [longer,charged,charge_append]
        rw [charged] at none
        rw [none]
        exact accounted.work tick'

theorem refill_planningPeers (s : Coordinator ω ρ) (tick : Nat) :
    (s.refill tick).planningPeers = s.planningPeers ∧ (s.refill tick).planningAfter = s.planningAfter := by
  unfold refill
  split_ifs <;> exact ⟨rfl,rfl⟩

theorem waiting_run {events : List (Event ω)} (balanced : Balanced r.coordinator)
    (reached : run (step co) r events = some t)
    (stays : RunMeets (step co) (fun s _ => s.coordinator.planningPeers.contains c) r events)
    (ends : t.coordinator.planningPeers.contains c) : ∃ given, t.given = r.given ++ given ∧
      (∀ o ∈ given, o.connection = c → 2 ≤ o.units) ∧ (c ∉ given.map connection →
        Ascends c r.coordinator.planningAfter (given.map connection)
          t.coordinator.planningAfter) := by
  induction events generalizing r with
  | nil =>
    cases reached
    refine ⟨[],(append_nil _).symm,?_,fun _ => rfl⟩
    intro o member
    cases member
  | cons event rest ih =>
    obtain ⟨m,stepped,onward⟩ := run_cons_eq_some.mp reached
    have still := stays.2 m stepped
    have waits : m.coordinator.planningPeers.contains c := by
      cases rest with
      | nil =>
        cases onward
        exact ends
      | cons event' rest' => exact still.1
    rcases step_cases balanced stepped with ⟨same,steady⟩ | ⟨tick,now,longer,served⟩
    · obtain ⟨given,more,worked,ascends⟩ := ih steady.balanced onward still
      refine ⟨given,by rw [more,same],worked,?_⟩
      rwa [← steady.after]
    · obtain ⟨given,more,worked,ascends⟩ := ih served.balanced onward still
      obtain ⟨waiting,cursor⟩ := refill_planningPeers r.coordinator tick
      refine ⟨now ++ given,by rw [more,longer,append_assoc],?_,?_⟩
      · intro o member
        rcases mem_append.mp member with first | later
        · exact served.worked c waits o first
        · exact worked o later
      · intro unserved
        rw [map_append,mem_append,not_or] at unserved
        have first := served.ascends c (by rw [waiting]; exact stays.1) unserved.1
        rw [cursor] at first
        rw [map_append]
        exact first.append (ascends unserved.2)

end

def counting : Coroutine Unit Nat where
  empty := 0
  run := fun _ _ selection _ => selection.desiredObjects.length
  resume := fun _ _ objects =>
    match objects with
    | 0 => .returns 1 1 0
    | rest + 1 => .retain 1 (rest + 1) (.suspends rest)
  suspensions := id
  install := fun world _ objects => (world,objects)

/-- Four units of work in a tick, two of them in a slice. -/
def narrow : StructuralReplicationConfiguration :=
  { planningWorkPerTick := 4, planningPeerQuantum := 2 }

def joining : List (Event Unit) :=
  let selection : PeerRelevanceSelection := ⟨1,[⟨1,1⟩,⟨2,1⟩,⟨3,1⟩],[⟨1,1⟩]⟩
  [.registerPeerPlanned ⟨1,1⟩ ⟨1⟩ (some selection),.registerPeerPlanned ⟨2,1⟩ ⟨1⟩ (some selection)]

def twoTicks : List (Event Unit) := [.processPlanning 0,.processPlanning 1]

end Gargantuan.StructuralPlanning
