import Gargantuan.Identity
import Gargantuan.Rotation
import Gargantuan.SortedMap

/-!
Planning of structural frames in the replication coordinator. A peer's plan is a
coroutine that is resumed in slices, in a rotation over the peers that wait for
planning, under an allowance of work in each tick. What a plan holds is charged in
records, to the plan and to the coordinator; the selection that a peer plans from
is charged to the peer and to the plan. A plan that became invalid is disposed of
in slices too, after its peer was removed in a map of its own.

What the coroutine reads of the catalog and of the accepted state of its peer is
left open: it is a parameter of the model, which says for each slice how many
records it retains and how it ends.
-/
namespace Gargantuan.StructuralPlanning

def maximumPlanningWorkPerTick : Nat := 262144
def maximumPlanningRecordsPerPeer : Nat := 262144
def maximumPlanningRecords : Nat := 8388608
def maximumPlanningPeers : Nat := 1024
def maximumPeerDesiredObjects : Nat := 65536
def maximumRevision : Nat := 2 ^ 64 - 1

/-- Unsigned subtraction as `std::size_t` does it. -/
def sizeSub (a b : Nat) : Nat := if b ≤ a then a - b else a + 2 ^ 64 - b

def saturatingAdd (value amount : Nat) : Nat := min maximumRevision (value + amount)

/-- The limits of planning, as the constructor of the coordinator checks them. -/
structure StructuralReplicationConfiguration where
  planningWorkPerTick : Nat := 65536
  planningPeerQuantum : Nat := 2048
  maximumPendingTransitions : Nat := 65536
  workValid : 2 ≤ planningWorkPerTick ∧ planningWorkPerTick ≤ maximumPlanningWorkPerTick := by decide
  quantumValid : planningPeerQuantum ≠ 0 ∧ planningPeerQuantum ≤ planningWorkPerTick := by decide

/-- A position in the journal of changes. -/
structure ChangeCursor where
  scope : ObjectId := {}
  nextSequence : Nat := 0
deriving DecidableEq

/-- A selection is shared: two peers' selections are the same when their addresses are. -/
structure PeerRelevanceSelection where
  address : Nat
  desiredObjects : List ObjectId
  requiredObjects : List ObjectId

def PeerRelevanceSelection.records (selection : PeerRelevanceSelection) : Nat :=
  selection.desiredObjects.length + selection.requiredObjects.length

/-- Equality of shared pointers. -/
def sameSelection (left right : Option PeerRelevanceSelection) : Bool :=
  decide (left.map PeerRelevanceSelection.address = right.map PeerRelevanceSelection.address)

def selectionRecords (selection : Option PeerRelevanceSelection) : Nat :=
  selection.elim 0 PeerRelevanceSelection.records

section
variable {ω ρ : Type}

inductive Slice (ρ : Type) where
  | retain (count : Nat) (refused : ρ) (next : Slice ρ)
  | suspends (scratch : ρ)
  | awaitsSelection (scratch : ρ)
  | returns (cost pendingTransitions : Nat) (scratch : ρ)
  | throws (what : String) (scratch : ρ)

/-- The coroutine over the scratch `ρ` that it owns and the rest `ω` of the coordinator: the scratch of a new plan and
    of a started one, the slices, how often the disposal of a scratch suspends, and the exchange of a finished plan's
    containers with those of its peer. -/
structure Coroutine (ω ρ : Type) where
  empty : ρ
  run : ω → ConnectionId → PeerRelevanceSelection → Nat → ρ
  resume : ω → ConnectionId → ρ → Slice ρ
  suspensions : ρ → Nat
  install : ω → ConnectionId → ρ → ω × ρ

inductive Routine where
  | idle | run
  | dispose (left : Nat)
deriving DecidableEq

structure PlanningContinuation (ρ : Type) where
  selection : Option PeerRelevanceSelection
  scratch : ρ
  revision : ChangeCursor := {}
  acceptedRevision : Nat := 0
  records : Nat := 0
  cost : Nat := 0
  pendingTransitions : Nat := 0
  ready : Bool := false
  installed : Bool := false
  disposing : Bool := false
  awaitingSelection : Bool := false
  work : Routine := .idle

structure PeerState (ρ : Type) where
  pendingTransitions : Nat := 0
  desiredDependencyCursor : ChangeCursor := {}
  preparedCommit : Option ReliableReplicationSequence := none
  planningSelection : Option PeerRelevanceSelection := none
  resolvedSelection : Option PeerRelevanceSelection := none
  planning : Option (PlanningContinuation ρ) := none
  acceptedRevision : Nat := 0
  planningInputRecords : Nat := 0
  planningAwaitingSelection : Bool := false
  planningError : String := ""

structure Coordinator (ω ρ : Type) where
  configuration : StructuralReplicationConfiguration
  sourceRootId : ObjectId
  world : ω
  catalogError : String := ""
  latestSchedulingTick : Nat := 0
  dependencyCursor : ChangeCursor := {}
  planningCursor : ChangeCursor := {}
  planningTick : Nat := 0
  planningRemaining : Nat := configuration.planningWorkPerTick
  planningRecordCount : Nat := 0
  planningAfter : ConnectionId := {}
  planningPeers : SortedMap ConnectionId Unit := ∅
  detachedPlanning : SortedMap ConnectionId (PlanningContinuation ρ) := ∅
  peers : SortedMap ConnectionId (PeerState ρ) := ∅
  pendingTransitionCount : Nat := 0

def recordLimitExceeded : String := "Structural planning continuation record limit exceeded"

namespace PlanningContinuation

/-- Charges records to the plan and to the coordinator, unless a limit refuses them. -/
def retain (plan : PlanningContinuation ρ) (recordCount count : Nat) : Option (PlanningContinuation ρ × Nat) :=
  if sizeSub maximumPlanningRecordsPerPeer plan.records < count ∨ sizeSub maximumPlanningRecords recordCount < count then
    none
  else some ({ plan with records := plan.records + count },recordCount + count)

def valid (plan : PlanningContinuation ρ) (peer : PeerState ρ) (planningCursor : ChangeCursor) : Bool :=
  sameSelection plan.selection peer.planningSelection && decide (plan.revision = planningCursor) &&
    decide (plan.acceptedRevision = peer.acceptedRevision) && decide (peer.acceptedRevision ≠ maximumRevision)

def dispose (co : Coroutine ω ρ) (plan : PlanningContinuation ρ) : PlanningContinuation ρ :=
  { plan with ready := false, disposing := true, work := .dispose (co.suspensions plan.scratch) }

end PlanningContinuation

inductive Ending where
  | suspended | finished
  | failed (what : String)

structure Resumed (ρ : Type) where
  ending : Ending
  plan : PlanningContinuation ρ
  recordCount : Nat
  used : Nat := 0

def Slice.take (plan : PlanningContinuation ρ) (recordCount : Nat) : Slice ρ → Resumed ρ
  | .retain count refused next =>
    match plan.retain recordCount count with
    | none => ⟨.failed recordLimitExceeded,{ plan with scratch := refused },recordCount,0⟩
    | some (retained,recordCount) => next.take retained recordCount
  | .suspends scratch => ⟨.suspended,{ plan with scratch },recordCount,0⟩
  | .awaitsSelection scratch => ⟨.finished,{ plan with awaitingSelection := true, scratch },recordCount,0⟩
  | .returns cost pendingTransitions scratch =>
    ⟨.finished,{ plan with ready := true, cost, pendingTransitions, scratch },recordCount,0⟩
  | .throws what scratch => ⟨.failed what,{ plan with scratch },recordCount,0⟩

/-- One resumption of a plan's coroutine. A plan without one is never resumed. -/
def resume (co : Coroutine ω ρ) (world : ω) (c : ConnectionId) (plan : PlanningContinuation ρ) (recordCount : Nat) :
    Resumed ρ :=
  match plan.work with
  | .idle => ⟨.finished,plan,recordCount,0⟩
  | .run => (co.resume world c plan.scratch).take plan recordCount
  | .dispose 0 => ⟨.finished,plan,recordCount,0⟩
  | .dispose (left + 1) => ⟨.suspended,{ plan with work := .dispose left },recordCount,0⟩

def resumes (co : Coroutine ω ρ) (world : ω) (c : ConnectionId) :
    Nat → PlanningContinuation ρ → Nat → Resumed ρ
  | 0, plan, recordCount => ⟨.suspended,plan,recordCount,0⟩
  | allowance + 1, plan, recordCount =>
    let once := resume co world c plan recordCount
    match once.ending with
    | .suspended =>
      let more := resumes co world c allowance once.plan once.recordCount
      { more with used := more.used + 1 }
    | _ => { once with used := 1 }

/-! ### Serving the rotation -/

namespace Coordinator

def setPeer (s : Coordinator ω ρ) (c : ConnectionId) (peer : PeerState ρ) : Coordinator ω ρ :=
  { s with peers := s.peers.insert c peer }

def leave (s : Coordinator ω ρ) (c : ConnectionId) : Coordinator ω ρ :=
  { s with planningPeers := s.planningPeers.erase c }

def enlist (s : Coordinator ω ρ) (c : ConnectionId) : Coordinator ω ρ :=
  { s with planningPeers := s.planningPeers.insert c () }

/-- The allowance of one service opportunity. -/
def allowance (s : Coordinator ω ρ) : Nat := min s.planningRemaining s.configuration.planningPeerQuantum

/-- A slice of the disposal that a removed peer left. -/
def visitDetached (co : Coroutine ω ρ) (s : Coordinator ω ρ) (c : ConnectionId) : Coordinator ω ρ × Nat :=
  match s.detachedPlanning.find? c with
  | none => (s.leave c,0)
  | some plan =>
    let resumed := resumes co s.world c s.allowance plan s.planningRecordCount
    let remaining := s.planningRemaining - resumed.used
    match resumed.ending with
    | .suspended =>
      let detachedPlanning := s.detachedPlanning.insert c resumed.plan
      ({ s with planningRemaining := remaining, planningRecordCount := resumed.recordCount, detachedPlanning },
        resumed.used)
    | _ =>
      let planningRecordCount := sizeSub resumed.recordCount resumed.plan.records
      let detachedPlanning := s.detachedPlanning.erase c
      (leave { s with planningRemaining := remaining, planningRecordCount, detachedPlanning } c,resumed.used)

def invalidate (co : Coroutine ω ρ) (s : Coordinator ω ρ) (peer : PeerState ρ) : PeerState ρ :=
  match peer.planning with
  | none => peer
  | some plan =>
    if !plan.disposing && !plan.valid peer s.planningCursor then { peer with planning := some (plan.dispose co) }
    else peer

/-- A new plan for a peer, or the error that planning has failed with. The lease of the selection is charged at once. -/
def create (co : Coroutine ω ρ) (s : Coordinator ω ρ) (c : ConnectionId) (peer : PeerState ρ) :
    PeerState ρ × Option (PlanningContinuation ρ) × Nat :=
  if peer.acceptedRevision = maximumRevision then
    ({ peer with planningError := "Accepted structural planning revision exhausted" },none,s.planningRecordCount)
  else
    let plan : PlanningContinuation ρ := { selection := peer.planningSelection, scratch := co.empty }
    match plan.retain s.planningRecordCount (selectionRecords peer.planningSelection) with
    | none => ({ peer with planning := some plan, planningError := recordLimitExceeded },none,s.planningRecordCount)
    | some (leased,recordCount) =>
      let scratch := peer.planningSelection.elim co.empty fun selection => co.run s.world c selection s.planningTick
      let acceptedRevision := peer.acceptedRevision
      let started := { leased with revision := s.planningCursor, acceptedRevision, scratch, work := .run }
      ({ peer with planning := some started },some started,recordCount)

def install (co : Coroutine ω ρ) (s : Coordinator ω ρ) (c : ConnectionId) (peer : PeerState ρ)
    (plan : PlanningContinuation ρ) : Coordinator ω ρ :=
  let countWithoutPeer := sizeSub s.pendingTransitionCount peer.pendingTransitions
  if sizeSub s.configuration.maximumPendingTransitions countWithoutPeer < plan.pendingTransitions then
    let planningError := "Session structural pending transition limit exceeded"
    (s.setPeer c { peer with planning := some plan, planningError }).leave c
  else
    let exchanged := co.install s.world c plan.scratch
    let pendingTransitionCount := countWithoutPeer + plan.pendingTransitions
    let installed : PlanningContinuation ρ :=
      { plan with pendingTransitions := peer.pendingTransitions, scratch := exchanged.2, installed := true }
    let planned : PeerState ρ :=
      { peer with
        pendingTransitions := plan.pendingTransitions, desiredDependencyCursor := s.dependencyCursor,
        resolvedSelection := plan.selection }
    let s' : Coordinator ω ρ := { s with pendingTransitionCount, world := exchanged.1 }
    if plan.cost = 0 then s'.setPeer c { planned with planning := some (installed.dispose co) }
    else (s'.setPeer c { planned with planning := some installed }).leave c

/-- Nothing is left to plan for the peer. -/
def isPlanned (s : Coordinator ω ρ) (peer : PeerState ρ) : Bool :=
  decide (peer.pendingTransitions = 0) && sameSelection peer.planningSelection peer.resolvedSelection &&
    decide (peer.desiredDependencyCursor = s.dependencyCursor)

def finish (co : Coroutine ω ρ) (s : Coordinator ω ρ) (c : ConnectionId) (peer : PeerState ρ)
    (plan : PlanningContinuation ρ) : Coordinator ω ρ :=
  if plan.disposing then
    let freed : PeerState ρ := { peer with planning := none }
    let released := setPeer { s with planningRecordCount := sizeSub s.planningRecordCount plan.records } c freed
    if peer.planningAwaitingSelection || s.isPlanned peer then released.leave c else released
  else if plan.awaitingSelection then
    s.setPeer c { peer with planningAwaitingSelection := true, planning := some (plan.dispose co) }
  else s.install co c peer plan

def serve (co : Coroutine ω ρ) (s : Coordinator ω ρ) (c : ConnectionId) (peer : PeerState ρ)
    (plan : PlanningContinuation ρ) (recordCount : Nat) : Coordinator ω ρ × Nat :=
  if plan.ready then (leave (setPeer { s with planningRecordCount := recordCount } c peer) c,0)
  else
    let resumed := resumes co s.world c s.allowance plan recordCount
    let s' : Coordinator ω ρ :=
      { s with planningRecordCount := resumed.recordCount, planningRemaining := s.planningRemaining - resumed.used }
    match resumed.ending with
    | .suspended => (s'.setPeer c { peer with planning := some resumed.plan },resumed.used)
    | .failed what =>
      let failed : PeerState ρ := { peer with planning := some resumed.plan, planningError := what }
      ((s'.setPeer c failed).leave c,resumed.used)
    | .finished => (s'.finish co c peer resumed.plan,resumed.used)

/-- The service opportunity of a connection, after it was charged for the visit, with the work it took beyond that. -/
def visit (co : Coroutine ω ρ) (s : Coordinator ω ρ) (c : ConnectionId) : Coordinator ω ρ × Nat :=
  match s.peers.find? c with
  | none => s.visitDetached co c
  | some peer =>
    let planningError := if s.catalogError = "" then peer.planningError else s.catalogError
    let told : PeerState ρ := { peer with planningError }
    if told.planningError ≠ "" ∨ told.preparedCommit.isSome = true then ((s.setPeer c told).leave c,0)
    else
      let checked := s.invalidate co told
      match checked.planning with
      | some plan => s.serve co c checked plan s.planningRecordCount
      | none =>
        match s.create co c checked with
        | (failed,none,recordCount) =>
          (leave (setPeer { s with planningRecordCount := recordCount } c failed) c,0)
        | (started,some plan,recordCount) => s.serve co c started plan recordCount

structure Opportunity where
  tick : Nat
  connection : ConnectionId
  units : Nat
deriving DecidableEq

/-- The next service opportunities, until the count or the allowance is used up. With only the unit for a visit left
    no connection is passed over. -/
def opportunities (co : Coroutine ω ρ) : Nat → Coordinator ω ρ → Coordinator ω ρ × List Opportunity
  | 0, s => (s,[])
  | count + 1, s =>
    if s.planningRemaining < 2 then (s,[])
    else
      match firstAfter s.planningPeers.keys s.planningAfter with
      | none => (s,[])
      | some c =>
        let charged : Coordinator ω ρ := { s with planningAfter := c, planningRemaining := s.planningRemaining - 1 }
        let visited := charged.visit co c
        let onward := opportunities co count visited.1
        (onward.1,⟨s.planningTick,c,visited.2 + 1⟩ :: onward.2)

/-- A later tick starts a new allowance. -/
def refill (s : Coordinator ω ρ) (simulationTick : Nat) : Coordinator ω ρ :=
  if s.planningTick < simulationTick then
    { s with planningTick := simulationTick, planningRemaining := s.configuration.planningWorkPerTick }
  else s

/-- At most one rotation of service opportunities. -/
def processPlanning (co : Coroutine ω ρ) (s : Coordinator ω ρ) (simulationTick : Nat) :
    Coordinator ω ρ × List Opportunity :=
  let s' := s.refill simulationTick
  if s'.planningRemaining = 0 then (s',[]) else s'.opportunities co s'.planningPeers.size

def removePeer (co : Coroutine ω ρ) (s : Coordinator ω ρ) (c : ConnectionId) : Coordinator ω ρ :=
  match s.peers.find? c with
  | none => s
  | some peer =>
    let pendingTransitionCount := s.pendingTransitionCount - min s.pendingTransitionCount peer.pendingTransitions
    let planningRecordCount := sizeSub s.planningRecordCount peer.planningInputRecords
    let s' : Coordinator ω ρ :=
      { s with pendingTransitionCount, planningRecordCount, peers := s.peers.erase c }
    match peer.planning with
    | none => s'.leave c
    | some plan =>
      -- The plan's coroutine borrows the peer; only its scratch outlives it.
      let detached := (plan.dispose co)
      let detachedPlanning :=
        if s.detachedPlanning.contains c then s.detachedPlanning else s.detachedPlanning.insert c detached
      enlist { s' with detachedPlanning } c

def requestPlanning (s : Coordinator ω ρ) (c : ConnectionId) (selection : Option PeerRelevanceSelection)
    (simulationTick : Nat) : String × Coordinator ω ρ :=
  match s.peers.find? c, selection with
  | none, _ | _, none => ("Invalid structural planning peer",s)
  | some peer, some chosen =>
    if peer.planningError ≠ "" then (peer.planningError,s)
    else if peer.preparedCommit.isSome then ("A structural frame is awaiting scheduler acceptance",s)
    else if maximumPeerDesiredObjects < chosen.desiredObjects.length ∨
        maximumPeerDesiredObjects < chosen.requiredObjects.length then
      ("Replication relevance selection exceeds its object limit",s)
    else
      let s' : Coordinator ω ρ := { s with latestSchedulingTick := max s.latestSchedulingTick simulationTick }
      if s.catalogError ≠ "" then (s.catalogError,s')
      else
        let withoutInput := sizeSub s.planningRecordCount peer.planningInputRecords
        if sizeSub maximumPlanningRecords withoutInput < chosen.records then
          ("Structural planning input record limit exceeded",s')
        else
          let resolved := sameSelection (some chosen) peer.resolvedSelection
          let unchanged := sameSelection (some chosen) peer.planningSelection
          let asked : PeerState ρ :=
            { peer with
              planningInputRecords := chosen.records, planningSelection := some chosen,
              resolvedSelection := if resolved then peer.resolvedSelection else none,
              planningAwaitingSelection := unchanged && peer.planningAwaitingSelection }
          let granted := setPeer { s' with planningRecordCount := withoutInput + chosen.records } c asked
          if asked.planning.isSome || (!asked.planningAwaitingSelection && !s.isPlanned asked) then
            ("",granted.enlist c)
          else ("",granted)

def registerPeerPlanned (co : Coroutine ω ρ) (s : Coordinator ω ρ) (c : ConnectionId) (epoch : ReplicationEpoch)
    (selection : Option PeerRelevanceSelection) : String × Coordinator ω ρ :=
  if !s.sourceRootId.isValid || !c.isValid || !epoch.isValid || selection.isNone then
    ("Invalid replication peer or source",s)
  else if maximumPlanningPeers ≤ s.peers.size + s.detachedPlanning.size then
    ("Structural planning peer limit exceeded",s)
  else if s.peers.contains c || s.detachedPlanning.contains c then
    ("Replication peer identity is already registered or retiring",s)
  else if s.peers.keys.any fun existing => existing.slot == c.slot then
    ("A live replication peer already owns this connection slot",s)
  else if s.catalogError ≠ "" then (s.catalogError,s)
  else
    let requested := (s.setPeer c {}).requestPlanning c selection s.latestSchedulingTick
    if requested.1 = "" then requested else (requested.1,requested.2.removePeer co c)

def isPlanningReady (s : Coordinator ω ρ) (peer : PeerState ρ) : Bool :=
  peer.planning.any fun plan => plan.ready && !plan.disposing && plan.valid peer s.planningCursor

/-- What becomes of a ready plan's frame: it awaits the scheduler, it is planned anew with less work because it was too
    large, or it is not made now. -/
inductive PlannedFrame where
  | prepared (sequence : ReliableReplicationSequence)
  | reduced | deferred

def producePlannedFrame (co : Coroutine ω ρ) (s : Coordinator ω ρ) (c : ConnectionId) (frame : PlannedFrame) (world : ω) :
    Coordinator ω ρ :=
  match s.peers.find? c with
  | none => s
  | some peer =>
    if peer.planningError ≠ "" ∨ peer.preparedCommit.isSome = true ∨ s.catalogError ≠ "" ∨ s.isPlanningReady peer = false
    then s
    else
      let s' : Coordinator ω ρ := { s with world }
      match frame with
      | .prepared sequence => s'.setPeer c { peer with preparedCommit := some sequence }
      | .reduced =>
        (s'.setPeer c { peer with planning := peer.planning.map (PlanningContinuation.dispose co) }).enlist c
      | .deferred => s'

structure AcceptedCommit where
  transitions : Bool
  changedParents : Nat
  done : Nat

def commitSchedulerAcceptance (s : Coordinator ω ρ) (c : ConnectionId) (sequence : ReliableReplicationSequence)
    (commit : AcceptedCommit) (world : ω) : Coordinator ω ρ :=
  match s.peers.find? c with
  | none => s
  | some peer =>
    if peer.preparedCommit ≠ some sequence then s
    else
      let acceptedRevision :=
        saturatingAdd (saturatingAdd peer.acceptedRevision commit.transitions.toNat) commit.changedParents
      let pendingTransitions := peer.pendingTransitions - commit.done
      let accepted : PeerState ρ := { peer with preparedCommit := none, acceptedRevision, pendingTransitions }
      let pendingTransitionCount := s.pendingTransitionCount - min s.pendingTransitionCount commit.done
      let s' := setPeer { s with world, pendingTransitionCount } c accepted
      if pendingTransitions ≠ 0 ∨ peer.planning.isSome = true then s'.enlist c else s'

def discardSchedulerPreparation (s : Coordinator ω ρ) (c : ConnectionId) (sequence : ReliableReplicationSequence) :
    Coordinator ω ρ :=
  match s.peers.find? c with
  | none => s
  | some peer => if peer.preparedCommit ≠ some sequence then s else s.setPeer c { peer with preparedCommit := none }

end Coordinator

inductive Event (ω : Type) where
  | registerPeerPlanned (c : ConnectionId) (epoch : ReplicationEpoch) (selection : Option PeerRelevanceSelection)
  | requestPlanning (c : ConnectionId) (selection : Option PeerRelevanceSelection) (simulationTick : Nat)
  | processPlanning (simulationTick : Nat)
  | removePeer (c : ConnectionId)
  | producePlannedFrame (c : ConnectionId) (frame : Coordinator.PlannedFrame) (world : ω)
  | commitSchedulerAcceptance (c : ConnectionId) (sequence : ReliableReplicationSequence)
    (commit : Coordinator.AcceptedCommit) (world : ω)
  | discardSchedulerPreparation (c : ConnectionId) (sequence : ReliableReplicationSequence)
  | catalogChange (world : ω) (dependencyCursor planningCursor : ChangeCursor) (catalogError : String)

structure Recorded (ω ρ : Type) where
  coordinator : Coordinator ω ρ
  given : List Coordinator.Opportunity := []

def step (co : Coroutine ω ρ) (r : Recorded ω ρ) (event : Event ω) : Option (Recorded ω ρ) :=
  let s := r.coordinator
  match event with
  | .registerPeerPlanned c epoch selection =>
    some { r with coordinator := (s.registerPeerPlanned co c epoch selection).2 }
  | .requestPlanning c selection simulationTick =>
    some { r with coordinator := (s.requestPlanning c selection simulationTick).2 }
  | .processPlanning simulationTick =>
    let processed := s.processPlanning co simulationTick
    some ⟨processed.1,r.given ++ processed.2⟩
  | .removePeer c => some { r with coordinator := s.removePeer co c }
  | .producePlannedFrame c frame world => some { r with coordinator := s.producePlannedFrame co c frame world }
  | .commitSchedulerAcceptance c sequence commit world =>
    some { r with coordinator := s.commitSchedulerAcceptance c sequence commit world }
  | .discardSchedulerPreparation c sequence =>
    some { r with coordinator := s.discardSchedulerPreparation c sequence }
  | .catalogChange world dependencyCursor planningCursor catalogError =>
    some { r with coordinator := { s with world, dependencyCursor, planningCursor, catalogError } }

/-- A coordinator for a source, without peers. -/
def initial (configuration : StructuralReplicationConfiguration) (sourceRootId : ObjectId) (world : ω) :
    Recorded ω ρ :=
  { coordinator := { configuration, sourceRootId, world } }

end
end Gargantuan.StructuralPlanning
