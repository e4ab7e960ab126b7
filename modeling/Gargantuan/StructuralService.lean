import Gargantuan.Identity
import Gargantuan.Rotation
import Gargantuan.SortedMap

/-!
The structural passes of a server session's step, without byte admission. The
peers are visited in a rotation that starts at the fairness cursor: first those
that wait for their bootstrap, under a quarter of the global limit, then all,
as long as a sweep makes progress; last, when the global limit is used up, the
journals are read on without structural work. What the coordinator has ready for
a peer and what the reading of its journal gives is an input of the step.
-/
namespace Gargantuan.StructuralService

/-- The limits that the passes use. -/
structure StructuralReplicationConfiguration where
  maximumTransitionsPerPeerTick : Nat
  maximumTransitionsPerTick : Nat
  peerQuantum : Nat
  maximumJournalRecordsPerPeerTick : Nat
  maximumJournalRecordsPerTick : Nat

def StructuralReplicationConfiguration.isValid (c : StructuralReplicationConfiguration) : Bool :=
  c.maximumTransitionsPerPeerTick != 0 && c.maximumTransitionsPerTick != 0 &&
    decide (c.maximumTransitionsPerPeerTick ≤ c.maximumTransitionsPerTick) && c.peerQuantum != 0 &&
    decide (c.peerQuantum ≤ c.maximumTransitionsPerPeerTick) && c.maximumJournalRecordsPerPeerTick != 0 &&
    decide (c.maximumJournalRecordsPerPeerTick ≤ c.maximumJournalRecordsPerTick)

inductive PeerPhase where
  | transportConnected | bootstrapPending | accepted | ready
deriving DecidableEq

/-- How the encoded frame of a plan compares with the negotiated reliable message limit: a larger one is planned anew
    with less work, unless it is a single group. -/
inductive PlanEncoding where
  | fits | reduced | atomic
deriving DecidableEq

/-- A plan is indivisible: its frame has at most `cost` operations, and is made only within an allowance of `cost`. -/
structure Plan where
  baseline : Bool := false
  cost : Nat
  critical : Nat := 0
  operations : Nat
  encoding : PlanEncoding := .fits
deriving DecidableEq

inductive JournalOutcome where
  | frame (selected : Nat)
  | nothing
  | failure
deriving DecidableEq

structure JournalResult where
  examined : Nat := 0
  outcome : JournalOutcome := .nothing

structure Work where
  plan : Option Plan := none
  planningFails : Bool := false
  journal : Nat → Nat → Nat → JournalResult := fun _ _ _ => {}
  submits : Bool := true
  acceptanceQueued : Bool := true

/-- `planSpent` says that the plan the step found was used or given up, `failed` that the peer is to be disconnected. -/
structure Peer where
  phase : PeerPhase
  preferPendingRelevance : Bool := true
  structuralSubmittedThisStep : Bool := false
  structuralTransitionsConsumedThisStep : Nat := 0
  journalRecordsConsumedThisStep : Nat := 0
  planSpent : Bool := false
  failed : Bool := false
deriving DecidableEq

/-- The variables of the passes. -/
structure Pass where
  peers : SortedMap ConnectionId Peer
  lastServicedConnection : Option ConnectionId := none
  lastJournalServicedConnection : Option ConnectionId := none
  globalConsumed : Nat := 0
  globalJournalConsumed : Nat := 0
  madeProgress : Bool := false

def Pass.setPeer (p : Pass) (c : ConnectionId) (peer : Peer) : Pass := { p with peers := p.peers.insert c peer }

inductive Produced where
  | frame (selected : Nat)
  | nothing
  | failure
deriving DecidableEq

def readyPlan (work : Work) (peer : Peer) : Option Plan := if peer.planSpent then none else work.plan

def producePlannedFrame (work : Work) (peer : Peer) (baseline : Bool) (allowance : Nat) : Produced :=
  if work.planningFails then .failure
  else
    match readyPlan work peer with
    | none => .nothing
    | some plan =>
      if plan.baseline != baseline || plan.cost == 0 || decide (allowance < plan.cost) then .nothing
      else if plan.operations == 0 || decide (plan.cost < plan.operations) then .failure
      else
        match plan.encoding with
        | .fits => .frame plan.operations
        | .reduced => .nothing
        | .atomic => .failure

/-- Whether producing gave the plan up because its frame is too long. -/
def givesUp (work : Work) (peer : Peer) (baseline : Bool) (allowance : Nat) : Bool :=
  match readyPlan work peer with
  | none => false
  | some plan =>
    plan.baseline == baseline && plan.cost != 0 && decide (plan.cost ≤ allowance) && decide (plan.encoding = .reduced)

/-- A frame goes to the reliable scheduler; one that it refuses ends the peer. -/
def submitStructural (work : Work) (p : Pass) (c : ConnectionId) (peer : Peer) : Bool × Pass :=
  if work.submits then
    (true,{ p.setPeer c { peer with structuralSubmittedThisStep := true } with lastServicedConnection := some c })
  else (false,p.setPeer c { peer with failed := true })

/-- The accounts after a frame of a number of transitions. -/
def Pass.consume (p : Pass) (selected : Nat) : Pass :=
  { p with globalConsumed := p.globalConsumed + selected, madeProgress := selected != 0 }

def serveBootstrap (work : Work) (p : Pass) (c : ConnectionId) (peer : Peer) (allowance : Nat) : Pass :=
  match readyPlan work peer with
  | none => p
  | some plan =>
    if plan.critical == 0 then p.setPeer c { peer with failed := true }
    else if allowance < plan.critical then p
    else
      match producePlannedFrame work peer true allowance with
      | .nothing => p.setPeer c { peer with planSpent := peer.planSpent || givesUp work peer true allowance }
      | .failure => p.setPeer c { peer with failed := true }
      | .frame selected =>
        let submitted := submitStructural work p c { peer with planSpent := true }
        if !submitted.1 then submitted.2
        else if !work.acceptanceQueued then
          submitted.2.setPeer c { peer with planSpent := true, structuralSubmittedThisStep := true, failed := true }
        else
          let consumed := peer.structuralTransitionsConsumedThisStep + selected
          let served := { peer with
            phase := .accepted, planSpent := true, structuralSubmittedThisStep := true
            structuralTransitionsConsumedThisStep := consumed }
          (submitted.2.setPeer c served).consume selected

def produceRelevance (work : Work) (p : Pass) (c : ConnectionId) (peer : Peer) (allowance : Nat) : Bool × Pass :=
  match producePlannedFrame work peer false allowance with
  | .frame selected =>
    let submitted := submitStructural work p c { peer with planSpent := true }
    if !submitted.1 then (true,submitted.2)
    else
      let consumed := peer.structuralTransitionsConsumedThisStep + selected
      let served := { peer with
        preferPendingRelevance := false, planSpent := true, structuralSubmittedThisStep := true
        structuralTransitionsConsumedThisStep := consumed }
      (true,(submitted.2.setPeer c served).consume selected)
  | .nothing =>
    (false,p.setPeer c { peer with planSpent := peer.planSpent || givesUp work peer false allowance })
  | .failure => (true,p.setPeer c { peer with failed := true })

def journalAllowance (config : StructuralReplicationConfiguration) (p : Pass) (peer : Peer) : Nat :=
  min (config.maximumJournalRecordsPerPeerTick - peer.journalRecordsConsumedThisStep)
    (config.maximumJournalRecordsPerTick - p.globalJournalConsumed)

/-- Records that were read count as service, also without a frame. -/
def Pass.readJournal (p : Pass) (c : ConnectionId) (peer : Peer) (examined : Nat) : Pass :=
  let read := { peer with journalRecordsConsumedThisStep := peer.journalRecordsConsumedThisStep + examined }
  let counted := { p.setPeer c read with globalJournalConsumed := p.globalJournalConsumed + examined }
  if examined = 0 then counted
  else { counted with lastServicedConnection := some c, lastJournalServicedConnection := some c }

def produceJournal (config : StructuralReplicationConfiguration) (work : Work) (p : Pass) (c : ConnectionId)
    (peer : Peer) (allowance : Nat) : Bool × Pass :=
  let records := journalAllowance config p peer
  if records = 0 then (false,p)
  else
    let result := work.journal peer.journalRecordsConsumedThisStep allowance records
    let read := p.readJournal c peer result.examined
    let records := peer.journalRecordsConsumedThisStep + result.examined
    match result.outcome with
    | .nothing => (false,read)
    | .failure => (true,read.setPeer c { peer with journalRecordsConsumedThisStep := records, failed := true })
    | .frame selected =>
      let submitted := submitStructural work read c { peer with journalRecordsConsumedThisStep := records }
      if !submitted.1 then (true,submitted.2)
      else
        let consumed := peer.structuralTransitionsConsumedThisStep + selected
        let served := { peer with
          preferPendingRelevance := true, journalRecordsConsumedThisStep := records
          structuralSubmittedThisStep := true, structuralTransitionsConsumedThisStep := consumed }
        (true,(submitted.2.setPeer c served).consume selected)

/-- Relevance changes and journal take turns in going first; the second one sees what the first one left. -/
def serveOrdinary (config : StructuralReplicationConfiguration) (work : Work) (p : Pass) (c : ConnectionId) (peer : Peer)
    (allowance : Nat) : Pass :=
  let first := if peer.preferPendingRelevance then produceRelevance work p c peer allowance
    else produceJournal config work p c peer allowance
  if first.1 then first.2
  else
    match first.2.peers.find? c with
    | none => first.2
    | some left =>
      if peer.preferPendingRelevance then (produceJournal config work first.2 c left allowance).2
      else (produceRelevance work first.2 c left allowance).2

section
variable (config : StructuralReplicationConfiguration) (work : ConnectionId → Work)

def allowanceOf (limit : Nat) (p : Pass) (peer : Peer) : Nat :=
  min config.peerQuantum
    (min (config.maximumTransitionsPerPeerTick - peer.structuralTransitionsConsumedThisStep) (limit - p.globalConsumed))

/-- One peer's turn in a sweep; without an allowance the sweep stops. -/
def visit (limit : Nat) (bootstrapOnly : Bool) (p : Pass) (c : ConnectionId) : Option Pass :=
  match p.peers.find? c with
  | none => some p
  | some peer =>
    if peer.failed then some p
    else if bootstrapOnly && decide (peer.phase ≠ .bootstrapPending) then some p
    else if config.maximumTransitionsPerPeerTick ≤ peer.structuralTransitionsConsumedThisStep then some p
    else if allowanceOf config limit p peer = 0 then none
    else if peer.phase = .bootstrapPending then some (serveBootstrap (work c) p c peer (allowanceOf config limit p peer))
    else some (serveOrdinary config (work c) p c peer (allowanceOf config limit p peer))

def sweep (limit : Nat) (bootstrapOnly : Bool) : List ConnectionId → Pass → Pass
  | [], p => p
  | c :: rest, p =>
    match visit config work limit bootstrapOnly p c with
    | none => p
    | some visited => sweep limit bootstrapOnly rest visited

def sweeps (limit : Nat) (bootstrapOnly : Bool) (connections : List ConnectionId) : Nat → Pass → Pass
  | 0, p => p
  | fuel + 1, p =>
    if p.madeProgress && decide (p.globalConsumed < limit) then
      sweeps limit bootstrapOnly connections fuel
        (sweep config work limit bootstrapOnly connections { p with madeProgress := false })
    else p

def bootstrapLimit : Nat :=
  if config.peerQuantum ≤ config.maximumTransitionsPerTick - config.maximumTransitionsPerTick / 4 then
    config.maximumTransitionsPerTick / 4
  else 0

def structuralPass (limit : Nat) (bootstrapOnly : Bool) (connections : List ConnectionId) (p : Pass) : Pass :=
  sweeps config work limit bootstrapOnly connections (limit + 1) { p with madeProgress := true }

/-- Journal records that cannot give structural work are read on once the transitions of the step are used up. -/
def journalPrefixes : List ConnectionId → Pass → Pass
  | [], p => p
  | c :: rest, p =>
    if config.maximumJournalRecordsPerTick ≤ p.globalJournalConsumed then p
    else
      match p.peers.find? c with
      | none => journalPrefixes rest p
      | some peer =>
        if peer.failed || decide (peer.phase = .bootstrapPending) || decide (journalAllowance config p peer = 0) then
          journalPrefixes rest p
        else
          let result := (work c).journal peer.journalRecordsConsumedThisStep 0 (journalAllowance config p peer)
          let records := peer.journalRecordsConsumedThisStep + result.examined
          let read := { peer with
            journalRecordsConsumedThisStep := records, failed := decide (result.outcome ≠ .nothing) }
          let last := if result.examined = 0 then p.lastJournalServicedConnection else some c
          let counted := { p.setPeer c read with
            globalJournalConsumed := p.globalJournalConsumed + result.examined, lastJournalServicedConnection := last }
          journalPrefixes rest counted

/-- The peers that take part: those that said hello. -/
def structuralConnections (peers : SortedMap ConnectionId Peer) : List ConnectionId :=
  (peers.filter fun _ peer => decide (peer.phase ≠ .transportConnected)).keys

/-- What a step forgets of the one before. -/
def Peer.begin (peer : Peer) : Peer :=
  { peer with
    structuralSubmittedThisStep := false, structuralTransitionsConsumedThisStep := 0
    journalRecordsConsumedThisStep := 0, planSpent := false, failed := false }

def bootstrapPass (connections : List ConnectionId) (peers : SortedMap ConnectionId Peer) : Pass :=
  let start : Pass := { peers := peers.mapValues fun _ peer => peer.begin }
  if peers.entries.any fun e => decide (e.2.phase = .bootstrapPending) then
    structuralPass config work (bootstrapLimit config) true connections start
  else start

def passes (connections : List ConnectionId) (peers : SortedMap ConnectionId Peer) : Pass :=
  let bootstrapped := bootstrapPass config work connections peers
  let served := structuralPass config work config.maximumTransitionsPerTick false connections bootstrapped
  if config.maximumTransitionsPerTick ≤ served.globalConsumed then journalPrefixes config work connections served
  else served

def lastPeer (p : Pass) : Option ConnectionId :=
  if decide (config.maximumJournalRecordsPerTick ≤ p.globalJournalConsumed) && p.lastJournalServicedConnection.isSome then
    p.lastJournalServicedConnection
  else p.lastServicedConnection

end

structure Session where
  peers : SortedMap ConnectionId Peer
  structuralFairnessCursor : Option ConnectionId := none

/-- What a step finds: the work of every peer, and which accepted peers have reported ready since the last one. -/
structure StepInput where
  work : ConnectionId → Work
  readied : ConnectionId → Bool := fun _ => false

def rotationOf (s : Session) : List ConnectionId := fromCursor (structuralConnections s.peers) s.structuralFairnessCursor

def Session.readied (s : Session) (readied : ConnectionId → Bool) : SortedMap ConnectionId Peer :=
  s.peers.mapValues fun c peer => if readied c && decide (peer.phase = .accepted) then { peer with phase := .ready } else peer

def stepPass (config : StructuralReplicationConfiguration) (s : Session) (input : StepInput) : Pass :=
  passes config input.work (rotationOf s) (s.readied input.readied)

/-- The cursor moves behind the last peer served, or behind the first one if there is none. The peers that failed are
    gone at the next step. -/
def step (config : StructuralReplicationConfiguration) (s : Session) (input : StepInput) : Option Session :=
  let connections := rotationOf s
  let done := stepPass config s input
  let cursor :=
    match connections with
    | [] => s.structuralFairnessCursor
    | first :: _ => after connections ((lastPeer config done).getD first)
  some { peers := done.peers.filter fun _ peer => !peer.failed, structuralFairnessCursor := cursor }

end Gargantuan.StructuralService
