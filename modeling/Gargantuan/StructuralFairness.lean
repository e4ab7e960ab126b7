import Gargantuan.Runs
import Gargantuan.StructuralService

/-!
Who is served by the structural passes. The first peer of the rotation always
has its whole quantum (`first_settled`), and a step that leaves a waiting peer
out and does not pass it over brings it closer to the front, so that a peer with
a ready plan is served within as many steps as there are peers
(`waiting_peer_served`). When a small plan behind it is served instead, the
cursor passes it, and it can wait for ever.
-/
namespace Gargantuan.StructuralService
open SortedMap Option Peer Nat StructuralReplicationConfiguration

def Peer.settled (peer : Peer) : Bool := peer.structuralSubmittedThisStep || peer.failed

/-- Between two moments of a step no peer comes or goes, none says hello, and a settled one stays settled. -/
structure Steady (p q : Pass) : Prop where
  kept : ∀ c peer, p.peers.find? c = some peer → ∃ later, q.peers.find? c = some later ∧
    (later.phase = .transportConnected ↔ peer.phase = .transportConnected) ∧
    (peer.settled = true → later.settled = true)
  absent : ∀ c, p.peers.find? c = none → q.peers.find? c = none

namespace Steady
variable {p q r : Pass}

theorem refl (p : Pass) : Steady p p :=
  ⟨fun _ peer found => ⟨peer,found,.rfl,id⟩,fun _ absent => absent⟩

theorem trans (first : Steady p q) (second : Steady q r) : Steady p r := by
  refine ⟨?_,fun c absent => second.absent c (first.absent c absent)⟩
  intro c peer found
  obtain ⟨later,foundLater,phase,settled⟩ := first.kept c peer found
  obtain ⟨last,foundLast,phase',settled'⟩ := second.kept c later foundLater
  exact ⟨last,foundLast,phase'.trans phase,fun was => settled' (settled was)⟩

end Steady

structure Turn (c : ConnectionId) (peer : Peer) (p q : Pass) : Prop where
  here : ∃ later, q.peers.find? c = some later ∧
    (later.phase = .transportConnected ↔ peer.phase = .transportConnected) ∧
    (peer.settled = true → later.settled = true)
  elsewhere : ∀ d, d ≠ c → q.peers.find? d = p.peers.find? d

namespace Turn
variable {p q r : Pass} {c : ConnectionId} {peer : Peer}

theorem refl (found : p.peers.find? c = some peer) : Turn c peer p p :=
  ⟨⟨peer,found,.rfl,id⟩,fun _ _ => rfl⟩

theorem congr (turn : Turn c peer p q) (same : r.peers = q.peers) : Turn c peer p r := by
  obtain ⟨here,elsewhere⟩ := turn
  rw [← same] at here
  exact ⟨here,fun d other => same ▸ elsewhere d other⟩

theorem setPeer (turn : Turn c peer p q) (next : Peer)
    (phase : next.phase = .transportConnected ↔ peer.phase = .transportConnected)
    (settled : peer.settled → next.settled) : Turn c peer p (q.setPeer c next) := by
  refine ⟨⟨next,find?_insert_self _ _ _,phase,settled⟩,?_⟩
  intro d other
  show (q.peers.insert c next).find? d = _
  rw [find?_insert_of_ne _ _ other]
  exact turn.elsewhere d other

theorem trans {left : Peer} (first : Turn c peer p q) (stored : q.peers.find? c = some left)
    (second : Turn c left q r) : Turn c peer p r := by
  obtain ⟨later,foundLater,phase,settled⟩ := first.here
  obtain ⟨last,foundLast,phase',settled'⟩ := second.here
  rw [stored] at foundLater
  cases foundLater
  refine ⟨⟨last,foundLast,phase'.trans phase,fun was => settled' (settled was)⟩,?_⟩
  intro d other
  rw [second.elsewhere d other,first.elsewhere d other]

theorem steady (turn : Turn c peer p q) (found : p.peers.find? c = some peer) : Steady p q := by
  constructor
  · intro d x stored
    by_cases same : d = c
    · subst same
      rw [found] at stored
      cases stored
      exact turn.here
    · exact ⟨x,(turn.elsewhere d same).trans stored,.rfl,id⟩
  · intro d missing
    have other : d ≠ c := by
      rintro rfl
      rw [found] at missing
      cases missing
    rw [turn.elsewhere d other,missing]

end Turn

variable {q : Pass}

section
variable {config : StructuralReplicationConfiguration} {work : Work} {p : Pass} {c : ConnectionId} {peer : Peer}

theorem submitStructural_turn (work : Work) (turn : Turn c peer p q) (next : Peer)
    (phase : next.phase = peer.phase) : Turn c peer p (submitStructural work q c next).2 := by
  unfold submitStructural
  split
  · have set := turn.setPeer { next with structuralSubmittedThisStep := true } (by rw [← phase])
      fun _ => by simp [settled]
    exact set.congr rfl
  · exact turn.setPeer { next with failed := true } (by rw [← phase]) fun _ => by simp [settled]

theorem serveBootstrap_turn (found : p.peers.find? c = some peer) (pending : peer.phase = .bootstrapPending)
    (allowance : Nat) : Turn c peer p (serveBootstrap work p c peer allowance) := by
  have start := Turn.refl found
  unfold serveBootstrap
  split
  · exact start
  · split
    · exact start.setPeer _ Iff.rfl fun _ => by simp [settled]
    · split
      · exact start
      · split
        · exact start.setPeer _ Iff.rfl fun was => was
        · exact start.setPeer _ Iff.rfl fun _ => by simp [settled]
        · next selected _ =>
          have submitted := submitStructural_turn work start { peer with planSpent := true } rfl
          dsimp only
          split
          · exact submitted
          · split
            · exact submitted.setPeer _ Iff.rfl fun _ => by simp [settled]
            · refine (submitted.setPeer _ ?_ fun _ => by simp [settled]).congr rfl
              simp [pending]

theorem produceRelevance_turn (work : Work) (found : p.peers.find? c = some peer) (allowance : Nat) :
    Turn c peer p (produceRelevance work p c peer allowance).2 := by
  have start := Turn.refl found
  unfold produceRelevance
  split
  · have submitted := submitStructural_turn work start { peer with planSpent := true } rfl
    dsimp only
    split
    · exact submitted
    · refine (submitted.setPeer _ ?_ fun _ => by simp [settled]).congr rfl
      exact .rfl
  · exact start.setPeer _ Iff.rfl fun was => was
  · exact start.setPeer _ Iff.rfl fun _ => by simp [settled]

theorem readJournal_peers (p : Pass) (c : ConnectionId) (peer : Peer) (examined : Nat) :
    (p.readJournal c peer examined).peers = p.peers.insert c
      { peer with journalRecordsConsumedThisStep := peer.journalRecordsConsumedThisStep + examined } := by
  unfold Pass.readJournal
  split <;> rfl

theorem produceJournal_turn (found : p.peers.find? c = some peer) (allowance : Nat) :
    Turn c peer p (produceJournal config work p c peer allowance).2 := by
  unfold produceJournal
  dsimp only
  split
  · exact .refl found
  · generalize work.journal peer.journalRecordsConsumedThisStep allowance (journalAllowance config p peer) = result
    have read : Turn c peer p (p.readJournal c peer result.examined) :=
      ((Turn.refl found).setPeer
        { peer with journalRecordsConsumedThisStep := peer.journalRecordsConsumedThisStep + result.examined }
        Iff.rfl fun was => was).congr (readJournal_peers p c peer result.examined)
    split
    · exact read
    · exact read.setPeer _ Iff.rfl fun _ => by simp [settled]
    · have submitted := submitStructural_turn work read { peer with
        journalRecordsConsumedThisStep := peer.journalRecordsConsumedThisStep + result.examined } rfl
      split
      · exact submitted
      · refine (submitted.setPeer _ ?_ fun _ => by simp [settled]).congr rfl
        exact .rfl

theorem serveOrdinary_turn (found : p.peers.find? c = some peer) (allowance : Nat) :
    Turn c peer p (serveOrdinary config work p c peer allowance) := by
  unfold serveOrdinary
  generalize firstIs : (if peer.preferPendingRelevance then produceRelevance work p c peer allowance
      else produceJournal config work p c peer allowance) = one
  have first : Turn c peer p one.2 := by
    rw [← firstIs]
    split
    · exact produceRelevance_turn work found allowance
    · exact produceJournal_turn found allowance
  dsimp only
  split
  · exact first
  · split
    · exact first
    · next left stored =>
      split
      · exact first.trans stored (produceJournal_turn stored allowance)
      · exact first.trans stored (produceRelevance_turn work stored allowance)

end

variable {peer : Peer}

section
variable {config : StructuralReplicationConfiguration} {work : ConnectionId → Work} {bootstrapOnly : Bool}
variable {c : ConnectionId} {limit : Nat} {p q : Pass}

theorem visit_turn (found : p.peers.find? c = some peer)
    (visited : visit config work limit bootstrapOnly p c = some q) : Turn c peer p q := by
  unfold visit at visited
  rw [found] at visited
  dsimp only at visited
  split at visited
  · cases visited; exact .refl found
  · split at visited
    · cases visited; exact .refl found
    · split at visited
      · cases visited; exact .refl found
      · split at visited
        · cases visited
        · split at visited
          · next pending =>
            cases visited
            exact serveBootstrap_turn found pending _
          · cases visited
            exact serveOrdinary_turn found _

theorem visit_absent (absent : p.peers.find? c = none)
    (visited : visit config work limit bootstrapOnly p c = some q) : q = p := by
  unfold visit at visited
  rw [absent] at visited
  cases visited
  rfl

theorem visit_steady (visited : visit config work limit bootstrapOnly p c = some q) : Steady p q := by
  cases found : p.peers.find? c with
  | none =>
    rw [visit_absent found visited]
    exact .refl p
  | some peer => exact (visit_turn found visited).steady found

theorem sweep_steady (connections : List ConnectionId) (p : Pass) :
    Steady p (sweep config work limit bootstrapOnly connections p) := by
  induction connections generalizing p with
  | nil => exact .refl p
  | cons c rest ih =>
    unfold sweep
    split
    · exact .refl p
    · next q visited => exact (visit_steady visited).trans (ih q)

theorem sweeps_steady {connections : List ConnectionId} (fuel : Nat) (p : Pass) :
    Steady p (sweeps config work limit bootstrapOnly connections fuel p) := by
  induction fuel generalizing p with
  | zero => exact .refl p
  | succ fuel ih =>
    unfold sweeps
    split
    · have swept : Steady { p with madeProgress := false }
          (sweep config work limit bootstrapOnly connections { p with madeProgress := false }) := sweep_steady _ _
      exact .trans ⟨swept.kept,swept.absent⟩ (ih _)
    · exact .refl p

theorem structuralPass_steady (limit : Nat) (bootstrapOnly : Bool) (connections : List ConnectionId) (p : Pass) :
    Steady p (structuralPass config work limit bootstrapOnly connections p) := by
  have passed : Steady { p with madeProgress := true }
      (sweeps config work limit bootstrapOnly connections (limit + 1) { p with madeProgress := true }) :=
    sweeps_steady _ _
  exact ⟨passed.kept,passed.absent⟩

theorem journalPrefixes_steady (connections : List ConnectionId) (p : Pass) :
    Steady p (journalPrefixes config work connections p) := by
  induction connections generalizing p with
  | nil => exact .refl p
  | cons c rest ih =>
    unfold journalPrefixes
    split
    · exact .refl p
    · split
      · exact ih p
      · next peer found =>
        split
        · exact ih p
        · next may =>
          simp only [Bool.or_eq_true,not_or,Bool.not_eq_true] at may
          generalize (work c).journal peer.journalRecordsConsumedThisStep 0 (journalAllowance config p peer) = result
          refine .trans ?_ (ih _)
          refine Turn.steady ?_ found
          refine .congr (.setPeer (.refl found) { peer with
            journalRecordsConsumedThisStep := peer.journalRecordsConsumedThisStep + result.examined
            failed := decide (result.outcome ≠ .nothing) } Iff.rfl ?_) rfl
          intro was
          simp only [settled,may.1.1,Bool.or_false] at was
          simp [settled,was]

theorem passes_onward (config : StructuralReplicationConfiguration) (work : ConnectionId → Work) (connections : List ConnectionId) (peers : SortedMap ConnectionId Peer) :
    Steady (structuralPass config work config.maximumTransitionsPerTick false connections
      (bootstrapPass config work connections peers)) (passes config work connections peers) := by
  unfold passes
  dsimp only
  split
  · exact journalPrefixes_steady connections _
  · exact .refl _

theorem passes_steady (connections : List ConnectionId) (peers : SortedMap ConnectionId Peer) :
    Steady { peers := peers.mapValues fun _ peer => peer.begin } (passes config work connections peers) := by
  have bootstrapped : Steady { peers := peers.mapValues fun _ peer => peer.begin }
      (bootstrapPass config work connections peers) := by
    unfold bootstrapPass
    split
    · exact structuralPass_steady _ _ _ _
    · exact .refl _
  exact (bootstrapped.trans (structuralPass_steady _ _ _ _)).trans (passes_onward config work connections peers)

end

variable {plan : Plan}

section
variable {config : StructuralReplicationConfiguration} {work : Work} {p : Pass} {c : ConnectionId} {peer : Peer}
variable {allowance : Nat}

theorem producePlannedFrame_le {baseline : Bool} {selected : Nat}
    (produced : producePlannedFrame work peer baseline allowance = .frame selected) : selected ≤ allowance := by
  unfold producePlannedFrame at produced
  split at produced
  · cases produced
  · split at produced
    · cases produced
    · split at produced
      · cases produced
      · next within =>
        split at produced
        · cases produced
        · next operations =>
          split at produced
          · cases produced
            simp only [Bool.or_eq_true,decide_eq_true_eq,not_or,not_lt] at within operations
            exact operations.2.trans within.2
          · cases produced
          · cases produced

theorem submitStructural_consumed (work : Work) (p : Pass) (c : ConnectionId) (peer : Peer) :
    (submitStructural work p c peer).2.globalConsumed = p.globalConsumed := by
  unfold submitStructural
  split <;> rfl

theorem serveBootstrap_consumed (work : Work) (p : Pass) (c : ConnectionId) (peer : Peer) (allowance : Nat) :
    (serveBootstrap work p c peer allowance).globalConsumed ≤ p.globalConsumed + allowance := by
  unfold serveBootstrap
  split
  · exact Nat.le_add_right _ _
  · split
    · exact Nat.le_add_right _ _
    · split
      · exact Nat.le_add_right _ _
      · split
        · exact Nat.le_add_right _ _
        · exact Nat.le_add_right _ _
        · next selected produced =>
          have bound := producePlannedFrame_le produced
          have same := submitStructural_consumed work p c { peer with planSpent := true }
          dsimp only
          split
          · rw [same]
            exact Nat.le_add_right _ _
          · split
            · show (submitStructural work p c { peer with planSpent := true }).2.globalConsumed ≤ _
              rw [same]
              exact Nat.le_add_right _ _
            · show (submitStructural work p c { peer with planSpent := true }).2.globalConsumed + selected ≤ _
              rw [same]
              exact Nat.add_le_add_left bound _

theorem produceRelevance_settled (ready : readyPlan work peer = some plan)
    (relevance : plan.baseline = false) (cost : plan.cost ≠ 0) (within : plan.cost ≤ allowance)
    (fits : plan.encoding ≠ .reduced) : (produceRelevance work p c peer allowance).1 ∧
      ∃ later, (produceRelevance work p c peer allowance).2.peers.find? c = some later ∧ later.settled := by
  have produced : producePlannedFrame work peer false allowance ≠ .nothing := by
    unfold producePlannedFrame
    cases encoding : plan.encoding <;> grind
  unfold produceRelevance
  split
  · dsimp only
    unfold submitStructural
    split
    · refine ⟨rfl,_,find?_insert_self _ _ _,by simp [settled]⟩
    · refine ⟨rfl,_,find?_insert_self _ _ _,by simp [settled]⟩
  · next nothing => exact absurd nothing produced
  · exact ⟨rfl,_,find?_insert_self _ _ _,by simp [settled]⟩

theorem produceJournal_leaves (config : StructuralReplicationConfiguration) (work : Work)
    (found : p.peers.find? c = some peer) (allowance : Nat) :
    ∃ later, (produceJournal config work p c peer allowance).2.peers.find? c = some later ∧ (later.settled ∨
        (produceJournal config work p c peer allowance).1 = false ∧ readyPlan work later = readyPlan work peer) := by
  unfold produceJournal
  dsimp only
  split
  · exact ⟨peer,found,.inr ⟨rfl,rfl⟩⟩
  · generalize work.journal peer.journalRecordsConsumedThisStep allowance (journalAllowance config p peer) = result
    split
    · refine ⟨{ peer with journalRecordsConsumedThisStep := peer.journalRecordsConsumedThisStep + result.examined },
        ?_,.inr ⟨rfl,rfl⟩⟩
      rw [readJournal_peers]
      exact find?_insert_self _ _ _
    · exact ⟨_,find?_insert_self _ _ _,.inl (by simp [settled])⟩
    · unfold submitStructural
      split
      · exact ⟨_,find?_insert_self _ _ _,.inl (by simp [settled])⟩
      · exact ⟨_,find?_insert_self _ _ _,.inl (by simp [settled])⟩

theorem serveOrdinary_settled (found : p.peers.find? c = some peer)
    (ready : readyPlan work peer = some plan) (relevance : plan.baseline = false) (cost : plan.cost ≠ 0)
    (within : plan.cost ≤ allowance) (fits : plan.encoding ≠ .reduced) :
    ∃ later, (serveOrdinary config work p c peer allowance).peers.find? c = some later ∧ later.settled := by
  unfold serveOrdinary
  cases prefers : peer.preferPendingRelevance with
  | true =>
    obtain ⟨ends,settled⟩ := produceRelevance_settled (p := p) (c := c) ready relevance cost within fits
    simp only [if_true,ends]
    exact settled
  | false =>
    obtain ⟨left,stored,left_settled | ⟨onward,same⟩⟩ :=
      produceJournal_leaves config work found allowance
    · simp only [Bool.false_eq_true,if_false,stored]
      split
      · exact ⟨left,stored,left_settled⟩
      · obtain ⟨later,foundLater,-,kept⟩ := (produceRelevance_turn work stored allowance).here
        exact ⟨later,foundLater,kept left_settled⟩
    · simp only [Bool.false_eq_true,if_false,onward,stored]
      exact (produceRelevance_settled (same.trans ready) relevance cost within fits).2

end

def Spares (limit : Nat) (c : ConnectionId) (peer : Peer) (p : Pass) : Prop :=
  p.peers.find? c = some peer ∧ p.globalConsumed ≤ limit

section
variable {config : StructuralReplicationConfiguration} {work : ConnectionId → Work} {limit : Nat} {c : ConnectionId}
  {peer : Peer}

variable {p : Pass}

theorem visit_spares (served : peer.phase ≠ .bootstrapPending) {d : ConnectionId}
    (spares : Spares limit c peer p) (visited : visit config work limit true p d = some q) : Spares limit c peer q := by
  cases found : p.peers.find? d with
  | none =>
    rwa [visit_absent found visited]
  | some x =>
    have turn := visit_turn found visited
    unfold visit at visited
    rw [found] at visited
    dsimp only at visited
    split at visited
    · cases visited; exact spares
    · split at visited
      · cases visited; exact spares
      · next pending =>
        have waits : x.phase = .bootstrapPending := by simpa using pending
        have other : c ≠ d := by
          rintro rfl
          have same := spares.1.symm.trans found
          cases same
          exact served waits
        refine ⟨(turn.elsewhere c other).trans spares.1,?_⟩
        split at visited
        · cases visited; exact spares.2
        · split at visited
          · cases visited
          · rw [some.injEq] at visited
            subst visited
            refine (serveBootstrap_consumed _ p d x _).trans ?_
            have room : allowanceOf config limit p x ≤ limit - p.globalConsumed :=
              (min_le_right _ _).trans (min_le_right _ _)
            omega

variable {connections : List ConnectionId}

theorem sweep_spares (served : peer.phase ≠ .bootstrapPending)
    (spares : Spares limit c peer p) : Spares limit c peer (sweep config work limit true connections p) := by
  induction connections generalizing p with
  | nil => exact spares
  | cons d rest ih =>
    unfold sweep
    split
    · exact spares
    · next q visited => exact ih (visit_spares served spares visited)

theorem sweeps_spares (served : peer.phase ≠ .bootstrapPending) (fuel : Nat)
    (spares : Spares limit c peer p) : Spares limit c peer (sweeps config work limit true connections fuel p) := by
  induction fuel generalizing p with
  | zero => exact spares
  | succ fuel ih =>
    unfold sweeps
    split
    · exact ih (sweep_spares served spares)
    · exact spares

variable {peers : SortedMap ConnectionId Peer}

theorem bootstrapPass_spares (config : StructuralReplicationConfiguration) (work : ConnectionId → Work)
    (connections : List ConnectionId) (found : peers.find? c = some peer) (served : peer.phase ≠ .bootstrapPending) :
    Spares (bootstrapLimit config) c peer.begin (bootstrapPass config work connections peers) := by
  have start : Spares (bootstrapLimit config) c peer.begin { peers := peers.mapValues fun _ peer => peer.begin } := by
    refine ⟨?_,zero_le _⟩
    rw [find?_mapValues,found]
    rfl
  unfold bootstrapPass
  split
  · have kept : peer.begin.phase ≠ .bootstrapPending := served
    exact sweeps_spares kept _ start
  · exact start

theorem bootstrapLimit_leaves (valid : config.isValid) :
    bootstrapLimit config + config.peerQuantum ≤ config.maximumTransitionsPerTick := by
  simp only [isValid,Bool.and_eq_true,decide_eq_true_eq] at valid
  unfold bootstrapLimit
  split <;> omega

theorem visit_settled (valid : config.isValid) (found : p.peers.find? c = some peer.begin)
    (room : p.globalConsumed + config.peerQuantum ≤ limit) (served : peer.phase ≠ .bootstrapPending)
    (ready : (work c).plan = some plan) (relevance : plan.baseline = false) (cost : plan.cost ≠ 0)
    (within : plan.cost ≤ config.peerQuantum) (fits : plan.encoding ≠ .reduced) :
    ∃ q, visit config work limit false p c = some q ∧ ∃ later, q.peers.find? c = some later ∧ later.settled := by
  simp only [isValid,Bool.and_eq_true,decide_eq_true_eq,bne_iff_ne] at valid
  have whole : allowanceOf config limit p peer.begin = config.peerQuantum := by
    show min config.peerQuantum (min (config.maximumTransitionsPerPeerTick - 0) (limit - p.globalConsumed)) = _
    omega
  have some_left : ¬ config.maximumTransitionsPerPeerTick ≤ peer.begin.structuralTransitionsConsumedThisStep := by
    show ¬ config.maximumTransitionsPerPeerTick ≤ 0
    omega
  have turn : visit config work limit false p c =
      some (serveOrdinary config (work c) p c peer.begin config.peerQuantum) := by
    unfold visit
    simp only [found,whole,some_left,if_false,Bool.false_and,Bool.false_eq_true]
    rw [if_neg (show ¬ peer.begin.failed = true by simp [begin]),if_neg (by omega),
      if_neg (show peer.begin.phase ≠ .bootstrapPending from served)]
  exact ⟨_,turn,serveOrdinary_settled found ready relevance cost within fits⟩

theorem structuralPass_settled (behind : List ConnectionId) (room : p.globalConsumed < limit)
    (visited : visit config work limit false { p with madeProgress := false } c = some q)
    (settled : ∃ later, q.peers.find? c = some later ∧ later.settled) :
    ∃ later, (structuralPass config work limit false (c :: behind) p).peers.find? c = some later ∧
      later.settled := by
  obtain ⟨later,found,was⟩ := settled
  have swept : structuralPass config work limit false (c :: behind) p =
      sweeps config work limit false (c :: behind) limit (sweep config work limit false behind q) := by
    unfold structuralPass
    rw [sweeps,if_pos (by simpa using room),sweep,visited]
  have onward : Steady q (structuralPass config work limit false (c :: behind) p) := by
    rw [swept]
    exact (sweep_steady behind q).trans (sweeps_steady limit _)
  obtain ⟨last,foundLast,-,kept⟩ := onward.kept c later found
  exact ⟨last,foundLast,kept was⟩

theorem first_settled (valid : config.isValid) (behind : List ConnectionId) (found : peers.find? c = some peer)
    (served : peer.phase ≠ .bootstrapPending) (ready : (work c).plan = some plan)
    (relevance : plan.baseline = false) (cost : plan.cost ≠ 0) (within : plan.cost ≤ config.peerQuantum)
    (fits : plan.encoding ≠ .reduced) :
    ∃ later, (passes config work (c :: behind) peers).peers.find? c = some later ∧ later.settled := by
  obtain ⟨stored,bound⟩ := bootstrapPass_spares config work (c :: behind) found served
  have leaves := bootstrapLimit_leaves valid
  have onward := passes_onward config work (c :: behind) peers
  generalize bootstrapPass config work (c :: behind) peers = p at stored bound onward
  have quantum : p.globalConsumed + config.peerQuantum ≤ config.maximumTransitionsPerTick := by omega
  obtain ⟨q,visited,settled⟩ :=
    visit_settled valid (p := { p with madeProgress := false }) stored quantum served ready relevance cost within fits
  have room : p.globalConsumed < config.maximumTransitionsPerTick := by
    omega
  obtain ⟨later,foundLater,was⟩ := structuralPass_settled behind room visited settled
  obtain ⟨last,foundLast,-,kept⟩ := onward.kept c later foundLater
  exact ⟨last,foundLast,kept was⟩

end

/-- The peer has a ready plan of relevance changes of at most a quantum at the start of the passes. -/
def waits (config : StructuralReplicationConfiguration) (c : ConnectionId) (s : Session) (input : StepInput) : Bool :=
  match (s.readied input.readied).find? c, (input.work c).plan with
  | some peer, some plan =>
    (decide (peer.phase = .accepted) || decide (peer.phase = .ready)) && !plan.baseline && plan.cost != 0 &&
      decide (plan.cost ≤ config.peerQuantum)
  | _, _ => false

/-- The frame of its plan is not too long, or is a single group. -/
def fits (c : ConnectionId) (input : StepInput) : Bool :=
  (input.work c).plan.all fun plan => decide (plan.encoding ≠ .reduced)

def staysWhole (config : StructuralReplicationConfiguration) (s : Session) (input : StepInput) : Bool :=
  (stepPass config s input).peers.entries.all fun e => !e.2.failed

def leftOut (config : StructuralReplicationConfiguration) (c : ConnectionId) (s : Session) (input : StepInput) : Bool :=
  ((stepPass config s input).peers.find? c).all fun peer => !peer.structuralSubmittedThisStep

/-- The peer is left out, and the cursor moves on from it or from one behind it in the rotation. -/
def passedOver (config : StructuralReplicationConfiguration) (c : ConnectionId) (s : Session) (input : StepInput) :
    Bool :=
  leftOut config c s input && (lastPeer config (stepPass config s input)).any fun k =>
    decide (k ∉ (rotationOf s).takeWhile fun d => decide (d ≠ c))

section
variable {config : StructuralReplicationConfiguration} {c : ConnectionId} {s t : Session} {input : StepInput}

theorem mem_structuralConnections {peers : SortedMap ConnectionId Peer} :
    c ∈ structuralConnections peers ↔ ∃ peer, peers.find? c = some peer ∧ peer.phase ≠ .transportConnected := by
  unfold structuralConnections
  rw [mem_keys]
  simp only [find?_filter]
  cases peers.find? c with
  | none => simp
  | some peer => by_cases hello : peer.phase = .transportConnected <;> simp [hello]

theorem sorted_structuralConnections (peers : SortedMap ConnectionId Peer) :
    (structuralConnections peers).Pairwise (· < ·) :=
  List.pairwise_map.mpr (peers.filter fun _ peer => decide (peer.phase ≠ .transportConnected)).sorted

theorem readied_phase (s : Session) (readied : ConnectionId → Bool) (found : s.peers.find? c = some peer) :
    ∃ later, (s.readied readied).find? c = some later ∧
      (later.phase = .transportConnected ↔ peer.phase = .transportConnected) := by
  unfold Session.readied
  rw [find?_mapValues,found]
  refine ⟨_,rfl,?_⟩
  dsimp only
  split
  · next moves =>
    simp only [Bool.and_eq_true,decide_eq_true_eq] at moves
    simp [moves.2]
  · exact .rfl

theorem stepPass_kept (config : StructuralReplicationConfiguration) (input : StepInput)
    (found : s.peers.find? c = some peer) : ∃ later, (stepPass config s input).peers.find? c = some later ∧
      (later.phase = .transportConnected ↔ peer.phase = .transportConnected) := by
  obtain ⟨readied,foundReadied,phase⟩ := readied_phase s input.readied found
  have steady : Steady { peers := (s.readied input.readied).mapValues fun _ peer => peer.begin }
      (stepPass config s input) := passes_steady _ _
  have begun : ((s.readied input.readied).mapValues fun _ peer => peer.begin).find? c = some readied.begin := by
    rw [find?_mapValues,foundReadied]
    rfl
  obtain ⟨later,foundLater,phase',-⟩ := steady.kept c readied.begin begun
  exact ⟨later,foundLater,phase'.trans phase⟩

theorem stepPass_absent (absent : s.peers.find? c = none) : (stepPass config s input).peers.find? c = none := by
  have steady : Steady { peers := (s.readied input.readied).mapValues fun _ peer => peer.begin }
      (stepPass config s input) := passes_steady _ _
  apply steady.absent
  show ((s.peers.mapValues _).mapValues _).find? c = none
  rw [find?_mapValues,find?_mapValues,absent]
  rfl

theorem find?_step (whole : staysWhole config s input) (stepped : step config s input = some t) :
    t.peers.find? c = (stepPass config s input).peers.find? c := by
  simp only [step,some.injEq] at stepped
  subst stepped
  rw [find?_filter]
  cases found : (stepPass config s input).peers.find? c with
  | none => rfl
  | some peer =>
    have healthy := List.all_eq_true.mp whole _ (find?_eq_some.mp found)
    simpa using healthy

theorem structuralConnections_step (whole : staysWhole config s input) (stepped : step config s input = some t) :
    structuralConnections t.peers = structuralConnections s.peers := by
  have same : ∀ d, d ∈ structuralConnections t.peers ↔ d ∈ structuralConnections s.peers := by
    intro d
    rw [mem_structuralConnections,mem_structuralConnections,find?_step whole stepped]
    cases found : s.peers.find? d with
    | none => rw [stepPass_absent found]
    | some peer =>
      obtain ⟨later,foundLater,phase⟩ := stepPass_kept config input found
      rw [foundLater]
      simp [phase]
  exact List.Pairwise.eq_of_mem_iff (sorted_structuralConnections _) (sorted_structuralConnections _) same

theorem front_served (valid : config.isValid) {behind : List ConnectionId} (front : rotationOf s = c :: behind)
    (waiting : waits config c s input) (fitting : fits c input)
    (whole : staysWhole config s input) : leftOut config c s input = false := by
  unfold waits at waiting
  split at waiting
  · next peer plan found ready =>
    simp only [Bool.and_eq_true,Bool.or_eq_true,decide_eq_true_eq,Bool.not_eq_true',bne_iff_ne] at waiting
    obtain ⟨⟨⟨admitted,relevance⟩,cost⟩,within⟩ := waiting
    have served : peer.phase ≠ .bootstrapPending := by rcases admitted with phase | phase <;> simp [phase]
    have short : plan.encoding ≠ .reduced := by simpa [fits,ready] using fitting
    obtain ⟨later,foundLater,settled⟩ := first_settled valid behind found served ready relevance cost
      within short
    rw [← front] at foundLater
    have stored : (stepPass config s input).peers.find? c = some later := foundLater
    have healthy := List.all_eq_true.mp whole _ (find?_eq_some.mp stored)
    simp only [Peer.settled,Bool.or_eq_true] at settled
    simp only [leftOut,stored,all_some]
    simp_all
  · cases waiting

theorem step_closer (valid : config.isValid) {front behind : List ConnectionId}
    (rotation : rotationOf s = front ++ c :: behind) (waiting : waits config c s input)
    (fitting : fits c input) (whole : staysWhole config s input)
    (passed : passedOver config c s input = false) (out : leftOut config c s input)
    (stepped : step config s input = some t) :
    ∃ front' behind', rotationOf t = front' ++ c :: behind' ∧ front'.length < front.length := by
  cases front with
  | nil =>
    rw [front_served valid rotation waiting fitting whole] at out
    cases out
  | cons first more =>
    have sorted := sorted_structuralConnections s.peers
    -- The peer behind which the cursor moves stands before the waiting one.
    obtain ⟨k,cursor,ahead⟩ : ∃ k, t.structuralFairnessCursor = after (rotationOf s) k ∧ k ∈ first :: more := by
      simp only [step,some.injEq] at stepped
      subst stepped
      refine ⟨(lastPeer config (stepPass config s input)).getD first,by rw [rotation]; rfl,?_⟩
      cases last : lastPeer config (stepPass config s input) with
      | none => exact (.head _)
      | some k =>
        simp only [passedOver,out,last,any_some,Bool.true_and,decide_eq_false_iff_not,not_not] at passed
        have absent : ∀ d ∈ first :: more, decide (d ≠ c) := by
          intro d member
          apply decide_eq_true
          rintro rfl
          have nodup := nodup_fromCursor s.structuralFairnessCursor sorted
          unfold rotationOf at rotation
          rw [rotation] at nodup
          exact (List.nodup_append.mp nodup).2.2 d member d (.head _) rfl
        rw [rotation,List.takeWhile_append_of_pos absent] at passed
        simpa using passed
    obtain ⟨before,between,parts⟩ := List.append_of_mem ahead
    have rotated : rotationOf t = between ++ c :: (behind ++ before ++ [k]) := by
      unfold rotationOf
      rw [structuralConnections_step whole stepped,cursor]
      have split : fromCursor (structuralConnections s.peers) s.structuralFairnessCursor =
          before ++ k :: (between ++ c :: behind) := by
        rw [parts] at rotation
        simpa [rotationOf] using rotation
      have moved := fromCursor_after sorted split
      simpa [rotationOf] using moved
    refine ⟨between,_,rotated,?_⟩
    rw [parts,List.length_append,List.length_cons]
    omega

end

/-- A peer with a plan that fits is not left out of as many steps as there are peers, as long as the cursor does not
    pass it. -/
theorem waiting_peer_served {config : StructuralReplicationConfiguration} (valid : config.isValid = true) {s : Session}
    {c : ConnectionId} (member : c ∈ rotationOf s) {inputs : List StepInput}
    (long : (rotationOf s).length ≤ inputs.length)
    (waiting : RunMeets (step config) (fun s input => waits config c s input = true ∧ fits c input = true ∧
      staysWhole config s input = true ∧ passedOver config c s input = false) s inputs) :
    ¬ RunMeets (step config) (fun s input => leftOut config c s input = true) s inputs := by
  intro out
  obtain ⟨front,behind,rotation⟩ := List.append_of_mem member
  have closer : inputs.length ≤ front.length := by
    clear long member
    induction inputs generalizing s front behind with
    | nil => exact zero_le _
    | cons input rest ih =>
      obtain ⟨⟨waiting,fitting,whole,passed⟩,waitsOn⟩ := waiting
      have stepped : step config s input = some _ := rfl
      obtain ⟨front',behind',rotation',shorter⟩ :=
        step_closer valid rotation waiting fitting whole passed out.1 stepped
      have bound := ih (waitsOn _ stepped) (out.2 _ stepped) front' behind' rotation'
      exact bound.trans_lt shorter
  rw [rotation,List.length_append,List.length_cons] at long
  omega

/-- A ready plan of relevance changes for each peer, by the slot of its connection. -/
def planned (cost : Nat → Nat) (encoding : PlanEncoding) : StepInput :=
  { work := fun c => { plan := some { cost := cost c.slot.toNat, operations := cost c.slot.toNat, encoding := encoding } } }

def readyPeers (slots : List UInt32) : Session :=
  { peers := slots.foldl (fun peers slot => peers.insert ⟨slot,1⟩ { phase := .ready }) ∅ }

/-- Four transitions in a step, for one peer or for all. -/
def narrow : StructuralReplicationConfiguration := ⟨4,4,4,1,1⟩

theorem second_peer_served :
    ¬ RunMeets (step narrow) (fun s input => leftOut narrow ⟨2, 1⟩ s input = true) (readyPeers [1, 2])
      [planned (fun slot => slot + 2) .fits, planned (fun slot => slot + 2) .fits] :=
  waiting_peer_served (by decide) (by decide +kernel) (by decide +kernel) (by decide +kernel)

/-- Three peers that always have plans of three, four and one transitions ready, with four transitions in a step: after
    the first one the second does not fit, and the third one does, so that the cursor is back at the first. The second
    has no frame in any of three steps. And a single peer whose plan's frame is too long has none in its step. -/
theorem skipped_peer_passed_over :
    (narrow.isValid = true ∧ (rotationOf (readyPeers [1, 2, 3])).length = 3 ∧
      RunMeets (step narrow) (fun s input => waits narrow ⟨2, 1⟩ s input = true ∧ fits ⟨2, 1⟩ input = true ∧
        staysWhole narrow s input = true ∧ leftOut narrow ⟨2, 1⟩ s input = true) (readyPeers [1, 2, 3])
        (List.replicate 3 (planned (fun slot => if slot = 1 then 3 else if slot = 2 then 4 else 1) .fits))) ∧
    (rotationOf (readyPeers [1])).length = 1 ∧
      RunMeets (step narrow) (fun s input => waits narrow ⟨1, 1⟩ s input = true ∧
        staysWhole narrow s input = true ∧ leftOut narrow ⟨1, 1⟩ s input = true) (readyPeers [1])
        [planned (fun _ => 2) .reduced] := by
  decide +kernel

end Gargantuan.StructuralService
