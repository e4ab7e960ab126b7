import Gargantuan.HiddenShare
import Gargantuan.ReliableServiceProfile
import Gargantuan.SimulatedTransport

/-!
The feedback ledger of one peer of the pooled reliable service. Acceptance is
known exactly; the native side reports its acknowledged bytes in one sum, so the
gameplay share of what is still outstanding is known up to an interval.
-/
namespace Gargantuan
open HiddenShare SimulatedTransport

structure ReliableServiceAcceptedBytes where
  all : Nat := 0
  structural : Nat := 0
  gameplay : Nat := 0
deriving DecidableEq

/-- What is neither structural; gameplay and control traffic together. -/
def ReliableServiceAcceptedBytes.ordinary (b : ReliableServiceAcceptedBytes) : Nat := b.all - b.structural

/-- The native side's record of the last structural grant it completed. -/
structure CompletedGrant where
  token : Nat := 0
  bytes : Nat := 0
  activatedAt : Nat := 0
  firstSendAt : Nat := 0
  completedAt : Nat := 0
  maximumRunningDeficit : Nat := 0
  grantFailed : Bool := false
  completionFailed : Bool := false
deriving DecidableEq

/-- A native sample; times are in microseconds. -/
structure ReliableServiceFeedback where
  connection : ConnectionId
  observedAt : Nat := 0
  uniqueReliableStreamBytesFirstSent : Nat := 0
  uniqueReliableStreamBytesAcked : Nat := 0
  structuralPayloadBytesFirstSent : Nat := 0
  structuralPayloadBytesAcked : Nat := 0
  structuralQualifiedActive : Nat := 0
  structuralMaximumDeficit : Nat := 0
  reliablePayloadBytesAcked : Nat := 0
  reliableStreamBytesRetransmitted : Nat := 0
  state : ConnectionState := .connecting
  attributedRetirementSequence : Nat := 0
  activeAttributedRetirementToken : Nat := 0
  activeAttributedMessageNumber : Nat := 0
  lastAttributedRetirementToken : Nat := 0
  lastAttributedRetirementMessageNumber : Nat := 0
  lastAttributedRetiredPayloadBytes : Nat := 0
  countersValid : Bool := true
  structuralCompletedGrantSequence : Nat := 0
  structuralLastCompletedGrant : CompletedGrant := {}
  structuralMaximumFiniteShortfall : Nat := 0
  structuralCompletionServiceFailed : Bool := false
  structuralCompletionEvidenceInvalid : Bool := false
  ordinaryPayloadBytesFirstSent : Nat := 0
  protectedOrdinaryEverFailed : Bool := false
  protectedOrdinaryActiveDeadlineFailed : Bool := false
  protectedOrdinaryEvidenceInvalid : Bool := false
deriving DecidableEq

def ReliableServiceFeedback.ordinaryAcked (s : ReliableServiceFeedback) : Nat :=
  s.reliablePayloadBytesAcked - s.structuralPayloadBytesAcked

structure QueuedOffer where
  token : Nat
  bytes : Nat
  activatedAt : Nat
  firstSentBefore : Nat
deriving DecidableEq

def QueuedOffer.timed (o : QueuedOffer) : Bool := o.activatedAt != maximumUInt64

structure Turnover where
  token : Nat
  activatedAt : Nat
  permitAvailable : Bool := false
deriving DecidableEq

/-- Execution results that an observation hands on as they are. -/
structure ExecutionHistory where
  executionFailed : Bool := false
  nativeCapacityFailed : Bool := false
  nativeCapacityReturnedToken : Nat := 0
  qualifiedNativeCapacityReturns : Nat := 0
  lastNativeCapacityReturnAt : Nat := 0
  maximumNativeCapacityReturn : Nat := 0
  queuedOrdinaryEverFailed : Bool := false
  queuedQualifiedOrdinaryEverFailed : Bool := false
  mainOpportunityFailed : Bool := false
  turnoverFailed : Bool := false
  maximumMainOpportunity : Nat := 0
  maximumTurnover : Nat := 0
  completedTurnovers : Nat := 0
  completedAdmissionOpportunities : Nat := 0
  lastCompletedTurnoverToken : Nat := 0
  lastCompletedTurnoverActivatedAt : Nat := 0
  lastCompletedTurnoverAt : Nat := 0
deriving DecidableEq

structure PooledReliableServiceFeedback where
  separateNativeCapacity : Bool := false
  diagnosticPerformance : Bool := false
  accepted : ReliableServiceAcceptedBytes := {}
  previous : Option ReliableServiceFeedback := none
  structuralRetired : Nat := 0
  ordinaryDebt : Nat := 0
  gameplayLower : Nat := 0
  gameplayUpper : Nat := 0
  ordinaryUnsent : Nat := 0
  invalid : Bool := false
  serviceEligible : Bool := false
  queuedOfferFailed : Bool := false
  queuedOrdinaryFailed : Bool := false
  history : ExecutionHistory := {}
  offer : Option QueuedOffer := none
  pendingTurnover : Option Turnover := none
deriving DecidableEq

namespace PooledReliableServiceFeedback

structure Result where
  valid : Bool := false
  available : Bool := false
  qualified : Bool := false
  terminal : Bool := false
  observedAt : Nat := 0
  retiredToken : Nat := 0
  retiredBytes : Nat := 0
  nativeCompletedToken : Nat := 0
  nativeCompletedBytes : Nat := 0
  nativeCompletedAt : Nat := 0
  nativeCompletedActivation : Nat := 0
  ordinaryUnsent : Nat := 0
  history : ExecutionHistory := {}
deriving DecidableEq

def estimate (l : PooledReliableServiceFeedback) : Estimate := ⟨l.ordinaryDebt,l.gameplayLower,l.gameplayUpper⟩

def withEstimate (l : PooledReliableServiceFeedback) (e : Estimate) : PooledReliableServiceFeedback :=
  { l with ordinaryDebt := e.total, gameplayLower := e.lower, gameplayUpper := e.upper }

def reject (l : PooledReliableServiceFeedback) (out : Result) : PooledReliableServiceFeedback × Result :=
  ({ l with invalid := true, serviceEligible := false },
    { out with valid := false, available := false, qualified := false, retiredToken := 0, retiredBytes := 0,
               observedAt := 0, nativeCompletedToken := 0, nativeCompletedBytes := 0, nativeCompletedAt := 0,
               nativeCompletedActivation := 0 })

/-! ### The checks of an observation, in their order -/

def createdContradicts (l : PooledReliableServiceFeedback) (created : ReliableServiceAcceptedBytes) : Bool :=
  created.all < l.accepted.all || created.structural < l.accepted.structural ||
    created.gameplay < l.accepted.gameplay || created.structural > created.all ||
    created.gameplay > created.all - created.structural

def sampleContradicts (s : ReliableServiceFeedback) (created : ReliableServiceAcceptedBytes) (now : Nat) : Bool :=
  !s.countersValid || s.structuralCompletionEvidenceInvalid || s.protectedOrdinaryEvidenceInvalid ||
    s.observedAt > now || s.uniqueReliableStreamBytesAcked > s.uniqueReliableStreamBytesFirstSent ||
    s.structuralPayloadBytesAcked > s.structuralPayloadBytesFirstSent ||
    s.structuralPayloadBytesFirstSent > s.uniqueReliableStreamBytesFirstSent ||
    s.ordinaryPayloadBytesFirstSent > created.ordinary ||
    s.ordinaryPayloadBytesFirstSent > s.uniqueReliableStreamBytesFirstSent - s.structuralPayloadBytesFirstSent ||
    s.structuralPayloadBytesFirstSent > created.structural ||
    s.structuralPayloadBytesAcked > s.reliablePayloadBytesAcked ||
    s.ordinaryAcked > s.ordinaryPayloadBytesFirstSent ||
    s.structuralPayloadBytesFirstSent - s.structuralPayloadBytesAcked > maximumReliableServiceGroupBytes ||
    s.reliablePayloadBytesAcked > s.uniqueReliableStreamBytesAcked || s.reliablePayloadBytesAcked > created.all

/-- The sample against the one before it. -/
def regresses (s p : ReliableServiceFeedback) : Bool :=
  s.observedAt < p.observedAt || s.uniqueReliableStreamBytesFirstSent < p.uniqueReliableStreamBytesFirstSent ||
    s.uniqueReliableStreamBytesAcked < p.uniqueReliableStreamBytesAcked ||
    s.structuralPayloadBytesFirstSent < p.structuralPayloadBytesFirstSent ||
    s.structuralPayloadBytesAcked < p.structuralPayloadBytesAcked ||
    s.ordinaryPayloadBytesFirstSent < p.ordinaryPayloadBytesFirstSent ||
    s.structuralQualifiedActive < p.structuralQualifiedActive ||
    s.structuralMaximumDeficit < p.structuralMaximumDeficit ||
    s.structuralMaximumFiniteShortfall < p.structuralMaximumFiniteShortfall ||
    s.structuralCompletedGrantSequence < p.structuralCompletedGrantSequence ||
    s.structuralCompletedGrantSequence - p.structuralCompletedGrantSequence > 1 ||
    s.reliablePayloadBytesAcked < p.reliablePayloadBytesAcked ||
    s.reliableStreamBytesRetransmitted < p.reliableStreamBytesRetransmitted ||
    s.attributedRetirementSequence < p.attributedRetirementSequence ||
    s.attributedRetirementSequence - p.attributedRetirementSequence > 1

/-- A newly completed grant must be the offer that waits; else the last record stands. -/
def grantContradicts (l : PooledReliableServiceFeedback) (s p : ReliableServiceFeedback) : Bool :=
  let grant := s.structuralLastCompletedGrant
  if s.structuralCompletedGrantSequence ≠ p.structuralCompletedGrantSequence then
    match l.offer with
    | none => true
    | some o =>
      !o.timed || grant.token != o.token || grant.bytes != o.bytes || grant.activatedAt != o.activatedAt ||
        grant.token == 0 || grant.bytes == 0 || grant.bytes > maximumReliableServiceGroupBytes ||
        grant.activatedAt == 0 || grant.activatedAt > grant.firstSendAt || grant.firstSendAt > grant.completedAt ||
        grant.completedAt > s.observedAt
  else grant ≠ p.structuralLastCompletedGrant

def nativeGrantRate : Nat := 16 * 1024 * 1024
def completionBudget : Nat := nativeGrantRate * 6000 + (512 * 1024 + 1248) * 1000000

/-- The difference of two 64-bit numbers. -/
def difference (a b : Nat) : Nat := (a + 2 ^ 64 - b) % 2 ^ 64

def overBudget (elapsed : Nat) : Option Bool :=
  if elapsed > maximumUInt64 / nativeGrantRate then none else some (elapsed * nativeGrantRate > completionBudget)

def reportCompletion (l : PooledReliableServiceFeedback) (out : Result) (o : QueuedOffer)
    (s : ReliableServiceFeedback) (created : ReliableServiceAcceptedBytes) : Result :=
  if l.separateNativeCapacity && o.token > l.history.nativeCapacityReturnedToken &&
      s.structuralPayloadBytesFirstSent == created.structural then
    { out with nativeCompletedToken := o.token, nativeCompletedBytes := o.bytes,
               nativeCompletedActivation := o.activatedAt,
               nativeCompletedAt := if o.timed then s.structuralLastCompletedGrant.completedAt else s.observedAt }
  else out

/-- The waiting offer against the sample; nothing means that they contradict. -/
def checkOffer (l : PooledReliableServiceFeedback) (out : Result) (s : ReliableServiceFeedback)
    (created : ReliableServiceAcceptedBytes) : Option (PooledReliableServiceFeedback × Result) :=
  match l.offer with
  | none => some (l,out)
  | some o =>
    if created.structural ≠ (o.firstSentBefore + o.bytes) % 2 ^ 64 ||
        s.structuralPayloadBytesFirstSent < o.firstSentBefore then none
    else
      let out := reportCompletion l out o s created
      let grant := s.structuralLastCompletedGrant
      if o.timed && s.structuralPayloadBytesFirstSent == created.structural then
        if s.structuralCompletedGrantSequence == 0 || grant.token != o.token || grant.bytes != o.bytes ||
            grant.activatedAt != o.activatedAt then none
        else (overBudget (difference grant.completedAt o.activatedAt)).map fun late =>
          ({ l with queuedOfferFailed := l.queuedOfferFailed || late },out)
      else if o.timed && s.structuralPayloadBytesFirstSent < created.structural && s.observedAt ≥ o.activatedAt then
        (overBudget (s.observedAt - o.activatedAt)).map fun late =>
          ({ l with queuedOfferFailed := l.queuedOfferFailed || late },out)
      else some (l,out)

def attributed (l : PooledReliableServiceFeedback) (s p : ReliableServiceFeedback) (debtToken debt : Nat) :
    Option (Nat × Nat) :=
  let retired := s.reliablePayloadBytesAcked - p.reliablePayloadBytesAcked
  if s.attributedRetirementSequence ≠ p.attributedRetirementSequence then
    if debtToken == 0 || debt == 0 || s.lastAttributedRetirementToken != debtToken ||
        s.lastAttributedRetiredPayloadBytes != debt || s.lastAttributedRetirementMessageNumber == 0 ||
        s.activeAttributedRetirementToken != 0 || debt > retired ||
        (p.activeAttributedMessageNumber != 0 &&
          s.lastAttributedRetirementMessageNumber != p.activeAttributedMessageNumber) ||
        debt > maximumUInt64 - l.structuralRetired then none
    else some (debtToken,debt)
  else if s.lastAttributedRetirementToken ≠ p.lastAttributedRetirementToken ||
      s.lastAttributedRetirementMessageNumber ≠ p.lastAttributedRetirementMessageNumber ||
      s.lastAttributedRetiredPayloadBytes ≠ p.lastAttributedRetiredPayloadBytes then none
  else some (0,0)

/-- The attribution that is still active, and the structural counters, after the retirement. -/
def structuralContradicts (l : PooledReliableServiceFeedback) (out : Result) (s p : ReliableServiceFeedback)
    (created : ReliableServiceAcceptedBytes) (debtToken debt : Nat) : Bool :=
  (s.activeAttributedRetirementToken != 0 && (s.activeAttributedRetirementToken != debtToken ||
      s.activeAttributedMessageNumber == 0 || out.retiredBytes != 0)) ||
    (s.activeAttributedRetirementToken == 0 && s.activeAttributedMessageNumber != 0) ||
    l.structuralRetired != s.structuralPayloadBytesAcked || l.structuralRetired > created.structural ||
    created.structural - l.structuralRetired != debt - out.retiredBytes ||
    (s.activeAttributedRetirementToken != 0 && p.activeAttributedRetirementToken != 0 &&
      s.activeAttributedMessageNumber != p.activeAttributedMessageNumber)

/-- A retirement takes its offer with it; a timed one becomes the pending turnover. -/
def returnOffer (l : PooledReliableServiceFeedback) (out : Result) : Option PooledReliableServiceFeedback :=
  match l.offer with
  | none => some l
  | some o =>
    if out.retiredBytes = 0 then some l
    else if o.token ≠ out.retiredToken || o.bytes ≠ out.retiredBytes then none
    else if o.timed then
      if l.pendingTurnover.isSome then none
      else some { l with pendingTurnover := some ⟨o.token,o.activatedAt,false⟩, offer := none }
    else some { l with offer := none }

/-- The sample is in order: it becomes the previous one and sets the eligibility. -/
def conclude (l : PooledReliableServiceFeedback) (out : Result) (s : ReliableServiceFeedback)
    (created : ReliableServiceAcceptedBytes) (now : Nat) : PooledReliableServiceFeedback × Result :=
  let available := s.state == .connected &&
    decide (now - s.observedAt ≤ ({} : PooledReliableServiceProfile).feedbackFreshnessMicroseconds)
  let qualified := available && !s.protectedOrdinaryEvidenceInvalid &&
    (l.diagnosticPerformance || (!s.structuralCompletionServiceFailed && !l.queuedOfferFailed &&
      !s.structuralLastCompletedGrant.completionFailed && !l.history.executionFailed && !l.queuedOrdinaryFailed &&
      !l.history.queuedOrdinaryEverFailed && !s.protectedOrdinaryEverFailed &&
      !s.protectedOrdinaryActiveDeadlineFailed))
  let unsent := created.ordinary - s.ordinaryPayloadBytesFirstSent
  ({ l with
      pendingTurnover := l.pendingTurnover.map fun t => { t with permitAvailable := t.permitAvailable || available }
      ordinaryUnsent := unsent, serviceEligible := qualified, previous := some s },
    { out with
      observedAt := s.observedAt, terminal := s.state == .closed, available := available, qualified := qualified
      nativeCompletedToken := if available then out.nativeCompletedToken else 0
      nativeCompletedBytes := if available then out.nativeCompletedBytes else 0
      ordinaryUnsent := unsent })

/-- The retirements the sample reports. -/
def retire (l : PooledReliableServiceFeedback) (out : Result) (created : ReliableServiceAcceptedBytes)
    (s p : ReliableServiceFeedback) (now debtToken debt : Nat) : PooledReliableServiceFeedback × Result :=
  match attributed l s p debtToken debt with
  | none => reject l out
  | some (token,bytes) =>
    let l := { l with structuralRetired := l.structuralRetired + bytes }
    let out := { out with retiredToken := token, retiredBytes := bytes }
    let ordinaryRetired := s.reliablePayloadBytesAcked - p.reliablePayloadBytesAcked - bytes
    if structuralContradicts l out s p created debtToken debt then reject l out
    else if ordinaryRetired > l.ordinaryDebt then reject l out
    else
      let l := l.withEstimate (l.estimate.shrink ordinaryRetired)
      if l.gameplayLower > l.gameplayUpper then reject l out
      else match returnOffer l out with
        | none => reject l out
        | some l => conclude l out s created now

/-- The checks of a sample after the acceptance was booked. -/
def reconcile (l : PooledReliableServiceFeedback) (out : Result) (id : ConnectionId)
    (created : ReliableServiceAcceptedBytes) (s : ReliableServiceFeedback) (now debtToken debt : Nat) :
    PooledReliableServiceFeedback × Result :=
  let p := l.previous.getD { connection := id }
  if sampleContradicts s created now || regresses s p || grantContradicts l s p then reject l out
  else match checkOffer l out s created with
    | none => reject l out
    | some (l,out) => retire l out created s p now debtToken debt

structure Call where
  id : ConnectionId
  created : ReliableServiceAcceptedBytes
  sample : Option ReliableServiceFeedback
  now : Nat
  debtToken : Nat
  debt : Nat
deriving DecidableEq

/-- A closed connection whose counters are no longer trusted is only purged. -/
def purges (l : PooledReliableServiceFeedback) (c : Call) : Bool :=
  c.sample.any fun s => s.state == .closed && (!s.countersValid || l.invalid)

def knownOrdinaryFirstSent (l : PooledReliableServiceFeedback) : Nat :=
  (l.previous.map ReliableServiceFeedback.ordinaryPayloadBytesFirstSent).getD 0

/-- The acceptance of a call enters the books. -/
def book (l : PooledReliableServiceFeedback) (created : ReliableServiceAcceptedBytes) :
    PooledReliableServiceFeedback :=
  { l.withEstimate (l.estimate.grow (created.ordinary - l.accepted.ordinary)
      (created.gameplay - l.accepted.gameplay)) with
    accepted := created, ordinaryUnsent := created.ordinary - l.knownOrdinaryFirstSent }

def observe (l : PooledReliableServiceFeedback) (c : Call) : PooledReliableServiceFeedback × Result :=
  let out : Result := { history := l.history }
  if c.sample.any fun s => s.connection != c.id then reject l out
  else if l.purges c then (l,{ out with valid := true, terminal := true })
  else if l.invalid || createdContradicts l c.created then reject l out
  else if c.created.ordinary < l.accepted.ordinary then reject l out
  else if l.knownOrdinaryFirstSent > c.created.ordinary then reject l out
  else
    let unsent := c.created.ordinary - l.knownOrdinaryFirstSent
    let added := c.created.ordinary - l.accepted.ordinary
    if c.created.gameplay - l.accepted.gameplay > added || added > maximumUInt64 - l.ordinaryDebt then
      reject { l with ordinaryUnsent := unsent } { out with ordinaryUnsent := unsent }
    else
      let out := { out with ordinaryUnsent := unsent, valid := true }
      match c.sample with
      | none => ({ l.book c.created with serviceEligible := false },
          { out with observedAt := (l.previous.map ReliableServiceFeedback.observedAt).getD 0 })
      | some s => reconcile (l.book c.created) out c.id c.created s c.now c.debtToken c.debt

def fundedOrdinary (total lower upper : Nat) : Option Nat :=
  if lower > upper || upper > total then none
  else
    let ends (game : Nat) : Option Nat :=
      let g := max game PooledReliableServiceProfile.gameplayBurst
      let c := max (total - game) PooledReliableServiceProfile.controlBurst
      if c > maximumUInt64 - g then none else some (g + c)
    match ends lower, ends upper with
    | some first, some last => some (max first last)
    | _, _ => none

end PooledReliableServiceFeedback

end Gargantuan
