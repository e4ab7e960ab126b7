import Gargantuan.PooledReliableServiceFeedback
import Gargantuan.Runs

/-!
The feedback ledger over all runs of observations. The books balance as long as
the ledger is valid, and the interval it keeps holds the true gameplay share for
every way the acknowledged ordinary bytes may have split over the two classes.
-/
namespace Gargantuan.PooledReliableServiceFeedback
open HiddenShare SimulatedTransport Option PooledReliableServiceProfile Nat Estimate ReliableServiceFeedback

/-! ### What one observation does -/

structure SameDebt (l l' : PooledReliableServiceFeedback) : Prop where
  accepted : l'.accepted = l.accepted
  previous : l'.previous = l.previous
  structuralRetired : l'.structuralRetired = l.structuralRetired
  estimate : l'.estimate = l.estimate
  invalid : l'.invalid = l.invalid

section
variable (l : PooledReliableServiceFeedback)

theorem SameDebt.refl : SameDebt l l := ⟨rfl,rfl,rfl,rfl,rfl⟩

variable (created : ReliableServiceAcceptedBytes)

end

structure Rejected (r : PooledReliableServiceFeedback × Result) : Prop where
  invalid : r.1.invalid = true
  valid : r.2.valid = false
  retiredToken : r.2.retiredToken = 0
  retiredBytes : r.2.retiredBytes = 0

theorem rejected_reject (l : PooledReliableServiceFeedback) (out : Result) : Rejected (reject l out) :=
  ⟨rfl,rfl,rfl,rfl⟩

variable {l : PooledReliableServiceFeedback} {s : ReliableServiceFeedback}
  {r : PooledReliableServiceFeedback × Result}

variable {created : ReliableServiceAcceptedBytes} {l' : PooledReliableServiceFeedback} {out : Result}

theorem checkOffer_keeps {out' : Result} (checked : checkOffer l out s created = some (l',out')) :
    SameDebt l l' ∧ out'.valid = out.valid := by
  have reported : ∀ o, (reportCompletion l out o s created).valid = out.valid := by
    intro o
    unfold reportCompletion
    split_ifs <;> rfl
  unfold checkOffer at checked
  cases waiting : l.offer with
  | none =>
    rw [waiting] at checked
    cases checked
    exact ⟨.refl l,rfl⟩
  | some o =>
    rw [waiting] at checked
    simp only at checked
    split_ifs at checked
    · obtain ⟨late,_,same⟩ := map_eq_some_iff.mp checked
      cases same
      exact ⟨⟨rfl,rfl,rfl,rfl,rfl⟩,reported o⟩
    · obtain ⟨late,_,same⟩ := map_eq_some_iff.mp checked
      cases same
      exact ⟨⟨rfl,rfl,rfl,rfl,rfl⟩,reported o⟩
    · cases checked
      exact ⟨.refl l,reported o⟩

theorem returnOffer_keeps (returned : returnOffer l out = some l') : SameDebt l l' := by
  unfold returnOffer at returned
  cases waiting : l.offer with
  | none =>
    rw [waiting] at returned
    cases returned
    exact .refl l
  | some o =>
    rw [waiting] at returned
    simp only at returned
    split_ifs at returned <;> cases returned
    · exact .refl l
    · exact ⟨rfl,rfl,rfl,rfl,rfl⟩
    · exact ⟨rfl,rfl,rfl,rfl,rfl⟩

variable {p : ReliableServiceFeedback} {c : Call} {w : World}

theorem attributed_some {debtToken debt token bytes : Nat}
    (found : attributed l s p debtToken debt = some (token,bytes)) :
    bytes ≤ debt ∧ bytes ≤ s.reliablePayloadBytesAcked - p.reliablePayloadBytesAcked := by
  unfold attributed at found
  simp only at found
  split_ifs at found with advanced refused
  · cases found
    simp only [Bool.or_eq_true,decide_eq_true_eq,not_or,not_lt] at refused
    exact ⟨le_rfl,refused.1.1.2⟩
  · cases found
    exact ⟨zero_le _,zero_le _⟩

/-- What a sample that is in order does to a ledger that has booked the acceptance. -/
structure Retires (l : PooledReliableServiceFeedback) (created : ReliableServiceAcceptedBytes)
    (s p : ReliableServiceFeedback) (debt : Nat) (r : PooledReliableServiceFeedback × Result) : Prop where
  invalid : r.1.invalid = false
  valid : r.2.valid = true
  accepted : r.1.accepted = l.accepted
  previous : r.1.previous = some s
  structuralRetired : r.1.structuralRetired = l.structuralRetired + r.2.retiredBytes
  acked : r.1.structuralRetired = s.structuralPayloadBytesAcked
  withinAccepted : r.1.structuralRetired ≤ created.structural
  debtLeft : created.structural - r.1.structuralRetired = debt - r.2.retiredBytes
  withinDebt : r.2.retiredBytes ≤ debt
  withinRetired : r.2.retiredBytes ≤ s.reliablePayloadBytesAcked - p.reliablePayloadBytesAcked
  enough : s.reliablePayloadBytesAcked - p.reliablePayloadBytesAcked - r.2.retiredBytes ≤ l.estimate.total
  estimate : r.1.estimate =
    l.estimate.shrink (s.reliablePayloadBytesAcked - p.reliablePayloadBytesAcked - r.2.retiredBytes)

theorem retire_cases {l : PooledReliableServiceFeedback} (created : ReliableServiceAcceptedBytes)
    (s p : ReliableServiceFeedback) (now debtToken debt : Nat) (sound : l.invalid = false) (valid : out.valid) :
    Rejected (retire l out created s p now debtToken debt) ∨
      Retires l created s p debt (retire l out created s p now debtToken debt) := by
  unfold retire
  cases found : attributed l s p debtToken debt with
  | none => exact .inl (rejected_reject _ _)
  | some attribution =>
    obtain ⟨token,bytes⟩ := attribution
    obtain ⟨withinDebt,withinRetired⟩ := attributed_some found
    simp only
    split_ifs with contradicts excess crossed
    · exact .inl (rejected_reject _ _)
    · exact .inl (rejected_reject _ _)
    · exact .inl (rejected_reject _ _)
    cases returned : returnOffer _ _ with
    | none => exact .inl (rejected_reject _ _)
    | some after =>
      right
      have kept := returnOffer_keeps returned
      simp only [structuralContradicts,Bool.or_eq_true,bne_iff_ne,decide_eq_true_eq,not_or,not_not,not_lt]
        at contradicts
      obtain ⟨⟨⟨⟨_,acked⟩,within⟩,left⟩,_⟩ := contradicts
      have retired : (conclude after { out with retiredToken := token, retiredBytes := bytes } s created now).2.retiredBytes
          = bytes := rfl
      constructor
      · exact kept.invalid.trans sound
      · exact valid
      · exact kept.accepted
      · rfl
      · exact kept.structuralRetired
      · exact kept.structuralRetired.trans acked
      · exact le_of_eq_of_le kept.structuralRetired within
      · exact (congrArg (created.structural - ·) kept.structuralRetired).trans left
      · exact withinDebt
      · exact withinRetired
      · exact not_lt.mp excess
      · exact kept.estimate

structure InOrder (l : PooledReliableServiceFeedback) (created : ReliableServiceAcceptedBytes)
    (s p : ReliableServiceFeedback) (now : Nat) : Prop where
  sample : sampleContradicts s created now = false
  order : regresses s p = false
  grant : grantContradicts l s p = false

theorem InOrder.acked {now : Nat} (inOrder : InOrder l created s p now) :
    s.structuralPayloadBytesAcked ≤ s.reliablePayloadBytesAcked ∧
      p.reliablePayloadBytesAcked ≤ s.reliablePayloadBytesAcked := by
  have sample := inOrder.sample
  have order := inOrder.order
  simp only [sampleContradicts,regresses,Bool.or_eq_false_iff,decide_eq_false_iff_not,not_lt] at sample order
  omega

theorem reconcile_cases (l : PooledReliableServiceFeedback) (out : Result) (id : ConnectionId)
    (created : ReliableServiceAcceptedBytes) (s : ReliableServiceFeedback) (now debtToken debt : Nat)
    (sound : l.invalid = false) (valid : out.valid) :
    Rejected (reconcile l out id created s now debtToken debt) ∨
      InOrder l created s (l.previous.getD { connection := id }) now ∧
        Retires l created s (l.previous.getD { connection := id }) debt
          (reconcile l out id created s now debtToken debt) := by
  unfold reconcile
  simp only
  split_ifs with refused
  · exact .inl (rejected_reject _ _)
  simp only [Bool.or_eq_true,not_or,Bool.not_eq_true] at refused
  obtain ⟨⟨sample,order⟩,grant⟩ := refused
  cases checked : checkOffer l out s created with
  | none => exact .inl (rejected_reject _ _)
  | some pair =>
    obtain ⟨l',out'⟩ := pair
    obtain ⟨kept,validKept⟩ := checkOffer_keeps checked
    rcases retire_cases created s (l.previous.getD { connection := id }) now debtToken debt
      (kept.invalid.trans sound) (validKept.trans valid) with rejected | retires
    · exact .inl rejected
    right
    refine ⟨⟨sample,order,grant⟩,?_⟩
    have estimate := retires.estimate
    have enough := retires.enough
    have structuralRetired := retires.structuralRetired
    rw [kept.estimate] at estimate enough
    rw [kept.structuralRetired] at structuralRetired
    exact { retires with
      accepted := retires.accepted.trans kept.accepted
      structuralRetired := structuralRetired, estimate := estimate, enough := enough }

/-- The totals of a call continue the ones the ledger holds. -/
structure Books (l : PooledReliableServiceFeedback) (created : ReliableServiceAcceptedBytes) : Prop where
  allLe : l.accepted.all ≤ created.all
  structuralLe : l.accepted.structural ≤ created.structural
  gameplayLe : l.accepted.gameplay ≤ created.gameplay
  classesLe : created.structural + created.gameplay ≤ created.all
  ordinaryLe : l.accepted.ordinary ≤ created.ordinary
  gameplayAdded : created.gameplay - l.accepted.gameplay ≤ created.ordinary - l.accepted.ordinary

def booked (l : PooledReliableServiceFeedback) (created : ReliableServiceAcceptedBytes) : Estimate :=
  l.estimate.grow (created.ordinary - l.accepted.ordinary) (created.gameplay - l.accepted.gameplay)

structure Purged (l : PooledReliableServiceFeedback) (c : Call) (r : PooledReliableServiceFeedback × Result) : Prop where
  purges : l.purges c = true
  ledger : r.1 = l
  retiredToken : r.2.retiredToken = 0
  retiredBytes : r.2.retiredBytes = 0

structure Unsampled (l : PooledReliableServiceFeedback) (c : Call) (r : PooledReliableServiceFeedback × Result) :
    Prop where
  sample : c.sample = none
  sound : l.invalid = false
  books : Books l c.created
  invalid : r.1.invalid = false
  accepted : r.1.accepted = c.created
  previous : r.1.previous = l.previous
  structuralRetired : r.1.structuralRetired = l.structuralRetired
  estimate : r.1.estimate = booked l c.created
  retiredToken : r.2.retiredToken = 0
  retiredBytes : r.2.retiredBytes = 0

structure Reconciled (l : PooledReliableServiceFeedback) (c : Call) (s : ReliableServiceFeedback)
    (r : PooledReliableServiceFeedback × Result) : Prop where
  sample : c.sample = some s
  connection : s.connection = c.id
  sound : l.invalid = false
  books : Books l c.created
  inOrder : InOrder l c.created s (l.previous.getD { connection := c.id }) c.now
  retires : ∃ l', l'.accepted = c.created ∧ l'.structuralRetired = l.structuralRetired ∧
    l'.estimate = booked l c.created ∧
      Retires l' c.created s (l.previous.getD { connection := c.id }) c.debt r

theorem observe_cases (l : PooledReliableServiceFeedback) (c : Call) :
    Rejected (observe l c) ∨ Purged l c (observe l c) ∨ Unsampled l c (observe l c) ∨
      ∃ s, Reconciled l c s (observe l c) := by
  unfold observe
  simp only
  split_ifs with otherConnection purges refused fewer sent overflow
  · exact .inl (rejected_reject _ _)
  · exact .inr (.inl ⟨purges,rfl,rfl,rfl⟩)
  · exact .inl (rejected_reject _ _)
  · exact .inl (rejected_reject _ _)
  · exact .inl (rejected_reject _ _)
  · exact .inl (rejected_reject _ _)
  simp only [Bool.or_eq_true,not_or,Bool.not_eq_true] at refused
  obtain ⟨sound,totals⟩ := refused
  simp only [createdContradicts,Bool.or_eq_false_iff,decide_eq_false_iff_not,not_lt] at totals
  obtain ⟨⟨⟨⟨allLe,structuralLe⟩,gameplayLe⟩,structuralAll⟩,classes⟩ := totals
  simp only [Bool.or_eq_true,decide_eq_true_eq,not_or,not_lt] at overflow
  have books : Books l c.created :=
    ⟨allLe,structuralLe,gameplayLe,by omega,not_lt.mp fewer,overflow.1⟩
  cases sampled : c.sample with
  | none => exact .inr (.inr (.inl ⟨sampled,sound,books,sound,rfl,rfl,rfl,rfl,rfl,rfl⟩))
  | some s =>
    have connection : s.connection = c.id := by
      rwa [sampled,any_some,bne_iff_ne,not_not] at otherConnection
    have step := reconcile_cases (l.book c.created)
      { valid := true, ordinaryUnsent := c.created.ordinary - l.knownOrdinaryFirstSent, history := l.history }
      c.id c.created s c.now c.debtToken c.debt sound rfl
    rcases step with rejected | ⟨inOrder,retires⟩
    · exact .inl rejected
    have grant : grantContradicts l s (l.previous.getD { connection := c.id }) = false := by
      exact inOrder.grant
    exact .inr (.inr (.inr ⟨s,sampled,connection,sound,books,⟨inOrder.sample,inOrder.order,grant⟩,
      l.book c.created,rfl,rfl,rfl,retires⟩))

def nativeStructuralAcked (l : PooledReliableServiceFeedback) : Nat :=
  (l.previous.map ReliableServiceFeedback.structuralPayloadBytesAcked).getD 0

/-- The acknowledged ordinary bytes of the last sample in order. -/
def retiredOrdinary (l : PooledReliableServiceFeedback) : Nat :=
  (l.previous.map ReliableServiceFeedback.ordinaryAcked).getD 0

structure Balanced (l : PooledReliableServiceFeedback) : Prop where
  structuralRetired : l.structuralRetired = l.nativeStructuralAcked
  ordinaryDebt : l.ordinaryDebt + l.retiredOrdinary = l.accepted.ordinary
  previousAcked : ∀ p ∈ l.previous, p.structuralPayloadBytesAcked ≤ p.reliablePayloadBytesAcked
  ordered : l.estimate.Ordered

/-- A ledger before its first call. -/
structure Fresh (l : PooledReliableServiceFeedback) : Prop where
  accepted : l.accepted = {}
  previous : l.previous = none
  structuralRetired : l.structuralRetired = 0
  estimate : l.estimate = {}

theorem Fresh.balanced (fresh : Fresh l) : Balanced l := by
  have none : l.ordinaryDebt = 0 := congrArg total fresh.estimate
  refine ⟨?_,?_,?_,?_⟩
  · rw [fresh.structuralRetired,nativeStructuralAcked,fresh.previous]
    rfl
  · rw [none,retiredOrdinary,fresh.previous,fresh.accepted]
    rfl
  · intro p member
    rw [fresh.previous] at member
    cases member
  · rw [fresh.estimate]
    exact ⟨le_rfl,le_rfl⟩

/-- The ordinary bytes that one call took off the debt. -/
def retiredBy (l : PooledReliableServiceFeedback) (c : Call) : Nat :=
  (observe l c).1.retiredOrdinary - l.retiredOrdinary

theorem acked_before (id : ConnectionId) :
    (l.previous.getD { connection := id }).structuralPayloadBytesAcked = l.nativeStructuralAcked ∧
      (l.previous.getD { connection := id }).ordinaryAcked = l.retiredOrdinary := by
  unfold nativeStructuralAcked retiredOrdinary
  cases l.previous with
  | none => exact ⟨rfl,rfl⟩
  | some p => exact ⟨rfl,rfl⟩

section
variable (reconciled : Reconciled l c s r)
include reconciled

theorem Reconciled.ordinary (balanced : Balanced l) :
    r.1.retiredOrdinary = s.ordinaryAcked ∧ l.retiredOrdinary ≤ s.ordinaryAcked ∧
      r.1.estimate = (booked l c.created).shrink (s.ordinaryAcked - l.retiredOrdinary) ∧
        s.ordinaryAcked - l.retiredOrdinary ≤ (booked l c.created).total := by
  obtain ⟨middle,accepted,sameRetired,sameEstimate,retires⟩ := reconciled.retires
  obtain ⟨structuralBefore,ordinaryBefore⟩ := acked_before c.id
  have previousAcked : (l.previous.getD { connection := c.id }).structuralPayloadBytesAcked ≤
      (l.previous.getD { connection := c.id }).reliablePayloadBytesAcked := by
    cases before : l.previous with
    | none => exact le_rfl
    | some p => exact balanced.previousAcked p before
  have structural := retires.acked
  have retired := retires.structuralRetired
  have withinRetired := retires.withinRetired
  rw [sameRetired,balanced.structuralRetired] at retired
  obtain ⟨sampleAcked,notLess⟩ := reconciled.inOrder.acked
  have same : s.reliablePayloadBytesAcked -
      (l.previous.getD { connection := c.id }).reliablePayloadBytesAcked - r.2.retiredBytes =
        s.ordinaryAcked - l.retiredOrdinary := by
    rw [← ordinaryBefore]
    simp only [ordinaryAcked]
    omega
  have estimate := retires.estimate
  have enough := retires.enough
  rw [same,sameEstimate] at estimate enough
  refine ⟨?_,?_,estimate,enough⟩
  · rw [retiredOrdinary,retires.previous]
    rfl
  · rw [← ordinaryBefore]
    simp only [ordinaryAcked]
    omega

theorem Reconciled.debt :
    r.1.invalid = false ∧ r.1.accepted = c.created ∧ r.1.structuralRetired = s.structuralPayloadBytesAcked ∧
      c.created.structural = r.1.structuralRetired + (c.debt - r.2.retiredBytes) := by
  obtain ⟨middle,accepted,_,_,retires⟩ := reconciled.retires
  have within := retires.withinAccepted
  have left := retires.debtLeft
  exact ⟨retires.invalid,retires.accepted.trans accepted,retires.acked,by omega⟩

theorem Reconciled.balanced (balanced : Balanced l) : Balanced r.1 := by
  obtain ⟨middle,accepted,_,_,retires⟩ := reconciled.retires
  obtain ⟨after,onward,estimate,enough⟩ := reconciled.ordinary balanced
  have bookedOrdered := balanced.ordered.grow reconciled.books.gameplayAdded
  have booking : (booked l c.created).total + l.retiredOrdinary = c.created.ordinary := by
    have before := balanced.ordinaryDebt
    have ordinaryLe := reconciled.books.ordinaryLe
    simp only [booked,grow,PooledReliableServiceFeedback.estimate]
    omega
  have debt : r.1.ordinaryDebt = (booked l c.created).total - (s.ordinaryAcked - l.retiredOrdinary) :=
    congrArg total estimate
  refine ⟨?_,?_,?_,?_⟩
  · rw [retires.acked,nativeStructuralAcked,retires.previous]
    rfl
  · rw [retires.accepted,accepted]
    omega
  · intro p member
    rw [retires.previous] at member
    cases member
    exact reconciled.inOrder.acked.1
  · rw [estimate]
    exact bookedOrdered.shrink enough

end

theorem Unsampled.balanced (unsampled : Unsampled l c r) (balanced : Balanced l) : Balanced r.1 := by
  have debt : r.1.ordinaryDebt = l.ordinaryDebt + (c.created.ordinary - l.accepted.ordinary) :=
    congrArg total unsampled.estimate
  have before := balanced.ordinaryDebt
  have ordinaryLe := unsampled.books.ordinaryLe
  refine ⟨?_,?_,?_,?_⟩
  · rw [unsampled.structuralRetired,balanced.structuralRetired,nativeStructuralAcked,nativeStructuralAcked,
      unsampled.previous]
  · rw [retiredOrdinary,unsampled.previous,unsampled.accepted]
    rw [retiredOrdinary] at before
    omega
  · rw [unsampled.previous]
    exact balanced.previousAcked
  · rw [unsampled.estimate]
    exact balanced.ordered.grow unsampled.books.gameplayAdded

structure World where
  ledger : PooledReliableServiceFeedback
  gameplay : Nat := 0
  control : Nat := 0
deriving DecidableEq

/-- What the other methods of the ledger and the session may change. -/
def elsewhere (l rest : PooledReliableServiceFeedback) : PooledReliableServiceFeedback :=
  { rest with accepted := l.accepted, previous := l.previous, structuralRetired := l.structuralRetired
              ordinaryDebt := l.ordinaryDebt, gameplayLower := l.gameplayLower, gameplayUpper := l.gameplayUpper
              invalid := l.invalid || rest.invalid }

/-- An observation comes with the split of the ordinary bytes it retires over the two classes. -/
inductive Event where
  | observe (c : Call) (fromGameplay fromControl : Nat)
  | elsewhere (rest : PooledReliableServiceFeedback)

/-- No class retires more than it has outstanding. -/
def step (w : World) : Event → Option World
  | .observe c fromGameplay fromControl =>
    let l := (observe w.ledger c).1
    let gameplayAdded := l.accepted.gameplay - w.ledger.accepted.gameplay
    let ordinaryAdded := l.accepted.ordinary - w.ledger.accepted.ordinary
    let gameplay := w.gameplay + gameplayAdded
    let control := w.control + (ordinaryAdded - gameplayAdded)
    if fromGameplay + fromControl = retiredBy w.ledger c ∧ fromGameplay ≤ gameplay ∧ fromControl ≤ control then
      some ⟨l,gameplay - fromGameplay,control - fromControl⟩
    else none
  | .elsewhere rest => some { w with ledger := elsewhere w.ledger rest }

structure Sound (w : World) : Prop where
  balanced : Balanced w.ledger
  covers : w.ledger.estimate.Covers w.gameplay w.control

theorem observe_latched (c : Call) (invalid : l.invalid) :
    (observe l c).1.invalid ∧ (observe l c).2.retiredToken = 0 ∧ (observe l c).2.retiredBytes = 0 := by
  rcases observe_cases l c with rejected | purged | unsampled | ⟨s,reconciled⟩
  · exact ⟨rejected.invalid,rejected.retiredToken,rejected.retiredBytes⟩
  · exact ⟨by rw [purged.ledger]; exact invalid,purged.retiredToken,purged.retiredBytes⟩
  · rw [unsampled.sound] at invalid
    cases invalid
  · rw [reconciled.sound] at invalid
    cases invalid

theorem sound_observe {w' : World} {fromGameplay fromControl : Nat} (sound : Sound w)
    (stepped : step w (.observe c fromGameplay fromControl) = some w') (valid : w'.ledger.invalid = false) :
    Sound w' := by
  simp only [step] at stepped
  split_ifs at stepped with split
  cases stepped
  obtain ⟨whole,gameplayHas,controlHas⟩ := split
  rcases observe_cases w.ledger c with rejected | purged | unsampled | ⟨s,reconciled⟩
  · rw [rejected.invalid] at valid
    cases valid
  · have nothing : fromGameplay + fromControl = 0 := by
      rw [whole,retiredBy,purged.ledger,Nat.sub_self]
    have gameplayZero : fromGameplay = 0 := by omega
    have controlZero : fromControl = 0 := by omega
    simp only [purged.ledger,Nat.sub_self,Nat.add_zero,gameplayZero,controlZero,Nat.sub_zero]
    exact sound
  · have nothing : fromGameplay + fromControl = 0 := by
      rw [whole,retiredBy,retiredOrdinary,unsampled.previous,retiredOrdinary,Nat.sub_self]
    have gameplayZero : fromGameplay = 0 := by omega
    have controlZero : fromControl = 0 := by omega
    refine ⟨unsampled.balanced sound.balanced,?_⟩
    simp only [gameplayZero,controlZero,Nat.sub_zero]
    rw [unsampled.estimate,unsampled.accepted]
    exact sound.covers.grow unsampled.books.gameplayAdded
  · obtain ⟨after,onward,estimate,_⟩ := reconciled.ordinary sound.balanced
    refine ⟨reconciled.balanced sound.balanced,?_⟩
    rw [retiredBy,after] at whole
    rw [reconciled.debt.2.1] at gameplayHas controlHas
    rw [estimate,reconciled.debt.2.1,← whole]
    exact (sound.covers.grow reconciled.books.gameplayAdded).shrink gameplayHas controlHas

theorem sound_elsewhere (sound : Sound w) (rest : PooledReliableServiceFeedback) :
    Sound { w with ledger := elsewhere w.ledger rest } :=
  ⟨{ sound.balanced with },sound.covers⟩

def SoundWhileValid (w : World) : Prop := w.ledger.invalid = false → Sound w

theorem soundWhileValid_step {w' : World} {e : Event} (sound : SoundWhileValid w) (stepped : step w e = some w') :
    SoundWhileValid w' := by
  intro valid
  cases e with
  | observe c fromGameplay fromControl =>
    cases before : w.ledger.invalid with
    | false => exact sound_observe (sound before) stepped valid
    | true =>
      simp only [step] at stepped
      split_ifs at stepped
      cases stepped
      rw [(observe_latched c before).1] at valid
      cases valid
  | elsewhere rest =>
    cases stepped
    have both : (w.ledger.invalid || rest.invalid) = false := valid
    exact sound_elsewhere (sound (Bool.or_eq_false_iff.mp both).1) rest

theorem soundWhileValid_run (fresh : Fresh l) {events : List Event} (ran : run step ⟨l,0,0⟩ events = some w) :
    SoundWhileValid w := by
  refine run_preserves (fun _ _ _ sound stepped => soundWhileValid_step sound stepped) ?_ ran
  intro _
  refine ⟨fresh.balanced,?_⟩
  rw [fresh.estimate]
  exact ⟨rfl,le_rfl,le_rfl⟩

theorem le_fundedOrdinary {e : Estimate} {share rest funded : Nat} (covers : e.Covers share rest)
    (found : fundedOrdinary e.total e.lower e.upper = some funded) :
    max share gameplayBurst + max rest controlBurst ≤
      funded := by
  have bound := covers.max_add_max_le gameplayBurst
    controlBurst
  unfold fundedOrdinary at found
  split at found
  · cases found
  simp only at found
  split at found
  · rename_i first last atLower atUpper
    split at atLower
    · cases atLower
    split at atUpper
    · cases atUpper
    cases atLower
    cases atUpper
    cases found
    exact bound
  · cases found

/-- What a sample never takes back. -/
def counters (s : ReliableServiceFeedback) : List Nat :=
  [s.observedAt,s.uniqueReliableStreamBytesFirstSent,s.uniqueReliableStreamBytesAcked,
    s.structuralPayloadBytesFirstSent,s.structuralPayloadBytesAcked,s.ordinaryPayloadBytesFirstSent,
    s.structuralQualifiedActive,s.structuralMaximumDeficit,s.structuralMaximumFiniteShortfall,
    s.structuralCompletedGrantSequence,s.reliablePayloadBytesAcked,s.reliableStreamBytesRetransmitted,
    s.attributedRetirementSequence]

structure Agrees (l : PooledReliableServiceFeedback) (c : Call) (s : ReliableServiceFeedback) : Prop where
  connection : s.connection = c.id
  trusted : s.countersValid = true
  totals : Books l c.created
  structuralSent : s.structuralPayloadBytesAcked ≤ s.structuralPayloadBytesFirstSent ∧
    s.structuralPayloadBytesFirstSent ≤ c.created.structural
  ordinarySent : s.ordinaryAcked ≤ s.ordinaryPayloadBytesFirstSent ∧
    s.ordinaryPayloadBytesFirstSent ≤ c.created.ordinary
  onward : ∀ p ∈ l.previous, List.Forall₂ (· ≤ ·) (counters p) (counters s)
  oneRetirement : ∀ p ∈ l.previous, s.attributedRetirementSequence ≤ p.attributedRetirementSequence + 1
  oneGrant : ∀ p ∈ l.previous, s.structuralCompletedGrantSequence ≤ p.structuralCompletedGrantSequence + 1
  retirement : ∃ bytes ≤ c.debt, s.structuralPayloadBytesAcked = l.structuralRetired + bytes ∧
    c.created.structural = s.structuralPayloadBytesAcked + (c.debt - bytes)

theorem onward_of_not_regresses (order : regresses s p = false) : List.Forall₂ (· ≤ ·) (counters p) (counters s) ∧
      s.attributedRetirementSequence ≤ p.attributedRetirementSequence + 1 ∧
        s.structuralCompletedGrantSequence ≤ p.structuralCompletedGrantSequence + 1 := by
  simp only [regresses,Bool.or_eq_false_iff,decide_eq_false_iff_not,not_lt] at order
  refine ⟨?_,by omega,by omega⟩
  simp only [counters,List.forall₂_cons,List.Forall₂.nil,and_true]
  omega

theorem Reconciled.agrees (reconciled : Reconciled l c s r) : Agrees l c s := by
  obtain ⟨middle,_,sameRetired,_,retires⟩ := reconciled.retires
  have sample := reconciled.inOrder.sample
  simp only [sampleContradicts,Bool.or_eq_false_iff,decide_eq_false_iff_not,not_lt,Bool.not_eq_false'] at sample
  have onward : ∀ p ∈ l.previous, regresses s p = false := by
    intro p before
    have order := reconciled.inOrder.order
    rwa [before] at order
  have left := reconciled.debt.2.2.2
  have retired := retires.structuralRetired
  rw [retires.acked] at left retired
  exact {
    connection := reconciled.connection
    trusted := by tauto
    totals := reconciled.books
    structuralSent := by omega
    ordinarySent := by omega
    onward := fun p before => (onward_of_not_regresses (onward p before)).1
    oneRetirement := fun p before => (onward_of_not_regresses (onward p before)).2.1
    oneGrant := fun p before => (onward_of_not_regresses (onward p before)).2.2
    retirement := ⟨r.2.retiredBytes,retires.withinDebt,by rw [retired,sameRetired],left⟩ }

structure LedgerHolds (w : World) : Prop where
  ordinaryDebt : w.ledger.ordinaryDebt = w.ledger.accepted.ordinary - w.ledger.retiredOrdinary ∧
    w.ledger.retiredOrdinary ≤ w.ledger.accepted.ordinary
  structuralRetired : w.ledger.structuralRetired = w.ledger.nativeStructuralAcked
  ordered : w.ledger.gameplayLower ≤ w.ledger.gameplayUpper ∧ w.ledger.gameplayUpper ≤ w.ledger.ordinaryDebt
  split : w.gameplay + w.control = w.ledger.ordinaryDebt
  share : w.ledger.gameplayLower ≤ w.gameplay ∧ w.gameplay ≤ w.ledger.gameplayUpper
  funded : ∀ funded, fundedOrdinary w.ledger.ordinaryDebt w.ledger.gameplayLower w.ledger.gameplayUpper = some funded →
    max w.gameplay PooledReliableServiceProfile.gameplayBurst +
      max w.control PooledReliableServiceProfile.controlBurst ≤ funded

/-- What the next call does, whatever it brings. -/
structure CallHolds (l : PooledReliableServiceFeedback) (c : Call) : Prop where
  debt : c.sample.isSome = true → l.purges c = false → (observe l c).2.valid = true →
    (observe l c).1.accepted = c.created ∧ (observe l c).1.accepted.structural =
      (observe l c).1.structuralRetired + (c.debt - (observe l c).2.retiredBytes)
  contradiction : ∀ s ∈ c.sample, l.purges c = false → ¬ Agrees l c s →
    (observe l c).1.invalid = true ∧ (observe l c).2.retiredToken = 0 ∧ (observe l c).2.retiredBytes = 0
  latched : l.invalid = true →
    (observe l c).1.invalid = true ∧ (observe l c).2.retiredToken = 0 ∧ (observe l c).2.retiredBytes = 0
  purge : l.purges c = true → (observe l c).2.retiredToken = 0 ∧ (observe l c).2.retiredBytes = 0

theorem callHolds (l : PooledReliableServiceFeedback) (c : Call) : CallHolds l c := by
  refine ⟨?_,?_,observe_latched c,?_⟩
  · intro sampled notPurged valid
    rcases observe_cases l c with rejected | purged | unsampled | ⟨s,reconciled⟩
    · rw [rejected.valid] at valid
      cases valid
    · rw [purged.purges] at notPurged
      cases notPurged
    · rw [unsampled.sample] at sampled
      cases sampled
    · obtain ⟨_,accepted,_,left⟩ := reconciled.debt
      exact ⟨accepted,by rw [accepted]; exact left⟩
  · intro s sampled notPurged disagrees
    rcases observe_cases l c with rejected | purged | unsampled | ⟨other,reconciled⟩
    · exact ⟨rejected.invalid,rejected.retiredToken,rejected.retiredBytes⟩
    · rw [purged.purges] at notPurged
      cases notPurged
    · rw [unsampled.sample] at sampled
      cases sampled
    · have same : other = s := some.inj (reconciled.sample.symm.trans sampled)
      rw [same] at reconciled
      exact absurd reconciled.agrees disagrees
  · intro purges
    rcases observe_cases l c with rejected | purged | unsampled | ⟨s,reconciled⟩
    · exact ⟨rejected.retiredToken,rejected.retiredBytes⟩
    · exact ⟨purged.retiredToken,purged.retiredBytes⟩
    · exact ⟨unsampled.retiredToken,unsampled.retiredBytes⟩
    · -- a reconciled sample has valid counters and meets a valid ledger, so that it purges nothing
      simp only [PooledReliableServiceFeedback.purges,reconciled.sample,any_some,reconciled.sound,
        reconciled.agrees.trusted,Bool.not_true,Bool.or_self,Bool.and_false,Bool.false_eq_true] at purges

def firstSample : ReliableServiceFeedback where
  connection := ⟨1,1⟩
  observedAt := 1000
  uniqueReliableStreamBytesFirstSent := 170
  uniqueReliableStreamBytesAcked := 67
  structuralPayloadBytesFirstSent := 100
  ordinaryPayloadBytesFirstSent := 64
  reliablePayloadBytesAcked := 64
  state := .connected

def firstCall : Call := ⟨⟨1,1⟩,⟨184,100,64⟩,some firstSample,1000,7,100⟩

/-- 100 structural bytes are accepted while the caller names no debt, and no sample has come. -/
def unsampledCall : Call := ⟨⟨1,1⟩,⟨100,100,0⟩,none,1000,0,0⟩

def closedSample : ReliableServiceFeedback where
  connection := ⟨1,1⟩
  state := .closed
  countersValid := false

def closedCall : Call := { firstCall with sample := some closedSample }

end Gargantuan.PooledReliableServiceFeedback
