import Mathlib.Data.List.Range
import Gargantuan.ReplicaCandidate

/-!
A replica over a whole session of frames in any order. What it holds afterwards is what
the frames that were applied make of the empty snapshot, one after the other, whatever was
delivered between them.
-/
namespace Gargantuan.ReplicaApplier
open List Option MonotonicSequence

section
variable {Content Receiver : Type} (env : Environment Content Receiver)

/-- The part of an applier that the server knows too. -/
structure Semantic (Content : Type) where
  state : Snapshot Content := {}
  epoch : ReplicationEpoch := {}
  nextSequence : ReliableReplicationSequence := {}

def State.semantic (s : State Content Receiver) : Semantic Content := ⟨s.semanticState,s.epoch,s.nextSequence⟩

def snapshotAfter (fuel : Nat) (state : Snapshot Content) (frame : ReplicationFrame Content) :
    Option (Snapshot Content) :=
  if frame.kind = .baseline then
    (baselineObjects frame.operations).bind fun objects =>
      (objects.find? fun object => object.parent.isNone).map fun root => { scope := root.id, objects }
  else
    match validate env fuel (candidateOf state.objects) frame.operations with
    | some (.ok c) => some { state with objects := c.objects.filter fun object => !c.removed.contains object.id }
    | _ => none

/-- The effect of one frame, without receiver and preflight. -/
def Semantic.apply (fuel : Nat) (s : Semantic Content) (frame : ReplicationFrame Content) : Semantic Content :=
  ⟨(snapshotAfter env fuel s.state frame).getD s.state,frame.epoch,frame.sequence.tryNext.getD s.nextSequence⟩

/-- A frame for `ApplyFrame`, or what the decoder makes of bytes; a frame with a publish that is
    still encoded goes through the decoder too. -/
inductive Delivery (Content : Type) where
  | frame (frame : ReplicationFrame Content)
  | bytes (decoded : Except String (ReplicationFrame Content))

/-- A worklist that goes on after so many visits runs out of memory, which is refused as any
    other exception. -/
def applyWithin (fuel : Nat) (s : State Content Receiver) (frame : ReplicationFrame Content) :
    ReplicaApplyResult × State Content Receiver :=
  (applyFrame env fuel s frame).getD (rejected s "std::bad_alloc")

/-- An applier and the frames it has applied, the first one first. -/
structure Session (Content Receiver : Type) where
  applier : State Content Receiver
  log : List (ReplicationFrame Content) := []

def Session.applyFrame (fuel : Nat) (s : Session Content Receiver) (frame : ReplicationFrame Content) :
    ReplicaApplyResult × Session Content Receiver :=
  let (result,applier) := applyWithin env fuel s.applier frame
  (result,⟨applier,if result.status = .applied then s.log ++ [frame] else s.log⟩)

def Session.deliver (fuel : Nat) (s : Session Content Receiver) :
    Delivery Content → ReplicaApplyResult × Session Content Receiver
  | .frame frame => s.applyFrame env fuel frame
  | .bytes (.ok frame) => s.applyFrame env fuel frame
  | .bytes (.error message) => (⟨.malformedFrame,0,message⟩,s)

variable {env} {frame : ReplicationFrame Content} {fuel : Nat} {s : Session Content Receiver}

theorem refusal_status {s : State Content Receiver} {result : ReplicaApplyResult}
    (refused : refusal env s frame = some result) : result.status ≠ .applied := by
  unfold refusal at refused
  split_ifs at refused <;> cases refused <;> decide

/-- What the checks before the operations leave. -/
structure Admitted (s : State Content Receiver) (frame : ReplicationFrame Content) : Prop where
  baseline : frame.kind = .baseline →
    frame.sequence.toNat = 1 ∧ frame.epoch.isValid = true ∧ (s.epoch.isValid = true → s.epoch < frame.epoch)
  incremental : frame.kind = .incremental →
    s.epoch.isValid = true ∧ frame.epoch = s.epoch ∧ frame.sequence = s.nextSequence
  next : ∃ following, frame.sequence.tryNext = some following

theorem admitted_of_refusal {s : State Content Receiver} (passed : refusal env s frame = none) : Admitted s frame := by
  unfold refusal at passed
  split_ifs at passed with invalid baseline first stale schema last unknown old early last
  · have valid : frame.isValid env := by simpa using invalid
    have epoch : frame.epoch.isValid := by
      simp only [ReplicationFrame.isValid,Bool.and_eq_true] at valid
      exact valid.1.1.1.1.1.1.1.2
    refine ⟨fun _ => ⟨?_,epoch,fun known => ?_⟩,fun kind => ?_,ne_none_iff_exists'.mp last⟩
    · rw [MonotonicSequence.toNat,not_not.mp first]
      rfl
    · have newer : frame.epoch.isNewerThan s.epoch := by
        by_contra old
        exact stale ⟨known,by simpa using old⟩
      exact (isNewerThan_iff.mp newer).2
    · rw [baseline] at kind
      cases kind
  · rw [not_or,not_not] at unknown
    exact ⟨fun kind => absurd kind baseline,
      fun _ => ⟨by simpa using unknown.1,unknown.2,not_not.mp early⟩,ne_none_iff_exists'.mp last⟩

theorem semantic_applied {s : State Content Receiver} {snapshot : Snapshot Content}
    (after : snapshotAfter env fuel s.semanticState frame = some snapshot) (receiver : Receiver) :
    (applied s frame snapshot receiver).2.semantic = s.semantic.apply env fuel frame := by
  have effect : s.semantic.apply env fuel frame =
      ⟨(snapshotAfter env fuel s.semanticState frame).getD s.semanticState,frame.epoch,
        frame.sequence.tryNext.getD s.nextSequence⟩ := rfl
  rw [effect,after]
  rfl

theorem applyWithin_cases (fuel : Nat) (s : State Content Receiver) (frame : ReplicationFrame Content) :
    ((applyWithin env fuel s frame).1.status ≠ .applied ∧ (applyWithin env fuel s frame).2.semantic = s.semantic) ∨
      ((applyWithin env fuel s frame).1.status = .applied ∧ Admitted s frame ∧
        (applyWithin env fuel s frame).2.semantic = s.semantic.apply env fuel frame) := by
  unfold applyWithin applyFrame
  split
  · rename_i result refused
    exact .inl ⟨refusal_status refused,rfl⟩
  rename_i passed
  have admitted := admitted_of_refusal passed
  split_ifs with kind
  · rw [applyBaseline]
    split
    · exact .inl ⟨by simp [rejected],rfl⟩
    rename_i objects published
    split
    · exact .inl ⟨by simp [rejected],rfl⟩
    rename_i root found
    split
    · exact .inl ⟨by simp [rejected],rfl⟩
    rename_i receiver loaded
    refine .inr ⟨rfl,admitted,?_⟩
    have after : snapshotAfter env fuel s.semanticState frame = some { scope := root.id, objects } := by
      rw [snapshotAfter,if_pos kind,published,bind_some,found,map_some]
    exact semantic_applied after receiver
  · cases validated : validate env fuel (candidateOf s.semanticState.objects) frame.operations with
    | none => exact .inl ⟨by simp [rejected],rfl⟩
    | some outcome =>
      rw [map_some]
      cases outcome with
      | error message => exact .inl ⟨by simp [rejected],rfl⟩
      | ok c =>
        have after : snapshotAfter env fuel s.semanticState frame =
            some { s.semanticState with objects := c.objects.filter fun object => !c.removed.contains object.id } := by
          rw [snapshotAfter,if_neg kind,validated]
        simp only [commitCandidate]
        split
        · exact .inl ⟨by simp [rejected],rfl⟩
        split
        · exact .inr ⟨rfl,admitted,semantic_applied after _⟩
        · split
          · exact .inl ⟨by simp [rejected],rfl⟩
          · exact .inl ⟨by simp [rejected],rfl⟩

/-- The applied frames of an epoch, in their order. -/
def Session.ofEpoch (s : Session Content Receiver) (epoch : ReplicationEpoch) : List (ReplicationFrame Content) :=
  s.log.filter fun frame => frame.epoch = epoch

variable (env)

structure Session.Sound (fuel : Nat) (s : Session Content Receiver) : Prop where
  semantic : s.applier.semantic = s.log.foldl (Semantic.apply env fuel) {}
  start : s.applier.epoch.isValid = false → s.log = []
  bounded : ∀ frame ∈ s.log, frame.epoch ≤ s.applier.epoch
  next : s.applier.epoch.isValid = true →
    s.applier.nextSequence.toNat = (s.ofEpoch s.applier.epoch).length + 1
  numbers : ∀ epoch, (s.ofEpoch epoch).map (fun frame => frame.sequence.toNat) = List.range' 1 (s.ofEpoch epoch).length
  epochs : s.log.Pairwise fun f g => f.epoch ≤ g.epoch ∧ (g.kind = .baseline → f.epoch < g.epoch)

variable {env}

theorem Session.Sound.ofEpoch_new (sound : s.Sound env fuel) {epoch : ReplicationEpoch}
    (newer : s.applier.epoch.isValid → s.applier.epoch < epoch) : s.ofEpoch epoch = [] := by
  cases known : s.applier.epoch.isValid with
  | false => rw [ofEpoch,sound.start known,filter_nil]
  | true =>
    refine filter_eq_nil_iff.mpr fun frame member same => ?_
    have older := lt_of_le_of_lt (sound.bounded frame member) (newer known)
    rw [of_decide_eq_true same] at older
    exact lt_irrefl _ older

theorem Session.ofEpoch_concat (s : Session Content Receiver) (applier : State Content Receiver)
    (frame : ReplicationFrame Content) (epoch : ReplicationEpoch) :
    (⟨applier,s.log ++ [frame]⟩ : Session Content Receiver).ofEpoch epoch =
      s.ofEpoch epoch ++ if frame.epoch = epoch then [frame] else [] := by
  rw [ofEpoch,filter_append]
  congr 1
  by_cases same : frame.epoch = epoch <;> simp [same]

theorem Session.Sound.sequence_eq (sound : s.Sound env fuel) (admitted : Admitted s.applier frame) :
    frame.sequence.toNat = (s.ofEpoch frame.epoch).length + 1 := by
  cases kind : frame.kind with
  | baseline =>
    obtain ⟨first,-,newer⟩ := admitted.baseline kind
    rw [first,sound.ofEpoch_new newer]
    rfl
  | incremental =>
    obtain ⟨known,same,number⟩ := admitted.incremental kind
    rw [number,sound.next known,same]

theorem Session.Sound.epoch_le (sound : s.Sound env fuel) (admitted : Admitted s.applier frame)
    {f : ReplicationFrame Content} (member : f ∈ s.log) :
    f.epoch ≤ frame.epoch ∧ (frame.kind = .baseline → f.epoch < frame.epoch) := by
  have known : s.applier.epoch.isValid := by
    by_contra unknown
    rw [sound.start (by simpa using unknown)] at member
    cases member
  cases kind : frame.kind with
  | baseline =>
    have newer := lt_of_le_of_lt (sound.bounded f member) ((admitted.baseline kind).2.2 known)
    exact ⟨newer.le,fun _ => newer⟩
  | incremental =>
    rw [(admitted.incremental kind).2.1]
    exact ⟨sound.bounded f member,fun other => nomatch other⟩

variable {applier : State Content Receiver}

section
variable (sound : s.Sound env fuel)
include sound

theorem Session.Sound.applied (admitted : Admitted s.applier frame)
    (effect : applier.semantic = s.applier.semantic.apply env fuel frame) :
    Session.Sound env fuel ⟨applier,s.log ++ [frame]⟩ := by
  have epoch : applier.epoch = frame.epoch := congrArg Semantic.epoch effect
  have valid : frame.epoch.isValid := by
    cases kind : frame.kind with
    | baseline => exact (admitted.baseline kind).2.1
    | incremental =>
      obtain ⟨known,same,-⟩ := admitted.incremental kind
      rwa [same]
  have number := sound.sequence_eq admitted
  refine ⟨?_,fun unknown => ?_,?_,fun _ => ?_,fun other => ?_,?_⟩
  · rw [effect,sound.semantic,foldl_append]
    rfl
  · rw [epoch,valid] at unknown
    cases unknown
  · intro f member
    simp only [epoch]
    rcases mem_append.mp member with old | new
    · exact (sound.epoch_le admitted old).1
    · rw [mem_singleton.mp new]
  · obtain ⟨following,stepped⟩ := admitted.next
    have next : applier.nextSequence = frame.sequence.tryNext.getD s.applier.nextSequence :=
      congrArg Semantic.nextSequence effect
    simp only [epoch,next,stepped,getD_some]
    rw [(tryNext_toNat stepped).2,ofEpoch_concat,if_pos rfl,length_append,number]
    rfl
  · rw [ofEpoch_concat]
    split_ifs with same
    · rw [← same,map_append,length_append,sound.numbers,map_singleton,length_singleton,number,
        range'_concat,Nat.one_mul,Nat.add_comm 1]
    · rw [append_nil]
      exact sound.numbers other
  · refine pairwise_append.mpr ⟨sound.epochs,pairwise_singleton _ _,fun f member g new => ?_⟩
    rw [mem_singleton.mp new]
    exact sound.epoch_le admitted member

theorem Session.Sound.left (same : applier.semantic = s.applier.semantic) :
    Session.Sound env fuel ⟨applier,s.log⟩ := by
  have epoch : applier.epoch = s.applier.epoch := congrArg Semantic.epoch same
  have next : applier.nextSequence = s.applier.nextSequence := congrArg Semantic.nextSequence same
  refine ⟨same.trans sound.semantic,?_,?_,?_,sound.numbers,sound.epochs⟩
  · simp only [epoch]
    exact sound.start
  · simp only [epoch]
    exact sound.bounded
  · simp only [epoch,next]
    exact sound.next

theorem Session.Sound.applyFrame (frame : ReplicationFrame Content) :
    (s.applyFrame env fuel frame).2.Sound env fuel := by
  rw [Session.applyFrame]
  simp only
  rcases applyWithin_cases fuel s.applier frame with ⟨refused,same⟩ | ⟨applied,admitted,effect⟩
  · rw [if_neg refused]
    exact sound.left same
  · rw [if_pos applied]
    exact sound.applied admitted effect

theorem Session.Sound.deliver (delivery : Delivery Content) : (s.deliver env fuel delivery).2.Sound env fuel :=
  match delivery with
  | .frame frame => sound.applyFrame frame
  | .bytes (.ok frame) => sound.applyFrame frame
  | .bytes (.error _) => sound

end

theorem Session.deliver_left (fuel : Nat) (s : Session Content Receiver) (delivery : Delivery Content)
    (refused : (s.deliver env fuel delivery).1.status ≠ .applied) :
    (s.deliver env fuel delivery).2.applier.semantic = s.applier.semantic ∧
      (s.deliver env fuel delivery).2.log = s.log := by
  have frame : ∀ frame, (s.applyFrame env fuel frame).1.status ≠ .applied →
      (s.applyFrame env fuel frame).2.applier.semantic = s.applier.semantic ∧
        (s.applyFrame env fuel frame).2.log = s.log := by
    intro frame refused
    rcases applyWithin_cases fuel s.applier frame with ⟨_,same⟩ | ⟨applied,-,-⟩
    · exact ⟨same,if_neg refused⟩
    · exact absurd applied refused
  match delivery with
  | .frame f => exact frame f refused
  | .bytes (.ok f) => exact frame f refused
  | .bytes (.error _) => exact ⟨rfl,rfl⟩

variable (env)

/-- The session of a new applier. -/
def session (fuel : Nat) (receiver : Receiver) (deliveries : List (Delivery Content)) : Session Content Receiver :=
  deliveries.foldl (fun s delivery => (s.deliver env fuel delivery).2) ⟨{ receiver },[]⟩

theorem Session.sound_new (fuel : Nat) (receiver : Receiver) :
    Session.Sound env fuel (⟨{ receiver },[]⟩ : Session Content Receiver) where
  semantic := rfl
  start _ := rfl
  bounded _ member := nomatch member
  next valid := Bool.noConfusion valid
  numbers _ := rfl
  epochs := .nil

theorem session_sound (fuel : Nat) (receiver : Receiver) (deliveries : List (Delivery Content)) :
    (session env fuel receiver deliveries).Sound env fuel := by
  suffices run : ∀ s : Session Content Receiver, s.Sound env fuel →
      (deliveries.foldl (fun s delivery => (s.deliver env fuel delivery).2) s).Sound env fuel from
    run _ (Session.sound_new env fuel receiver)
  induction deliveries with
  | nil => exact fun s sound => sound
  | cons delivery rest ih => exact fun s sound => ih _ (sound.deliver delivery)

/-- Whatever is delivered to a new applier: it holds what the applied frames alone make of
    nothing, in their order; the next delivery that is not applied changes neither the snapshot
    nor the numbers; the applied frames of an epoch are numbered from one without a gap, and
    each baseline among them begins a larger epoch. -/
theorem session_run (fuel : Nat) (receiver : Receiver) (deliveries : List (Delivery Content)) :
    let s := session env fuel receiver deliveries
    s.applier.semantic = s.log.foldl (.apply env fuel) {} ∧
      (∀ delivery, (s.deliver env fuel delivery).1.status ≠ .applied →
        (s.deliver env fuel delivery).2.applier.semantic = s.applier.semantic ∧
          (s.deliver env fuel delivery).2.log = s.log) ∧
      (∀ epoch, (s.ofEpoch epoch).map (·.sequence.toNat) = List.range' 1 (s.ofEpoch epoch).length) ∧
      s.log.Pairwise fun f g => f.epoch ≤ g.epoch ∧ (g.kind = .baseline → f.epoch < g.epoch) := by
  intro s
  have sound := session_sound env fuel receiver deliveries
  exact ⟨sound.semantic,s.deliver_left fuel,sound.numbers,sound.epochs⟩

end
end Gargantuan.ReplicaApplier
