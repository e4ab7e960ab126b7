import Gargantuan.MessageIntent

/-!
The messages about characters: transitions of control, the state of one
character, and frames with the states of several. How a character moves is left
open (`CharacterMotion`): of its transform, velocity and floor only the checks
of the protocol and the effect of the compact encoding are named.
-/
namespace Gargantuan
open Bool MonotonicSequence

inductive CharacterControlEpochDomain
inductive CharacterInputSequenceDomain
inductive CharacterActionSequenceDomain
inductive CharacterStateFrameSequenceDomain
inductive CharacterMaterializationEpochDomain

abbrev CharacterControlEpoch := MonotonicSequence CharacterControlEpochDomain
abbrev CharacterInputSequence := MonotonicSequence CharacterInputSequenceDomain
abbrev CharacterActionSequence := MonotonicSequence CharacterActionSequenceDomain
abbrev CharacterStateFrameSequence := MonotonicSequence CharacterStateFrameSequenceDomain
abbrev CharacterMaterializationEpoch := MonotonicSequence CharacterMaterializationEpochDomain

namespace CharacterNetwork

def maximumCharacterStatesPerFrame : Nat := 15
def maximumNetworkCharacters : Nat := 4096
def maximumCharacterNetworkPeers : Nat := 1024

/-- What the protocol asks of a transform, a velocity and a floor normal. -/
class CharacterMotion (μ : Type) where
  /-- All components are finite, and the floor normal is no longer than one. -/
  isFinite : μ → Bool
  /-- The components fit the fixed-point fields of a state frame. -/
  fitsCompact : μ → Bool
  /-- What the receiver decodes from these fields. -/
  compact : μ → μ

structure AssetId where
  high : UInt64 := 0
  low : UInt64 := 0
deriving DecidableEq

def AssetId.isValid (id : AssetId) : Bool := id.high != 0 || id.low != 0

structure AssetContentId where
  bytes : List UInt8 := []
deriving DecidableEq

def AssetContentId.isValid (id : AssetContentId) : Bool := id.bytes.any (· != 0)

structure CharacterControlTransition where
  character : ObjectId
  controlEpoch : CharacterControlEpoch
  channel : StateChannelId := {}
  authoritativeTick : Nat := 0
  bound : Bool := false
deriving DecidableEq

def CharacterControlTransition.isValid (t : CharacterControlTransition) : Bool :=
  t.character.isValid && t.controlEpoch.isValid && t.authoritativeTick != 0 && t.channel.isValid == t.bound

structure CharacterActionState where
  actionSequence : CharacterActionSequence
  actionToken : Nat
  animation : AssetId
  contentRevision : AssetContentId
  startTick : Nat
  durationTicks : Nat
deriving DecidableEq

def CharacterActionState.isValid (a : CharacterActionState) : Bool :=
  a.actionSequence.isValid && a.actionToken != 0 && a.animation.isValid && a.contentRevision.isValid &&
    a.startTick != 0 && a.durationTicks != 0 && decide (a.durationTicks ≤ 2 ^ 64 - 1 - a.startTick)

structure CharacterAuthoritativeState (μ : Type) where
  character : ObjectId
  controlEpoch : CharacterControlEpoch
  stateSequence : RealtimeStateSequence
  acknowledgedInput : CharacterInputSequence := {}
  resolvedAction : CharacterActionSequence := {}
  authoritativeTick : Nat
  motion : μ
  flags : UInt8 := 0
  activeAction : Option CharacterActionState := none

structure CharacterStateFrame (μ : Type) where
  serverTick : Nat
  frameSequence : CharacterStateFrameSequence
  materializationEpoch : CharacterMaterializationEpoch
  states : List (CharacterAuthoritativeState μ)

section
variable {μ : Type} [CharacterMotion μ]

/-- The two flags are `Grounded` and `Teleport`. -/
def CharacterAuthoritativeState.isValid (s : CharacterAuthoritativeState μ) : Bool :=
  s.character.isValid && s.controlEpoch.isValid && s.stateSequence.isValid && s.authoritativeTick != 0 &&
    CharacterMotion.isFinite s.motion && s.flags &&& 0xfc == 0 &&
    s.activeAction.all fun a =>
      a.isValid && (!s.resolvedAction.isValid || decide (a.actionSequence ≤ s.resolvedAction))

def CharacterAuthoritativeState.hasCompact (s : CharacterAuthoritativeState μ) : Bool :=
  s.isValid && CharacterMotion.fitsCompact s.motion

def CharacterStateFrame.isValid (f : CharacterStateFrame μ) : Bool :=
  f.serverTick != 0 && f.frameSequence.isValid && f.materializationEpoch.isValid && !f.states.isEmpty &&
    decide (f.states.length ≤ maximumCharacterStatesPerFrame) &&
    (f.states.all fun s => decide (s.authoritativeTick = f.serverTick) && s.hasCompact) &&
    decide ((f.states.map (·.character)).Pairwise (· < ·))

/-- The messages that a server sends about control and states. -/
inductive CharacterMessage (μ : Type) where
  | control (transition : CharacterControlTransition)
  | state (state : CharacterAuthoritativeState μ)
  | frame (frame : CharacterStateFrame μ)

def CharacterMessage.isValid : CharacterMessage μ → Bool
  | .control t => t.isValid
  | .state s => s.isValid
  | .frame f => f.isValid

/-- The frame that the receiver decodes: its states have only the precision of the compact encoding. -/
def CharacterStateFrame.compact (f : CharacterStateFrame μ) : CharacterStateFrame μ :=
  { f with states := f.states.map fun s => { s with motion := CharacterMotion.compact s.motion } }

/-- What the receiver decodes: only a frame is encoded compactly. -/
def CharacterMessage.compact : CharacterMessage μ → CharacterMessage μ
  | .frame f => .frame f.compact
  | message => message

theorem CharacterAuthoritativeState.isValid_sequences {s : CharacterAuthoritativeState μ} (valid : s.isValid) :
    0 < s.controlEpoch.toNat ∧ 0 < s.stateSequence.toNat := by
  simp only [isValid,and_eq_true,isValid_iff] at valid
  obtain ⟨⟨⟨⟨⟨⟨_,epoch⟩,sequence⟩,_⟩,_⟩,_⟩,_⟩ := valid
  exact ⟨epoch,sequence⟩

theorem CharacterStateFrame.isValid_states {f : CharacterStateFrame μ} (valid : f.isValid) :
    ∀ s ∈ f.states, s.isValid := by
  intro s member
  simp only [isValid,and_eq_true,List.all_eq_true] at valid
  obtain ⟨⟨_,all⟩,_⟩ := valid
  have compact := (all s member).2
  simp only [CharacterAuthoritativeState.hasCompact,and_eq_true] at compact
  exact compact.1

end

def nextMaterializationEpoch (current : CharacterMaterializationEpoch) : Option CharacterMaterializationEpoch :=
  if current.isValid then current.tryNext else some ⟨1⟩

inductive MaterializationChange where
  | materialized (character : ObjectId)
  | unmaterialized (character : ObjectId)
deriving DecidableEq

theorem nextMaterializationEpoch_toNat {current next : CharacterMaterializationEpoch}
    (stepped : nextMaterializationEpoch current = some next) : next.toNat = current.toNat + 1 := by
  rw [nextMaterializationEpoch] at stepped
  split_ifs at stepped with valid
  · exact (tryNext_toNat stepped).2
  · cases stepped
    rw [isValid_iff] at valid
    have zero : current.toNat = 0 := by omega
    rw [zero]
    rfl

end CharacterNetwork
end Gargantuan
