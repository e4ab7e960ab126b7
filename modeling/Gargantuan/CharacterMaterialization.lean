import Gargantuan.AuthoritativeCharacters
import Gargantuan.PredictedCharacters
import Gargantuan.Runs

/-!
A server's and a client's manager of characters, joined by a network that may
lose, repeat, delay and reorder what it carries. The states that a replica takes
during one materialization ascend (`ReplicaState.Sound`), and the epochs on both
sides count the changes that a connection has made, so that a frame is taken
exactly while the client has made as many changes as the server had
(`materialization_run`).
-/
namespace Gargantuan.CharacterNetwork
open SortedMap List Option MonotonicSequence AuthoritativePeer CharacterAuthoritativeState

def StateOrigin.Counts (changes : Nat) : StateOrigin → Prop
  | .single => True
  | .framed _ epoch _ => epoch.toNat = changes

def StateOrigin.Timely : StateOrigin → Prop
  | .single => True
  | .framed _ epoch changes => epoch.toNat = changes

instance (changes : Nat) : DecidablePred (StateOrigin.Counts changes)
  | .single => isTrue trivial
  | .framed _ epoch _ => inferInstanceAs (Decidable (epoch.toNat = changes))

def Ascending {μ : Type} (a b : AppliedState μ) : Prop :=
  a.state.stateSequence.toNat < b.state.stateSequence.toNat ∧ a.state.controlEpoch.toNat ≤ b.state.controlEpoch.toNat

section
variable {μ : Type}

structure ReplicaState.Sound (r : ReplicaState μ) : Prop where
  ascending : r.applied.Pairwise Ascending
  timely : ∀ a ∈ r.applied, a.origin.Timely
  numbered : ∀ a ∈ r.applied, 0 < a.state.controlEpoch.toNat ∧ 0 < a.state.stateSequence.toNat
  last : ∀ a ∈ r.applied, a.state.stateSequence.toNat ≤ r.lastState.toNat ∧ a.state.controlEpoch.toNat ≤ r.epoch.toNat
  waits : ∀ s, r.pendingState = some s → 0 < s.controlEpoch.toNat ∧ 0 < s.stateSequence.toNat ∧
    r.pendingOrigin.Timely ∧
    ∀ a ∈ r.applied, a.state.stateSequence.toNat < s.stateSequence.toNat ∧
      a.state.controlEpoch.toNat ≤ s.controlEpoch.toNat

namespace ReplicaState.Sound
variable {r : ReplicaState μ}

theorem fresh : ({} : ReplicaState μ).Sound where
  ascending := .nil
  timely := by simp
  numbered := by simp
  last := by simp
  waits := by simp

theorem used (sound : r.Sound) : ({ r with pendingState := none } : ReplicaState μ).Sound :=
  { sound with waits := by simp }

variable {s : CharacterAuthoritativeState μ}

theorem epoch_le (sound : r.Sound)
    (passes : ¬ (r.epoch.isValid && decide (s.controlEpoch ≠ r.epoch) && !s.controlEpoch.isNewerThan r.epoch) = true) :
    ∀ a ∈ r.applied, a.state.controlEpoch.toNat ≤ s.controlEpoch.toNat := by
  intro a member
  have known := (sound.numbered a member).1
  have below := (sound.last a member).2
  have set : r.epoch.isValid := isValid_iff.mpr (by omega)
  by_cases same : s.controlEpoch = r.epoch
  · rwa [same]
  · rw [set,decide_eq_true same] at passes
    simp only [Bool.true_and,Bool.not_eq_true',Bool.not_eq_false] at passes
    have newer := (isNewerThan_iff.mp passes).2
    omega

theorem sequence_lt (sound : r.Sound)
    (passes : ¬ (r.lastState.isValid && !s.stateSequence.isNewerThan r.lastState) = true) :
    ∀ a ∈ r.applied, a.state.stateSequence.toNat < s.stateSequence.toNat := by
  intro a member
  have known := (sound.numbered a member).2
  have below := (sound.last a member).1
  have set : r.lastState.isValid := isValid_iff.mpr (by omega)
  rw [set] at passes
  simp only [Bool.true_and,Bool.not_eq_true',Bool.not_eq_false] at passes
  have newer := (isNewerThan_iff.mp passes).2
  omega

variable {origin : StateOrigin}

theorem store (sound : r.Sound) (epoch : 0 < s.controlEpoch.toNat)
    (sequence : 0 < s.stateSequence.toNat) (timely : origin.Timely)
    (onward : ∀ a ∈ r.applied, a.state.stateSequence.toNat < s.stateSequence.toNat ∧
      a.state.controlEpoch.toNat ≤ s.controlEpoch.toNat) :
    ({ r with pendingState := some s, pendingOrigin := origin } : ReplicaState μ).Sound where
  ascending := sound.ascending
  timely := sound.timely
  numbered := sound.numbered
  last := sound.last
  waits := by
    rintro t ⟨⟩
    exact ⟨epoch,sequence,timely,onward⟩

theorem take (sound : r.Sound) (recognises : CharacterActionState → Bool) (epoch : 0 < s.controlEpoch.toNat)
    (sequence : 0 < s.stateSequence.toNat) (reliable : Bool) (timely : origin.Timely) :
    (r.take recognises s reliable origin).2.Sound := by
  unfold ReplicaState.take
  split
  · exact sound
  · next current =>
    split
    · split
      · exact { sound with }
      · exact sound
    · next newer =>
      have onward : ∀ a ∈ r.applied, a.state.stateSequence.toNat < s.stateSequence.toNat ∧
          a.state.controlEpoch.toNat ≤ s.controlEpoch.toNat :=
        fun a member => ⟨sound.sequence_lt newer a member,sound.epoch_le current a member⟩
      split
      · next pending waiting =>
        split
        · exact sound.store epoch sequence timely onward
        · split
          · refine { sound with waits := ?_ }
            rintro t ⟨⟩
            exact sound.waits pending waiting
          · exact sound
      · exact sound.store epoch sequence timely onward

theorem apply (sound : r.Sound) (waiting : r.pendingState = some s) (changes : Nat) (reset : Bool) :
    (({ r with pendingState := none } : ReplicaState μ).apply s changes reset).Sound := by
  obtain ⟨epoch,sequence,timely,onward⟩ := sound.waits s waiting
  refine ⟨?_,?_,?_,?_,?_⟩
  · show (r.applied ++ [_]).Pairwise Ascending
    rw [pairwise_append]
    refine ⟨sound.ascending,pairwise_singleton _ _,?_⟩
    intro a member b last
    rw [mem_singleton.mp last]
    exact onward a member
  · intro a member
    rcases mem_append.mp member with before | last
    · exact sound.timely a before
    · rwa [mem_singleton.mp last]
  · intro a member
    rcases mem_append.mp member with before | last
    · exact sound.numbered a before
    · rw [mem_singleton.mp last]
      exact ⟨epoch,sequence⟩
  · intro a member
    rcases mem_append.mp member with before | last
    · exact ⟨(onward a before).1.le,(onward a before).2⟩
    · rw [mem_singleton.mp last]
      exact ⟨le_rfl,le_rfl⟩
  · intro t still
    cases still

end ReplicaState.Sound

variable {p : PredictedPeer}

theorem PredictedPeer.change_counts (counts : p.materializationEpoch.toNat = p.changes.length)
    (may : (nextMaterializationEpoch p.materializationEpoch).isSome) (what : MaterializationChange) :
    (p.change what).materializationEpoch.toNat = (p.change what).changes.length := by
  obtain ⟨next,stepped⟩ := isSome_iff_exists.mp may
  simp only [change,stepped,getD_some,length_append,length_singleton]
  rw [nextMaterializationEpoch_toNat stepped,counts]

@[simp] theorem PredictedPeer.takeControl_counts (p : PredictedPeer) (character : ObjectId) :
    (p.takeControl character).materializationEpoch = p.materializationEpoch ∧
      (p.takeControl character).changes = p.changes := by
  unfold takeControl
  split
  · split <;> exact ⟨rfl,rfl⟩
  · exact ⟨rfl,rfl⟩

@[simp] theorem PredictedPeer.dropControl_counts (p : PredictedPeer) (character : ObjectId) :
    (p.dropControl character).materializationEpoch = p.materializationEpoch ∧
      (p.dropControl character).changes = p.changes := by
  unfold dropControl
  split
  · split <;> exact ⟨rfl,rfl⟩
  · exact ⟨rfl,rfl⟩

theorem canChange_all {peers : SortedMap ConnectionId PredictedPeer} (may : canChange peers) {c : ConnectionId}
    (found : peers.find? c = some p) : (nextMaterializationEpoch p.materializationEpoch).isSome :=
  all_eq_true.mp may (c,p) (find?_eq_some.mp found)

namespace PredictedCharacterNetwork

/-- What holds of the client in every run. -/
structure Sound (n : PredictedCharacterNetwork μ) : Prop where
  counts : ∀ c p, n.peers.find? c = some p → p.materializationEpoch.toNat = p.changes.length
  replicas : ∀ character r, n.replicas.find? character = some r → r.Sound

variable {n : PredictedCharacterNetwork μ}

theorem Sound.addPeer (sound : Sound n) (c : ConnectionId) : Sound (n.addPeer c) := by
  unfold PredictedCharacterNetwork.addPeer
  split
  · refine ⟨?_,sound.replicas⟩
    intro d p found
    rw [find?_insert] at found
    split_ifs at found
    · cases found
      rfl
    · exact sound.counts d p found
  · exact sound

theorem Sound.removePeer (sound : Sound n) (c : ConnectionId) : Sound (n.removePeer c) := by
  unfold PredictedCharacterNetwork.removePeer
  split
  · constructor
    · intro d p found
      rw [find?_erase] at found
      split_ifs at found
      exact sound.counts d p found
    · intro character r found
      rw [find?_mapValues,map_eq_some_iff] at found
      obtain ⟨before,stored,rfl⟩ := found
      exact (sound.replicas character before stored).used
  · exact sound

variable {p : PredictedPeer} {c : ConnectionId}

variable (sound : Sound n)
include sound

theorem Sound.changed (may : canChange n.peers) (what : MaterializationChange) {after : PredictedPeer → PredictedPeer}
    (keeps : ∀ p, (after p).materializationEpoch = p.materializationEpoch ∧ (after p).changes = p.changes)
    (found : (n.peers.mapValues fun _ p => after (p.change what)).find? c = some p) :
    p.materializationEpoch.toNat = p.changes.length := by
  rw [find?_mapValues,map_eq_some_iff] at found
  obtain ⟨before,stored,rfl⟩ := found
  rw [(keeps _).1,(keeps _).2]
  exact PredictedPeer.change_counts (sound.counts c before stored) (canChange_all may stored) what

theorem Sound.markMaterialized (character : ObjectId) (usable : Bool) :
    Sound (n.markMaterialized character usable) := by
  unfold PredictedCharacterNetwork.markMaterialized
  split
  · exact sound
  · next may =>
    have able : canChange n.peers := by
      by_contra cannot
      simp [cannot] at may
    constructor
    · intro c p found
      exact sound.changed able _ (fun p => p.takeControl_counts character) found
    · intro other r found
      rw [find?_insert] at found
      split_ifs at found
      · cases found
        exact .fresh
      · exact sound.replicas other r found

theorem Sound.markUnmaterialized (character : ObjectId) : Sound (n.markUnmaterialized character) := by
  unfold PredictedCharacterNetwork.markUnmaterialized
  split
  · exact sound
  · next may =>
    have able : canChange n.peers := by
      by_contra cannot
      simp [cannot] at may
    constructor
    · intro c p found
      exact sound.changed able _ (fun p => p.dropControl_counts character) found
    · intro other r found
      rw [find?_erase] at found
      split_ifs at found
      exact sound.replicas other r found

theorem Sound.setPeer {q : PredictedPeer} (found : n.peers.find? c = some p)
    (epoch : q.materializationEpoch = p.materializationEpoch) (changes : q.changes = p.changes) :
    Sound { n with peers := n.peers.insert c q } := by
  refine ⟨?_,sound.replicas⟩
  intro d x stored
  rw [find?_insert] at stored
  split_ifs at stored
  · cases stored
    rw [epoch,changes]
    exact sound.counts c p found
  · exact sound.counts d x stored

theorem Sound.handleControl (found : n.peers.find? c = some p)
    (e : ReceivedMessage) (t : CharacterControlTransition) : Sound (handleControl n c p e t).2 := by
  unfold PredictedCharacterNetwork.handleControl
  dsimp only
  split
  · exact sound
  · split
    · split
      · exact sound
      · exact sound.setPeer found rfl rfl
    · split
      · exact sound
      · split
        · exact sound.setPeer found rfl rfl
        · exact sound.setPeer found rfl rfl

theorem Sound.handleState (p : PredictedPeer) (e : ReceivedMessage)
    {s : CharacterAuthoritativeState μ} (epoch : 0 < s.controlEpoch.toNat) (sequence : 0 < s.stateSequence.toNat)
    (reliable framed : Bool) {origin : StateOrigin} (timely : origin.Timely) :
    Sound (handleState n p e s reliable framed origin).2 := by
  unfold PredictedCharacterNetwork.handleState
  split
  · exact sound
  · next r found =>
    split
    · exact sound
    · refine ⟨sound.counts,?_⟩
      intro other x stored
      rw [find?_insert] at stored
      split_ifs at stored
      · cases stored
        exact (sound.replicas _ r found).take n.recognises epoch sequence reliable timely
      · exact sound.replicas other x stored

theorem Sound.handleStates (c : ConnectionId) (e : ReceivedMessage) {f : CharacterStateFrame μ}
    (timely : f.materializationEpoch.toNat = p.changes.length)
    (valid : ∀ s ∈ f.states, 0 < s.controlEpoch.toNat ∧ 0 < s.stateSequence.toNat) :
    Sound (handleStates n c p e f) := by
  -- Each state of the frame is handled by a client that the ones before it left sound.
  suffices all : ∀ (states : List (CharacterAuthoritativeState μ)) (m : PredictedCharacterNetwork μ), Sound m →
      (∀ s ∈ states, 0 < s.controlEpoch.toNat ∧ 0 < s.stateSequence.toNat) →
      Sound (states.foldl (fun n s => (PredictedCharacterNetwork.handleState n p e s e.reliableControl true
        (.framed c f.materializationEpoch p.changes.length)).2) m) from all f.states n sound valid
  intro states
  induction states with
  | nil => intro m sound _; exact sound
  | cons s rest ih =>
    intro m sound valid
    obtain ⟨epoch,sequence⟩ := valid s (.head _)
    have counted : (StateOrigin.framed c f.materializationEpoch p.changes.length).Timely := timely
    apply ih _ (sound.handleState p e epoch sequence _ true counted)
    intro t member
    exact valid t (.tail _ member)

theorem Sound.handleTransportEvent [CharacterMotion μ] (c : ConnectionId) (e : ReceivedMessage)
    (message : CharacterMessage μ) : Sound (n.handleTransportEvent c e message).2 := by
  unfold PredictedCharacterNetwork.handleTransportEvent
  split
  · exact sound
  · next p found =>
    split
    · next valid =>
      cases message with
      | control t => exact sound.handleControl found e t
      | state s =>
        obtain ⟨epoch,sequence⟩ := isValid_sequences valid
        exact sound.handleState p e epoch sequence _ false trivial
      | frame f =>
        show Sound (handleFrame n c p e f).2
        unfold PredictedCharacterNetwork.handleFrame
        split
        · exact sound
        · split
          · exact sound
          · next same =>
            refine sound.handleStates c e ?_ ?_
            · rw [not_not.mp same]
              exact sound.counts c p found
            · intro s member
              exact isValid_sequences (CharacterStateFrame.isValid_states valid s member)
    · exact sound

theorem Sound.reconcile (alive reset : ObjectId → Bool) : Sound (n.reconcile alive reset) := by
  refine ⟨sound.counts,?_⟩
  intro character r found
  unfold PredictedCharacterNetwork.reconcile at found
  rw [find?_mapValues,map_eq_some_iff] at found
  obtain ⟨before,stored,rfl⟩ := found
  have base := sound.replicas character before stored
  unfold reconcileReplica
  split
  · exact base
  · next s waiting =>
    split
    · exact base.used
    · split
      · split
        · exact base.used
        · exact base.apply waiting _ _
      · split
        · exact base.used
        · exact base.apply waiting _ _

end PredictedCharacterNetwork

/-! ### The server -/

variable {p : AuthoritativePeer}

section
variable (counts : p.materializationEpoch.toNat = p.changes.length)
include counts

theorem AuthoritativePeer.change_counts
    (may : (nextMaterializationEpoch p.materializationEpoch).isNone = false) (what : MaterializationChange) :
    (p.change what).materializationEpoch.toNat = (p.change what).changes.length := by
  rw [isNone_eq_false_iff] at may
  obtain ⟨next,stepped⟩ := isSome_iff_exists.mp may
  simp only [change,stepped,getD_some,length_append,length_singleton]
  rw [nextMaterializationEpoch_toNat stepped,counts]

theorem AuthoritativePeer.forget_counts {character : ObjectId}
    (may : (p.materialized.contains character && (nextMaterializationEpoch p.materializationEpoch).isNone) = false) :
    (p.forget character).materializationEpoch.toNat = (p.forget character).changes.length := by
  unfold forget
  by_cases known : p.materialized.contains character = true
  · rw [if_pos known]
    rw [known] at may
    exact change_counts counts may _
  · rwa [if_neg known]

end

namespace AuthoritativeCharacterNetwork

structure Sound (n : AuthoritativeCharacterNetwork μ) : Prop where
  counts : ∀ c p, n.peers.find? c = some p → p.materializationEpoch.toNat = p.changes.length
  stamped : ∀ m ∈ n.sent, ∀ f, m.message = .frame f → f.materializationEpoch.toNat = m.changes

variable {n : AuthoritativeCharacterNetwork μ}

section
variable (sound : Sound n)
include sound

theorem Sound.congr {m : AuthoritativeCharacterNetwork μ} (peers : m.peers = n.peers)
    (sent : m.sent = n.sent) : Sound m :=
  ⟨fun c p found => sound.counts c p (peers ▸ found),fun x member => sound.stamped x (sent ▸ member)⟩

theorem Sound.setPeer (c : ConnectionId) {q : AuthoritativePeer}
    (counts : q.materializationEpoch.toNat = q.changes.length) : Sound { n with peers := n.peers.insert c q } := by
  refine ⟨?_,sound.stamped⟩
  intro d x stored
  rw [find?_insert] at stored
  split_ifs at stored
  · cases stored
    exact counts
  · exact sound.counts d x stored

theorem Sound.addPeer (c : ConnectionId) : Sound (addPeer n c) := by
  unfold AuthoritativeCharacterNetwork.addPeer
  split
  · refine ⟨?_,sound.stamped⟩
    intro d p found
    rw [find?_insert] at found
    split_ifs at found
    · cases found
      rfl
    · exact sound.counts d p found
  · exact sound

theorem Sound.registerCharacter (character : ObjectId) (usable : Bool) :
    Sound (registerCharacter n character usable) := by
  unfold AuthoritativeCharacterNetwork.registerCharacter
  split
  · exact sound
  · dsimp only
    split
    · split <;> exact sound.congr rfl rfl
    · exact sound.congr rfl rfl

theorem Sound.markMaterialized (c : ConnectionId) (character : ObjectId) (channel : StateChannelId) :
    Sound (markMaterialized n c character channel) := by
  unfold AuthoritativeCharacterNetwork.markMaterialized
  split
  · exact sound
  · next p found =>
    split
    · exact sound
    · next may =>
      simp only [Bool.or_eq_true,not_or,Bool.not_eq_true] at may
      obtain ⟨⟨_,notLast⟩,_⟩ := may
      have counted := change_counts (sound.counts c p found) notLast (.materialized character)
      exact sound.setPeer c counted

theorem Sound.advanceState (character : ObjectId) : Sound (advanceState n character) :=
  sound.congr rfl rfl

end

variable [CharacterMotion μ] (accepts : ConnectionId → CharacterMessage μ → Bool)

theorem queue_peers (n : AuthoritativeCharacterNetwork μ) (c : ConnectionId) (message : CharacterMessage μ) :
    (queue accepts n c message).2.peers = n.peers := by
  unfold queue
  split <;> rfl

theorem Sound.queue (sound : Sound n) (c : ConnectionId) {message : CharacterMessage μ}
    (stamped : ∀ f, message = .frame f → ∃ p, n.peers.find? c = some p ∧ f.materializationEpoch = p.materializationEpoch) :
    Sound (queue accepts n c message).2 := by
  refine ⟨fun d p found => sound.counts d p (queue_peers accepts n c message ▸ found),?_⟩
  unfold AuthoritativeCharacterNetwork.queue
  split
  · intro m member f same
    rcases mem_append.mp member with before | last
    · exact sound.stamped m before f same
    · rw [mem_singleton.mp last] at same ⊢
      obtain ⟨p,found,epoch⟩ := stamped f same
      rw [found,epoch]
      exact sound.counts c p found
  · exact sound.stamped

theorem Sound.queueControl (sound : Sound n) (c : ConnectionId) (t : CharacterControlTransition) :
    Sound (AuthoritativeCharacterNetwork.queue accepts n c (.control t)).2 :=
  sound.queue accepts c (by rintro f ⟨⟩)

theorem Sound.queueFrame (sound : Sound n) {c : ConnectionId} {p : AuthoritativePeer} (found : n.peers.find? c = some p)
    (f : CharacterStateFrame μ) (stamped : f.materializationEpoch = p.materializationEpoch) :
    Sound (AuthoritativeCharacterNetwork.queue accepts n c (.frame f)).2 :=
  sound.queue accepts c (by
    rintro g ⟨⟩
    exact ⟨p,found,stamped⟩)

theorem revokeControl_peers (n : AuthoritativeCharacterNetwork μ) (character : ObjectId) (tick : Nat) :
    (revokeControl accepts n character tick).peers = n.peers := by
  unfold revokeControl
  split
  · rfl
  · split
    · rfl
    · split
      · rfl
      · exact queue_peers accepts n _ _

variable (sound : Sound n)
include sound

theorem Sound.revokeControl (character : ObjectId) (tick : Nat) : Sound (revokeControl accepts n character tick) := by
  unfold AuthoritativeCharacterNetwork.revokeControl
  split
  · exact sound
  · split
    · exact sound
    · split
      · exact sound
      · exact (sound.queueControl accepts _ _).congr rfl rfl

theorem Sound.revokeAll (controlled : List ObjectId) (tick : Nat) :
    Sound (controlled.foldl (fun n character => AuthoritativeCharacterNetwork.revokeControl accepts n character tick)
      n) := by
  induction controlled generalizing n with
  | nil => exact sound
  | cons character rest ih => exact ih (sound.revokeControl accepts character tick)

theorem Sound.removePeer (c : ConnectionId) (tick : Nat) : Sound (removePeer accepts n c tick) := by
  unfold AuthoritativeCharacterNetwork.removePeer
  split
  · dsimp only
    generalize ((n.characters.entries.filter fun e => e.2.controller = some c).map Prod.fst) = controlled
    have revoked := sound.revokeAll accepts controlled tick
    refine ⟨?_,revoked.stamped⟩
    intro d p found
    rw [find?_erase] at found
    split_ifs at found
    exact revoked.counts d p found
  · exact sound

theorem Sound.unregisterCharacter (character : ObjectId) (tick : Nat) :
    Sound (unregisterCharacter accepts n character tick) := by
  unfold AuthoritativeCharacterNetwork.unregisterCharacter
  split
  · exact sound
  · next may =>
    simp only [Bool.or_eq_true,not_or,Bool.not_eq_true] at may
    have revoked := sound.revokeControl accepts character tick
    refine ⟨?_,revoked.stamped⟩
    intro c p found
    change ((AuthoritativeCharacterNetwork.revokeControl accepts n character tick).peers.mapValues _).find? c = some p
      at found
    rw [revokeControl_peers,find?_mapValues,map_eq_some_iff] at found
    obtain ⟨before,stored,rfl⟩ := found
    apply forget_counts (sound.counts c before stored)
    have all := any_eq_false.mp may.2 (c,before) (find?_eq_some.mp stored)
    exact Bool.not_eq_true _ ▸ all

variable (c : ConnectionId)

theorem Sound.markUnmaterialized (character : ObjectId) : Sound (markUnmaterialized accepts n c character) := by
  unfold AuthoritativeCharacterNetwork.markUnmaterialized
  split
  · exact sound
  · next p found =>
    split
    · exact sound
    · next may =>
      simp only [Bool.or_eq_true,not_or,Bool.not_eq_true] at may
      have counted : (p.forget character).materializationEpoch.toNat = (p.forget character).changes.length := by
        apply forget_counts (sound.counts c p found)
        rw [may.1,Bool.and_false]
      have forgotten := sound.setPeer c counted
      split
      · split
        · exact forgotten.revokeControl accepts character _
        · exact forgotten
      · exact forgotten

theorem Sound.bindControl (character : ObjectId) (tick : Nat) : Sound (bindControl accepts n c character tick) := by
  unfold AuthoritativeCharacterNetwork.bindControl
  split
  · exact sound
  · split
    · split
      · exact sound
      · have freed := sound.revokeControl accepts character tick
        dsimp only
        split
        · next controlEpoch found epoch stored =>
          have bound : Sound { AuthoritativeCharacterNetwork.revokeControl accepts n character tick with
              nextControlEpoch := (takeSequence
                (AuthoritativeCharacterNetwork.revokeControl accepts n character tick).nextControlEpoch).2
              characters := (AuthoritativeCharacterNetwork.revokeControl accepts n character tick).characters.insert
                character { found with controlEpoch, controller := some c } } := freed.congr rfl rfl
          split
          · exact bound.queueControl accepts _ _
          · exact (bound.queueControl accepts c _).congr rfl rfl
        · exact freed.congr rfl rfl
    · exact sound

theorem Sound.publishFrame (tick : Nat) (selected : List (ObjectId × Snapshot μ)) :
    Sound (publishFrame accepts n c tick selected) := by
  unfold AuthoritativeCharacterNetwork.publishFrame
  split
  · exact sound
  · next p found =>
    dsimp only
    split
    · exact sound
    · have told := sound.queueFrame accepts found (stateFrame n p tick selected) rfl
      have counts : ({ p with nextFrameSequence := p.nextFrameSequence.tryNext.getD {} } :
          AuthoritativePeer).materializationEpoch.toNat = p.changes.length := sound.counts c p found
      exact (told.setPeer c counts).congr (by rw [queue_peers]) rfl

end AuthoritativeCharacterNetwork
end

structure System (μ : Type) where
  server : AuthoritativeCharacterNetwork μ := {}
  client : PredictedCharacterNetwork μ := {}

/-- An operation of the server, one of the client, or the arrival of a message: the server's message of an index, any
    number of times and at any time, or a state that came alone. -/
inductive Event (μ : Type) where
  | serverAddPeer (connection : ConnectionId)
  | serverRemovePeer (connection : ConnectionId) (tick : Nat)
  | registerCharacter (character : ObjectId) (usable : Bool)
  | unregisterCharacter (character : ObjectId) (tick : Nat)
  | serverMaterialize (connection : ConnectionId) (character : ObjectId) (channel : StateChannelId)
  | serverUnmaterialize (connection : ConnectionId) (character : ObjectId)
  | bindControl (connection : ConnectionId) (character : ObjectId) (tick : Nat)
  | revokeControl (character : ObjectId) (tick : Nat)
  | publishFrame (connection : ConnectionId) (tick : Nat)
      (selected : List (ObjectId × AuthoritativeCharacterNetwork.Snapshot μ))
  | advanceState (character : ObjectId)
  | clientAddPeer (connection : ConnectionId)
  | clientRemovePeer (connection : ConnectionId)
  | clientMaterialize (character : ObjectId) (usable : Bool)
  | clientUnmaterialize (character : ObjectId)
  | reconcile (alive reset : ObjectId → Bool)
  | deliver (index : Nat) (connection : ConnectionId) (received : ReceivedMessage)
  | deliverState (connection : ConnectionId) (received : ReceivedMessage) (state : CharacterAuthoritativeState μ)

section
variable {μ : Type} [CharacterMotion μ] (accepts : ConnectionId → CharacterMessage μ → Bool)

open AuthoritativeCharacterNetwork in
def step (x : System μ) : Event μ → Option (System μ)
  | .serverAddPeer c => some { x with server := addPeer x.server c }
  | .serverRemovePeer c tick => some { x with server := removePeer accepts x.server c tick }
  | .registerCharacter character usable => some { x with server := registerCharacter x.server character usable }
  | .unregisterCharacter character tick =>
    some { x with server := unregisterCharacter accepts x.server character tick }
  | .serverMaterialize c character channel => some { x with server := markMaterialized x.server c character channel }
  | .serverUnmaterialize c character => some { x with server := markUnmaterialized accepts x.server c character }
  | .bindControl c character tick => some { x with server := bindControl accepts x.server c character tick }
  | .revokeControl character tick => some { x with server := revokeControl accepts x.server character tick }
  | .publishFrame c tick selected => some { x with server := publishFrame accepts x.server c tick selected }
  | .advanceState character => some { x with server := advanceState x.server character }
  | .clientAddPeer c => some { x with client := x.client.addPeer c }
  | .clientRemovePeer c => some { x with client := x.client.removePeer c }
  | .clientMaterialize character usable => some { x with client := x.client.markMaterialized character usable }
  | .clientUnmaterialize character => some { x with client := x.client.markUnmaterialized character }
  | .reconcile alive reset => some { x with client := x.client.reconcile alive reset }
  | .deliver index c received =>
    x.server.sent[index]?.map fun m =>
      { x with client := (x.client.handleTransportEvent c received m.message.compact).2 }
  | .deliverState c received state =>
    some { x with client := (x.client.handleTransportEvent c received (.state state)).2 }

structure System.Sound (x : System μ) : Prop where
  server : x.server.Sound
  client : x.client.Sound

variable {accepts} {x : System μ}

theorem sound_step {y : System μ} {e : Event μ} (sound : x.Sound) (stepped : step accepts x e = some y) :
    y.Sound := by
  obtain ⟨server,client⟩ := sound
  cases e with
  | deliver index c received =>
    obtain ⟨m,-,rfl⟩ := map_eq_some_iff.mp stepped
    exact ⟨server,client.handleTransportEvent c received _⟩
  | serverAddPeer c => cases stepped; exact ⟨server.addPeer c,client⟩
  | serverRemovePeer c tick => cases stepped; exact ⟨server.removePeer accepts c tick,client⟩
  | registerCharacter character usable => cases stepped; exact ⟨server.registerCharacter character usable,client⟩
  | unregisterCharacter character tick =>
    cases stepped
    exact ⟨server.unregisterCharacter accepts character tick,client⟩
  | serverMaterialize c character channel =>
    cases stepped
    exact ⟨server.markMaterialized c character channel,client⟩
  | serverUnmaterialize c character => cases stepped; exact ⟨server.markUnmaterialized accepts c character,client⟩
  | bindControl c character tick => cases stepped; exact ⟨server.bindControl accepts c character tick,client⟩
  | revokeControl character tick => cases stepped; exact ⟨server.revokeControl accepts character tick,client⟩
  | publishFrame c tick selected => cases stepped; exact ⟨server.publishFrame accepts c tick selected,client⟩
  | advanceState character => cases stepped; exact ⟨server.advanceState character,client⟩
  | clientAddPeer c => cases stepped; exact ⟨server,client.addPeer c⟩
  | clientRemovePeer c => cases stepped; exact ⟨server,client.removePeer c⟩
  | clientMaterialize character usable => cases stepped; exact ⟨server,client.markMaterialized character usable⟩
  | clientUnmaterialize character => cases stepped; exact ⟨server,client.markUnmaterialized character⟩
  | reconcile alive reset => cases stepped; exact ⟨server,client.reconcile alive reset⟩
  | deliverState c received state => cases stepped; exact ⟨server,client.handleTransportEvent c received _⟩

def start (recognises : CharacterActionState → Bool) : System μ := { client := { recognises } }

omit [CharacterMotion μ] in
theorem sound_start (recognises : CharacterActionState → Bool) : (start recognises : System μ).Sound := by
  refine ⟨⟨?_,?_⟩,⟨?_,?_⟩⟩
  · intro c p found
    cases found
  · intro m member
    cases member
  · intro c p found
    cases found
  · intro character r found
    cases found

theorem sound_run {recognises : CharacterActionState → Bool} {events : List (Event μ)}
    (reached : run (step accepts) (start recognises) events = some x) : x.Sound :=
  run_preserves (fun _ _ _ sound stepped => sound_step sound stepped) (sound_start recognises) reached

/-- What the epochs and the filters guarantee of a server and a client. -/
structure Contract (x : System μ) : Prop where
  /-- During one materialization the applied states have increasing sequences and control epochs that never go back. -/
  ascending : ∀ character r, x.client.replicas.find? character = some r → r.applied.Pairwise Ascending
  /-- A state applied from a frame came when the connection had made as many changes as the frame says. -/
  timely : ∀ character r, x.client.replicas.find? character = some r → ∀ a ∈ r.applied, a.origin.Timely
  /-- Both epochs count the changes of their side. -/
  clientCounts : ∀ c p, x.client.peers.find? c = some p → p.materializationEpoch.toNat = p.changes.length
  serverCounts : ∀ c p, x.server.peers.find? c = some p → p.materializationEpoch.toNat = p.changes.length
  /-- After equally many changes on both sides the epochs are equal. -/
  level : ∀ c p d q, x.client.peers.find? c = some p → x.server.peers.find? d = some q →
    p.changes.length = q.changes.length → p.materializationEpoch = q.materializationEpoch
  /-- The states of a frame are taken if the client has made as many changes as the server had when it sent the frame;
      else the frame changes nothing. -/
  window : ∀ m ∈ x.server.sent, ∀ f, m.message = .frame f → ∀ c p e, x.client.peers.find? c = some p →
    (e.reliableControl || e.isExpectedStateFrameOrder f.frameSequence) = true → f.compact.isValid = true →
    (x.client.handleTransportEvent c e m.message.compact).2 =
      if p.changes.length = m.changes then x.client.handleStates c p e f.compact else x.client

theorem System.Sound.contract (sound : x.Sound) : Contract x where
  ascending character r found := (sound.client.replicas character r found).ascending
  timely character r found := (sound.client.replicas character r found).timely
  clientCounts := sound.client.counts
  serverCounts := sound.server.counts
  level c p d q atClient atServer same := by
    apply toNat_injective
    rw [sound.client.counts c p atClient,sound.server.counts d q atServer,same]
  window m member f isFrame c p e found ordered valid := by
    have stamp := sound.server.stamped m member f isFrame
    have counts := sound.client.counts c p found
    have expected : (!e.reliableControl && !e.isExpectedStateFrameOrder f.frameSequence) = false := by
      rw [← Bool.not_or,ordered]
      rfl
    rw [isFrame]
    simp only [CharacterMessage.compact,PredictedCharacterNetwork.handleTransportEvent,found,CharacterMessage.isValid,
      valid,if_true,PredictedCharacterNetwork.handleMessage,PredictedCharacterNetwork.handleFrame]
    have sequence : f.compact.frameSequence = f.frameSequence := rfl
    have epoch : f.compact.materializationEpoch = f.materializationEpoch := rfl
    rw [sequence,expected,epoch]
    by_cases same : p.changes.length = m.changes
    · have equal : f.materializationEpoch = p.materializationEpoch := by
        apply toNat_injective
        rw [stamp,counts,same]
      simp [same,equal]
    · have differ : f.materializationEpoch ≠ p.materializationEpoch := by
        intro equal
        apply same
        rw [← counts,← stamp,equal]
      simp [same,differ]

/-- In every run the states that a replica takes ascend, and a frame is taken exactly while the client has made as
    many changes as the server had. -/
theorem materialization_run {recognises : CharacterActionState → Bool} {events : List (Event μ)} {x : System μ}
    (reached : run (step accepts) (start recognises) events = some x) : Contract x :=
  (sound_run reached).contract

end

section
local instance : CharacterMotion Unit := ⟨fun _ => true,fun _ => true,id⟩

/-- A frame of the first character arrives; before the reconciliation the client materializes the second one. -/
def overtakenRun : List (Event Unit) :=
  [.serverAddPeer ⟨1,1⟩,.registerCharacter ⟨1,1⟩ true,.registerCharacter ⟨2,1⟩ true,
    .serverMaterialize ⟨1,1⟩ ⟨1,1⟩ ⟨7⟩,.publishFrame ⟨1,1⟩ 1 [(⟨1,1⟩,{ motion := () })],
    .serverMaterialize ⟨1,1⟩ ⟨2,1⟩ ⟨8⟩,.clientAddPeer ⟨1,1⟩,.clientMaterialize ⟨1,1⟩ true,
    .deliver 0 ⟨1,1⟩ ⟨.unreliableSequenced,.realtimeState,.realtimeState ⟨7⟩ ⟨1⟩⟩,.clientMaterialize ⟨2,1⟩ true,
    .reconcile (fun _ => true) fun _ => false]

theorem overtakenRun_applies : (run (step fun _ _ => true) (start fun _ => false) overtakenRun).bind (fun x =>
      (x.client.replicas.find? ⟨1,1⟩).map fun r => r.applied.map fun a => (a.origin,a.changes)) =
      some [(.framed ⟨1,1⟩ ⟨1⟩ 1,2)] := by
  decide +kernel

theorem materialization_overtaken :
    ∃ x : System Unit, run (step fun _ _ => true) (start fun _ => false) overtakenRun = some x ∧ Contract x ∧
      ∃ r, x.client.replicas.find? ⟨1, 1⟩ = some r ∧ r.applied.length = 1 := by
  obtain ⟨x,reached,applied⟩ := bind_eq_some_iff.mp overtakenRun_applies
  obtain ⟨r,found,same⟩ := map_eq_some_iff.mp applied
  refine ⟨x,reached,materialization_run reached,r,found,?_⟩
  have lengths := congrArg List.length same
  simpa using lengths

/-- A state is applied although its frame counts fewer changes than the connection has made by then. -/
theorem overtaken_state_applied :
    ¬ ∀ (events : List (Event Unit)) (x : System Unit),
      run (step fun _ _ => true) (start fun _ => false) events = some x →
        ∀ character r, x.client.replicas.find? character = some r → ∀ a ∈ r.applied, a.origin.Counts a.changes := by
  intro all
  obtain ⟨x,reached,applied⟩ := bind_eq_some_iff.mp overtakenRun_applies
  obtain ⟨r,found,same⟩ := map_eq_some_iff.mp applied
  obtain ⟨a,single⟩ : ∃ a, r.applied = [a] := length_eq_one_iff.mp (by simpa using congrArg List.length same)
  have counts := all overtakenRun x reached _ r found a (by simp [single])
  rw [single] at same
  simp only [map_cons,map_nil,List.cons.injEq,Prod.mk.injEq,and_true] at same
  rw [same.1,same.2] at counts
  cases counts

end
end Gargantuan.CharacterNetwork
