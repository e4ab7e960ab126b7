import Gargantuan.CharacterProtocol
import Gargantuan.SortedMap

/-!
The client's manager of characters (`PredictedCharacterNetwork`): what a
connection controls, how many materialization changes it has made, and for each
replica the state that waits for the next reconciliation and the last one
applied. Prediction, interpolation and presentation, which decide how a replica
moves but not which states it takes, are left out. Each replica keeps the list
of the states applied to it, and each connection the list of its changes; no
operation reads them.
-/
namespace Gargantuan.CharacterNetwork

inductive StateOrigin where
  | single
  | framed (connection : ConnectionId) (epoch : CharacterMaterializationEpoch) (changes : Nat)
deriving DecidableEq

/-- A state that a reconciliation applied; `changes` is the number of changes that the connection it came over has
    made by then. -/
structure AppliedState (μ : Type) where
  state : CharacterAuthoritativeState μ
  origin : StateOrigin
  changes : Nat

structure ReplicaState (μ : Type) where
  epoch : CharacterControlEpoch := {}
  lastState : RealtimeStateSequence := {}
  lastResolvedAction : CharacterActionSequence := {}
  lastAuthoritativeTick : Nat := 0
  pendingState : Option (CharacterAuthoritativeState μ) := none
  pendingOrigin : StateOrigin := .single
  activeAction : Option CharacterActionState := none
  applied : List (AppliedState μ) := []

structure PredictedPeer where
  control : Option CharacterControlTransition := none
  pendingControl : Option CharacterControlTransition := none
  lastControlEpoch : CharacterControlEpoch := {}
  materializationEpoch : CharacterMaterializationEpoch := {}
  changes : List MaterializationChange := []

/-- `recognises` says whether an action is defined with the same animation and content revision. -/
structure PredictedCharacterNetwork (μ : Type) where
  peers : SortedMap ConnectionId PredictedPeer := ∅
  replicas : SortedMap ObjectId (ReplicaState μ) := ∅
  recognises : CharacterActionState → Bool := fun _ => false

structure ReceivedMessage where
  delivery : DeliveryMode
  traffic : TrafficClass
  order : MessageOrder
deriving DecidableEq

namespace ReceivedMessage

def reliableControl (e : ReceivedMessage) : Bool :=
  decide (e.delivery = .reliableOrdered) && decide (e.traffic = .control) && decide (e.order = .none)

def isExpectedStateFrameOrder (e : ReceivedMessage) (sequence : CharacterStateFrameSequence) : Bool :=
  match e.order with
  | .realtimeState channel number =>
    decide (e.delivery = .unreliableSequenced) && decide (e.traffic = .realtimeState) && channel.isValid &&
      number.value == sequence.value
  | _ => false

def isExpectedStateOrder (e : ReceivedMessage) (channel : StateChannelId) (sequence : RealtimeStateSequence) : Bool :=
  match e.delivery, e.order with
  | .reliableOrdered, order => decide (e.traffic = .control) && decide (order = .none)
  | .unreliableSequenced, .realtimeState on number =>
    decide (e.traffic = .realtimeState) && decide (on = channel) && decide (number = sequence)
  | _, _ => false

end ReceivedMessage

variable {μ : Type}

def canChange (peers : SortedMap ConnectionId PredictedPeer) : Bool :=
  peers.entries.all fun e => (nextMaterializationEpoch e.2.materializationEpoch).isSome

def PredictedPeer.change (p : PredictedPeer) (what : MaterializationChange) : PredictedPeer :=
  { p with
    materializationEpoch := (nextMaterializationEpoch p.materializationEpoch).getD {}
    changes := p.changes ++ [what] }

def PredictedPeer.takeControl (p : PredictedPeer) (character : ObjectId) : PredictedPeer :=
  match p.pendingControl with
  | some pending =>
    if pending.character = character then { p with control := p.pendingControl, pendingControl := none } else p
  | none => p

def PredictedPeer.dropControl (p : PredictedPeer) (character : ObjectId) : PredictedPeer :=
  match p.control with
  | some control => if control.character = character then { p with control := none } else p
  | none => p

def ReplicaState.take (r : ReplicaState μ) (recognises : CharacterActionState → Bool)
    (s : CharacterAuthoritativeState μ) (reliable : Bool) (origin : StateOrigin) : Bool × ReplicaState μ :=
  let store : Bool × ReplicaState μ := (true,{ r with pendingState := some s, pendingOrigin := origin })
  if r.epoch.isValid && decide (s.controlEpoch ≠ r.epoch) && !s.controlEpoch.isNewerThan r.epoch then (false,r)
  else if r.lastState.isValid && !s.stateSequence.isNewerThan r.lastState then
    if reliable && decide (s.resolvedAction = r.lastResolvedAction) && s.activeAction.any recognises then
      (true,{ r with activeAction := s.activeAction })
    else (false,r)
  else
    match r.pendingState with
    | some pending =>
      if s.stateSequence.isNewerThan pending.stateSequence then store
      else if reliable && s.activeAction.isSome && decide (s.resolvedAction = pending.resolvedAction) then
        (true,{ r with pendingState := some { pending with activeAction := s.activeAction } })
      else (false,r)
    | none => store

def ReplicaState.apply (r : ReplicaState μ) (s : CharacterAuthoritativeState μ) (changes : Nat) (reset : Bool) :
    ReplicaState μ :=
  { r with
    activeAction := if reset then none else s.activeAction
    epoch := s.controlEpoch
    lastState := s.stateSequence
    lastResolvedAction := s.resolvedAction
    lastAuthoritativeTick := s.authoritativeTick
    applied := r.applied ++ [{ state := s, origin := r.pendingOrigin, changes }] }

namespace PredictedCharacterNetwork

def addPeer (n : PredictedCharacterNetwork μ) (c : ConnectionId) : PredictedCharacterNetwork μ :=
  if c.isValid && decide (n.peers.size < maximumCharacterNetworkPeers) && !n.peers.contains c then
    { n with peers := n.peers.insert c {} }
  else n

def removePeer (n : PredictedCharacterNetwork μ) (c : ConnectionId) : PredictedCharacterNetwork μ :=
  if n.peers.contains c then
    { n with peers := n.peers.erase c, replicas := n.replicas.mapValues fun _ r => { r with pendingState := none } }
  else n

/-- `usable` says whether the replica's object exists and is not being destroyed. -/
def markMaterialized (n : PredictedCharacterNetwork μ) (character : ObjectId) (usable : Bool) :
    PredictedCharacterNetwork μ :=
  if !character.isValid || !usable || decide (maximumNetworkCharacters ≤ n.replicas.size) ||
      n.replicas.contains character || !canChange n.peers then n
  else
    let peers := n.peers.mapValues fun _ p => (p.change (.materialized character)).takeControl character
    { n with replicas := n.replicas.insert character {}, peers }

def markUnmaterialized (n : PredictedCharacterNetwork μ) (character : ObjectId) : PredictedCharacterNetwork μ :=
  if !n.replicas.contains character || !canChange n.peers then n
  else
    let peers := n.peers.mapValues fun _ p => (p.change (.unmaterialized character)).dropControl character
    { n with replicas := n.replicas.erase character, peers }

def handleControl (n : PredictedCharacterNetwork μ) (c : ConnectionId) (p : PredictedPeer) (e : ReceivedMessage)
    (t : CharacterControlTransition) : Bool × PredictedCharacterNetwork μ :=
  let matching (held : Option CharacterControlTransition) : Bool :=
    held.any fun h => decide (h.character = t.character) && decide (h.controlEpoch = t.controlEpoch)
  if !e.reliableControl then (false,n)
  else if !t.bound then
    if !matching p.control && !matching p.pendingControl then (false,n)
    else (true,{ n with peers := n.peers.insert c { p with control := none, pendingControl := none } })
  else if p.lastControlEpoch.isValid && !t.controlEpoch.isNewerThan p.lastControlEpoch then (false,n)
  else if n.replicas.contains t.character then
    let bound := { p with lastControlEpoch := t.controlEpoch, control := some t, pendingControl := none }
    (true,{ n with peers := n.peers.insert c bound })
  else
    let waiting := { p with lastControlEpoch := t.controlEpoch, pendingControl := some t }
    (true,{ n with peers := n.peers.insert c waiting })

/-- A state that did not come in a frame has to come in the order of its channel. -/
def singleExpected (p : PredictedPeer) (e : ReceivedMessage) (s : CharacterAuthoritativeState μ) (reliable : Bool) :
    Bool :=
  let controlled : StateChannelId :=
    match p.control with
    | some control => if control.character = s.character then control.channel else {}
    | none => {}
  let channel :=
    match controlled.isValid, e.order with
    | false, .realtimeState on _ => on
    | _, _ => controlled
  (reliable || channel.isValid) && e.isExpectedStateOrder channel s.stateSequence

def handleState (n : PredictedCharacterNetwork μ) (p : PredictedPeer) (e : ReceivedMessage)
    (s : CharacterAuthoritativeState μ) (reliable framed : Bool) (origin : StateOrigin) :
    Bool × PredictedCharacterNetwork μ :=
  match n.replicas.find? s.character with
  | none => (false,n)
  | some r =>
    if !framed && !singleExpected p e s reliable then (false,n)
    else
      let taken := r.take n.recognises s reliable origin
      (taken.1,{ n with replicas := n.replicas.insert s.character taken.2 })

def handleStates (n : PredictedCharacterNetwork μ) (c : ConnectionId) (p : PredictedPeer) (e : ReceivedMessage)
    (f : CharacterStateFrame μ) : PredictedCharacterNetwork μ :=
  f.states.foldl (fun n s =>
    (handleState n p e s e.reliableControl true (.framed c f.materializationEpoch p.changes.length)).2) n

def handleFrame (n : PredictedCharacterNetwork μ) (c : ConnectionId) (p : PredictedPeer) (e : ReceivedMessage)
    (f : CharacterStateFrame μ) : Bool × PredictedCharacterNetwork μ :=
  if !e.reliableControl && !e.isExpectedStateFrameOrder f.frameSequence then (false,n)
  else if f.materializationEpoch ≠ p.materializationEpoch then (true,n)
  else (true,handleStates n c p e f)

def handleMessage (n : PredictedCharacterNetwork μ) (c : ConnectionId) (p : PredictedPeer) (e : ReceivedMessage) :
    CharacterMessage μ → Bool × PredictedCharacterNetwork μ
  | .control t => handleControl n c p e t
  | .state s => handleState n p e s e.reliableControl false .single
  | .frame f => handleFrame n c p e f

def handleTransportEvent [CharacterMotion μ] (n : PredictedCharacterNetwork μ) (c : ConnectionId) (e : ReceivedMessage)
    (message : CharacterMessage μ) : Bool × PredictedCharacterNetwork μ :=
  match n.peers.find? c with
  | none => (false,n)
  | some p => if message.isValid then handleMessage n c p e message else (false,n)

def changesOf (n : PredictedCharacterNetwork μ) (c : ConnectionId) : Nat :=
  ((n.peers.find? c).map fun p => p.changes.length).getD 0

def localControl (n : PredictedCharacterNetwork μ) (character : ObjectId) : Option CharacterControlTransition :=
  n.peers.entries.findSome? fun e => e.2.control.filter fun t => decide (t.character = character)

/-- The changes made by now on the connection that a state came over in a frame. -/
def changesBy (n : PredictedCharacterNetwork μ) : StateOrigin → Nat
  | .single => 0
  | .framed c _ _ => changesOf n c

/-- The states that wait are used up. `alive` says which replicas' objects exist, and `reset` for which controlled
    characters the correction is so large that the prediction starts anew. -/
def reconcileReplica (n : PredictedCharacterNetwork μ) (alive reset : ObjectId → Bool) (character : ObjectId)
    (r : ReplicaState μ) : ReplicaState μ :=
  match r.pendingState with
  | none => r
  | some s =>
    let used := { r with pendingState := none }
    if !alive character then used
    else
      match localControl n character with
      | none =>
        if r.epoch.isValid && decide (s.controlEpoch ≠ r.epoch) && !s.controlEpoch.isNewerThan r.epoch then used
        else used.apply s (changesBy n r.pendingOrigin) false
      | some control =>
        if s.controlEpoch ≠ control.controlEpoch then used
        else used.apply s (changesBy n r.pendingOrigin) (reset character)

def reconcile (n : PredictedCharacterNetwork μ) (alive reset : ObjectId → Bool) : PredictedCharacterNetwork μ :=
  { n with replicas := n.replicas.mapValues (reconcileReplica n alive reset) }

end PredictedCharacterNetwork
end Gargantuan.CharacterNetwork
