import Gargantuan.CharacterProtocol
import Gargantuan.SortedMap

/-!
The server's manager of characters (`AuthoritativeCharacterNetwork`): who
controls a character, which connections know it, and the frames of states. When
a state is due, and what a character does between two states, is left open: a
frame may be made at any time of any characters that the connection knows. Each
connection keeps the list of its materialization changes, and the manager the
list of the messages that the scheduler accepted; no operation reads them.
-/
namespace Gargantuan.CharacterNetwork

structure AuthoritativeCharacter where
  controlEpoch : CharacterControlEpoch
  controller : Option ConnectionId := none
  nextStateSequence : RealtimeStateSequence := ⟨1⟩
deriving DecidableEq

structure AuthoritativePeer where
  materialized : SortedMap ObjectId StateChannelId := ∅
  nextFrameSequence : CharacterStateFrameSequence := ⟨1⟩
  materializationEpoch : CharacterMaterializationEpoch := {}
  changes : List MaterializationChange := []

structure SentMessage (μ : Type) where
  connection : ConnectionId
  message : CharacterMessage μ
  changes : Nat

structure AuthoritativeCharacterNetwork (μ : Type) where
  peers : SortedMap ConnectionId AuthoritativePeer := ∅
  characters : SortedMap ObjectId AuthoritativeCharacter := ∅
  nextControlEpoch : CharacterControlEpoch := ⟨1⟩
  lastAuthoritativeTick : Nat := 0
  sent : List (SentMessage μ) := []

def AuthoritativePeer.change (p : AuthoritativePeer) (what : MaterializationChange) : AuthoritativePeer :=
  { p with
    materializationEpoch := (nextMaterializationEpoch p.materializationEpoch).getD {}
    changes := p.changes ++ [what] }

/-- Only a connection that knows the character changes, and only if its epoch is not the last. -/
def AuthoritativePeer.forget (p : AuthoritativePeer) (character : ObjectId) : AuthoritativePeer :=
  if p.materialized.contains character then
    let changed := p.change (.unmaterialized character)
    { changed with materialized := p.materialized.erase character }
  else p

/-- The number to use and the one after it; after the last number there is none. -/
def takeSequence (next : CharacterControlEpoch) : Option CharacterControlEpoch × CharacterControlEpoch :=
  if next.isValid then (some next,next.tryNext.getD {}) else (none,next)

namespace AuthoritativeCharacterNetwork
variable {μ : Type}

def addPeer (n : AuthoritativeCharacterNetwork μ) (c : ConnectionId) : AuthoritativeCharacterNetwork μ :=
  if c.isValid && decide (n.peers.size < maximumCharacterNetworkPeers) && !n.peers.contains c then
    { n with peers := n.peers.insert c {} }
  else n

def registerCharacter (n : AuthoritativeCharacterNetwork μ) (character : ObjectId) (usable : Bool) :
    AuthoritativeCharacterNetwork μ :=
  if !usable || decide (maximumNetworkCharacters ≤ n.characters.size) then n
  else
    let epoch := takeSequence n.nextControlEpoch
    let next := { n with nextControlEpoch := epoch.2 }
    match epoch.1 with
    | some controlEpoch =>
      if n.characters.contains character then next
      else { next with characters := n.characters.insert character { controlEpoch } }
    | none => next

def markMaterialized (n : AuthoritativeCharacterNetwork μ) (c : ConnectionId) (character : ObjectId)
    (channel : StateChannelId) : AuthoritativeCharacterNetwork μ :=
  match n.peers.find? c with
  | none => n
  | some p =>
    if !n.characters.contains character || !channel.isValid ||
        (nextMaterializationEpoch p.materializationEpoch).isNone || p.materialized.contains character then n
    else
      let changed := p.change (.materialized character)
      let knowing := { changed with materialized := p.materialized.insert character channel }
      { n with peers := n.peers.insert c knowing }

/-- After a tick in which states of a character were published its number moves on. -/
def advanceState (n : AuthoritativeCharacterNetwork μ) (character : ObjectId) : AuthoritativeCharacterNetwork μ :=
  { n with characters := n.characters.modify character fun found =>
      { found with nextStateSequence := found.nextStateSequence.tryNext.getD {} } }

/-- What a state reports about its character besides the two numbers. -/
structure Snapshot (μ : Type) where
  acknowledgedInput : CharacterInputSequence := {}
  resolvedAction : CharacterActionSequence := {}
  motion : μ
  flags : UInt8 := 0
  activeAction : Option CharacterActionState := none

def buildState (n : AuthoritativeCharacterNetwork μ) (character : ObjectId) (tick : Nat) (snapshot : Snapshot μ) :
    Option (CharacterAuthoritativeState μ) :=
  match n.characters.find? character with
  | none => none
  | some found =>
    if tick = 0 || !found.nextStateSequence.isValid then none
    else some { snapshot with
      character, controlEpoch := found.controlEpoch, stateSequence := found.nextStateSequence, authoritativeTick := tick }

variable [CharacterMotion μ] (accepts : ConnectionId → CharacterMessage μ → Bool)

def queue (n : AuthoritativeCharacterNetwork μ) (c : ConnectionId) (message : CharacterMessage μ) :
    Bool × AuthoritativeCharacterNetwork μ :=
  if message.isValid && accepts c message then
    let changes := ((n.peers.find? c).map fun p => p.changes.length).getD 0
    (true,{ n with sent := n.sent ++ [{ connection := c, message, changes }] })
  else (false,n)

/-- The controller is told, and the character gets a new control epoch. -/
def revokeControl (n : AuthoritativeCharacterNetwork μ) (character : ObjectId) (tick : Nat) :
    AuthoritativeCharacterNetwork μ :=
  match n.characters.find? character with
  | none => n
  | some found =>
    match found.controller with
    | none => n
    | some c =>
      if tick = 0 then n
      else
        let told := (queue accepts n c (.control
          { character, controlEpoch := found.controlEpoch, authoritativeTick := tick })).2
        let epoch := takeSequence n.nextControlEpoch
        let revoked := { found with controlEpoch := epoch.1.getD {}, controller := none }
        { told with nextControlEpoch := epoch.2, characters := n.characters.insert character revoked }

def removePeer (n : AuthoritativeCharacterNetwork μ) (c : ConnectionId) (tick : Nat) :
    AuthoritativeCharacterNetwork μ :=
  if n.peers.contains c then
    let controlled := (n.characters.entries.filter fun e => e.2.controller = some c).map Prod.fst
    let revoked := controlled.foldl (fun n character => revokeControl accepts n character tick) n
    { revoked with peers := revoked.peers.erase c }
  else n

def unregisterCharacter (n : AuthoritativeCharacterNetwork μ) (character : ObjectId) (tick : Nat) :
    AuthoritativeCharacterNetwork μ :=
  if !n.characters.contains character ||
      n.peers.entries.any fun e =>
        e.2.materialized.contains character && (nextMaterializationEpoch e.2.materializationEpoch).isNone then n
  else
    let revoked := revokeControl accepts n character tick
    let peers := revoked.peers.mapValues fun _ p => p.forget character
    { revoked with peers, characters := revoked.characters.erase character }

def markUnmaterialized (n : AuthoritativeCharacterNetwork μ) (c : ConnectionId) (character : ObjectId) :
    AuthoritativeCharacterNetwork μ :=
  match n.peers.find? c with
  | none => n
  | some p =>
    if (nextMaterializationEpoch p.materializationEpoch).isNone || !p.materialized.contains character then n
    else
      let forgotten := { n with peers := n.peers.insert c (p.forget character) }
      match n.characters.find? character with
      | some found =>
        if found.controller = some c then revokeControl accepts forgotten character (max n.lastAuthoritativeTick 1)
        else forgotten
      | none => forgotten

def bindControl (n : AuthoritativeCharacterNetwork μ) (c : ConnectionId) (character : ObjectId) (tick : Nat) :
    AuthoritativeCharacterNetwork μ :=
  match n.peers.find? c with
  | none => n
  | some p =>
    match n.characters.find? character, p.materialized.find? character with
    | some _, some channel =>
      if tick = 0 then n
      else
        let freed := revokeControl accepts n character tick
        let epoch := takeSequence freed.nextControlEpoch
        match epoch.1, freed.characters.find? character with
        | some controlEpoch, some found =>
          let bound := { found with controlEpoch, controller := some c }
          let m := { freed with nextControlEpoch := epoch.2, characters := freed.characters.insert character bound }
          let told := queue accepts m c (.control
            { character, controlEpoch, channel, authoritativeTick := tick, bound := true })
          if told.1 then told.2
          else { told.2 with characters := freed.characters.insert character { bound with controller := none } }
        | _, _ => { freed with nextControlEpoch := epoch.2 }
    | _, _ => n

def stateFrame (n : AuthoritativeCharacterNetwork μ) (p : AuthoritativePeer) (tick : Nat)
    (selected : List (ObjectId × Snapshot μ)) : CharacterStateFrame μ :=
  let known := selected.filter fun e => p.materialized.contains e.1
  { serverTick := tick
    frameSequence := p.nextFrameSequence
    materializationEpoch := p.materializationEpoch
    states := known.filterMap fun e => buildState n e.1 tick e.2 }

/-- A frame that the scheduler refuses uses up its number all the same. -/
def publishFrame (n : AuthoritativeCharacterNetwork μ) (c : ConnectionId) (tick : Nat)
    (selected : List (ObjectId × Snapshot μ)) : AuthoritativeCharacterNetwork μ :=
  match n.peers.find? c with
  | none => n
  | some p =>
    let frame := stateFrame n p tick selected
    if !p.nextFrameSequence.isValid || frame.states.isEmpty || !frame.states.all (·.hasCompact) then n
    else
      let told := (queue accepts n c (.frame frame)).2
      let next := p.nextFrameSequence.tryNext.getD {}
      { told with peers := n.peers.insert c { p with nextFrameSequence := next } }

end AuthoritativeCharacterNetwork
end Gargantuan.CharacterNetwork
