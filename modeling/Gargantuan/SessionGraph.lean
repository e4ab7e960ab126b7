import Gargantuan.CharacterControl

/-!
The gameplay graph of a server session: for every peer the session keeps a record
of what its managers of characters and of Remotes hold for the peer, and once in
a step it brings managers and records in line with what the peer knows. The
manager of characters is the one modelled before; of the manager of Remotes the
model has what is published and materialized, and of relevance and replication
the candidates and the known objects. Sets are lists; nothing depends on their
order.
-/
namespace Gargantuan.GameSession
open CharacterNetwork

def maximumGameSessionPeers : Nat := 512

inductive PeerPhase where
  | transportConnected | bootstrapPending | accepted | ready
deriving DecidableEq

/-- What the session records of a peer. -/
structure Peer where
  phase : PeerPhase := .transportConnected
  controlledCharacter : Option ObjectId := none
  materializedCharacters : List ObjectId := []
  materializedRemotes : List ObjectId := []
  remoteMaterializedObjects : List ObjectId := []
deriving DecidableEq

def insertObject (x : ObjectId) (l : List ObjectId) : List ObjectId := if x ∈ l then l else l ++ [x]

def eraseObject (x : ObjectId) (l : List ObjectId) : List ObjectId := l.filter fun y => decide (y ≠ x)

structure RemotePeer where
  publishedRemotes : List ObjectId := []
  materializedObjects : List ObjectId := []
  publications : SortedMap ObjectId RemotePublicationId := ∅

structure Remotes where
  remotes : List ObjectId := []
  peers : SortedMap ConnectionId RemotePeer := ∅

namespace Remotes

def registerRemote (m : Remotes) (remote : ObjectId) : Bool × Remotes :=
  if remote.isValid && decide (remote ∉ m.remotes) then (true,{ m with remotes := m.remotes ++ [remote] }) else (false,m)

def RemotePeer.withdraw (remote : ObjectId) (peer : RemotePeer) : RemotePeer :=
  { peer with
    publishedRemotes := eraseObject remote peer.publishedRemotes
    materializedObjects := eraseObject remote peer.materializedObjects }

def unregisterRemote (m : Remotes) (remote : ObjectId) : Bool × Remotes :=
  if remote ∈ m.remotes then
    let forget (peer : RemotePeer) : RemotePeer :=
      { RemotePeer.withdraw remote peer with publications := peer.publications.erase remote }
    (true,{ remotes := eraseObject remote m.remotes, peers := m.peers.mapValues fun _ peer => forget peer })
  else (false,m)

def publishRemote (m : Remotes) (view : List ObjectId) (c : ConnectionId) (remote : ObjectId) : Bool × Remotes :=
  match m.peers.find? c with
  | none => (false,m)
  | some peer =>
    if remote ∉ m.remotes || remote ∉ view then (false,m)
    else
      let materialized := insertObject remote peer.materializedObjects
      if remote ∈ peer.publishedRemotes then
        let kept := { peer with materializedObjects := materialized }
        (true,{ m with peers := m.peers.insert c kept })
      else
        let current := (peer.publications.find? remote).getD {}
        match if current.isValid then current.tryNext else some ⟨1⟩ with
        | none => (false,m)
        | some publication =>
          let publications := peer.publications.insert remote publication
          let added : RemotePeer := ⟨peer.publishedRemotes ++ [remote],materialized,publications⟩
          (true,{ m with peers := m.peers.insert c added })

def markMaterialized (m : Remotes) (view : List ObjectId) (c : ConnectionId) (x : ObjectId) : Bool × Remotes :=
  match m.peers.find? c with
  | none => (false,m)
  | some peer =>
    if !x.isValid || x ∉ view then (false,m)
    else
      let marked := { peer with materializedObjects := insertObject x peer.materializedObjects }
      (true,{ m with peers := m.peers.insert c marked })

/-- A published Remote is unpublished with its materialization; it fails for what is not materialized. -/
def markUnmaterialized (m : Remotes) (c : ConnectionId) (x : ObjectId) : Bool × Remotes :=
  match m.peers.find? c with
  | none => (false,m)
  | some peer =>
    if x ∈ m.remotes ∧ x ∈ peer.publishedRemotes then
      (true,{ m with peers := m.peers.insert c (RemotePeer.withdraw x peer) })
    else
      let unmarked := { peer with materializedObjects := eraseObject x peer.materializedObjects }
      (decide (x ∈ peer.materializedObjects),{ m with peers := m.peers.insert c unmarked })

def published (m : Remotes) (c : ConnectionId) : List ObjectId := ((m.peers.find? c).map (·.publishedRemotes)).getD []

end Remotes

/-! ### The session -/

structure Session (μ : Type) where
  peers : SortedMap ConnectionId Peer := ∅
  serverCharacters : List ObjectId := []
  serverRemoteObjects : List ObjectId := []
  authority : AuthoritativeCharacterNetwork μ := {}
  remotes : Remotes := {}
  relevance : SortedMap ConnectionId (List ObjectId) := ∅
  replication : SortedMap ConnectionId (List ObjectId) := ∅
  pendingPeerFailures : List ConnectionId := []
  pendingSessionFailure : Bool := false
  currentTick : Nat := 0

structure World where
  rootPart : ObjectId → Option ObjectId := fun _ => none
  character : ConnectionId → Option ObjectId := fun _ => none

def characterStateChannel (x : ObjectId) : StateChannelId := ⟨x.combined⟩

abbrev Called (μ : Type) := Bool × AuthoritativeCharacterNetwork μ

section
variable {μ : Type} [CharacterMotion μ] (accepts : ConnectionId → CharacterMessage μ → Bool)

namespace Authority

def markMaterialized (n : AuthoritativeCharacterNetwork μ) (c : ConnectionId) (x : ObjectId) : Called μ :=
  let marked := n.markMaterialized c x (characterStateChannel x)
  (!n.knows c x && marked.knows c x,marked)

def markUnmaterialized (n : AuthoritativeCharacterNetwork μ) (c : ConnectionId) (x : ObjectId) : Called μ :=
  let marked := AuthoritativeCharacterNetwork.markUnmaterialized accepts n c x
  (n.knows c x && !marked.knows c x,marked)

def revokeControl (n : AuthoritativeCharacterNetwork μ) (x : ObjectId) (tick : Nat) : Called μ :=
  ((n.controllerOf x).isSome && tick != 0,AuthoritativeCharacterNetwork.revokeControl accepts n x tick)

/-- A peer gives up the character it is recorded to control. -/
def revokeHeld (n : AuthoritativeCharacterNetwork μ) (held : Option ObjectId) (tick : Nat) : Called μ :=
  match held with
  | some x => revokeControl accepts n x tick
  | none => (true,n)

def bindControl (n : AuthoritativeCharacterNetwork μ) (c : ConnectionId) (x : ObjectId) (tick : Nat) : Called μ :=
  let bound := AuthoritativeCharacterNetwork.bindControl accepts n c x tick
  (tick != 0 && n.characters.contains x && n.knows c x && decide (bound.controllerOf x = some c),bound)

end Authority

namespace Session

def setPeer (s : Session μ) (c : ConnectionId) (peer : Peer) : Session μ := { s with peers := s.peers.insert c peer }

def fail (s : Session μ) (c : ConnectionId) : Session μ :=
  { s with pendingPeerFailures := if c ∈ s.pendingPeerFailures then s.pendingPeerFailures else s.pendingPeerFailures ++ [c] }

/-- The tick that the manager of characters is told. -/
def tick (s : Session μ) : Nat := max s.currentTick 1

/-- A peer that leaves is removed from every manager. -/
def tearDownPeer (s : Session μ) (c : ConnectionId) : Session μ :=
  match s.peers.find? c with
  | none => s
  | some _ =>
    { s with
      peers := s.peers.erase c
      authority := AuthoritativeCharacterNetwork.removePeer accepts s.authority c s.tick
      remotes := { s.remotes with peers := s.remotes.peers.erase c }
      relevance := s.relevance.erase c
      replication := s.replication.erase c }

def onConnected (s : Session μ) (c : ConnectionId) : Session μ :=
  if !c.isValid || decide (maximumGameSessionPeers ≤ s.peers.size) then tearDownPeer accepts s c
  else if s.peers.contains c then s
  else s.setPeer c {}

/-- The hello of a client; `taken` says whether limits, player and managers could be set up. -/
def acceptServerPeer (s : Session μ) (c : ConnectionId) (taken : Bool) (candidates : List ObjectId) : Session μ :=
  match s.peers.find? c with
  | none => s
  | some peer =>
    if decide (peer.phase ≠ .transportConnected) || !taken then tearDownPeer accepts s c
    else
      let added := { s with relevance := s.relevance.insert c candidates, replication := s.replication.insert c [] }
      added.setPeer c { peer with phase := .bootstrapPending }

/-- The baseline of a peer was accepted by the scheduler, and its acceptance is queued. -/
def bootstrapped (s : Session μ) (c : ConnectionId) : Session μ :=
  match s.peers.find? c with
  | none => s
  | some peer => if peer.phase = .bootstrapPending then s.setPeer c { peer with phase := .accepted } else s

/-- Objects are marked one after the other until one fails. -/
def markAll (view : List ObjectId) (c : ConnectionId) : List ObjectId → Remotes → Bool × Remotes
  | [], m => (true,m)
  | x :: rest, m =>
    let marked := m.markMaterialized view c x
    if marked.1 then markAll view c rest marked.2 else (false,marked.2)

/-- The client is ready; `matching` says whether it names its session, `taken` whether the manager of Remotes takes it. -/
def readyServerPeer (s : Session μ) (c : ConnectionId) (matching taken : Bool) : Session μ :=
  match s.peers.find? c with
  | none => s
  | some peer =>
    if decide (peer.phase ≠ .accepted) || !matching then tearDownPeer accepts s c
    else if !taken || s.remotes.peers.contains c then tearDownPeer accepts s c
    else
      let remotes := { s.remotes with peers := s.remotes.peers.insert c {} }
      if s.authority.peers.contains c || !(s.authority.addPeer c).peers.contains c then
        tearDownPeer accepts { s with remotes } c
      else
        let known := (s.replication.find? c).getD []
        let marked := markAll known c known remotes
        let ready := { s with authority := s.authority.addPeer c, remotes := marked.2 }
        let served := ready.setPeer c { peer with phase := .ready, remoteMaterializedObjects := known }
        if marked.1 then served else tearDownPeer accepts served c

/-- What a frame publishes is materialized for the Remotes' sake, until something fails. -/
def markPublished (view : List ObjectId) (c : ConnectionId) :
    List ObjectId → Remotes → List ObjectId → Bool × Remotes × List ObjectId
  | [], m, held => (true,m,held)
  | x :: rest, m, held =>
    if x ∈ held then markPublished view c rest m held
    else
      let marked := m.markMaterialized view c x
      if marked.1 then markPublished view c rest marked.2 (held ++ [x]) else (false,marked.2,held)

/-- What the peer does not know any more is unmaterialized, until something fails. -/
def unmarkUnknown (view : List ObjectId) (c : ConnectionId) :
    List ObjectId → Remotes → List ObjectId → Bool × Remotes × List ObjectId
  | [], m, held => (true,m,held)
  | x :: rest, m, held =>
    if x ∈ view then unmarkUnknown view c rest m held
    else
      let unmarked := m.markUnmaterialized c x
      if unmarked.1 then unmarkUnknown view c rest unmarked.2 (eraseObject x held) else (false,unmarked.2,held)

def applyServerRemoteMaterialization (s : Session μ) (c : ConnectionId) (published known : List ObjectId) : Session μ :=
  match s.peers.find? c, s.replication.find? c with
  | some peer, some _ =>
    let committed := { s with replication := s.replication.insert c known }
    if peer.phase ≠ .ready then committed
    else
      let marked := markPublished known c published s.remotes peer.remoteMaterializedObjects
      let unmarked := if marked.1 then unmarkUnknown known c marked.2.2 marked.2.1 marked.2.2 else marked
      let after := { committed with remotes := unmarked.2.1 }
      let recorded := after.setPeer c { peer with remoteMaterializedObjects := unmarked.2.2 }
      if unmarked.1 then recorded else recorded.fail c
  | _, _ => s

def registerCharacter (s : Session μ) (x : ObjectId) : Session μ :=
  if x ∈ s.serverCharacters then s
  else
    let authority := s.authority.registerCharacter x true
    if !s.authority.characters.contains x && authority.characters.contains x then
      { s with authority, serverCharacters := s.serverCharacters ++ [x] }
    else { s with authority, pendingSessionFailure := true }

def registerRemote (s : Session μ) (x : ObjectId) : Session μ :=
  if x ∈ s.serverRemoteObjects then s
  else
    let registered := s.remotes.registerRemote x
    if registered.1 then { s with remotes := registered.2, serverRemoteObjects := s.serverRemoteObjects ++ [x] }
    else { s with pendingSessionFailure := true }

def forgetCharacter (x : ObjectId) (peer : Peer) : Peer :=
  { peer with
    materializedCharacters := eraseObject x peer.materializedCharacters
    controlledCharacter := if peer.controlledCharacter = some x then none else peer.controlledCharacter }

def forgetRemote (x : ObjectId) (peer : Peer) : Peer :=
  { peer with materializedRemotes := eraseObject x peer.materializedRemotes }

def unregisterCharacter (s : Session μ) (x : ObjectId) : Session μ :=
  if x ∈ s.serverCharacters then
    let authority := AuthoritativeCharacterNetwork.unregisterCharacter accepts s.authority x s.tick
    if s.authority.characters.contains x && !authority.characters.contains x then
      { s with
        authority
        serverCharacters := eraseObject x s.serverCharacters
        peers := s.peers.mapValues fun _ peer => forgetCharacter x peer }
    else { s with authority, pendingSessionFailure := true }
  else s

def unregisterRemote (s : Session μ) (x : ObjectId) : Session μ :=
  if x ∈ s.serverRemoteObjects then
    let unregistered := s.remotes.unregisterRemote x
    let erased := { s with remotes := unregistered.2, serverRemoteObjects := eraseObject x s.serverRemoteObjects }
    if unregistered.1 then { erased with peers := s.peers.mapValues fun _ peer => forgetRemote x peer }
    else { erased with pendingSessionFailure := true }
  else s

def unregisterServerObject (s : Session μ) (x : ObjectId) : Session μ :=
  let retired := unregisterCharacter accepts s x
  if retired.pendingSessionFailure then retired else unregisterRemote retired x

def desiredRemotes (s : Session μ) (view : List ObjectId) : List ObjectId :=
  s.serverRemoteObjects.filter fun x => decide (x ∈ view)

def desiredCharacters (s : Session μ) (world : World) (c : ConnectionId) (peer : Peer) (view : List ObjectId) :
    List ObjectId :=
  let selected := (s.relevance.find? c).getD []
  let candidates := peer.materializedCharacters ++ selected.filter fun x => decide (x ∉ peer.materializedCharacters)
  candidates.filter fun x =>
    decide (x ∈ s.serverCharacters) && decide (x ∈ view) && (world.rootPart x).any fun part => decide (part ∈ view)

/-- Remotes that are not to be known any more are unmaterialized; the flag tells whether all succeeded. -/
def unmarkRemotes (c : ConnectionId) (xs : List ObjectId) (start : Bool × Remotes) : Bool × Remotes :=
  xs.foldl (fun done x =>
    let unmarked := done.2.markUnmaterialized c x
    (done.1 && unmarked.1,unmarked.2)) start

def publishRemotes (view : List ObjectId) (c : ConnectionId) (xs : List ObjectId) (start : Bool × Remotes) :
    Bool × Remotes :=
  xs.foldl (fun done x =>
    let marked := done.2.markMaterialized view c x
    if marked.1 then
      let published := marked.2.publishRemote view c x
      (done.1 && published.1,published.2)
    else (false,marked.2)) start

/-- The characters that leave. With the one it controls the peer's record loses its control. -/
def unmarkCharacters (c : ConnectionId) (xs : List ObjectId) (start : Called μ × Option ObjectId) :
    Called μ × Option ObjectId :=
  xs.foldl (fun done x =>
    let unmarked := Authority.markUnmaterialized accepts done.1.2 c x
    ((done.1.1 && unmarked.1,unmarked.2),if unmarked.1 && decide (done.2 = some x) then none else done.2)) start

omit [CharacterMotion μ] in
def markCharacters (c : ConnectionId) (xs : List ObjectId) (start : Called μ) : Called μ :=
  xs.foldl (fun done x =>
    let marked := Authority.markMaterialized done.2 c x
    (done.1 && marked.1,marked.2)) start

def synchronizeControl (s : Session μ) (world : World) (c : ConnectionId) (peer : Peer) (view : List ObjectId) :
    Session μ :=
  if world.character c = peer.controlledCharacter then s.setPeer c peer
  else
    let revoked := Authority.revokeHeld accepts s.authority peer.controlledCharacter s.tick
    if !revoked.1 then ({ s with authority := revoked.2 }.setPeer c peer).fail c
    else
      let free := { s with authority := revoked.2 }.setPeer c { peer with controlledCharacter := none }
      match world.character c with
      | none => free
      | some x =>
        if x ∈ view ∧ x ∈ peer.materializedCharacters then
          let bound := Authority.bindControl accepts free.authority c x s.tick
          if bound.1 then { free with authority := bound.2 }.setPeer c { peer with controlledCharacter := some x }
          else { free with authority := bound.2 }.fail c
        else free

/-- The turn of a ready peer. -/
def synchronizePeer (s : Session μ) (world : World) (c : ConnectionId) (peer : Peer) (view : List ObjectId) :
    Session μ :=
  let remotes := desiredRemotes s view
  let unmarked := unmarkRemotes c (peer.materializedRemotes.filter fun x => decide (x ∉ remotes)) (true,s.remotes)
  let published := publishRemotes view c (remotes.filter fun x => decide (x ∉ peer.materializedRemotes)) unmarked
  let linked := { s with remotes := published.2 }
  if !published.1 then linked.fail c
  else
    let characters := desiredCharacters s world c peer view
    let left := unmarkCharacters accepts c (peer.materializedCharacters.filter fun x => decide (x ∉ characters))
      ((true,s.authority),peer.controlledCharacter)
    let marked := markCharacters c (characters.filter fun x => decide (x ∉ peer.materializedCharacters)) left.1
    let recorded := { peer with materializedRemotes := remotes, controlledCharacter := left.2 }
    let known := { linked with authority := marked.2 }
    if !marked.1 then (known.setPeer c recorded).fail c
    else synchronizeControl accepts known world c { recorded with materializedCharacters := characters } view

def synchronizePeers (world : World) : List ConnectionId → Session μ → Session μ
  | [], s => s
  | c :: rest, s =>
    match s.peers.find? c, s.replication.find? c with
    | some peer, some view =>
      if peer.phase = .ready then synchronizePeers world rest (synchronizePeer accepts s world c peer view)
      else synchronizePeers world rest s
    | _, _ => synchronizePeers world rest s

def synchronizeServerGraph (s : Session μ) (world : World) : Session μ :=
  synchronizePeers accepts world s.peers.keys s

end Session
end

/-- What happens to a session, with the answers of the scheduler during it. -/
inductive Event (μ : Type) where
  | connected (c : ConnectionId)
  | hello (c : ConnectionId) (taken : Bool) (candidates : List ObjectId)
  | bootstrapped (c : ConnectionId)
  | clientReady (c : ConnectionId) (matching taken : Bool)
  | frame (c : ConnectionId) (published known : List ObjectId)
  | evaluated (c : ConnectionId) (candidates : List ObjectId)
  | characterAdded (x : ObjectId)
  | remoteAdded (x : ObjectId)
  | objectRemoved (x : ObjectId)
  | stateFrame (c : ConnectionId) (selected : List (ObjectId × AuthoritativeCharacterNetwork.Snapshot μ))
  | statesPublished (x : ObjectId)
  | ticked (current authoritative : Nat)
  | remoteTerminal (c : ConnectionId)
  | peerFailure (c : ConnectionId)
  | drained (c : ConnectionId)
  | disconnected (c : ConnectionId)
  | synchronized (world : World)

structure Input (μ : Type) where
  event : Event μ
  accepts : ConnectionId → CharacterMessage μ → Bool := fun _ _ => true

/-- A session that failed takes no step; failed peers are drained before the graph is synchronized. -/
def step {μ : Type} [CharacterMotion μ] (s : Session μ) (input : Input μ) : Option (Session μ) :=
  if s.pendingSessionFailure then none
  else
    match input.event with
    | .connected c => some (s.onConnected input.accepts c)
    | .hello c taken candidates => some (s.acceptServerPeer input.accepts c taken candidates)
    | .bootstrapped c => some (s.bootstrapped c)
    | .clientReady c matching taken => some (s.readyServerPeer input.accepts c matching taken)
    | .frame c published known => some (s.applyServerRemoteMaterialization c published known)
    | .evaluated c candidates =>
      if s.relevance.contains c then some { s with relevance := s.relevance.insert c candidates } else none
    | .characterAdded x => some (s.registerCharacter x)
    | .remoteAdded x => some (s.registerRemote x)
    | .objectRemoved x => some (s.unregisterServerObject input.accepts x)
    | .stateFrame c selected =>
      some { s with authority := AuthoritativeCharacterNetwork.publishFrame input.accepts s.authority c s.tick selected }
    | .statesPublished x => some { s with authority := s.authority.advanceState x }
    | .ticked current authoritative =>
      some { s with currentTick := current, authority := { s.authority with lastAuthoritativeTick := authoritative } }
    | .remoteTerminal c => some ({ s with remotes := { s.remotes with peers := s.remotes.peers.erase c } }.fail c)
    | .peerFailure c => some (s.fail c)
    | .drained c =>
      if c ∈ s.pendingPeerFailures then
        let drained := { s with pendingPeerFailures := s.pendingPeerFailures.filter fun d => decide (d ≠ c) }
        some (drained.tearDownPeer input.accepts c)
      else none
    | .disconnected c => some (s.tearDownPeer input.accepts c)
    | .synchronized world =>
      if s.pendingPeerFailures.isEmpty then some (s.synchronizeServerGraph input.accepts world) else none

end Gargantuan.GameSession
