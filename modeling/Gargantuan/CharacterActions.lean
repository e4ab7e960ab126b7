import Gargantuan.AuthoritativeCharacters

/-!
The actions of characters, on both sides of one connection. The client numbers the
actions that it requests and predicts the latest one; the server processes the
requests that it admits, answers each with a result, and carries the number of the
last one in the states that it publishes. A server action is not requested, takes
a number of its own, and is carried in the same place.

Requests, results and transitions of control travel in order; states may be lost,
delayed and repeated. How characters move, when states are published and what the
scheduler refuses are inputs of the steps.
-/
namespace Gargantuan.CharacterActions
open CharacterNetwork

def maximumPendingCharacterActions : Nat := 8
def maximumCharacterPredictionHistory : Nat := 64
def maximumTick : Nat := 2 ^ 64 - 1

structure CharacterActionDefinition where
  token : Nat
  animation : AssetId
  contentRevision : AssetContentId
  durationTicks : Nat
deriving DecidableEq

/-- The registered actions; each is stored under its token. -/
structure ActionTable where
  definitions : SortedMap Nat CharacterActionDefinition := ∅
  keyed : ∀ token definition, definitions.find? token = some definition → definition.token = token

namespace ActionTable

def find? (actions : ActionTable) (token : Nat) : Option CharacterActionDefinition := actions.definitions.find? token

def registerAction (actions : ActionTable) (definition : CharacterActionDefinition) : ActionTable :=
  if known : actions.definitions.contains definition.token = true then actions
  else
    { definitions := actions.definitions.insert definition.token definition
      keyed := by
        intro token other found
        rw [SortedMap.find?_insert] at found
        split_ifs at found with here
        · cases found
          exact here.symm
        · exact actions.keyed token other found }

def empty : ActionTable := ⟨∅,by intro token definition found; cases found⟩

/-- Whether an action is registered with the same animation and content revision. -/
def recognises (actions : ActionTable) (action : CharacterActionState) : Bool :=
  (actions.find? action.actionToken).any fun definition =>
    decide (definition.animation = action.animation) && decide (definition.contentRevision = action.contentRevision)

end ActionTable

structure CharacterActionRequest where
  character : ObjectId
  controlEpoch : CharacterControlEpoch
  actionSequence : CharacterActionSequence
  basedOnInput : CharacterInputSequence := {}
  requestedActionToken : Nat
deriving DecidableEq

structure CharacterActionResult where
  character : ObjectId
  controlEpoch : CharacterControlEpoch
  actionSequence : CharacterActionSequence
  requestedActionToken : Nat
  accepted : Bool
  authoritativeAction : Option CharacterActionState
deriving DecidableEq

def actionEnd (action : CharacterActionState) : Nat := (action.startTick + action.durationTicks) % 2 ^ 64

def actionState (sequence : CharacterActionSequence) (definition : CharacterActionDefinition) (tick : Nat) :
    CharacterActionState :=
  ⟨sequence,definition.token,definition.animation,definition.contentRevision,tick,definition.durationTicks⟩

structure CharacterState where
  controlEpoch : CharacterControlEpoch
  controller : Option ConnectionId := none
  lastReceivedAction : CharacterActionSequence := {}
  resolvedAction : CharacterActionSequence := {}
  pendingActions : List CharacterActionRequest := []
  nextServerAction : CharacterActionSequence := ⟨1⟩
  activeAction : Option CharacterActionState := none
  lastActionEvaluationTick : Nat := 0

structure StepInput where
  selects : CharacterActionRequest → Option Nat := fun request => some request.requestedActionToken
  queues : CharacterActionRequest → Bool := fun _ => true
  motionFails : ObjectId → Bool := fun _ => false

namespace CharacterState

def startServerAction (s : CharacterState) (definition : CharacterActionDefinition) (tick : Nat) : CharacterState :=
  if maximumTick - tick < definition.durationTicks ∨ s.nextServerAction.isValid = false then s
  else
    { s with
      nextServerAction := s.nextServerAction.tryNext.getD {}, resolvedAction := s.nextServerAction,
      activeAction := some (actionState s.nextServerAction definition tick), lastActionEvaluationTick := tick }

def admits (s : CharacterState) (connection : ConnectionId) (request : CharacterActionRequest) : Bool :=
  decide (s.controller = some connection) && decide (s.controlEpoch = request.controlEpoch) &&
    (!s.lastReceivedAction.isValid || request.actionSequence.isNewerThan s.lastReceivedAction) &&
    decide (s.pendingActions.length < maximumPendingCharacterActions)

def withRequest (s : CharacterState) (request : CharacterActionRequest) : CharacterState :=
  { s with lastReceivedAction := request.actionSequence, pendingActions := s.pendingActions ++ [request] }

def acceptedAction (actions : ActionTable) (input : StepInput) (tick : Nat) (request : CharacterActionRequest) :
    Option CharacterActionState :=
  match (input.selects request).bind actions.find? with
  | none => none
  | some definition =>
    if maximumTick - tick < definition.durationTicks then none
    else some (actionState request.actionSequence definition tick)

def resolve (s : CharacterState) (request : CharacterActionRequest) (action : Option CharacterActionState)
    (tick : Nat) : CharacterState :=
  let resolved := { s with resolvedAction := request.actionSequence }
  match action with
  | none => resolved
  | some started => { resolved with activeAction := some started, lastActionEvaluationTick := tick }

def resultOf (request : CharacterActionRequest) (action : Option CharacterActionState) : CharacterActionResult :=
  ⟨request.character,request.controlEpoch,request.actionSequence,request.requestedActionToken,action.isSome,action⟩

structure Served where
  state : CharacterState
  processed : List CharacterActionRequest := []
  results : List CharacterActionResult := []
  refused : Bool := false

/-- The requests in turn, until a result is refused. -/
def serveRequests (actions : ActionTable) (input : StepInput) (tick : Nat) :
    CharacterState → List CharacterActionRequest → Served
  | s, [] => { state := s }
  | s, request :: rest =>
    let action := acceptedAction actions input tick request
    let resolved := s.resolve request action tick
    if input.queues request then
      let more := serveRequests actions input tick resolved rest
      { more with processed := request :: more.processed, results := resultOf request action :: more.results }
    else { state := resolved, processed := [request], refused := true }

def advanceAction (s : CharacterState) (actions : ActionTable) (fails : Bool) (tick : Nat) : CharacterState :=
  match s.activeAction with
  | none => s
  | some action =>
    match actions.find? action.actionToken with
    | none => { s with activeAction := none }
    | some _ =>
      let evaluated :=
        if s.lastActionEvaluationTick < min tick (actionEnd action) then
          if fails then { s with activeAction := none }
          else { s with lastActionEvaluationTick := min tick (actionEnd action) }
        else s
      if actionEnd action ≤ tick then { evaluated with activeAction := none } else evaluated

def serve (actions : ActionTable) (input : StepInput) (tick : Nat) (character : ObjectId) (s : CharacterState) : Served :=
  let served := serveRequests actions input tick s s.pendingActions
  let cleared := { served.state with pendingActions := [] }
  { served with state := cleared.advanceAction actions (input.motionFails character) tick }

end CharacterState

/-! ### The client -/

structure CharacterInputCommand where
  inputSequence : CharacterInputSequence
  simulationTick : Nat
deriving DecidableEq

structure PendingAction where
  sequence : CharacterActionSequence
  token : Nat
deriving DecidableEq

structure Replica (μ : Type) where
  epoch : CharacterControlEpoch := {}
  lastState : RealtimeStateSequence := {}
  lastResolvedAction : CharacterActionSequence := {}
  pendingState : Option (CharacterAuthoritativeState μ) := none
  activeAction : Option CharacterActionState := none

structure Client (μ : Type) where
  control : Option CharacterControlTransition := none
  pendingControl : Option CharacterControlTransition := none
  lastControlEpoch : CharacterControlEpoch := {}
  nextInput : CharacterInputSequence := ⟨1⟩
  nextAction : CharacterActionSequence := ⟨1⟩
  lastActionResult : CharacterActionSequence := {}
  history : List CharacterInputCommand := []
  predictedAction : Option CharacterActionState := none
  pendingActions : List PendingAction := []
  lastActionEvaluationTick : Nat := 0
  predictionSuspended : Bool := false
  predictionEnabled : Bool := true
  replicas : SortedMap ObjectId (Replica μ) := ∅

/-- How a command's movement went: not at all, or with the root motion of the predicted action evaluated or not. -/
inductive Movement where
  | refused
  | moved (evaluated : Bool)
deriving DecidableEq

namespace Client
variable {μ : Type}

def hardReset (c : Client μ) : Client μ :=
  { c with history := [], predictedAction := none, lastActionEvaluationTick := 0, predictionSuspended := false }

def handleControl (c : Client μ) (transition : CharacterControlTransition) : Client μ :=
  if transition.bound = false then
    let names (held : Option CharacterControlTransition) :=
      held.any fun h => decide (h.character = transition.character) && decide (h.controlEpoch = transition.controlEpoch)
    if !names c.control && !names c.pendingControl then c
    else hardReset { c with control := none, pendingControl := none, pendingActions := [], lastActionResult := {} }
  else if c.lastControlEpoch.isValid && !transition.controlEpoch.isNewerThan c.lastControlEpoch then c
  else
    let told := { c with lastControlEpoch := transition.controlEpoch, pendingActions := [], lastActionResult := {} }
    if c.replicas.contains transition.character then
      hardReset { told with control := some transition, pendingControl := none }
    else { told with pendingControl := some transition }

def markMaterialized (c : Client μ) (character : ObjectId) : Client μ :=
  if c.replicas.contains character then c
  else
    let known := { c with replicas := c.replicas.insert character {} }
    if c.pendingControl.any fun pending => decide (pending.character = character) then
      hardReset { known with control := c.pendingControl, pendingControl := none }
    else known

def markUnmaterialized (c : Client μ) (character : ObjectId) : Client μ :=
  let gone := { c with replicas := c.replicas.erase character }
  if c.control.any fun held => decide (held.character = character) then hardReset { gone with control := none } else gone

def findPending (sequence : CharacterActionSequence) :
    List PendingAction → Option (List PendingAction × PendingAction × List PendingAction)
  | [] => none
  | a :: rest =>
    if a.sequence = sequence then some ([],a,rest)
    else (findPending sequence rest).map fun (front,found,back) => (a :: front,found,back)

def handleResult (actions : ActionTable) (c : Client μ) (result : CharacterActionResult) : Client μ :=
  if !c.control.any fun held =>
      decide (held.character = result.character) && decide (held.controlEpoch = result.controlEpoch) then c
  else if c.lastActionResult.isValid && !result.actionSequence.isNewerThan c.lastActionResult then c
  else
    match findPending result.actionSequence c.pendingActions with
    | none => c
    | some (front,found,back) =>
      if found.token ≠ result.requestedActionToken then c
      else
        let taken := { c with pendingActions := front ++ back, lastActionResult := result.actionSequence }
        if c.predictedAction.any fun action => decide (action.actionSequence = result.actionSequence) then
          match result.authoritativeAction with
          | some action =>
            if result.accepted && actions.recognises action then
              { taken with
                predictedAction := some action,
                lastActionEvaluationTick := max c.lastActionEvaluationTick action.startTick }
            else { taken with predictedAction := none, lastActionEvaluationTick := 0 }
          | none => { taken with predictedAction := none, lastActionEvaluationTick := 0 }
        else taken

def handleState (actions : ActionTable) (c : Client μ) (state : CharacterAuthoritativeState μ) (reliable : Bool) :
    Client μ :=
  match c.replicas.find? state.character with
  | none => c
  | some replica =>
    if replica.epoch.isValid && decide (state.controlEpoch ≠ replica.epoch) &&
        !state.controlEpoch.isNewerThan replica.epoch then c
    else if replica.lastState.isValid && !state.stateSequence.isNewerThan replica.lastState then
      if reliable && decide (state.resolvedAction = replica.lastResolvedAction) &&
          state.activeAction.any actions.recognises then
        { c with replicas := c.replicas.insert state.character { replica with activeAction := state.activeAction } }
      else c
    else
      match replica.pendingState with
      | some waiting =>
        if !state.stateSequence.isNewerThan waiting.stateSequence then
          if reliable && state.activeAction.isSome && decide (state.resolvedAction = waiting.resolvedAction) then
            let merged := { waiting with activeAction := state.activeAction }
            { c with replicas := c.replicas.insert state.character { replica with pendingState := some merged } }
          else c
        else { c with replicas := c.replicas.insert state.character { replica with pendingState := some state } }
      | none => { c with replicas := c.replicas.insert state.character { replica with pendingState := some state } }

def predictAction (actions : ActionTable) (c : Client μ) (tick : Nat) (evaluated : Bool) : Client μ × Bool :=
  match c.predictedAction with
  | none => (c,true)
  | some action =>
    if tick ≤ c.lastActionEvaluationTick then (c,true)
    else
      match actions.find? action.actionToken with
      | none => ({ c with predictedAction := none },true)
      | some _ =>
        if !evaluated then (c,false)
        else
          let moved := { c with lastActionEvaluationTick := min tick (actionEnd action) }
          if actionEnd action ≤ tick then ({ moved with predictedAction := none },true) else (moved,true)

def predict (actions : ActionTable) (c : Client μ) (command : CharacterInputCommand) (movement : Movement) :
    Client μ × Bool :=
  match movement with
  | .refused => (c,false)
  | .moved evaluated => c.predictAction actions command.simulationTick evaluated

def submitInput (actions : ActionTable) (c : Client μ) (tick : Nat) (queued : Bool) (movement : Movement) : Client μ :=
  if c.control.isNone || !c.nextInput.isValid || (c.predictionEnabled && c.predictionSuspended) then c
  else if c.predictionEnabled && decide (maximumCharacterPredictionHistory ≤ c.history.length) then
    { c.hardReset with predictionSuspended := true }
  else if !queued then c
  else
    let command : CharacterInputCommand := ⟨c.nextInput,tick⟩
    let sent := { c with nextInput := c.nextInput.tryNext.getD {} }
    if !c.predictionEnabled then sent
    else
      let predicted := sent.predict actions command movement
      if predicted.2 then { predicted.1 with history := predicted.1.history ++ [command] }
      else { predicted.1.hardReset with predictionSuspended := true }

def requestAction (actions : ActionTable) (c : Client μ) (token tick : Nat) (queued : Bool) :
    Option CharacterActionRequest × Client μ :=
  match c.control with
  | none => (none,c)
  | some control =>
    if !c.nextAction.isValid || tick == 0 || c.predictionSuspended ||
        decide (maximumPendingCharacterActions ≤ c.pendingActions.length) || !queued then (none,c)
    else
      let basedOnInput : CharacterInputSequence := if 1 < c.nextInput.value then ⟨c.nextInput.value - 1⟩ else {}
      let request : CharacterActionRequest := ⟨control.character,control.controlEpoch,c.nextAction,basedOnInput,token⟩
      let pendingActions := c.pendingActions ++ [⟨c.nextAction,token⟩]
      let asked := { c with pendingActions, nextAction := c.nextAction.tryNext.getD {} }
      match actions.find? token with
      | some definition =>
        if c.predictionEnabled then
          let predictedAction := some (actionState c.nextAction definition tick)
          (some request,{ asked with predictedAction, lastActionEvaluationTick := tick })
        else (some request,asked)
      | none => (some request,asked)

def setPredictionEnabled (c : Client μ) (enabled : Bool) : Client μ :=
  if enabled then { c with predictionEnabled := true } else hardReset { c with predictionEnabled := false }

def acknowledged (state : CharacterAuthoritativeState μ) (command : CharacterInputCommand) : Bool :=
  state.acknowledgedInput.isValid && !command.inputSequence.isNewerThan state.acknowledgedInput

def reconcileAction (actions : ActionTable) (c : Client μ) (state : CharacterAuthoritativeState μ) : Client μ × Bool :=
  if c.predictedAction.any fun action =>
      !state.resolvedAction.isValid || action.actionSequence.isNewerThan state.resolvedAction then (c,false)
  else
    match state.activeAction with
    | some action =>
      if c.predictionEnabled then
        if actions.recognises action then
          ({ c with predictedAction := some action, lastActionEvaluationTick := state.authoritativeTick },false)
        else ({ c with predictedAction := none },true)
      else ({ c with predictedAction := none },false)
    | none => ({ c with predictedAction := none },false)

def replay (actions : ActionTable) (movements : CharacterInputCommand → Movement) (c : Client μ) : Client μ :=
  c.history.foldl (fun c command => (c.predict actions command (movements command)).1) c

/-- A replica under control of nobody here takes the state, unless it is of an older epoch. -/
def applyRemote (c : Client μ) (character : ObjectId) (replica : Replica μ) (state : CharacterAuthoritativeState μ) :
    Client μ :=
  if replica.epoch.isValid && decide (state.controlEpoch ≠ replica.epoch) &&
      !state.controlEpoch.isNewerThan replica.epoch then c
  else
    let applied : Replica μ := ⟨state.controlEpoch,state.stateSequence,state.resolvedAction,none,state.activeAction⟩
    { c with replicas := c.replicas.insert character applied }

def rewound (actions : ActionTable) (c : Client μ) (state : CharacterAuthoritativeState μ) : Client μ × Bool :=
  reconcileAction actions { c with history := c.history.dropWhile (acknowledged state) } state

/-- Whether a reconciliation is a hard reset. -/
def resets (actions : ActionTable) (c : Client μ) (state : CharacterAuthoritativeState μ) (corrected : Bool) : Bool :=
  corrected || (state.acknowledgedInput.isValid && c.nextInput.isValid &&
    decide (c.nextInput.value ≤ state.acknowledgedInput.value)) || (c.rewound actions state).2

def applyLocal (actions : ActionTable) (c : Client μ) (character : ObjectId) (state : CharacterAuthoritativeState μ)
    (corrected : Bool) (movements : CharacterInputCommand → Movement) : Client μ :=
  let reset := c.resets actions state corrected
  let acted := (c.rewound actions state).1
  let predicted := if reset || !c.predictionEnabled then acted.hardReset else acted.replay actions movements
  let applied : Replica μ :=
    ⟨state.controlEpoch,state.stateSequence,state.resolvedAction,none,if reset then none else state.activeAction⟩
  { predicted with predictionSuspended := false, replicas := predicted.replicas.insert character applied }

def waitingState (c : Client μ) (character : ObjectId) : Option (CharacterAuthoritativeState μ) :=
  (c.replicas.find? character).bind Replica.pendingState

/-- The reconciliation of one replica with the state that waits for it. `corrected` says whether the state is a
    teleport or further away than a hard correction. -/
def reconcile (actions : ActionTable) (c : Client μ) (character : ObjectId) (corrected : Bool)
    (movements : CharacterInputCommand → Movement) : Client μ :=
  match c.replicas.find? character with
  | none => c
  | some replica =>
    match replica.pendingState with
    | none => c
    | some state =>
      let taken := { c with replicas := c.replicas.insert character { replica with pendingState := none } }
      match c.control with
      | none => taken.applyRemote character replica state
      | some control =>
        if control.character ≠ character then taken.applyRemote character replica state
        else if state.controlEpoch ≠ control.controlEpoch then taken
        else taken.applyLocal actions character state corrected movements

end Client

structure Setup where
  connection : ConnectionId
  serverActions : ActionTable
  clientActions : ActionTable

inductive ServerMessage where
  | control (transition : CharacterControlTransition)
  | result (result : CharacterActionResult)

structure Published (μ : Type) where
  state : CharacterAuthoritativeState μ
  processed : List CharacterActionRequest

/-- Both networks, the messages in flight between them, and the record of what the server granted the connection,
    published, admitted, processed and answered. -/
structure System (μ : Type) where
  characters : SortedMap ObjectId CharacterState := ∅
  nextControlEpoch : CharacterControlEpoch := ⟨1⟩
  client : Client μ := {}
  toServer : List CharacterActionRequest := []
  toClient : List ServerMessage := []
  granted : List (ObjectId × CharacterControlEpoch) := []
  published : List (Published μ) := []
  admitted : List CharacterActionRequest := []
  processed : List CharacterActionRequest := []
  results : List CharacterActionResult := []
  refused : Bool := false

/-- What a published state shows of a character besides its control and actions. -/
structure Snapshot (μ : Type) where
  stateSequence : RealtimeStateSequence
  acknowledgedInput : CharacterInputSequence
  tick : Nat
  motion : μ
  flags : UInt8

namespace System
variable {μ : Type}

def setCharacter (y : System μ) (x : ObjectId) (s : CharacterState) : System μ :=
  { y with characters := y.characters.insert x s }

def registerCharacter (y : System μ) (x : ObjectId) : System μ :=
  match takeSequence y.nextControlEpoch with
  | (none,_) => y
  | (some controlEpoch,next) =>
    if y.characters.contains x then { y with nextControlEpoch := next }
    else setCharacter { y with nextControlEpoch := next } x { controlEpoch }

def revokeControl (setup : Setup) (y : System μ) (x : ObjectId) (tick : Nat) (queued : Bool) : System μ :=
  match y.characters.find? x with
  | none => y
  | some s =>
    match s.controller with
    | none => y
    | some d =>
      if tick = 0 then y
      else
        let taken := takeSequence y.nextControlEpoch
        let transition : CharacterControlTransition := ⟨x,s.controlEpoch,{},tick,false⟩
        let toClient := if d = setup.connection ∧ queued then y.toClient ++ [.control transition] else y.toClient
        setCharacter { y with nextControlEpoch := taken.2, toClient } x
          { s with controlEpoch := taken.1.getD {}, controller := none, pendingActions := [], activeAction := none }

def unregisterCharacter (setup : Setup) (y : System μ) (x : ObjectId) (tick : Nat) (queued : Bool) : System μ :=
  let revoked := y.revokeControl setup x tick queued
  { revoked with characters := revoked.characters.erase x }

/-- `bindable` says whether the connection is a peer for which the character is materialized. -/
def bindControl (setup : Setup) (y : System μ) (d : ConnectionId) (x : ObjectId) (channel : StateChannelId) (tick : Nat)
    (bindable queued : Bool) : System μ :=
  if tick = 0 ∨ bindable = false ∨ y.characters.contains x = false then y
  else
    let revoked := y.revokeControl setup x tick queued
    match revoked.characters.find? x, takeSequence revoked.nextControlEpoch with
    | none, _ | _, (none,_) => revoked
    | some s, (some controlEpoch,next) =>
      let free : CharacterState :=
        { s with
          controlEpoch, controller := none, lastReceivedAction := {}, resolvedAction := {}, pendingActions := [],
          activeAction := none }
      let taken := { revoked with nextControlEpoch := next }
      if !queued then taken.setCharacter x free
      else
        let bound := taken.setCharacter x { free with controller := some d }
        if d = setup.connection then
          let transition : CharacterControlTransition := ⟨x,controlEpoch,channel,tick,true⟩
          { bound with toClient := bound.toClient ++ [.control transition], granted := (x,controlEpoch) :: bound.granted }
        else bound

def startServerAction (setup : Setup) (y : System μ) (x : ObjectId) (token tick : Nat) : System μ :=
  match y.characters.find? x, setup.serverActions.find? token with
  | some s, some definition => if tick = 0 then y else y.setCharacter x (s.startServerAction definition tick)
  | _, _ => y

def handleRequest (y : System μ) (d : ConnectionId) (request : CharacterActionRequest) : System μ :=
  match y.characters.find? request.character with
  | none => y
  | some s =>
    if s.admits d request then
      { y.setCharacter request.character (s.withRequest request) with admitted := y.admitted ++ [request] }
    else y

def served (setup : Setup) (y : System μ) (tick : Nat) (input : StepInput) : List (ObjectId × CharacterState.Served) :=
  y.characters.entries.map fun e => (e.1,e.2.serve setup.serverActions input tick e.1)

/-- All characters in turn; the results for the client's connection are sent to it. -/
def step (setup : Setup) (y : System μ) (tick : Nat) (input : StepInput) : System μ :=
  if tick = 0 then y
  else
    let served := y.served setup tick input
    let own := served.filter fun e =>
      ((y.characters.find? e.1).bind CharacterState.controller) = some setup.connection
    { y with
      characters := y.characters.mapValues fun x s => (s.serve setup.serverActions input tick x).state
      toClient := y.toClient ++ own.flatMap fun e => e.2.results.map ServerMessage.result
      processed := y.processed ++ served.flatMap fun e => e.2.processed
      results := y.results ++ served.flatMap fun e => e.2.results
      refused := y.refused || served.any fun e => e.2.refused }

def publishState (y : System μ) (x : ObjectId) (snapshot : Snapshot μ) : System μ :=
  match y.characters.find? x with
  | none => y
  | some s =>
    if s.controlEpoch.isValid = false then y
    else
      let state : CharacterAuthoritativeState μ :=
        { character := x, controlEpoch := s.controlEpoch, stateSequence := snapshot.stateSequence
          acknowledgedInput := snapshot.acknowledgedInput, resolvedAction := s.resolvedAction
          authoritativeTick := snapshot.tick, motion := snapshot.motion, flags := snapshot.flags
          activeAction := s.activeAction }
      { y with published := y.published ++ [⟨state,y.processed⟩] }

end System

inductive Event (μ : Type) where
  | registerCharacter (x : ObjectId)
  | unregisterCharacter (x : ObjectId) (tick : Nat) (queued : Bool)
  | bindControl (d : ConnectionId) (x : ObjectId) (channel : StateChannelId) (tick : Nat) (bindable queued : Bool)
  | revokeControl (x : ObjectId) (tick : Nat) (queued : Bool)
  | startServerAction (x : ObjectId) (token tick : Nat)
  | deliverRequest
  | foreignRequest (d : ConnectionId) (request : CharacterActionRequest)
  | step (tick : Nat) (input : StepInput)
  | publishState (x : ObjectId) (snapshot : Snapshot μ)
  | deliverMessage
  | deliverState (index : Nat) (reliable : Bool)
  | markMaterialized (x : ObjectId)
  | markUnmaterialized (x : ObjectId)
  | submitInput (tick : Nat) (queued : Bool) (movement : Movement)
  | requestAction (token tick : Nat) (queued : Bool)
  | setPredictionEnabled (enabled : Bool)
  | reconcile (x : ObjectId) (corrected : Bool) (movements : CharacterInputCommand → Movement)

/-- One step of the system. Deliveries take the first message of their channel, or any published state; a request of
    another connection is what any client may send. -/
def step {μ : Type} (setup : Setup) (y : System μ) : Event μ → Option (System μ)
  | .registerCharacter x => some (y.registerCharacter x)
  | .unregisterCharacter x tick queued => some (y.unregisterCharacter setup x tick queued)
  | .bindControl d x channel tick bindable queued => some (y.bindControl setup d x channel tick bindable queued)
  | .revokeControl x tick queued => some (y.revokeControl setup x tick queued)
  | .startServerAction x token tick => some (y.startServerAction setup x token tick)
  | .deliverRequest =>
    match y.toServer with
    | [] => none
    | request :: rest => some (System.handleRequest { y with toServer := rest } setup.connection request)
  | .foreignRequest d request =>
    if d ≠ setup.connection ∧ request.actionSequence.isValid then some (y.handleRequest d request) else none
  | .step tick input => some (y.step setup tick input)
  | .publishState x snapshot => some (y.publishState x snapshot)
  | .deliverMessage =>
    match y.toClient with
    | [] => none
    | .control transition :: rest => some { y with toClient := rest, client := y.client.handleControl transition }
    | .result result :: rest =>
      some { y with toClient := rest, client := y.client.handleResult setup.clientActions result }
  | .deliverState index reliable =>
    match y.published[index]? with
    | none => none
    | some p => some { y with client := y.client.handleState setup.clientActions p.state reliable }
  | .markMaterialized x => some { y with client := y.client.markMaterialized x }
  | .markUnmaterialized x => some { y with client := y.client.markUnmaterialized x }
  | .submitInput tick queued movement =>
    some { y with client := y.client.submitInput setup.clientActions tick queued movement }
  | .requestAction token tick queued =>
    let asked := y.client.requestAction setup.clientActions token tick queued
    some { y with client := asked.2, toServer := y.toServer ++ asked.1.toList }
  | .setPredictionEnabled enabled => some { y with client := y.client.setPredictionEnabled enabled }
  | .reconcile x corrected movements =>
    some { y with client := y.client.reconcile setup.clientActions x corrected movements }

end Gargantuan.CharacterActions
