import Gargantuan.CharacterActionRuns

/-!
Reconciling with a published state. The number in a state says which requests were
processed before the state was built, as long as the server's own actions are in
line with it. Then a prediction whose request the server has still to process is
above it and is kept, and one whose request was processed is not (`actions_run`).
Requests are answered in order in every run.
-/
namespace Gargantuan.CharacterActions
open List Option Client MonotonicSequence System
open CharacterNetwork

section Client
variable {μ : Type} {actions : ActionTable} {granted : List (ObjectId × CharacterControlEpoch)}
  {published : List (Published μ)} {c c' : Client μ}

section
variable (sound : ClientSound actions granted published c)
include sound

theorem ClientSound.predicts (predicts : Predicts c c') :
    ClientSound actions granted published c' := by
  obtain ⟨tick,same⟩ := predicts.same
  rw [same]
  exact sound.congr (.inr (.inl rfl)) (.inr rfl) (.refl _) rfl predicts.action fun _ _ found => found

theorem ClientSound.hardReset :
    ClientSound actions granted published c.hardReset :=
  sound.congr (.inr (.inl rfl)) (.inr rfl) (.refl _) rfl (.inl rfl) fun _ _ found => found

theorem ClientSound.remember (nextInput : CharacterInputSequence)
    (history : List CharacterInputCommand) (suspended enabled : Bool) :
    ClientSound actions granted published
      { c with nextInput, history, predictionSuspended := suspended, predictionEnabled := enabled } :=
  sound.congr (.inr (.inl rfl)) (.inr rfl) (.refl _) rfl (.inr rfl) fun _ _ found => found

theorem submitInput_client (tick : Nat) (queued : Bool)
    (movement : Movement) : ClientSound actions granted published (c.submitInput actions tick queued movement) := by
  unfold submitInput
  split_ifs with idle full unsent disabled
  · exact sound
  · exact sound.hardReset.remember _ _ true c.predictionEnabled
  · exact sound
  · exact sound.remember _ c.history c.predictionSuspended c.predictionEnabled
  · have sent : ClientSound actions granted published { c with nextInput := c.nextInput.tryNext.getD {} } :=
      sound.remember _ c.history c.predictionSuspended c.predictionEnabled
    dsimp only
    have predicted := sent.predicts (predict_predicts actions _ ⟨c.nextInput,tick⟩ movement)
    split_ifs
    · exact predicted.remember _ _ _ _
    · exact predicted.hardReset.remember _ _ true _

theorem setPredictionEnabled_client (enabled : Bool) :
    ClientSound actions granted published (c.setPredictionEnabled enabled) := by
  unfold setPredictionEnabled
  split_ifs
  · exact sound.remember c.nextInput c.history c.predictionSuspended true
  · exact (sound.remember c.nextInput c.history c.predictionSuspended false).hardReset

end

def Client.asking (c : Client μ) (token : Nat) : Client μ :=
  { c with pendingActions := c.pendingActions ++ [⟨c.nextAction,token⟩], nextAction := c.nextAction.tryNext.getD {} }

theorem issued_asking (valid : c.nextAction.isValid) (token : Nat) :
    c.issued < c.nextAction.toNat ∧ c.nextAction.toNat ≤ (c.asking token).issued := by
  have positive := isValid_iff.mp valid
  constructor
  · rw [issued,if_pos valid]
    omega
  · rw [issued,asking]
    cases stepped : c.nextAction.tryNext with
    | none =>
      have small := c.nextAction.value.toNat_lt
      have unset : ¬ (({} : CharacterActionSequence).isValid) := by decide
      simp only [getD_none,if_neg unset,maximumTick,MonotonicSequence.toNat]
      omega
    | some next =>
      have larger := (tryNext_toNat stepped).2
      have valid' : next.isValid := by
        rw [isValid_iff]
        omega
      simp only [getD_some,if_pos valid']
      omega

theorem ClientSound.asking (sound : ClientSound actions granted published c) (valid : c.nextAction.isValid)
    (token : Nat) : ClientSound actions granted published (c.asking token) := by
  obtain ⟨fresh,issued⟩ := issued_asking valid token
  refine { sound with ascending := ?_, issued := ?_ }
  · refine pairwise_append.mpr ⟨sound.ascending,pairwise_singleton _ _,?_⟩
    intro a old b new
    rw [mem_singleton.mp new]
    exact (sound.issued a old).trans_lt fresh
  · intro a member
    rcases mem_append.mp member with old | new
    · exact (sound.issued a old).trans (fresh.le.trans issued)
    · rwa [mem_singleton.mp new]

theorem requestAction_cases (actions : ActionTable) (c : Client μ) (token tick : Nat) (queued : Bool) :
    c.requestAction actions token tick queued = (none,c) ∨
      c.nextAction.isValid ∧ ∃ request, request.actionSequence = c.nextAction ∧
        (c.requestAction actions token tick queued = (some request,c.asking token) ∨
          ∃ definition, actions.find? token = some definition ∧
            c.requestAction actions token tick queued =
              (some request,{ c.asking token with
                predictedAction := some (actionState c.nextAction definition tick), lastActionEvaluationTick := tick })) := by
  unfold requestAction
  cases held : c.control with
  | none => exact .inl rfl
  | some control =>
    dsimp only
    by_cases refused : (!c.nextAction.isValid || tick == 0 || c.predictionSuspended ||
        decide (maximumPendingCharacterActions ≤ c.pendingActions.length) || !queued) = true
    · rw [if_pos refused]
      exact .inl rfl
    rw [if_neg refused]
    have valid : c.nextAction.isValid := by
      simp only [Bool.or_eq_true,Bool.not_eq_true',not_or] at refused
      simpa using refused.1.1.1.1
    set request : CharacterActionRequest := ⟨control.character,control.controlEpoch,c.nextAction,
      if 1 < c.nextInput.value then ⟨c.nextInput.value - 1⟩ else {},token⟩ with request_def
    refine .inr ⟨valid,request,rfl,?_⟩
    cases known : actions.find? token with
    | none =>
      rw [asking,held]
      exact .inl rfl
    | some definition =>
      dsimp only
      by_cases enabled : c.predictionEnabled = true
      · rw [if_pos enabled,asking,held]
        exact .inr ⟨definition,rfl,rfl⟩
      · rw [if_neg enabled,asking,held]
        exact .inl rfl

theorem requestAction_client (sound : ClientSound actions granted published c) (token tick : Nat) (queued : Bool) :
    ClientSound actions granted published (c.requestAction actions token tick queued).2 ∧
      c.issued ≤ (c.requestAction actions token tick queued).2.issued ∧
      ∀ q ∈ (c.requestAction actions token tick queued).1, c.issued < q.actionSequence.toNat ∧
        q.actionSequence.toNat ≤ (c.requestAction actions token tick queued).2.issued := by
  rcases requestAction_cases actions c token tick queued with same | ⟨valid,request,number,same | ⟨definition,known,same⟩⟩
  · rw [same]
    exact ⟨sound,le_rfl,fun q none => by cases none⟩
  · obtain ⟨fresh,issued⟩ := issued_asking valid token
    rw [same]
    refine ⟨sound.asking valid token,fresh.le.trans issued,?_⟩
    intro q asked
    cases asked
    rw [number]
    exact ⟨fresh,issued⟩
  · obtain ⟨fresh,issued⟩ := issued_asking valid token
    have asking := sound.asking valid token
    rw [same]
    refine ⟨{ asking with registered := ?_ },
      fresh.le.trans issued,?_⟩
    · intro a predicted
      cases predicted
      rw [actionState,actions.keyed token definition known,known]
      rfl
    · intro q asked
      cases asked
      rw [number]
      exact ⟨fresh,issued⟩

theorem Client.issued_congr (same : c'.nextAction = c.nextAction) : c'.issued = c.issued := by
  rw [issued,issued,same]

theorem Predicts.nextAction (predicts : Predicts c c') : c'.nextAction = c.nextAction := by
  obtain ⟨tick,same⟩ := predicts.same
  rw [same]

theorem handleControl_nextAction (c : Client μ) (t : CharacterControlTransition) :
    (c.handleControl t).nextAction = c.nextAction := by
  unfold handleControl
  dsimp only
  split_ifs <;> rfl

theorem markMaterialized_nextAction (c : Client μ) (x : ObjectId) : (c.markMaterialized x).nextAction = c.nextAction := by
  unfold markMaterialized
  split_ifs <;> rfl

theorem markUnmaterialized_nextAction (c : Client μ) (x : ObjectId) :
    (c.markUnmaterialized x).nextAction = c.nextAction := by
  unfold markUnmaterialized
  split_ifs <;> rfl

theorem handleResult_nextAction (actions : ActionTable) (c : Client μ) (result : CharacterActionResult) :
    (c.handleResult actions result).nextAction = c.nextAction := by
  unfold handleResult
  split
  · rfl
  split
  · rfl
  split
  · rfl
  split
  · rfl
  split
  · split
    · split <;> rfl
    · rfl
  · rfl

theorem handleState_nextAction (actions : ActionTable) (c : Client μ) (state : CharacterAuthoritativeState μ)
    (reliable : Bool) : (c.handleState actions state reliable).nextAction = c.nextAction := by
  unfold handleState
  split
  · rfl
  split
  · rfl
  split
  · split <;> rfl
  split
  · split
    · split <;> rfl
    · rfl
  · rfl

theorem submitInput_nextAction (actions : ActionTable) (c : Client μ) (tick : Nat) (queued : Bool) (movement : Movement) :
    (c.submitInput actions tick queued movement).nextAction = c.nextAction := by
  unfold submitInput
  split_ifs
  · rfl
  · rfl
  · rfl
  · rfl
  · have predicts := predict_predicts actions { c with nextInput := c.nextInput.tryNext.getD {} } ⟨c.nextInput,tick⟩ movement
    dsimp only
    split_ifs
    · exact predicts.nextAction
    · exact predicts.nextAction

theorem setPredictionEnabled_nextAction (c : Client μ) (enabled : Bool) :
    (c.setPredictionEnabled enabled).nextAction = c.nextAction := by
  unfold setPredictionEnabled
  split_ifs <;> rfl

theorem replay_nextAction (actions : ActionTable) (c : Client μ) (movements : CharacterInputCommand → Movement) :
    (c.replay actions movements).nextAction = c.nextAction := by
  unfold replay
  generalize c.history = commands
  induction commands generalizing c with
  | nil => rfl
  | cons command rest ih =>
    exact (ih _).trans (predict_predicts actions c command (movements command)).nextAction

theorem rewound_nextAction (actions : ActionTable) (c : Client μ) (state : CharacterAuthoritativeState μ) :
    (c.rewound actions state).1.nextAction = c.nextAction := by
  unfold rewound reconcileAction
  split
  · rfl
  split
  · split_ifs <;> rfl
  · rfl

theorem reconcile_nextAction (actions : ActionTable) (c : Client μ) (x : ObjectId) (corrected : Bool)
    (movements : CharacterInputCommand → Movement) :
    (c.reconcile actions x corrected movements).nextAction = c.nextAction := by
  have remote : ∀ (d : Client μ) x replica state, (d.applyRemote x replica state).nextAction = d.nextAction := by
    intro d x replica state
    unfold applyRemote
    split_ifs <;> rfl
  unfold reconcile
  split
  · rfl
  split
  · rfl
  split
  · exact remote _ _ _ _
  split_ifs
  · exact remote _ _ _ _
  · rfl
  · unfold applyLocal
    dsimp only
    split
    · exact rewound_nextAction actions _ _
    · exact (replay_nextAction actions _ movements).trans (rewound_nextAction actions _ _)

section
variable (sound : ClientSound actions granted published c)
include sound

theorem reconcileAction_client
    (state : CharacterAuthoritativeState μ) : ClientSound actions granted published (c.reconcileAction actions state).1 := by
  have dropped : ClientSound actions granted published { c with predictedAction := none } :=
    sound.congr (.inr (.inl rfl)) (.inr rfl) (.refl _) rfl (.inl rfl) fun _ _ found => found
  unfold reconcileAction
  split
  · exact sound
  split
  · split
    · split
      · next known =>
        refine { sound with registered := ?_ }
        intro a same
        cases same
        exact recognises_registered known
      · exact dropped
    · exact dropped
  · exact dropped

theorem replay_client (movements : CharacterInputCommand → Movement) :
    ClientSound actions granted published (c.replay actions movements) := by
  unfold replay
  generalize c.history = commands
  induction commands generalizing c with
  | nil => exact sound
  | cons command rest ih => exact ih (sound.predicts (predict_predicts actions c command (movements command)))

theorem ClientSound.settle {x : ObjectId} {replica : Replica μ}
    (taken : replica.pendingState = none) (suspended : Bool) :
    ClientSound actions granted published
      { c with predictionSuspended := suspended, replicas := c.replicas.insert x replica } := by
  refine { sound with waiting := ?_ }
  intro z s found
  rcases waitingState_insert found with ⟨-,waits⟩ | before
  · rw [taken] at waits
    cases waits
  · exact sound.waiting z s before

theorem reconcile_client (x : ObjectId) (corrected : Bool)
    (movements : CharacterInputCommand → Movement) :
    ClientSound actions granted published (c.reconcile actions x corrected movements) := by
  unfold reconcile
  cases c.replicas.find? x with
  | none => exact sound
  | some replica =>
  dsimp only
  cases replica.pendingState with
  | none => exact sound
  | some state =>
  have taken : ClientSound actions granted published
      { c with replicas := c.replicas.insert x { replica with pendingState := none } } :=
    sound.settle rfl c.predictionSuspended
  have remote : ClientSound actions granted published
      (.applyRemote { c with replicas := c.replicas.insert x { replica with pendingState := none } } x replica state) := by
    unfold applyRemote
    split_ifs
    · exact taken
    · exact taken.settle rfl c.predictionSuspended
  dsimp only
  split
  · exact remote
  split_ifs
  · exact remote
  · exact taken
  · generalize ({ c with replicas := c.replicas.insert x { replica with pendingState := none } } : Client μ) = d at taken
    have acted : ClientSound actions granted published (d.rewound actions state).1 :=
      reconcileAction_client (taken.remember d.nextInput _ d.predictionSuspended d.predictionEnabled) state
    unfold applyLocal
    dsimp only
    split
    · exact acted.hardReset.settle rfl false
    · exact (replay_client acted movements).settle rfl false

end

theorem folded_predicted (actions : ActionTable) (movements : CharacterInputCommand → Movement)
    (commands : List CharacterInputCommand) (c : Client μ) :
    (commands.foldl (fun c command => (c.predict actions command (movements command)).1) c).predictedAction = none ∨
      (commands.foldl (fun c command => (c.predict actions command (movements command)).1) c).predictedAction =
        c.predictedAction := by
  induction commands generalizing c with
  | nil => exact .inr rfl
  | cons command rest ih =>
    rcases ih (c.predict actions command (movements command)).1 with none | same
    · exact .inl none
    · rcases (predict_predicts actions c command (movements command)).action with gone | kept
      · exact .inl (same.trans gone)
      · exact .inr (same.trans kept)

variable {a : CharacterActionState} {state : CharacterAuthoritativeState μ}

theorem replay_keeps (held : c.predictedAction = some a) (registered : (actions.find? a.actionToken).isSome)
    (movements : CharacterInputCommand → Movement) : (c.replay actions movements).predictedAction = some a ∨
      (c.replay actions movements).predictedAction = none ∧ ∃ command ∈ c.history,
        c.lastActionEvaluationTick < command.simulationTick ∧ actionEnd a ≤ command.simulationTick := by
  unfold replay
  generalize c.history = commands
  induction commands generalizing c with
  | nil => exact .inl held
  | cons command rest ih =>
    obtain ⟨definition,known⟩ := isSome_iff_exists.mp registered
    -- the first command ends the action, or keeps it and is not evaluated before
    have first : (c.predict actions command (movements command)).1.predictedAction = some a ∧
        c.lastActionEvaluationTick ≤ (c.predict actions command (movements command)).1.lastActionEvaluationTick ∨
          (c.predict actions command (movements command)).1.predictedAction = none ∧
            c.lastActionEvaluationTick < command.simulationTick ∧ actionEnd a ≤ command.simulationTick := by
      unfold predict
      split
      · exact .inl ⟨held,le_rfl⟩
      unfold predictAction
      rw [held]
      dsimp only
      by_cases evaluated : command.simulationTick ≤ c.lastActionEvaluationTick
      · rw [if_pos evaluated]
        exact .inl ⟨held,le_rfl⟩
      rw [known]
      split_ifs with still ended
      · exact .inl ⟨held,le_rfl⟩
      · exact .inr ⟨rfl,not_le.mp evaluated,ended⟩
      · refine .inl ⟨rfl,?_⟩
        exact le_min (not_le.mp evaluated).le ((not_le.mp evaluated).trans (not_le.mp ended)).le
    rcases first with ⟨kept,later⟩ | ⟨gone,at_,past⟩
    · rcases ih kept with same | ⟨none,command',member,after,past⟩
      · exact .inl same
      · exact .inr ⟨none,command',.tail _ member,later.trans_lt after,past⟩
    · refine .inr ⟨?_,command,.head _,at_,past⟩
      rcases folded_predicted actions movements rest (c.predict actions command (movements command)).1 with none | same
      · exact none
      · exact same.trans gone

theorem replay_predicted (actions : ActionTable) (c : Client μ) (movements : CharacterInputCommand → Movement) :
    (c.replay actions movements).predictedAction = none ∨
      (c.replay actions movements).predictedAction = c.predictedAction :=
  folded_predicted actions movements c.history c

def unresolved (state : CharacterAuthoritativeState μ) (action : CharacterActionState) : Bool :=
  !state.resolvedAction.isValid || action.actionSequence.isNewerThan state.resolvedAction

theorem rewound_keeps (held : c.predictedAction = some a) (above : unresolved state a) :
    c.rewound actions state = ({ c with history := c.history.dropWhile (acknowledged state) },false) := by
  unfold rewound reconcileAction
  rw [if_pos]
  rwa [held]

theorem rewound_drops (actions : ActionTable) (held : c.predictedAction = some a)
    (resolved : unresolved state a = false) : (c.rewound actions state).1.predictedAction = none ∨
      (c.rewound actions state).1.predictedAction = state.activeAction := by
  unfold rewound reconcileAction
  rw [if_neg]
  · split
    · next action active =>
      split_ifs
      · exact .inr active.symm
      · exact .inl rfl
      · exact .inl rfl
    · exact .inl rfl
  · dsimp only
    rwa [held,Bool.not_eq_true]

theorem resets_replicas (c : Client μ) (replicas : SortedMap ObjectId (Replica μ))
    (state : CharacterAuthoritativeState μ) (corrected : Bool) :
    ({ c with replicas } : Client μ).resets actions state corrected = c.resets actions state corrected := by
  unfold resets rewound reconcileAction
  congr 1
  split
  · rfl
  split
  · split
    · split <;> rfl
    · rfl
  · rfl

variable {t : CharacterControlTransition} {corrected : Bool}

theorem reconcile_local (actions : ActionTable) (held : c.control = some t)
    (waits : c.waitingState t.character = some state) (epoch : state.controlEpoch = t.controlEpoch) (corrected : Bool)
    (movements : CharacterInputCommand → Movement) : ∃ replicas, c.reconcile actions t.character corrected movements =
      ({ c with replicas } : Client μ).applyLocal actions t.character state corrected movements := by
  obtain ⟨replica,found,pending⟩ := bind_eq_some_iff.mp waits
  refine ⟨c.replicas.insert t.character { replica with pendingState := none },?_⟩
  unfold reconcile
  rw [found]
  dsimp only
  rw [pending]
  rw [held]
  dsimp only
  rw [if_neg (fun other => other rfl),if_neg (fun other => other epoch)]

theorem applyLocal_predicted {x : ObjectId} (short : c.resets actions state corrected = false)
    (enabled : c.predictionEnabled) (movements : CharacterInputCommand → Movement) :
    (c.applyLocal actions x state corrected movements).predictedAction =
      ((c.rewound actions state).1.replay actions movements).predictedAction := by
  unfold applyLocal
  rw [short,enabled]
  rfl

theorem reconcile_keeps (sound : ClientSound actions granted published c) (held : c.control = some t)
    (waits : c.waitingState t.character = some state) (epoch : state.controlEpoch = t.controlEpoch)
    (short : c.resets actions state corrected = false) (enabled : c.predictionEnabled)
    (predicted : c.predictedAction = some a) (above : unresolved state a)
    (movements : CharacterInputCommand → Movement) :
    (c.reconcile actions t.character corrected movements).predictedAction = some a ∨
      (c.reconcile actions t.character corrected movements).predictedAction = none ∧ ∃ command ∈ c.history,
        c.lastActionEvaluationTick < command.simulationTick ∧ actionEnd a ≤ command.simulationTick := by
  obtain ⟨replicas,same⟩ := reconcile_local actions held waits epoch corrected movements
  have kept : ({ c with replicas } : Client μ).predictedAction = some a := predicted
  rw [same,applyLocal_predicted ((resets_replicas c replicas state corrected).trans short) enabled,
    rewound_keeps kept above]
  rcases replay_keeps (c := { c with
      replicas, history := c.history.dropWhile (acknowledged state) }) predicted (sound.registered a predicted)
      movements with kept | ⟨none,command,member,later,past⟩
  · exact .inl kept
  · exact .inr ⟨none,command,(dropWhile_suffix _).subset member,later,past⟩

theorem reconcile_drops (held : c.control = some t) (waits : c.waitingState t.character = some state)
    (epoch : state.controlEpoch = t.controlEpoch) (short : c.resets actions state corrected = false)
    (enabled : c.predictionEnabled) (predicted : c.predictedAction = some a)
    (resolved : unresolved state a = false) (movements : CharacterInputCommand → Movement) :
    (c.reconcile actions t.character corrected movements).predictedAction = none ∨
      (c.reconcile actions t.character corrected movements).predictedAction = state.activeAction := by
  obtain ⟨replicas,same⟩ := reconcile_local actions held waits epoch corrected movements
  rw [same,applyLocal_predicted ((resets_replicas c replicas state corrected).trans short) enabled]
  rcases replay_predicted actions ((({ c with replicas } : Client μ).rewound actions state).1) movements with
    none | kept
  · exact .inl none
  · rcases rewound_drops actions (c := { c with replicas }) predicted resolved with none | active
    · exact .inl (kept.trans none)
    · exact .inr (kept.trans active)

end Client

/-! ### Both sides -/

section
variable {μ : Type} {setup : Setup} {calm : Prop}

structure Leaves (y y' : System μ) : Prop where
  client : y'.client = y.client
  granted : ∀ g ∈ y.granted, g ∈ y'.granted
  published : ∀ p ∈ y.published, p ∈ y'.published
  control : ∀ t, .control t ∈ y'.toClient → t.bound = true →
    .control t ∈ y.toClient ∨ (t.character,t.controlEpoch) ∈ y'.granted

theorem Leaves.refl (y : System μ) : Leaves y y :=
  ⟨rfl,fun _ member => member,fun _ member => member,fun _ member _ => .inl member⟩

variable {y : System μ} {y' : System μ}

theorem Leaves.trans {y'' : System μ} (first : Leaves y y') (second : Leaves y' y'') : Leaves y y'' := by
  refine ⟨second.client.trans first.client,fun g member => second.granted g (first.granted g member),
    fun p member => second.published p (first.published p member),?_⟩
  intro t member bound
  rcases second.control t member bound with before | given
  · exact (first.control t before bound).imp_right (second.granted _)
  · exact .inr given

theorem Leaves.own (y : System μ) (characters : SortedMap ObjectId CharacterState) (next : CharacterControlEpoch)
    (admitted : List CharacterActionRequest) :
    Leaves y { y with characters, nextControlEpoch := next, admitted } :=
  ⟨rfl,fun _ member => member,fun _ member => member,fun _ member _ => .inl member⟩

theorem registerCharacter_leaves (y : System μ) (x : ObjectId) : Leaves y (y.registerCharacter x) := by
  unfold registerCharacter
  split
  · exact .refl y
  split_ifs
  · exact .own y _ _ _
  · exact .own y _ _ _

theorem revokeControl_leaves (y : System μ) (x : ObjectId) (tick : Nat) (queued : Bool) :
    Leaves y (y.revokeControl setup x tick queued) := by
  unfold revokeControl
  split
  · exact .refl y
  split
  · exact .refl y
  split
  · exact .refl y
  refine ⟨rfl,fun _ member => member,fun _ member => member,?_⟩
  intro t member bound
  split_ifs at member
  · rcases mem_append.mp member with before | own
    · exact .inl before
    · rw [mem_singleton] at own
      cases own
      cases bound
  · exact .inl member

theorem bindControl_leaves (y : System μ) (d : ConnectionId) (x : ObjectId) (channel : StateChannelId) (tick : Nat)
    (bindable queued : Bool) : Leaves y (y.bindControl setup d x channel tick bindable queued) := by
  unfold bindControl
  split
  · exact .refl y
  have revoked : Leaves y (y.revokeControl setup x tick queued) := revokeControl_leaves y x tick queued
  dsimp only
  generalize y.revokeControl setup x tick queued = r at revoked
  split
  · exact revoked
  · exact revoked
  split
  · exact revoked.trans (.own r _ _ _)
  split
  · refine revoked.trans ⟨rfl,fun _ member => .tail _ member,fun _ member => member,?_⟩
    intro t member _
    rcases mem_append.mp member with before | own
    · exact .inl before
    · rw [mem_singleton] at own
      cases own
      exact .inr (.head _)
  · exact revoked.trans (.own r _ _ _)

theorem handleRequest_leaves (y : System μ) (d : ConnectionId) (request : CharacterActionRequest) :
    Leaves y (y.handleRequest d request) := by
  unfold handleRequest
  split
  · exact .refl y
  split_ifs
  · exact .own y _ _ _
  · exact .refl y

theorem startServerAction_leaves (y : System μ) (x : ObjectId) (token tick : Nat) :
    Leaves y (y.startServerAction setup x token tick) := by
  unfold startServerAction
  split
  · split_ifs
    · exact .refl y
    · exact .own y _ _ _
  · exact .refl y

theorem step_leaves (y : System μ) (tick : Nat) (input : StepInput) : Leaves y (y.step setup tick input) := by
  unfold System.step
  split_ifs
  · exact .refl y
  refine ⟨rfl,fun _ member => member,fun _ member => member,?_⟩
  intro t member _
  rcases mem_append.mp member with before | own
  · exact .inl before
  · obtain ⟨e,-,inside⟩ := mem_flatMap.mp own
    obtain ⟨r,-,same⟩ := mem_map.mp inside
    cases same

theorem publishState_leaves (y : System μ) (x : ObjectId) (snapshot : Snapshot μ) : Leaves y (y.publishState x snapshot) := by
  unfold publishState
  split
  · exact .refl y
  split_ifs
  · exact .refl y
  · exact ⟨rfl,fun _ member => member,fun _ member => mem_append_left _ member,fun _ member _ => .inl member⟩

/-- What holds of both sides and of the messages in flight. -/
structure Agreement (setup : Setup) (calm : Prop) (y : System μ) : Prop where
  server : ServerSound setup calm y y.client.issued
  client : ClientSound setup.clientActions y.granted y.published y.client
  control : ∀ t, .control t ∈ y.toClient → t.bound = true → (t.character,t.controlEpoch) ∈ y.granted

theorem Agreement.serve (agreement : Agreement setup calm y) (server : ServerSound setup calm y' y.client.issued)
    (leaves : Leaves y y') : Agreement setup calm y' := by
  refine ⟨?_,?_,?_⟩
  · rwa [leaves.client]
  · rw [leaves.client]
    exact agreement.client.mono leaves.granted leaves.published
  · intro t member bound
    rcases leaves.control t member bound with before | given
    · exact leaves.granted _ (agreement.control t before bound)
    · exact given

theorem Agreement.act (agreement : Agreement setup calm y) {c : Client μ}
    (sound : ClientSound setup.clientActions y.granted y.published c) (issued : c.issued = y.client.issued) :
    Agreement setup calm { y with client := c } := by
  have server := agreement.server.sent issued.ge (.nil : List.Pairwise _ ([] : List CharacterActionRequest))
    (fun q member => by cases member) c
  rw [append_nil] at server
  exact ⟨server,sound,agreement.control⟩

theorem Agreement.received {y : System μ} (agreement : Agreement setup calm y) {m : ServerMessage}
    {rest : List ServerMessage} (flying : y.toClient = m :: rest) : Agreement setup calm { y with toClient := rest } := by
  have server := agreement.server
  refine ⟨{ server with characters := fun x s found => ?_ },agreement.client,?_⟩
  · have own := server.characters x s found
    exact { own with }
  · intro t member bound
    refine agreement.control t ?_ bound
    rw [flying]
    exact mem_cons_of_mem m member

def InLine (y : System μ) : Event μ → Prop
  | .startServerAction x _ _ => startsInLine y x = true
  | _ => True

instance (y : System μ) : ∀ e, Decidable (InLine y e) := by
  intro e
  cases e <;> unfold InLine <;> infer_instance

theorem step_agreement {e : Event μ} (agreement : Agreement setup calm y) (inLine : calm → InLine y e)
    (stepped : step setup y e = some y') : Agreement setup calm y' := by
  have server := agreement.server
  have client := agreement.client
  cases e with
  | registerCharacter x =>
    cases stepped
    exact agreement.serve (registerCharacter_sound server x) (registerCharacter_leaves y x)
  | unregisterCharacter x tick queued =>
    cases stepped
    refine agreement.serve ((revokeControl_sound server x tick queued).forget x)
      ((revokeControl_leaves y x tick queued).trans (.own _ _ _ _))
  | bindControl d x channel tick bindable queued =>
    cases stepped
    exact agreement.serve (bindControl_sound server d x channel tick bindable queued)
      (bindControl_leaves y d x channel tick bindable queued)
  | revokeControl x tick queued =>
    cases stepped
    exact agreement.serve (revokeControl_sound server x tick queued) (revokeControl_leaves y x tick queued)
  | startServerAction x token tick =>
    cases stepped
    exact agreement.serve (startServerAction_sound server inLine token tick) (startServerAction_leaves y x token tick)
  | deliverRequest =>
    rw [step] at stepped
    split at stepped
    · cases stepped
    next request rest flying =>
    cases stepped
    have sorted := server.flying
    have issued := server.issued
    rw [flying] at sorted issued
    have first := issued request (.head _)
    have taken : Leaves y { y with toServer := rest } :=
      ⟨rfl,fun _ member => member,fun _ member => member,fun _ member _ => .inl member⟩
    refine agreement.serve (handleRequest_sound (server.arrived flying) first.1 fun _ => ⟨first.2,?_⟩)
      (taken.trans (handleRequest_leaves _ _ _))
    exact (pairwise_cons.mp sorted).1
  | foreignRequest d request =>
    rw [step] at stepped
    split_ifs at stepped with foreign
    cases stepped
    exact agreement.serve (handleRequest_sound server (isValid_iff.mp foreign.2) fun own =>
      absurd own foreign.1) (handleRequest_leaves y d request)
  | step tick input =>
    cases stepped
    exact agreement.serve (step_sound server tick input) (step_leaves y tick input)
  | publishState x snapshot =>
    cases stepped
    exact agreement.serve (publishState_sound server x snapshot) (publishState_leaves y x snapshot)
  | deliverMessage =>
    rw [step] at stepped
    split at stepped
    · cases stepped
    · next transition rest flying =>
      cases stepped
      refine (agreement.received flying).act (handleControl_client client fun bound => ?_)
        (issued_congr (handleControl_nextAction _ _))
      refine agreement.control transition ?_ bound
      rw [flying]
      exact (.head _)
    · next result rest flying =>
      cases stepped
      exact (agreement.received flying).act (handleResult_client client result)
        (issued_congr (handleResult_nextAction _ _ _))
  | deliverState index reliable =>
    rw [step] at stepped
    split at stepped
    · cases stepped
    next p listed =>
    cases stepped
    exact agreement.act (handleState_client client (mem_of_getElem? listed) reliable)
      (issued_congr (handleState_nextAction _ _ _ _))
  | markMaterialized x =>
    cases stepped
    exact agreement.act (markMaterialized_client client x) (issued_congr (markMaterialized_nextAction _ _))
  | markUnmaterialized x =>
    cases stepped
    exact agreement.act (markUnmaterialized_client client x) (issued_congr (markUnmaterialized_nextAction _ _))
  | submitInput tick queued movement =>
    cases stepped
    exact agreement.act (submitInput_client client tick queued movement)
      (issued_congr (submitInput_nextAction _ _ _ _ _))
  | requestAction token tick queued =>
    cases stepped
    obtain ⟨kept,more,numbered⟩ := requestAction_client client token tick queued
    refine ⟨server.sent more ?_ ?_ _,kept,agreement.control⟩
    · cases (y.client.requestAction setup.clientActions token tick queued).1 with
      | none => exact .nil
      | some q => exact pairwise_singleton _ q
    · exact fun q member => numbered q (mem_toList.mp member)
  | setPredictionEnabled enabled =>
    cases stepped
    exact agreement.act (setPredictionEnabled_client client enabled)
      (issued_congr (setPredictionEnabled_nextAction _ _))
  | reconcile x corrected movements =>
    cases stepped
    exact agreement.act (reconcile_client client x corrected movements)
      (issued_congr (reconcile_nextAction _ _ _ _ _))

theorem initial_agreement : Agreement setup calm ({} : System μ) := by
  refine ⟨⟨?_,?_,?_,?_,?_,?_,?_,?_,.nil,?_,?_,?_,?_⟩,⟨?_,?_,.nil,?_,?_,?_⟩,?_⟩
  · exact fun x s found => by cases found
  · exact fun g member => by cases member
  · exact fun p member => by cases member
  · exact fun q member => by cases member
  · exact fun q member => by cases member
  · exact fun _ p member => by cases member
  · exact fun _ p member => by cases member
  · exact fun _ => .nil
  · exact fun q member => by cases member
  · exact fun x e => .nil
  · exact fun _ x e => prefix_refl _
  · exact fun x e => .refl _
  · exact fun t held => by cases held
  · exact fun t held => by cases held
  · exact fun a member => by cases member
  · exact fun a held => by cases held
  · exact fun x s waits => by cases waits
  · exact fun t member => by cases member

/-- Within an epoch the published states never resolve less. -/
def ResolvesUpward (y : System μ) : Prop :=
  y.published.Pairwise fun p p' => p.state.character = p'.state.character →
    p.state.controlEpoch = p'.state.controlEpoch → p.state.resolvedAction.toNat ≤ p'.state.resolvedAction.toNat

def System.awaits (y : System μ) (q : CharacterActionRequest) : Prop :=
  q ∈ y.toServer ∨ ∃ s, y.characters.find? q.character = some s ∧ q ∈ s.pendingActions

structure Reconciles (setup : Setup) (c : Client μ) (t : CharacterControlTransition)
    (state : CharacterAuthoritativeState μ) (corrected : Bool) (a : CharacterActionState) : Prop where
  control : c.control = some t
  waits : c.waitingState t.character = some state
  epoch : state.controlEpoch = t.controlEpoch
  predicted : c.predictedAction = some a
  short : c.resets setup.clientActions state corrected = false
  enabled : c.predictionEnabled = true

/-- A prediction that the server has still to process is kept, unless a command that is predicted again ends it. -/
def KeepsAwaited (setup : Setup) (y : System μ) : Prop :=
  ∀ t state corrected a, Reconciles setup y.client t state corrected a → ∀ q, y.awaits q → q.character = t.character →
    q.controlEpoch = t.controlEpoch → q.actionSequence = a.actionSequence → ∀ movements,
      (y.client.reconcile setup.clientActions t.character corrected movements).predictedAction = some a ∨
        (y.client.reconcile setup.clientActions t.character corrected movements).predictedAction = none ∧
          ∃ command ∈ y.client.history,
            y.client.lastActionEvaluationTick < command.simulationTick ∧ actionEnd a ≤ command.simulationTick

def DropsProcessed (setup : Setup) (y : System μ) : Prop :=
  ∀ t state corrected a, Reconciles setup y.client t state corrected a →
    (∃ p ∈ y.published, p.state.character = t.character ∧ state = { p.state with activeAction := state.activeAction }) ∧
    ∀ p ∈ y.published, p.state.character = t.character →
      state = { p.state with activeAction := state.activeAction } → ∀ q ∈ p.processed, q.character = t.character →
        q.controlEpoch = t.controlEpoch → q.actionSequence = a.actionSequence → ∀ movements,
          (y.client.reconcile setup.clientActions t.character corrected movements).predictedAction = none ∨
            (y.client.reconcile setup.clientActions t.character corrected movements).predictedAction = state.activeAction

structure Answers (y : System μ) : Prop where
  ascending : ∀ x e, (requestNumbers x e y.admitted).Pairwise fun a b => a.toNat < b.toNat
  once : ∀ x e, (resultNumbers x e y.results).Sublist (requestNumbers x e y.admitted)
  inOrder : y.refused = false → ∀ x e, resultNumbers x e y.results <+: requestNumbers x e y.admitted
  current : y.refused = false → ∀ x s, y.characters.find? x = some s → requestNumbers x s.controlEpoch y.admitted =
    resultNumbers x s.controlEpoch y.results ++ s.pendingActions.map CharacterActionRequest.actionSequence

def Serving (setup : Setup) (y : System μ) : Prop :=
  ∀ tick input, tick ≠ 0 → ∀ x s, (y.step setup tick input).characters.find? x = some s → s.pendingActions = []

def TakesOne (setup : Setup) (y : System μ) : Prop :=
  ∀ result, (y.client.handleResult setup.clientActions result).pendingActions = y.client.pendingActions ∨
    ∃ front found back, y.client.pendingActions = front ++ found :: back ∧ found.sequence = result.actionSequence ∧
      (y.client.handleResult setup.clientActions result).pendingActions = front ++ back

theorem Agreement.keepsAwaited (agreement : Agreement setup True y) : KeepsAwaited setup y := by
  intro t state corrected a r q awaits character epoch number movements
  obtain ⟨p,member,owner,same⟩ := agreement.client.waiting t.character state r.waits
  have granted := agreement.client.control t r.control
  have stated : p.state.controlEpoch = t.controlEpoch := by
    rw [same] at r
    exact r.epoch
  have resolved : p.state.resolvedAction = state.resolvedAction := by rw [same]
  have above : p.state.resolvedAction.toNat < a.actionSequence.toNat := by
    rw [← number]
    rcases awaits with flying | ⟨s,found,pending⟩
    · exact (agreement.server.linked trivial p member (by rw [owner,stated]; exact granted)).2 q flying
    · have own := agreement.server.characters _ s found
      have current := (own.own q pending).2
      refine (own.published trivial p member (owner.trans character.symm) ?_).trans_lt (own.above trivial q pending)
      rw [stated,← epoch,current]
  refine reconcile_keeps agreement.client r.control r.waits r.epoch r.short r.enabled r.predicted ?_ movements
  rw [unresolved,← resolved,Bool.or_eq_true,Bool.not_eq_true']
  by_cases valid : p.state.resolvedAction.isValid = true
  · exact .inr (isNewerThan_iff.mpr ⟨isValid_iff.mp valid,above⟩)
  · exact .inl (Bool.eq_false_iff.mpr valid)

theorem Agreement.dropsProcessed (agreement : Agreement setup True y) : DropsProcessed setup y := by
  intro t state corrected a r
  refine ⟨agreement.client.waiting t.character state r.waits,?_⟩
  intro p member owner same q processed character epoch number movements
  have stated : p.state.controlEpoch = t.controlEpoch := by
    rw [same] at r
    exact r.epoch
  have resolved : p.state.resolvedAction = state.resolvedAction := by rw [same]
  obtain ⟨positive,small⟩ := agreement.server.built trivial p member q processed (character.trans owner.symm)
    (epoch.trans stated.symm)
  refine reconcile_drops r.control r.waits r.epoch r.short r.enabled r.predicted ?_ movements
  rw [unresolved,← resolved,Bool.or_eq_false_iff,Bool.not_eq_false',isValid_iff,Bool.eq_false_iff]
  refine ⟨positive.trans_le small,?_⟩
  intro newer
  have larger := (isNewerThan_iff.mp newer).2
  rw [← number] at larger
  omega

theorem serving_of (agreement : Agreement setup calm (y : System μ)) : Serving setup y := by
  intro tick input timed x s' found'
  unfold System.step at found'
  rw [if_neg timed] at found'
  rw [SortedMap.find?_mapValues] at found'
  obtain ⟨s,found,rfl⟩ := map_eq_some_iff.mp found'
  exact (serves_of_sound agreement.server tick input found).2

/-- In every run requests are answered in order and results take what they answer. In a run whose server actions are in
    line, published states resolve upward, and reconciliations keep what the server has still to process and drop what
    it processed before the state was built. -/
theorem actions_run {events : List (Event μ)} {y : System μ} (reached : run (step setup) {} events = some y) :
    Answers y ∧ Serving setup y ∧ TakesOne setup y ∧
      (RunMeets (step setup) InLine {} events →
        ResolvesUpward y ∧ KeepsAwaited setup y ∧ DropsProcessed setup y) := by
  have agreement : Agreement setup False y := run_preserves
    (fun y e y' holds stepped => step_agreement holds (·.elim) stepped) initial_agreement reached
  refine ⟨⟨agreement.server.increasing,agreement.server.once,agreement.server.inOrder,?_⟩,serving_of agreement,
    handleResult_pending setup.clientActions y.client,?_⟩
  · exact fun kept x s found => (agreement.server.characters x s found).answered kept
  · intro meets
    have calmly : Agreement setup True y := run_preserves_where
      (fun y e y' inLine holds stepped => step_agreement holds (fun _ => inLine) stepped) initial_agreement meets reached
    exact ⟨calmly.server.monotone trivial,calmly.keepsAwaited,calmly.dropsProcessed⟩

section Overtaken

def aliceCharacter : ObjectId := ⟨0,1⟩

def waveAction : CharacterActionDefinition := ⟨1,{},{},10⟩

def waving : Setup := ⟨⟨0,1⟩,ActionTable.empty.registerAction waveAction,ActionTable.empty.registerAction waveAction⟩

def snapshotOf (n : UInt64) : Snapshot Unit := ⟨⟨n⟩,{},1,(),0⟩

/-- Two requests are processed before the server starts an action of its own, which it numbers one. A third request is
    admitted and never answered, as control is revoked. -/
def overtakenActions : List (Event Unit) :=
  [.registerCharacter aliceCharacter,.markMaterialized aliceCharacter,
    .bindControl ⟨0,1⟩ aliceCharacter ⟨1⟩ 1 true true,.deliverMessage,.requestAction 1 1 true,.requestAction 1 1 true,
    .deliverRequest,.deliverRequest,.step 1 {},.publishState aliceCharacter (snapshotOf 1),
    .startServerAction aliceCharacter 1 2,.publishState aliceCharacter (snapshotOf 2),.requestAction 1 3 true,
    .deliverRequest,.revokeControl aliceCharacter 3 true]

/-- The server's number lowers what the states resolve, and the third request is neither answered nor pending. -/
theorem server_action_lowers_resolved : ∃ y, run (step waving) {} overtakenActions = some y ∧ ¬ ResolvesUpward y ∧
    y.refused = false ∧ ∃ q ∈ y.admitted, ¬ y.awaits q ∧ ∀ r ∈ y.results, r.actionSequence ≠ q.actionSequence := by
  have facts : ∀ y ∈ run (step waving) {} overtakenActions,
      (y.published.map fun p => (p.state.character,p.state.controlEpoch,p.state.resolvedAction.toNat)) =
        [(aliceCharacter,⟨2⟩,2),(aliceCharacter,⟨2⟩,1)] ∧ y.refused = false ∧
      y.admitted.map CharacterActionRequest.actionSequence = [⟨1⟩,⟨2⟩,⟨3⟩] ∧
      y.results.map CharacterActionResult.actionSequence = [⟨1⟩,⟨2⟩] ∧ y.toServer = [] ∧
      y.characters.entries.all fun e => e.2.pendingActions.isEmpty := by decide +kernel
  obtain ⟨y,reached⟩ : ∃ y, run (step waving) {} overtakenActions = some y := isSome_iff_exists.mp (by decide +kernel)
  obtain ⟨published,refused,admitted,results,flying,pending⟩ := facts y reached
  refine ⟨y,reached,?_,refused,?_⟩
  · intro upward
    have numbers : (y.published.map fun p =>
        (p.state.character,p.state.controlEpoch,p.state.resolvedAction.toNat)).Pairwise
          fun a b => a.1 = b.1 → a.2.1 = b.2.1 → a.2.2 ≤ b.2.2 := pairwise_map.mpr upward
    rw [published] at numbers
    revert numbers
    decide
  · have third : (⟨3⟩ : CharacterActionSequence) ∈ y.admitted.map CharacterActionRequest.actionSequence := by
      rw [admitted]
      decide
    obtain ⟨q,member,number⟩ := mem_map.mp third
    refine ⟨q,member,?_,?_⟩
    · rintro (onWay | ⟨s,found,waits⟩)
      · rw [flying] at onWay
        cases onWay
      · have none := all_eq_true.mp pending _ (SortedMap.find?_eq_some.mp found)
        rw [isEmpty_iff.mp none] at waits
        cases waits
    · intro r answered same
      have listed : q.actionSequence ∈ y.results.map CharacterActionResult.actionSequence :=
        mem_map.mpr ⟨r,answered,same⟩
      rw [results,number] at listed
      revert listed
      decide

/-- Two requests, with a published state between their processing and the client's reconciliation with it. -/
def wavingActions : List (Event Unit) := overtakenActions.take 10 ++ [.deliverState 0 false]

theorem waving_actions : ∃ y, run (step waving) {} wavingActions = some y ∧
    Answers y ∧ ResolvesUpward y ∧ KeepsAwaited waving y ∧ DropsProcessed waving y := by
  obtain ⟨y,reached⟩ : ∃ y, run (step waving) {} wavingActions = some y := isSome_iff_exists.mp (by decide +kernel)
  obtain ⟨answers,-,-,inLine⟩ := actions_run reached
  exact ⟨y,reached,answers,inLine (by decide +kernel)⟩

end Overtaken

end
end Gargantuan.CharacterActions
