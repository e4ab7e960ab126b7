import Gargantuan.Identity
import Gargantuan.Runs
import Mathlib.Data.List.Sort

/-!
The compiled input graph: which bindings of the input definitions are active, and what their
actions are worth. The bindings are indexed by the physical code they listen to, and a compilation
rebuilds only the buckets of the codes that it changes.

Numbers are taken as they come (`InputNumbers`), up to the equality that the source compares them
with. The statistics are left out, as are allocation failures.
-/
namespace Gargantuan

/-- The floating-point numbers of the graph, in single and in double precision. -/
structure InputNumbers where
  Scalar : Type
  decidableEq : DecidableEq Scalar
  zero : Scalar
  one : Scalar
  isFinite : Scalar → Bool
  Total : Type
  nothing : Total
  add : Total → Scalar → Total
  /-- Adds the product of a motion and a factor. -/
  addScaled : Total → Scalar → Scalar → Total
  isZero : Total → Bool
  /-- The number between minus one and one that is closest. -/
  clampUnit : Total → Scalar
  /-- A position that was moved, within the numbers of single precision. -/
  moved : Scalar → Total → Scalar
  isZero_nothing : isZero nothing = true
  clampUnit_nothing : clampUnit nothing = zero

attribute [instance] InputNumbers.decidableEq

namespace CompiledInputGraph

def maximumContexts : Nat := 64
def maximumActions : Nat := 256
def maximumBindings : Nat := 2048
def physicalCodeCount : Nat := 4096
def mouseBase : Nat := physicalCodeCount
def pointerCode : Nat := mouseBase + 3
def bucketCount : Nat := pointerCode + 1

inductive Kind where
  | key | mouseButton | pointerDelta
deriving DecidableEq

inductive ValueType where
  | bool | scalar | vector2
deriving DecidableEq

inductive Reason where
  | none | released | focusLost | definitionChanged | disabled | suppressed | guiConsumed
deriving DecidableEq

structure ContextDefinition where
  id : ObjectId := {}
  priority : Int := 0
  enabled : Bool := true
  consume : Bool := false
  legacyPassthrough : Bool := false
deriving DecidableEq, Inhabited

structure ActionDefinition where
  id : ObjectId := {}
  context : ObjectId := {}
  valueType : ValueType := .bool
  enabled : Bool := true
deriving DecidableEq, Inhabited

structure BindingDefinition (V : InputNumbers) where
  id : ObjectId := {}
  action : ObjectId := {}
  inputKind : Kind := .key
  code : Nat := 0
  modifiers : BitVec 8 := 0
  exactModifiers : Bool := false
  enabled : Bool := true
  consume : Bool := false
  priority : Int := 0
  scale : V.Scalar := V.one
  vectorX : V.Scalar := V.one
  vectorY : V.Scalar := V.one
deriving DecidableEq

structure ActionState (V : InputNumbers) where
  down : Bool := false
  value : V.Scalar := V.zero
  x : V.Scalar := V.zero
  y : V.Scalar := V.zero
  lastReason : Reason := .none
  lastTransition : UInt64 := 0

structure Transition (V : InputNumbers) where
  action : ObjectId
  down : Bool
  value : V.Scalar
  x : V.Scalar
  y : V.Scalar
  cancellation : Reason
  vectorChanged : Bool

structure ActionRow (V : InputNumbers) where
  definition : ActionDefinition := {}
  context : Nat := 0
  publicationPriority : Int := 0
  state : ActionState V := {}
  bindings : List Nat := []

structure BindingRow (V : InputNumbers) where
  definition : BindingDefinition V := {}
  action : Nat := 0
  eligible : Bool := false
  matched : Bool := false
  active : Bool := false
  suppressed : Bool := false
  winningContext : ObjectId := {}

instance {V : InputNumbers} : Inhabited (ActionRow V) := ⟨{}⟩
instance {V : InputNumbers} : Inhabited (BindingRow V) := ⟨{}⟩

structure DirtyAction where
  action : Nat
  reason : Reason
  priority : Int

/-- The priority of an action that no binding has made dirty. -/
def lowestPriority : Int := -2 ^ 63

/-- The priority of an action without bindings. -/
def lowestPublicationPriority : Int := -2 ^ 31

/-- The number of the bit that stands for a modifier key. -/
def modifierIndex : Nat → Option Nat
  | 306 => some 0
  | 305 => some 1
  | 304 => some 2
  | 303 => some 3
  | 308 => some 4
  | 307 => some 5
  | 310 => some 6
  | 309 => some 7
  | _ => none

def modifierBit (code : Nat) : BitVec 8 :=
  match modifierIndex code with
  | some bit => 1#8 <<< bit
  | none => 0

/-- The first and the last of each run of values of the enumeration of keys. -/
def keyCodes : List (Nat × Nat) :=
  [(8,9),(12,13),(19,19),(27,27),(32,32),(34,64),(91,127),(256,296),(300,322),(1000,1007),
    (1009,1028),(1033,1035),(1040,1040),(1045,1045),(1048,1050),(2048,2048)]

def noKey : Nat := 2048

def isKeyCode (code : Nat) : Bool := keyCodes.any fun run => run.1 ≤ code && code ≤ run.2

section
variable {V : InputNumbers}

def bucket (d : BindingDefinition V) : Except String Nat :=
  match d.inputKind with
  | .pointerDelta => .ok pointerCode
  | .mouseButton => if d.code < 3 then .ok (mouseBase + d.code) else .error "[Input:Compiler] Unsupported mouse button"
  | .key =>
    if d.code = 0 ∨ d.code ≥ physicalCodeCount ∨ d.code = noKey then .error "[Input:Compiler] Invalid physical key"
    else if !isKeyCode d.code then .error "[Input:Compiler] Unknown physical key"
    else .ok d.code

def codeOf (d : BindingDefinition V) : Nat := (bucket d).toOption.getD bucketCount

end
end CompiledInputGraph

open CompiledInputGraph in
structure CompiledInputGraph (V : InputNumbers) where
  contexts : List ContextDefinition := []
  actions : List (ActionRow V) := []
  bindings : List (BindingRow V) := []
  buckets : Nat → List Nat := fun _ => []
  modifierBuckets : Nat → List Nat := fun _ => []
  physicalDown : Nat → Bool := fun _ => false
  dirty : List DirtyAction := []
  transitions : List (Transition V) := []
  modifiers : BitVec 8 := 0
  transitionSequence : UInt64 := 0

namespace CompiledInputGraph
variable {V : InputNumbers}

def context (s : CompiledInputGraph V) (index : Nat) : ContextDefinition := s.contexts.getD index default
def action (s : CompiledInputGraph V) (index : Nat) : ActionRow V := s.actions.getD index default
def binding (s : CompiledInputGraph V) (index : Nat) : BindingRow V := s.bindings.getD index default

def contextOf (s : CompiledInputGraph V) (row : BindingRow V) : ContextDefinition :=
  s.context (s.action row.action).context

def clearTransitions (s : CompiledInputGraph V) : CompiledInputGraph V := { s with transitions := [] }

def higher (s : CompiledInputGraph V) (left right : Nat) : Bool :=
  let leftBinding := s.binding left
  let rightBinding := s.binding right
  let leftContext := s.contextOf leftBinding
  let rightContext := s.contextOf rightBinding
  if leftContext.priority ≠ rightContext.priority then leftContext.priority > rightContext.priority
  else if leftContext.id ≠ rightContext.id then leftContext.id < rightContext.id
  else if leftBinding.definition.priority ≠ rightBinding.definition.priority then
    leftBinding.definition.priority > rightBinding.definition.priority
  else leftBinding.definition.id < rightBinding.definition.id

def chord (s : CompiledInputGraph V) (row : BindingRow V) : Bool :=
  let required := row.definition.modifiers
  let mainBit := if row.definition.inputKind = .key then modifierBit row.definition.code else 0
  let held := s.modifiers &&& ~~~mainBit
  held &&& required == required && (!row.definition.exactModifiers || held == required)

def enabled (s : CompiledInputGraph V) (row : BindingRow V) : Bool :=
  row.definition.enabled && (s.action row.action).definition.enabled && (s.contextOf row).enabled

def setBinding (s : CompiledInputGraph V) (index : Nat) (row : BindingRow V) : CompiledInputGraph V :=
  { s with bindings := s.bindings.set index row }

/-- Takes the eligibility from each of these bindings. -/
def revoke (s : CompiledInputGraph V) (indices : List Nat) : CompiledInputGraph V :=
  indices.foldl (fun s index => s.setBinding index { s.binding index with eligible := false }) s

def markDirty (s : CompiledInputGraph V) (index : Nat) (cancellation : Reason) (priority : Int) :
    CompiledInputGraph V :=
  if s.dirty.any (·.action == index) then
    { s with dirty := s.dirty.map fun entry =>
        if entry.action = index then
          { entry with
            priority := max entry.priority priority
            reason := if cancellation = .none then entry.reason else cancellation }
        else entry }
  else { s with dirty := s.dirty ++ [⟨index,cancellation,priority⟩] }

/-- An evaluation on its way through the bindings of a code. -/
structure Scan (V : InputNumbers) where
  graph : CompiledInputGraph V
  winner : ObjectId := {}
  consumed : Bool := false

def isMatched (s : CompiledInputGraph V) (code : Nat) (row : BindingRow V) : Bool :=
  s.enabled row && (code == pointerCode || s.physicalDown code) && s.chord row

def evaluatedRow (s : CompiledInputGraph V) (code : Nat) (winner : ObjectId) (row : BindingRow V) : BindingRow V :=
  let context := s.contextOf row
  let matched := s.isMatched code row
  let suppressed := matched && winner.isValid && winner != context.id
  let eligible := row.eligible && !(suppressed || (!matched && !context.legacyPassthrough))
  { row with
    matched
    suppressed
    winningContext := if suppressed then winner else {}
    eligible
    active := matched && !suppressed && (code == pointerCode || eligible) }

def consumes (s : CompiledInputGraph V) (row : BindingRow V) : Bool :=
  (s.contextOf row).consume || row.definition.consume

def claimsInput (s : CompiledInputGraph V) (row : BindingRow V) (cancellation : Reason) : Bool :=
  row.matched && !row.suppressed && !(s.contextOf row).legacyPassthrough && cancellation != .guiConsumed &&
    s.consumes row

def evaluateBinding (code : Nat) (cancellation : Reason) (scan : Scan V) (index : Nat) : Scan V :=
  let s := scan.graph
  let before := s.binding index
  let row := s.evaluatedRow code scan.winner before
  let claims := s.claimsInput row cancellation
  let reason := if row.suppressed then .suppressed else if !s.enabled row then .disabled else cancellation
  let stored := s.setBinding index row
  { graph := if before.active = row.active then stored
      else stored.markDirty row.action reason row.definition.priority
    winner := if claims then (s.contextOf row).id else scan.winner
    consumed := scan.consumed || ((claims || row.active || before.active ||
      ((s.contextOf row).legacyPassthrough && s.enabled row)) && s.consumes row) }

def evaluate (s : CompiledInputGraph V) (code : Nat) (cancellation : Reason) : Bool × CompiledInputGraph V :=
  let scan := (s.buckets code).foldl (evaluateBinding code cancellation) ⟨s,{},false⟩
  (scan.consumed,scan.graph)

def publish (s : CompiledInputGraph V) (index : Nat) (value x y : V.Scalar) (cancellation : Reason) :
    CompiledInputGraph V :=
  let row := s.action index
  let down := value != V.zero
  if row.state.down = down ∧ row.state.value = value ∧ row.state.x = x ∧ row.state.y = y then s
  else
    let reason := if down then Reason.none else cancellation
    { s with
      actions := s.actions.set index { row with state := ⟨down,value,x,y,reason,s.transitionSequence + 1⟩ }
      transitionSequence := s.transitionSequence + 1
      transitions := s.transitions ++ [⟨row.definition.id,down,value,x,y,reason,
        row.state.x != x || row.state.y != y⟩] }

def sum (s : CompiledInputGraph V) (row : ActionRow V) : V.Total :=
  row.bindings.foldl (fun sum index =>
    let binding := s.binding index
    if binding.active && binding.definition.inputKind != .pointerDelta then
      V.add sum (if row.definition.valueType = .bool then V.one else binding.definition.scale)
    else sum) V.nothing

def valueOf (s : CompiledInputGraph V) (row : ActionRow V) : V.Scalar :=
  if row.definition.valueType = .bool then if V.isZero (s.sum row) then V.zero else V.one
  else V.clampUnit (s.sum row)

def refreshAction (s : CompiledInputGraph V) (entry : DirtyAction) : CompiledInputGraph V :=
  let row := s.action entry.action
  if row.definition.valueType = .vector2 then
    s.publish entry.action (s.valueOf row) row.state.x row.state.y entry.reason
  else s.publish entry.action (s.valueOf row) V.zero V.zero entry.reason

def publishedBefore (s : CompiledInputGraph V) (left right : DirtyAction) : Bool :=
  let leftContext := s.context (s.action left.action).context
  let rightContext := s.context (s.action right.action).context
  let priority := fun entry : DirtyAction =>
    if entry.priority = lowestPriority then (s.action entry.action).publicationPriority else entry.priority
  if leftContext.priority ≠ rightContext.priority then leftContext.priority > rightContext.priority
  else if leftContext.id ≠ rightContext.id then leftContext.id < rightContext.id
  else if priority left ≠ priority right then priority left > priority right
  else (s.action left.action).definition.id < (s.action right.action).definition.id

def refreshActions (s : CompiledInputGraph V) : CompiledInputGraph V :=
  let order := s.dirty.insertionSort fun left right => !s.publishedBefore right left
  { order.foldl refreshAction s with dirty := [] }

/-! ### Compilation -/

def validateIdentity (seen : List ObjectId) (id : ObjectId) : Except String (List ObjectId) :=
  if !id.isValid || seen.contains id then .error "[Input:Compiler] Invalid or duplicate generation-safe identity"
  else .ok (id :: seen)

def validateContext (seen : List ObjectId) (d : ContextDefinition) : Except String (List ObjectId) :=
  validateIdentity seen d.id

def validateAction (contexts : List ContextDefinition) (seen : List ObjectId) (d : ActionDefinition) :
    Except String (List ObjectId) := do
  let seen ← validateIdentity seen d.id
  if contexts.all (·.id != d.context) then throw "[Input:Compiler] Invalid action context or type"
  return seen

def popcount (mask : BitVec 8) : Nat := ((List.range 8).filter mask.getLsbD).length

def hasInvalidFields (d : BindingDefinition V) : Bool :=
  !V.isFinite d.scale || !V.isFinite d.vectorX || !V.isFinite d.vectorY || decide (popcount d.modifiers > 4) ||
    modifierBit d.code &&& d.modifiers != 0 ||
    (d.inputKind != .key && (d.modifiers != 0 || d.exactModifiers))

def validateBinding (actions : List ActionDefinition) (seen : List ObjectId) (d : BindingDefinition V) :
    Except String (List ObjectId) := do
  let seen ← validateIdentity seen d.id
  let some action := actions.find? (·.id == d.action) |
    throw "[Input:Compiler] Invalid binding fields or modifiers"
  if hasInvalidFields d then throw "[Input:Compiler] Invalid binding fields or modifiers"
  let _ ← bucket d
  if d.inputKind = .pointerDelta ∧ action.valueType ≠ .vector2 then
    throw "[Input:Compiler] Pointer delta requires a Vector2 action"
  return seen

/-- The definitions that a graph is compiled from. -/
structure Definitions (V : InputNumbers) where
  contexts : List ContextDefinition := []
  actions : List ActionDefinition := []
  bindings : List (BindingDefinition V) := []

/-- The identities of the definitions, unless one of these is refused. -/
def Definitions.validate (new : Definitions V) : Except String (List ObjectId) := do
  if new.contexts.length > maximumContexts ∨ new.actions.length > maximumActions ∨
      new.bindings.length > maximumBindings then throw "[Input:Compiler] Input graph capacity exceeded"
  let seen ← new.contexts.foldlM validateContext []
  let seen ← new.actions.foldlM (validateAction new.contexts) seen
  new.bindings.foldlM (validateBinding new.actions) seen

namespace Definitions

def contextIndex (new : Definitions V) (id : ObjectId) : Nat := new.contexts.findIdx (·.id == id)
def actionIndex (new : Definitions V) (id : ObjectId) : Nat := new.actions.findIdx (·.id == id)
def actionOf (new : Definitions V) (d : BindingDefinition V) : ActionDefinition :=
  new.actions.getD (new.actionIndex d.action) default
def contextOf (new : Definitions V) (d : BindingDefinition V) : ContextDefinition :=
  new.contexts.getD (new.contextIndex (new.actionOf d).context) default

def bindingsOf (new : Definitions V) (action : Nat) : List Nat :=
  (List.range new.bindings.length).filter fun index =>
    new.actionIndex (new.bindings.getD index {}).action == action

def publicationPriority (new : Definitions V) (action : Nat) : Int :=
  (new.bindingsOf action).foldl (fun highest index => max highest (new.bindings.getD index {}).priority)
    lowestPublicationPriority

end Definitions

def previousIndex (s : CompiledInputGraph V) (d : BindingDefinition V) : Option Nat :=
  s.bindings.findIdx? fun row => row.definition.id == d.id

def isUnchanged (s : CompiledInputGraph V) (new : Definitions V) (previous : BindingRow V)
    (d : BindingDefinition V) : Bool :=
  previous.definition == d && (s.action previous.action).definition == new.actionOf d &&
    s.contextOf previous == new.contextOf d

def carriedIndex (s : CompiledInputGraph V) (new : Definitions V) (d : BindingDefinition V) : Option Nat :=
  (s.previousIndex d).filter fun index => s.isUnchanged new (s.binding index) d

def nextAction (s : CompiledInputGraph V) (new : Definitions V) (index : Nat) : ActionRow V :=
  let d := new.actions.getD index default
  { definition := d
    context := new.contextIndex d.context
    publicationPriority := new.publicationPriority index
    state := match s.actions.find? (·.definition.id == d.id) with
      | some old => old.state
      | none => {}
    bindings := new.bindingsOf index }

def nextBinding (s : CompiledInputGraph V) (new : Definitions V) (d : BindingDefinition V) : BindingRow V :=
  match s.carriedIndex new d with
  | some index => { s.binding index with action := new.actionIndex d.action }
  | none =>
    { definition := d
      action := new.actionIndex d.action
      eligible := (new.contextOf d).legacyPassthrough && s.physicalDown (codeOf d) }

def changedCodesOf (s : CompiledInputGraph V) (new : Definitions V) (index : Nat) : List Nat :=
  let d := new.bindings.getD index {}
  match s.previousIndex d with
  | some old =>
    (if s.isUnchanged new (s.binding old) d then [] else [codeOf (s.binding old).definition,codeOf d]) ++
      if old = index then [] else [codeOf d]
  | none => [codeOf d]

def hasLayoutChanged (s : CompiledInputGraph V) (new : Definitions V) : Bool :=
  s.bindings.map (·.definition.id) != new.bindings.map (·.id)

def changedCodes (s : CompiledInputGraph V) (new : Definitions V) (identities : List ObjectId) : List Nat :=
  (List.range new.bindings.length).flatMap (s.changedCodesOf new) ++
    ((s.bindings.filter fun row => !identities.contains row.definition.id).map fun row => codeOf row.definition) ++
    if s.hasLayoutChanged new then
      (s.bindings.map fun row => codeOf row.definition) ++ new.bindings.map codeOf
    else []

def isDisabledNow (s : CompiledInputGraph V) (new : Definitions V) (action : Nat) : Bool :=
  (new.bindingsOf action).any fun index =>
    let d := new.bindings.getD index {}
    match s.previousIndex d with
    | some old => !s.isUnchanged new (s.binding old) d && (s.binding old).active && !d.enabled
    | none => false

def isSame (s : CompiledInputGraph V) (new : Definitions V) : Bool :=
  s.contexts == new.contexts && s.actions.map (·.definition) == new.actions &&
    s.bindings.map (·.definition) == new.bindings

def sortedBucket (s : CompiledInputGraph V) (code : Nat) : List Nat :=
  ((List.range s.bindings.length).filter fun index => codeOf (s.binding index).definition == code).insertionSort
    fun left right => !s.higher right left

def dependentCodes (s : CompiledInputGraph V) (bit : Nat) : List Nat :=
  ((s.bindings.filter fun row => row.definition.exactModifiers || row.definition.modifiers.getLsbD bit).map
    fun row => codeOf row.definition).eraseDups

/-- Lets go of the actions that are not defined any more. -/
def releaseRemoved (s : CompiledInputGraph V) (new : Definitions V) : CompiledInputGraph V :=
  (List.range s.actions.length).foldl (fun s index =>
    if new.actions.any (·.id == (s.action index).definition.id) then s
    else s.publish index V.zero V.zero V.zero .definitionChanged) s

def replaced (s : CompiledInputGraph V) (new : Definitions V) (identities : List ObjectId) : CompiledInputGraph V :=
  let next := { s.releaseRemoved new with
    contexts := new.contexts
    actions := (List.range new.actions.length).map (s.nextAction new)
    bindings := new.bindings.map (s.nextBinding new)
    dirty := [] }
  { next with
    buckets := fun code => if code ∈ s.changedCodes new identities then next.sortedBucket code else s.buckets code
    modifierBuckets := next.dependentCodes }

def markAction (s : CompiledInputGraph V) (new : Definitions V) (t : CompiledInputGraph V) (index : Nat) :
    CompiledInputGraph V :=
  let row := t.action index
  let disabled := !row.definition.enabled || !(t.context row.context).enabled || s.isDisabledNow new index
  t.markDirty index (if disabled then .disabled else .definitionChanged) lowestPriority

/-- Evaluates each of these codes in turn. -/
def evaluateAll (s : CompiledInputGraph V) (cancellation : Reason) (codes : List Nat) : CompiledInputGraph V :=
  codes.foldl (fun s code => (s.evaluate code cancellation).2) s

def rebuilt (s : CompiledInputGraph V) (new : Definitions V) (identities : List ObjectId) : CompiledInputGraph V :=
  let next := s.replaced new identities
  let marked := (List.range next.actions.length).foldl (s.markAction new) next
  let changed := (List.range bucketCount).filter fun code =>
    code ∈ s.changedCodes new identities && code != pointerCode
  (marked.evaluateAll .definitionChanged changed).refreshActions

/-- Whether anything changed, or why the definitions are refused. -/
def compile (s : CompiledInputGraph V) (new : Definitions V) : Except String Bool × CompiledInputGraph V :=
  let s := s.clearTransitions
  match new.validate with
  | .error message => (.error message,s)
  | .ok identities => if s.isSame new then (.ok false,s) else (.ok true,s.rebuilt new identities)

inductive PointerButton where
  | left | right | middle | auxiliary1 | auxiliary2
deriving DecidableEq

def PointerButton.number : PointerButton → Nat
  | .left => 0
  | .right => 1
  | .middle => 2
  | .auxiliary1 => 3
  | .auxiliary2 => 4

inductive GamepadButton where
  | south | east | west | north | back | guide | start | leftStick | rightStick | leftShoulder | rightShoulder
  | dPadUp | dPadDown | dPadLeft | dPadRight | misc | rightPaddle1 | leftPaddle1 | rightPaddle2 | leftPaddle2
  | touchpad
deriving DecidableEq

def getGamepadKeyCode : GamepadButton → Option Nat
  | .south => some 1002
  | .east => some 1003
  | .west => some 1000
  | .north => some 1001
  | .back => some 1011
  | .start => some 1010
  | .leftStick => some 1009
  | .rightStick => some 1007
  | .leftShoulder => some 1005
  | .rightShoulder => some 1004
  | .dPadUp => some 1014
  | .dPadDown => some 1015
  | .dPadLeft => some 1012
  | .dPadRight => some 1013
  | _ => none

/-- What of an event the graph reads; it reads nothing of the other kinds of events. -/
inductive HostEvent (V : InputNumbers) where
  | key (logical : Nat) (pressed isRepeat : Bool)
  | pointerMove (x y : V.Scalar)
  | pointerButton (button : PointerButton) (pressed : Bool)
  | gamepadButton (button : GamepadButton) (pressed : Bool)
  | focus (focused : Bool)
  | other

def movedActions (s : CompiledInputGraph V) : List Nat :=
  (List.range s.actions.length).filter fun action =>
    (s.buckets pointerCode).any fun index => (s.binding index).active && (s.binding index).action == action

def motion (s : CompiledInputGraph V) (action : Nat) (delta : V.Scalar)
    (factor : BindingDefinition V → V.Scalar) : V.Total :=
  (s.buckets pointerCode).foldl (fun sum index =>
    let row := s.binding index
    if row.active && row.action == action then V.addScaled sum delta (factor row.definition) else sum) V.nothing

def moveAction (x y : V.Scalar) (s : CompiledInputGraph V) (index : Nat) : CompiledInputGraph V :=
  let state := (s.action index).state
  s.publish index state.value (V.moved state.x (s.motion index x (·.vectorX)))
    (V.moved state.y (s.motion index y (·.vectorY))) .none

def movePointer (s : CompiledInputGraph V) (x y : V.Scalar) : Bool × CompiledInputGraph V :=
  let (consumed,s) := s.evaluate pointerCode .none
  (consumed,{ s.movedActions.foldl (moveAction x y) s with dirty := [] })

def setDown (s : CompiledInputGraph V) (code : Nat) (down : Bool) : CompiledInputGraph V :=
  let bit := if code < physicalCodeCount then modifierBit code else 0
  { s with
    physicalDown := Function.update s.physicalDown code down
    modifiers := if down then s.modifiers ||| bit else s.modifiers &&& ~~~bit }

/-- A press makes a binding eligible if its chord is held then. -/
def arm (s : CompiledInputGraph V) (indices : List Nat) : CompiledInputGraph V :=
  indices.foldl (fun s index =>
    s.setBinding index { s.binding index with eligible := s.enabled (s.binding index) && s.chord (s.binding index) }) s

/-- Evaluates what depends on the modifier, of the codes that are held. -/
def evaluateDependents (code : Nat) (guiConsumed : Bool) (cancellation : Reason)
    (found : Bool × CompiledInputGraph V) (dependent : Nat) : Bool × CompiledInputGraph V :=
  let (consumed,s) := found
  if dependent = code ∨ s.physicalDown dependent = false then found
  else
    let s := if guiConsumed then s.revoke (s.buckets dependent) else s
    let (more,s) := s.evaluate dependent cancellation
    (more || consumed,s)

def processButton (s : CompiledInputGraph V) (code : Nat) (down isRepeat guiConsumed : Bool) :
    Bool × CompiledInputGraph V :=
  let wasDown := s.physicalDown code
  let held := s.setDown code down
  let armed := if !down || guiConsumed then held.revoke (held.buckets code)
    else if !wasDown && !isRepeat then held.arm (held.buckets code)
    else held
  let cancellation := if guiConsumed then Reason.guiConsumed else .released
  let evaluated := armed.evaluate code cancellation
  let (consumed,s) := match if code < physicalCodeCount then modifierIndex code else none with
    | some bit =>
      (armed.modifierBuckets bit).foldl (evaluateDependents code guiConsumed cancellation) evaluated
    | none => evaluated
  (!guiConsumed && consumed,s.refreshActions)

def reset (s : CompiledInputGraph V) (cancellation : Reason) : CompiledInputGraph V :=
  let s := { s.clearTransitions with
    physicalDown := fun _ => false
    modifiers := 0
    bindings := s.bindings.map fun row : BindingRow V => { definition := row.definition, action := row.action } }
  { (List.range s.actions.length).foldl (fun s index => s.publish index V.zero V.zero V.zero cancellation) s with
    dirty := [] }

def processEvent (s : CompiledInputGraph V) (event : HostEvent V) (guiConsumed : Bool) :
    Bool × CompiledInputGraph V :=
  let s := s.clearTransitions
  match event with
  | .focus false => (false,s.reset .focusLost)
  | .focus true => (false,s)
  | .key logical pressed isRepeat =>
    if logical = noKey ∨ logical ≥ bucketCount then (false,s) else s.processButton logical pressed isRepeat guiConsumed
  | .gamepadButton button pressed =>
    match getGamepadKeyCode button with
    | some code => s.processButton code pressed false guiConsumed
    | none => (false,s)
  | .pointerButton button pressed =>
    if button.number > PointerButton.middle.number then (false,s)
    else s.processButton (mouseBase + button.number) pressed false guiConsumed
  | .pointerMove x y =>
    if guiConsumed || !V.isFinite x || !V.isFinite y then (false,s) else s.movePointer x y
  | .other => (false,s)

def endFrame (s : CompiledInputGraph V) : CompiledInputGraph V :=
  let s := { s.clearTransitions with
    actions := s.actions.map fun row : ActionRow V =>
      if row.definition.valueType = ValueType.vector2 then { row with state := { row.state with x := V.zero, y :=
          V.zero } }
      else row }
  (s.buckets pointerCode).foldl (fun s index => s.setBinding index
    { s.binding index with active := false, matched := false, suppressed := false, winningContext := {} }) s

inductive Operation (V : InputNumbers) where
  | compile (new : Definitions V)
  | processEvent (event : HostEvent V) (guiConsumed : Bool)
  | reset (cancellation : Reason)
  | endFrame

def operate (s : CompiledInputGraph V) : Operation V → CompiledInputGraph V
  | .compile new => (s.compile new).2
  | .processEvent event guiConsumed => (s.processEvent event guiConsumed).2
  | .reset cancellation => s.reset cancellation
  | .endFrame => s.endFrame

end CompiledInputGraph
end Gargantuan
