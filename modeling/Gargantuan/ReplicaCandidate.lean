import Gargantuan.SortedMap
import Gargantuan.WireValue
import Gargantuan.Worklist

/-!
How a replica applies a frame. An incremental frame is applied to a copy of the committed
objects first, the candidate, with an index of the objects by identity and the children
of each object; only a candidate that loads is committed.

What a class, an extension or a custom property allows depends on the schema registry,
and loading and committing on the instances of the receiver; these are the functions of
`Environment`. A publish that was prepared on a server never leaves it and is left out,
as are metrics.
-/
namespace Gargantuan

namespace ReplicaApplier

structure SchemaCompatibilityEntry where
  id : SchemaId
  definitionVersion : UInt32
  kind : UInt8
deriving DecidableEq

/-- The class, name, extension states and custom class states of an object are its content. -/
structure SnapshotObject (Content : Type) where
  id : ObjectId
  parent : Option ObjectId
  properties : SortedMap ByteString WireValue := ∅
  attributes : SortedMap ByteString WireValue := ∅
  tags : List ByteString := []
  content : Content

structure PublishReplication (Content : Type) where
  object : ObjectId
  parent : Option ObjectId
  properties : SortedMap ByteString WireValue := ∅
  attributes : SortedMap ByteString WireValue := ∅
  tags : List ByteString := []
  content : Content

inductive ReplicationIntent (Content : Type) where
  | publish (value : PublishReplication Content)
  | property (object : ObjectId) (name : ByteString) (value : WireValue) (declaringClassSchemaId : Option SchemaId)
      (definitionVersion : Option UInt32)
  | extension (object : ObjectId) (extensionSchemaId : SchemaId) (definitionVersion : UInt32) (name : ByteString)
      (value : WireValue)
  | reparent (object : ObjectId) (parent : Option ObjectId)
  | attributeUpdate (object : ObjectId) (name : ByteString) (value : Option WireValue)
  | tagAdded (object : ObjectId) (name : ByteString)
  | tagRemoved (object : ObjectId) (name : ByteString)
  | unpublish (object : ObjectId)
  | destroy (object : ObjectId)

structure ReplicationOperation (Content : Type) where
  epoch : ReplicationEpoch
  intent : ReplicationIntent Content

inductive ReplicationMessageKind where
  | baseline | incremental
deriving DecidableEq

def replicationProtocolVersion : UInt16 := 1
def maximumReplicationOperationsPerFrame : Nat := 64 * 1024
def maximumReplicationSchemaDefinitions : Nat := 4096

structure ReplicationFrame (Content : Type) where
  version : UInt16 := replicationProtocolVersion
  kind : ReplicationMessageKind := .incremental
  epoch : ReplicationEpoch
  sequence : ReliableReplicationSequence
  schema : List SchemaCompatibilityEntry := []
  operations : List (ReplicationOperation Content)

structure Snapshot (Content : Type) where
  scope : ObjectId := {}
  objects : List (SnapshotObject Content) := []

/-- What the registry, the validators and the receiver's instances decide. A commit that fails leaves a receiver
    behind and a message. -/
structure Environment (Content Receiver : Type) where
  isSchemaCompatible : List SchemaCompatibilityEntry → Bool
  isValidPublish : PublishReplication Content → Bool
  isValidProperty : ByteString → WireValue → Bool
  isValidAttribute : ByteString → Option WireValue → Bool
  isValidTagName : ByteString → Bool
  isValidSchemaId : SchemaId → Bool
  customProperty : Content → SchemaId → Option UInt32 → ByteString → WireValue → Except String Content
  extensionProperty : Content → SchemaId → UInt32 → ByteString → WireValue → Except String Content
  loadSnapshot : Snapshot Content → Except String Receiver
  commit : Receiver → ReplicationFrame Content → Receiver × Option String

section
variable {Content Receiver : Type} (env : Environment Content Receiver)

def ReplicationIntent.isValid : ReplicationIntent Content → Bool
  | .publish value => value.object.isValid && env.isValidPublish value
  | .property object name value declaring version =>
    object.isValid && env.isValidProperty name value && declaring.isSome == version.isSome &&
      declaring.all fun id => env.isValidSchemaId id && decide (version ≠ some 0)
  | .extension object id version name value =>
    object.isValid && env.isValidProperty name value && env.isValidSchemaId id && version != 0
  | .reparent object parent => object.isValid && parent.all GenerationalId.isValid
  | .attributeUpdate object name value => object.isValid && env.isValidAttribute name value
  | .tagAdded object name => object.isValid && env.isValidTagName name
  | .tagRemoved object name => object.isValid && env.isValidTagName name
  | .unpublish object => object.isValid
  | .destroy object => object.isValid

def ReplicationFrame.isValid (frame : ReplicationFrame Content) : Bool :=
  frame.version == replicationProtocolVersion && frame.epoch.isValid && frame.sequence.isValid &&
    decide (frame.operations.length ≤ maximumReplicationOperationsPerFrame) &&
    decide (frame.schema.length ≤ maximumReplicationSchemaDefinitions) &&
    (if frame.kind = .baseline then !frame.schema.isEmpty else frame.schema.isEmpty) &&
    (frame.schema.all fun entry => env.isValidSchemaId entry.id && entry.definitionVersion != 0 && decide (entry.kind ≤ 2)) &&
    decide (frame.schema.map SchemaCompatibilityEntry.id).Nodup &&
    frame.operations.all fun operation =>
      operation.epoch == frame.epoch && operation.epoch.isValid && operation.intent.isValid env

/-! ### The candidate -/

structure Candidate (Content : Type) where
  objects : List (SnapshotObject Content)
  index : SortedMap ObjectId Nat := ∅
  children : SortedMap ObjectId (SortedMap ObjectId Unit) := ∅
  removed : SortedMap ObjectId Unit := ∅
  lifecycle : SortedMap ObjectId Unit := ∅
  requiresNativePreflight : Bool := false

def insertChild (children : SortedMap ObjectId (SortedMap ObjectId Unit)) (parent : Option ObjectId) (id : ObjectId) :
    SortedMap ObjectId (SortedMap ObjectId Unit) :=
  match parent with
  | none => children
  | some parent => children.insert parent (((children.find? parent).getD ∅).insert id ())

def eraseChild (children : SortedMap ObjectId (SortedMap ObjectId Unit)) (parent : Option ObjectId) (id : ObjectId) :
    SortedMap ObjectId (SortedMap ObjectId Unit) :=
  match parent with
  | none => children
  | some parent => children.insert parent (((children.find? parent).getD ∅).erase id)

/-- The next object gets its place in the index, unless its identity has one, and becomes a child of its parent. -/
def Candidate.enter (c : Candidate Content) (place : Nat) (object : SnapshotObject Content) : Candidate Content :=
  { c with
    index := if c.index.contains object.id then c.index else c.index.insert object.id place
    children := insertChild c.children object.parent object.id }

def candidateOf (objects : List (SnapshotObject Content)) : Candidate Content :=
  objects.zipIdx.foldl (fun c e => c.enter e.2 e.1) { objects }

namespace Candidate

def find (c : Candidate Content) (id : ObjectId) : Option (Nat × SnapshotObject Content) :=
  (c.index.find? id).bind fun place => (c.objects[place]?).map fun object => (place,object)

def childrenOf (c : Candidate Content) (id : ObjectId) : List ObjectId := ((c.children.find? id).getD ∅).keys

/-- One object below a removed one, or the removed one itself, leaves the index and its parent's children. -/
def removeOne (c : Candidate Content) (id : ObjectId) : Candidate Content :=
  match c.find id with
  | none => c
  | some (_,object) =>
    { c with
      children := (eraseChild c.children object.parent id).erase id
      index := c.index.erase id
      removed := c.removed.insert id () }

/-- The object and everything below it leave the candidate; none if the worklist goes on after so many visits. -/
def removeCandidate (fuel : Nat) (c : Candidate Content) (id : ObjectId) : Option (Except String (Candidate Content)) :=
  if c.index.contains id = false then some (.error "Removal targets an unpublished object")
  else (Worklist.visit c.childrenOf fuel [] [id]).map fun pending => .ok (pending.foldl removeOne c)

def setObject (c : Candidate Content) (place : Nat) (object : SnapshotObject Content) : Candidate Content :=
  { c with objects := c.objects.set place object }

def publish (c : Candidate Content) (value : PublishReplication Content) : Except String (Candidate Content) :=
  if c.lifecycle.contains value.object then .error "Object has multiple lifecycle operations in one frame"
  else if (c.find value.object).isSome then .error "Publish targets an already materialized object"
  else if (value.parent.any fun parent => (c.find parent).isNone) = true then
    .error "Publish parent is not materialized"
  else
    let object : SnapshotObject Content :=
      ⟨value.object,value.parent,value.properties,value.attributes,value.tags,value.content⟩
    let named := { c with lifecycle := c.lifecycle.insert value.object (), requiresNativePreflight := true }
    .ok ({ named with objects := named.objects ++ [object] }.enter named.objects.length object)

/-- An object of the candidate is updated in its place; its identity and parent stay. -/
def update (c : Candidate Content) (id : ObjectId)
    (change : SnapshotObject Content → Except String (SnapshotObject Content)) : Except String (Candidate Content) :=
  match c.find id with
  | none => .error "Replication operation targets an unpublished object"
  | some (place,object) =>
    match change object with
    | .error message => .error message
    | .ok changed => .ok (c.setObject place { changed with id := object.id, parent := object.parent })

def reparent (c : Candidate Content) (id : ObjectId) (parent : Option ObjectId) : Except String (Candidate Content) :=
  match c.find id with
  | none => .error "Replication operation targets an unpublished object"
  | some (place,object) =>
    if (parent.any fun parent => (c.find parent).isNone) = true then .error "Reparent target is unpublished"
    else
      .ok ({ c with
        children := insertChild (eraseChild c.children object.parent object.id) parent object.id }.setObject place
          { object with parent })

end Candidate

def applyProperty (object : SnapshotObject Content) (name : ByteString) (value : WireValue)
    (declaring : Option SchemaId) (version : Option UInt32) : Except String (SnapshotObject Content) :=
  match declaring with
  | none => .ok { object with properties := object.properties.insert name value }
  | some id => (env.customProperty object.content id version name value).map fun content => { object with content }

def applyExtension (object : SnapshotObject Content) (id : SchemaId) (version : UInt32) (name : ByteString)
    (value : WireValue) : Except String (SnapshotObject Content) :=
  (env.extensionProperty object.content id version name value).map fun content => { object with content }

def applyAttribute (object : SnapshotObject Content) (name : ByteString) (value : Option WireValue) :
    Except String (SnapshotObject Content) :=
  match value with
  | some value => .ok { object with attributes := object.attributes.insert name value }
  | none =>
    if object.attributes.contains name then .ok { object with attributes := object.attributes.erase name }
    else .error "Attribute removal targets an absent value"

def addTag (object : SnapshotObject Content) (name : ByteString) : Except String (SnapshotObject Content) :=
  if name ∈ object.tags then .error "Tag add duplicates membership"
  else .ok { object with tags := (object.tags ++ [name]).mergeSort fun a b => decide (a ≤ b) }

def removeTag (object : SnapshotObject Content) (name : ByteString) : Except String (SnapshotObject Content) :=
  if name ∈ object.tags then .ok { object with tags := object.tags.filter fun tag => decide (tag ≠ name) }
  else .error "Tag removal targets absent membership"

def preflighted (c : Candidate Content) : Candidate Content := { c with requiresNativePreflight := true }

/-- A native property that keeps its value needs no new preflight. -/
def afterProperty (c : Candidate Content) (object : ObjectId) (name : ByteString) (value : WireValue)
    (declaring : Option SchemaId) : Candidate Content :=
  match c.find object with
  | none => c
  | some (_,found) =>
    if declaring.isNone ∧ found.properties.find? name = some value then c else preflighted c

def remove (fuel : Nat) (c : Candidate Content) (object : ObjectId) : Option (Except String (Candidate Content)) :=
  if c.lifecycle.contains object then some (.error "Object has multiple lifecycle operations in one frame")
  else { preflighted c with lifecycle := c.lifecycle.insert object () }.removeCandidate fuel object

def applyIntent (fuel : Nat) (c : Candidate Content) : ReplicationIntent Content → Option (Except String (Candidate Content))
  | .publish value => some (c.publish value)
  | .unpublish object => remove fuel c object
  | .destroy object => remove fuel c object
  | .property object name value declaring version =>
    some ((afterProperty c object name value declaring).update object fun found =>
      applyProperty env found name value declaring version)
  | .extension object id version name value =>
    some ((preflighted c).update object fun found => applyExtension env found id version name value)
  | .reparent object parent => some ((preflighted c).reparent object parent)
  | .attributeUpdate object name value => some ((preflighted c).update object fun found => applyAttribute found name value)
  | .tagAdded object name => some ((preflighted c).update object fun found => addTag found name)
  | .tagRemoved object name => some ((preflighted c).update object fun found => removeTag found name)

/-- The operations of a frame in order, up to the first that is refused. -/
def validate (fuel : Nat) : Candidate Content → List (ReplicationOperation Content) →
    Option (Except String (Candidate Content))
  | c, [] => some (.ok c)
  | c, operation :: rest =>
    match applyIntent env fuel c operation.intent with
    | none => none
    | some (.error message) => some (.error message)
    | some (.ok c) => validate fuel c rest

inductive ReplicaApplyStatus where
  | applied | malformedFrame | schemaMismatch | staleEpoch | staleSequence | outOfOrderSequence | semanticRejection
deriving DecidableEq

structure ReplicaApplyResult where
  status : ReplicaApplyStatus := .semanticRejection
  appliedOperations : Nat := 0
  message : String := ""
deriving DecidableEq

structure State (Content Receiver : Type) where
  semanticState : Snapshot Content := {}
  receiver : Receiver
  epoch : ReplicationEpoch := {}
  nextSequence : ReliableReplicationSequence := {}

/-- Why a frame is refused before its operations are looked at. -/
def refusal (s : State Content Receiver) (frame : ReplicationFrame Content) : Option ReplicaApplyResult :=
  if frame.isValid env = false then some ⟨.malformedFrame,0,"Replication frame is invalid"⟩
  else if frame.kind = .baseline then
    if frame.sequence.value ≠ 1 then some ⟨.outOfOrderSequence,0,"Baseline sequence must begin at one"⟩
    else if s.epoch.isValid = true ∧ frame.epoch.isNewerThan s.epoch = false then
      some ⟨.staleEpoch,0,"Replication baseline epoch is stale"⟩
    else if env.isSchemaCompatible frame.schema = false then
      some ⟨.schemaMismatch,0,"Replication schema manifest is incompatible"⟩
    else if frame.sequence.tryNext = none then
      some ⟨.semanticRejection,0,"Reliable replication sequence is exhausted"⟩
    else none
  else if s.epoch.isValid = false ∨ frame.epoch ≠ s.epoch then
    some ⟨.staleEpoch,0,"Replication epoch is stale or unknown"⟩
  else if frame.sequence.value < s.nextSequence.value then
    some ⟨.staleSequence,0,"Reliable replication sequence is stale"⟩
  else if frame.sequence ≠ s.nextSequence then
    some ⟨.outOfOrderSequence,0,"Reliable replication sequence is out of order"⟩
  else if frame.sequence.tryNext = none then some ⟨.semanticRejection,0,"Reliable replication sequence is exhausted"⟩
  else none

def baselineObjects : List (ReplicationOperation Content) → Option (List (SnapshotObject Content))
  | [] => some []
  | operation :: rest =>
    match operation.intent with
    | .publish value => (baselineObjects rest).map fun objects =>
        ⟨value.object,value.parent,value.properties,value.attributes,value.tags,value.content⟩ :: objects
    | _ => none

def applied (s : State Content Receiver) (frame : ReplicationFrame Content) (semanticState : Snapshot Content)
    (receiver : Receiver) : ReplicaApplyResult × State Content Receiver :=
  (⟨.applied,frame.operations.length,""⟩,
    { s with
      semanticState, receiver, epoch := frame.epoch
      nextSequence := frame.sequence.tryNext.getD s.nextSequence })

def rejected (s : State Content Receiver) (message : String) : ReplicaApplyResult × State Content Receiver :=
  (⟨.semanticRejection,0,message⟩,s)

def applyBaseline (s : State Content Receiver) (frame : ReplicationFrame Content) :
    ReplicaApplyResult × State Content Receiver :=
  match baselineObjects frame.operations with
  | none => rejected s "Baseline contains a non-publish operation"
  | some objects =>
    match objects.find? fun object => object.parent.isNone with
    | none => rejected s "Baseline has no root object"
    | some root =>
      match env.loadSnapshot { scope := root.id, objects } with
      | .error message => rejected s message
      | .ok receiver => applied s frame { scope := root.id, objects } receiver

def commitCandidate (s : State Content Receiver) (frame : ReplicationFrame Content) (c : Candidate Content) :
    ReplicaApplyResult × State Content Receiver :=
  let objects := c.objects.filter fun object => !c.removed.contains object.id
  let snapshot := { s.semanticState with objects }
  let preflight := if c.requiresNativePreflight then (env.loadSnapshot snapshot).map fun _ => () else .ok ()
  match preflight with
  | .error message => rejected s message
  | .ok () =>
    match env.commit s.receiver frame with
    | (receiver,none) => applied s frame snapshot receiver
    | (receiver,some message) =>
      match env.loadSnapshot s.semanticState with
      | .ok restored => rejected { s with receiver := restored } message
      | .error _ => rejected { s with receiver } message

def validates (s : State Content Receiver) (frame : ReplicationFrame Content) : Prop :=
  refusal env s frame = none ∧ frame.kind = .incremental

/-- `ApplyFrame`; none if a worklist of its validation goes on after so many visits. -/
def applyFrame (fuel : Nat) (s : State Content Receiver) (frame : ReplicationFrame Content) :
    Option (ReplicaApplyResult × State Content Receiver) :=
  match refusal env s frame with
  | some result => some (result,s)
  | none =>
    if frame.kind = .baseline then some (applyBaseline env s frame)
    else
      (validate env fuel (candidateOf s.semanticState.objects) frame.operations).map fun
        | .error message => rejected s message
        | .ok c => commitCandidate env s frame c

end

end ReplicaApplier
end Gargantuan
