import Gargantuan.LocalReader
import Gargantuan.RemoteProtocol
import Gargantuan.SortedMap

/-!
Replication frames: what a server may tell a replica, the checks on it, and the bytes it
travels as. The writer walks over a frame that passed its checks, the reader enforces
limits of its own while it reads and checks the operations again.

The size of an attribute's value is that of its JSON text, which the JSON library
produces; `measureWireValueJsonBytes` stands for it. Counters of work are left out, and
memory is not exhausted.
-/
namespace Gargantuan.ReplicationProtocol
open Gargantuan.GameBinaryReader (Local demanded repeated)

def frameContext : String := "Replication frame"

def maximumSnapshotPropertiesPerObject : Nat := 1024
def maximumAttributeNameBytes : Nat := 100
def maximumAttributesPerInstance : Nat := 64
def maximumAttributeValueBytes : Nat := 4 * 1024
def maximumAttributeBytesPerInstance : Nat := 16 * 1024
def maximumReplicatedAttributeBytesPerInstance : Nat := maximumAttributeBytesPerInstance
def maximumTagNameBytes : Nat := 100
def maximumTagsPerInstance : Nat := 64
def maximumCustomExtensionDefinitions : Nat := 64
def maximumCustomClassDefinitions : Nat := 64
def maximumExtensionOverridesPerInstance : Nat := 128
def maximumCustomPropertyOverridesPerInstance : Nat := 128

/-- Values by name. -/
abbrev ValueMap := SortedMap ByteString WireValue

/-- The overrides of one extension, or of one declaring class, on an object: the two
    records of the source have the same three fields. -/
structure SnapshotState where
  schemaId : SchemaId
  definitionVersion : UInt32
  properties : ValueMap
deriving DecidableEq

structure PublishReplication where
  object : ObjectId
  classSchemaId : SchemaId
  definitionVersion : UInt32
  parent : Option ObjectId := none
  className : ByteString
  name : ByteString
  properties : ValueMap := ∅
  attributes : ValueMap := ∅
  extensions : List SnapshotState := []
  customProperties : List SnapshotState := []
  tags : List ByteString := []
deriving DecidableEq

structure StructuralMaterializationTemplate where
  world : ObjectId
  object : ObjectId
  publication : PublishReplication
deriving DecidableEq

inductive ReplicationIntent where
  | publish (value : PublishReplication)
  | preparedPublish (object : ObjectId) (template : Option StructuralMaterializationTemplate)
      (nilProperties : List ByteString)
  | property (object : ObjectId) (propertyName : ByteString) (value : WireValue)
      (declaringClassSchemaId : Option SchemaId) (definitionVersion : Option UInt32)
  | extensionProperty (object : ObjectId) (extensionSchemaId : SchemaId) (definitionVersion : UInt32)
      (propertyName : ByteString) (value : WireValue)
  | reparent (object : ObjectId) (parent : Option ObjectId)
  | attributeUpdate (object : ObjectId) (attributeName : ByteString) (value : Option WireValue)
  | tagAdded (object : ObjectId) (tagName : ByteString)
  | tagRemoved (object : ObjectId) (tagName : ByteString)
  | unpublish (object : ObjectId)
  | destroy (object : ObjectId)
deriving DecidableEq

structure ReplicationOperation where
  epoch : ReplicationEpoch
  intent : ReplicationIntent
deriving DecidableEq

def validateAttributeName (name : ByteString) : Except String Unit :=
  if name.isEmpty then .error "Attribute name cannot be empty"
  else if name.length > maximumAttributeNameBytes then .error "Attribute name exceeds its byte limit"
  else if !isValidProtocolUtf8 name then .error "Attribute name is not valid UTF-8"
  else if name.contains 0 then .error "Attribute name contains an embedded null"
  else .ok ()

def validateTagName (name : ByteString) : Except String Unit :=
  if name.isEmpty then .error "Tag name cannot be empty"
  else if name.length > maximumTagNameBytes then .error "Tag name exceeds its byte limit"
  else if name.contains 0 then .error "Tag name contains an embedded null"
  else if !isValidProtocolUtf8 name then .error "Tag name is not valid UTF-8"
  else .ok ()

/-- The values an attribute may hold. -/
def attributeSupported : WireValue → Bool
  | .nil | .enumItem .. | .schemaEnum .. | .objectReference _ => false
  | .boolean _ | .integer _ => true
  | .double x => x.isFinite
  | .float x => x.isFinite
  | .string s => isValidProtocolUtf8 s && !s.contains 0
  | .vector2 x y => x.isFinite && y.isFinite
  | .vector3 x y z => x.isFinite && y.isFinite && z.isFinite
  | .color3 r g b => r.isFinite && g.isFinite && b.isFinite
  | .uDim d => d.scale.isFinite
  | .uDim2 x y => x.scale.isFinite && y.scale.isFinite
  | .cFrame c => c.val.all Float32Bits.isFinite

def stringTooLong : WireValue → Bool
  | .string s => s.length > maximumAttributeValueBytes
  | _ => false

section
variable (measureWireValueJsonBytes : WireValue → Except String Nat)

def validateAttributeValue (value : WireValue) : Except String Nat := do
  require (attributeSupported value) "Attribute WireValue type is unsupported or non-finite"
  require (!stringTooLong value) "Attribute value exceeds its encoded byte limit"
  let encodedBytes ← measureWireValueJsonBytes value
  require (encodedBytes ≤ maximumAttributeValueBytes) "Attribute value exceeds its encoded byte limit"
  return encodedBytes

/-- One more attribute, after those that take up the aggregate so far. -/
def addAttribute (aggregateBytes : Nat) (entry : ByteString × WireValue) : Except String Nat := do
  validateAttributeName entry.1
  let encodedBytes ← validateAttributeValue measureWireValueJsonBytes entry.2
  let aggregateBytes := aggregateBytes + (entry.1.length + encodedBytes)
  require (aggregateBytes ≤ maximumAttributeBytesPerInstance &&
    aggregateBytes ≤ maximumReplicatedAttributeBytesPerInstance) "Instance exceeds its aggregate attribute byte limit"
  return aggregateBytes

def validateAttributeCollection (attributes : ValueMap) : Except String Nat := do
  require (attributes.size ≤ maximumAttributesPerInstance) "Instance exceeds its attribute count limit"
  attributes.entries.foldlM (addAttribute measureWireValueJsonBytes) 0

def propertiesValid (properties : ValueMap) (description : String) : Bool :=
  properties.entries.all fun e =>
    (validateProtocolString e.1 maximumProtocolIdentifierBytes description).isOk && e.2.isValid

def statesValid (states : List SnapshotState) (maximumStates maximumOverrides : Nat) (description : String) : Bool :=
  states.length ≤ maximumStates && decide (states.map SnapshotState.schemaId).Nodup &&
    states.all fun state => state.schemaId.isValid && state.definitionVersion != 0 &&
      state.properties.size ≤ maximumOverrides && propertiesValid state.properties description

/-- A check that throws and one that answers false both refuse the publication. -/
def isValidPublishReplication (value : PublishReplication) : Bool :=
  value.object.isValid &&
    (validateProtocolString value.className maximumProtocolIdentifierBytes "Replication class name").isOk &&
    (validateProtocolString value.name maximumProtocolStringBytes "Replication object name").isOk &&
    value.properties.size ≤ maximumSnapshotPropertiesPerObject &&
    propertiesValid value.properties "Replication property name" &&
    (validateAttributeCollection measureWireValueJsonBytes value.attributes).isOk &&
    statesValid value.extensions maximumCustomExtensionDefinitions maximumExtensionOverridesPerInstance
      "Replication extension property name" &&
    statesValid value.customProperties maximumCustomClassDefinitions maximumCustomPropertyOverridesPerInstance
      "Replication custom property name" &&
    value.tags.length ≤ maximumTagsPerInstance && value.tags.all (fun tag => (validateTagName tag).isOk) &&
    decide value.tags.Nodup && value.classSchemaId.isValid && value.definitionVersion != 0 &&
    value.parent.all GenerationalId.isValid

def nilPropertiesValid (properties : ValueMap) : List ByteString → Bool
  | [] => true
  | name :: rest =>
    (match properties.find? name with
      | some (.objectReference _) => true
      | _ => false) &&
      rest.head?.all (fun next => decide (name < next)) && nilPropertiesValid properties rest

/-- The template's publication is not looked into. -/
def validatePreparedPublish (object : ObjectId) (template : Option StructuralMaterializationTemplate)
    (nilProperties : List ByteString) : Bool :=
  match template with
  | none => false
  | some template =>
    object.isValid && template.world.isValid && template.object == object && template.publication.object == object &&
      nilProperties.length ≤ template.publication.properties.size &&
      nilPropertiesValid template.publication.properties nilProperties

namespace ReplicationIntent

def isValid : ReplicationIntent → Bool
  | publish value => value.object.isValid && isValidPublishReplication measureWireValueJsonBytes value
  | preparedPublish object template nilProperties =>
    object.isValid && validatePreparedPublish object template nilProperties
  | property object propertyName value declaringClassSchemaId definitionVersion =>
    object.isValid &&
      (validateProtocolString propertyName maximumProtocolIdentifierBytes "Replication property name").isOk &&
      value.isValid && declaringClassSchemaId.isSome == definitionVersion.isSome &&
      declaringClassSchemaId.all SchemaId.isValid && definitionVersion.all (· != 0)
  | extensionProperty object extensionSchemaId definitionVersion propertyName value =>
    object.isValid &&
      (validateProtocolString propertyName maximumProtocolIdentifierBytes "Replication extension property name").isOk &&
      value.isValid && extensionSchemaId.isValid && definitionVersion != 0
  | reparent object parent => object.isValid && parent.all GenerationalId.isValid
  | attributeUpdate object attributeName value =>
    object.isValid && (validateAttributeName attributeName).isOk &&
      value.all fun v => (validateAttributeValue measureWireValueJsonBytes v).isOk
  | tagAdded object tagName | tagRemoved object tagName => object.isValid && (validateTagName tagName).isOk
  | unpublish object | destroy object => object.isValid

end ReplicationIntent

def ReplicationOperation.isValid (operation : ReplicationOperation) : Bool :=
  operation.epoch.isValid && operation.intent.isValid measureWireValueJsonBytes

end

def replicationProtocolVersion : UInt16 := 1
def maximumReplicationFrameBytes : Nat := 8 * 1024 * 1024
def maximumReplicationOperationsPerFrame : Nat := 64 * 1024
def maximumReplicationSchemaDefinitions : Nat := 4096
def replicationMagic : Nat := 0x4c505247
def replicationHeaderBytes : Nat := 36
def replicationSchemaEntryBytes : Nat := 21
def minimumReplicationOperationBytes : Nat := 9

inductive ReplicationMessageKind where
  | baseline | incremental
deriving DecidableEq, Repr

inductive SchemaDefinitionKind where
  | objectClass | enumeration | extension
deriving DecidableEq, Repr

structure SchemaCompatibilityEntry where
  id : SchemaId
  definitionVersion : UInt32
  kind : SchemaDefinitionKind
deriving DecidableEq

structure ReplicationFrame where
  version : UInt16 := replicationProtocolVersion
  kind : ReplicationMessageKind := .incremental
  epoch : ReplicationEpoch
  sequence : ReliableReplicationSequence
  schema : List SchemaCompatibilityEntry := []
  operations : List ReplicationOperation := []
deriving DecidableEq

def ReplicationFrame.isValid (measureWireValueJsonBytes : WireValue → Except String Nat)
    (frame : ReplicationFrame) : Bool :=
  frame.version == replicationProtocolVersion && frame.epoch.isValid && frame.sequence.isValid &&
    frame.operations.length ≤ maximumReplicationOperationsPerFrame &&
    frame.schema.length ≤ maximumReplicationSchemaDefinitions &&
    !(frame.kind == .baseline && frame.schema.isEmpty) && !(frame.kind == .incremental && !frame.schema.isEmpty) &&
    frame.schema.all (fun entry => entry.id.isValid && entry.definitionVersion != 0) &&
    decide (frame.schema.map SchemaCompatibilityEntry.id).Nodup &&
    frame.operations.all fun operation => operation.epoch == frame.epoch && operation.isValid measureWireValueJsonBytes

def writeOptionalObjectId (w : GameBinaryWriter) (id : Option ObjectId) : GameBinaryWriter :=
  let w := w.integer 1 (if id.isSome then 1 else 0)
  match id with
  | some id => w.objectId id
  | none => w

def writeValue (nilProperties : List ByteString) (w : GameBinaryWriter) (entry : ByteString × WireValue) :
    GameBinaryWriter :=
  let w := w.string entry.1
  if nilProperties.contains entry.1 then w.wireValue .nil else w.wireValue entry.2

def writeValueMap (w : GameBinaryWriter) (values : ValueMap) (nilProperties : List ByteString) : GameBinaryWriter :=
  w.counted values.entries (writeValue nilProperties)

def writeState (w : GameBinaryWriter) (state : SnapshotState) : GameBinaryWriter :=
  writeValueMap ((w.schemaId state.schemaId).integer 4 state.definitionVersion.toNat) state.properties []

def writePublish (w : GameBinaryWriter) (value : PublishReplication) (nilProperties : List ByteString) :
    GameBinaryWriter :=
  let w := (w.objectId value.object).schemaId value.classSchemaId
  let w := w.integer 4 value.definitionVersion.toNat
  let w := writeOptionalObjectId w value.parent
  let w := (w.string value.className).string value.name
  let w := writeValueMap w value.properties nilProperties
  let w := writeValueMap w value.attributes []
  let w := w.counted value.extensions writeState
  let w := w.counted value.customProperties writeState
  w.counted value.tags GameBinaryWriter.string

def operationCode : ReplicationIntent → Nat
  | .publish _ | .preparedPublish .. => 0
  | .property .. => 1
  | .extensionProperty .. => 2
  | .reparent .. => 3
  | .attributeUpdate .. => 4
  | .tagAdded .. => 5
  | .tagRemoved .. => 6
  | .unpublish _ => 7
  | .destroy _ => 8

def writeIntent (w : GameBinaryWriter) (intent : ReplicationIntent) : GameBinaryWriter :=
  let w := w.integer 1 (operationCode intent)
  match intent with
  | .publish value => writePublish w value []
  | .preparedPublish _ (some template) nilProperties => writePublish w template.publication nilProperties
  | .preparedPublish _ none _ => w -- the source would follow a null pointer; no valid operation gets here
  | .property object propertyName value declaringClassSchemaId definitionVersion =>
    let w := ((w.objectId object).string propertyName).wireValue value
    let w := w.integer 1 (if declaringClassSchemaId.isSome then 1 else 0)
    match declaringClassSchemaId, definitionVersion with
    | some id, some version => (w.schemaId id).integer 4 version.toNat
    | some id, none => w.schemaId id -- nor here
    | none, _ => w
  | .extensionProperty object extensionSchemaId definitionVersion propertyName value =>
    let w := ((w.objectId object).schemaId extensionSchemaId).integer 4 definitionVersion.toNat
    (w.string propertyName).wireValue value
  | .reparent object parent => writeOptionalObjectId (w.objectId object) parent
  | .attributeUpdate object attributeName value =>
    let w := ((w.objectId object).string attributeName).integer 1 (if value.isSome then 1 else 0)
    match value with
    | some value => w.wireValue value
    | none => w
  | .tagAdded object tagName | .tagRemoved object tagName => (w.objectId object).string tagName
  | .unpublish object | .destroy object => w.objectId object

def writeOperation (w : GameBinaryWriter) (operation : ReplicationOperation) : GameBinaryWriter :=
  writeIntent w operation.intent

def schemaKindIndex : SchemaDefinitionKind → Nat
  | .objectClass => 0
  | .enumeration => 1
  | .extension => 2

def writeSchemaEntry (w : GameBinaryWriter) (entry : SchemaCompatibilityEntry) : GameBinaryWriter :=
  ((w.schemaId entry.id).integer 4 entry.definitionVersion.toNat).integer 1 (schemaKindIndex entry.kind)

def messageKindIndex : ReplicationMessageKind → Nat
  | .baseline => 0
  | .incremental => 1

def writeHeader (w : GameBinaryWriter) (frame : ReplicationFrame) (payloadBytes : Nat) : GameBinaryWriter :=
  let w := ((w.integer 4 replicationMagic).integer 2 frame.version.toNat).integer 1 (messageKindIndex frame.kind)
  let w := ((w.integer 1 0).integer 8 frame.epoch.toNat).integer 8 frame.sequence.toNat
  ((w.integer 4 frame.schema.length).integer 4 frame.operations.length).integer 4 payloadBytes

section
variable (measureWireValueJsonBytes : WireValue → Except String Nat)

/-- The payload is inserted behind the header without a further check. -/
def encodeReplicationFrameBounded (frame : ReplicationFrame) (maximumBytes : Nat) :
    Except SerializationError (List UInt8) :=
  if !frame.isValid measureWireValueJsonBytes then .error ⟨.invalidValue,"Replication frame is invalid"⟩
  else
    let maximumBytes := min maximumBytes maximumReplicationFrameBytes
    if maximumBytes < replicationHeaderBytes then
      .error ⟨.limitExceeded,"Replication frame exceeds its byte limit"⟩
    else
      let payload : GameBinaryWriter := { maximumBytes := maximumBytes - replicationHeaderBytes }
      let payload := frame.schema.foldl writeSchemaEntry payload
      let payload := frame.operations.foldl writeOperation payload
      if !payload.succeeded then .error ⟨.limitExceeded,"Replication frame exceeds its byte limit"⟩
      else .ok ((writeHeader { maximumBytes := maximumBytes } frame payload.bytes.length).bytes ++ payload.bytes)

def encodeReplicationFrame (frame : ReplicationFrame) : Except SerializationError (List UInt8) :=
  encodeReplicationFrameBounded measureWireValueJsonBytes frame maximumReplicationFrameBytes

end

/-! ### Reading -/

def readObjectId : GameBinaryReader ObjectId := (Field.objectId frameContext).read
def readSchemaId : GameBinaryReader SchemaId := (Field.schemaId frameContext).read
def readVersion : GameBinaryReader UInt32 := (Field.u32 frameContext).read
def readMarker : GameBinaryReader UInt8 := (Field.u8 frameContext).read
def readWireValue : GameBinaryReader WireValue := (Field.wireValue frameContext).read

def readIdentifier : GameBinaryReader ByteString :=
  (Field.string frameContext maximumProtocolIdentifierBytes (by decide)).read

def readOptionalObjectId : GameBinaryReader (Option ObjectId) := do
  let present ← readMarker
  demanded (present ≤ 1) "Replication optional marker is invalid"
  if present == 0 then return none
  else return some (← readObjectId)

def readValue (values : ValueMap) : GameBinaryReader ValueMap := do
  let name ← readIdentifier
  let value ← readWireValue
  demanded (!values.contains name) "Replication value map contains duplicate keys"
  return values.insert name value

def readValueMap (maximumCount : Nat) : GameBinaryReader ValueMap :=
  GameBinaryReader.counted frameContext maximumCount "Replication value map exceeds its limit" readValue ∅

def readState (maximumOverrides : Nat) (states : List SnapshotState) : GameBinaryReader (List SnapshotState) := do
  let schemaId ← readSchemaId
  let definitionVersion ← readVersion
  demanded (definitionVersion != 0) ""
  let properties ← readValueMap maximumOverrides
  return states ++ [⟨schemaId,definitionVersion,properties⟩]

def readTag (tags : List ByteString) : GameBinaryReader (List ByteString) := do
  let tag ← (Field.string frameContext maximumTagNameBytes (by decide)).read
  demanded (!tags.contains tag) "Replication tags are invalid or duplicated"
  return tags ++ [tag]

def readPublish : GameBinaryReader PublishReplication := do
  let object ← readObjectId
  let classSchemaId ← readSchemaId
  let definitionVersion ← readVersion
  demanded (definitionVersion != 0) ""
  let parent ← readOptionalObjectId
  let className ← readIdentifier
  let name ← (Field.string frameContext maximumProtocolStringBytes (by decide)).read
  let properties ← readValueMap maximumSnapshotPropertiesPerObject
  let attributes ← readValueMap maximumAttributesPerInstance
  let extensions ← GameBinaryReader.counted frameContext maximumCustomExtensionDefinitions
    "Replication extension state exceeds its limit" (readState maximumExtensionOverridesPerInstance) []
  let customProperties ← GameBinaryReader.counted frameContext maximumCustomClassDefinitions
    "Replication custom state exceeds its limit" (readState maximumCustomPropertyOverridesPerInstance) []
  let tags ← GameBinaryReader.counted frameContext maximumTagsPerInstance
    "Replication tags exceed their limit" readTag []
  return { object, classSchemaId, definitionVersion, parent, className, name, properties, attributes, extensions,
           customProperties, tags }

def readProperty : GameBinaryReader ReplicationIntent := do
  let object ← readObjectId
  let propertyName ← readIdentifier
  let value ← readWireValue
  let hasSchema ← readMarker
  demanded (hasSchema ≤ 1) "Replication property operation is invalid"
  if hasSchema == 0 then return .property object propertyName value none none
  else
    let id ← readSchemaId
    let version ← readVersion
    demanded (version != 0) "Replication property schema is invalid"
    return .property object propertyName value (some id) (some version)

def readExtensionProperty : GameBinaryReader ReplicationIntent := do
  let object ← readObjectId
  let extensionSchemaId ← readSchemaId
  let definitionVersion ← readVersion
  demanded (definitionVersion != 0) ""
  let propertyName ← readIdentifier
  let value ← readWireValue
  return .extensionProperty object extensionSchemaId definitionVersion propertyName value

def readReparent : GameBinaryReader ReplicationIntent := do
  let object ← readObjectId
  let parent ← readOptionalObjectId
  return .reparent object parent

def readAttribute : GameBinaryReader ReplicationIntent := do
  let object ← readObjectId
  let attributeName ← (Field.string frameContext maximumAttributeNameBytes (by decide)).read
  let hasValue ← readMarker
  demanded (hasValue ≤ 1) "Replication attribute operation is invalid"
  if hasValue == 0 then return .attributeUpdate object attributeName none
  else
    let value ← readWireValue
    return .attributeUpdate object attributeName (some value)

/-- A tag that was added or removed. -/
def readTagChange (intent : ObjectId → ByteString → ReplicationIntent) : GameBinaryReader ReplicationIntent := do
  let object ← readObjectId
  let tagName ← (Field.string frameContext maximumTagNameBytes (by decide)).read
  return intent object tagName

def readIntent : Nat → GameBinaryReader ReplicationIntent
  | 0 => do
    let value ← readPublish
    return .publish value
  | 1 => readProperty
  | 2 => readExtensionProperty
  | 3 => readReparent
  | 4 => readAttribute
  | 5 => readTagChange .tagAdded
  | 6 => readTagChange .tagRemoved
  | 7 => do
    let object ← readObjectId
    return .unpublish object
  | 8 => do
    let object ← readObjectId
    return .destroy object
  | _ => GameBinaryReader.fail "Replication opcode is invalid"

def kindOf : Nat → Option ReplicationMessageKind
  | 0 => some .baseline
  | 1 => some .incremental
  | _ => none

def schemaKindOf : Nat → Option SchemaDefinitionKind
  | 0 => some .objectClass
  | 1 => some .enumeration
  | 2 => some .extension
  | _ => none

def readSchemaEntry (schema : List SchemaCompatibilityEntry) : GameBinaryReader (List SchemaCompatibilityEntry) := do
  let id ← readSchemaId
  let definitionVersion ← readVersion
  demanded (definitionVersion != 0) ""
  let definitionKind ← readMarker
  match schemaKindOf definitionKind.toNat with
  | none => GameBinaryReader.fail ""
  | some kind => return schema ++ [⟨id,definitionVersion,kind⟩]

structure FrameHeader where
  magic : UInt32
  version : UInt16
  kind : UInt8
  reserved : UInt8
  epoch : ReplicationEpoch
  sequence : ReliableReplicationSequence
  schemaCount : UInt32
  operationCount : UInt32
  payloadBytes : UInt32
deriving DecidableEq

def readHeader : GameBinaryReader FrameHeader := do
  let magic ← (Field.u32 frameContext).read
  let version ← (Field.u16 frameContext).read
  let kind ← (Field.u8 frameContext).read
  let reserved ← (Field.u8 frameContext).read
  let epoch ← (Field.sequence frameContext).read
  let sequence ← (Field.sequence frameContext).read
  let schemaCount ← (Field.u32 frameContext).read
  let operationCount ← (Field.u32 frameContext).read
  let payloadBytes ← (Field.u32 frameContext).read
  return ⟨magic,version,kind,reserved,epoch,sequence,schemaCount,operationCount,payloadBytes⟩

def checkHeader (h : FrameHeader) (remaining : Nat) : Except SerializationError ReplicationMessageKind :=
  if h.magic.toNat ≠ replicationMagic then .error ⟨.invalidSyntax,"Replication frame magic is invalid"⟩
  else if h.version ≠ replicationProtocolVersion then
    .error ⟨.unsupportedVersion,"Replication protocol version is unsupported"⟩
  else match kindOf h.kind.toNat with
    | none => .error ⟨.invalidValue,"Replication frame header is invalid"⟩
    | some kind =>
      if h.reserved ≠ 0 then .error ⟨.invalidValue,"Replication frame header is invalid"⟩
      else if h.schemaCount.toNat > maximumReplicationSchemaDefinitions ||
          h.operationCount.toNat > maximumReplicationOperationsPerFrame then
        .error ⟨.limitExceeded,"Replication frame count exceeds its limit"⟩
      else if h.payloadBytes.toNat ≠ remaining then
        .error ⟨.truncatedInput,"Replication payload length does not match the frame"⟩
      else if h.schemaCount.toNat > remaining / replicationSchemaEntryBytes then
        .error ⟨.truncatedInput,"Replication schema count cannot fit in the payload"⟩
      else if h.operationCount.toNat >
          (remaining - h.schemaCount.toNat * replicationSchemaEntryBytes) / minimumReplicationOperationBytes then
        .error ⟨.truncatedInput,"Replication operation count cannot fit in the payload"⟩
      else .ok kind

section
variable (measureWireValueJsonBytes : WireValue → Except String Nat)

def readOperation (epoch : ReplicationEpoch) (operations : List ReplicationOperation) :
    GameBinaryReader (List ReplicationOperation) := do
  let code ← readMarker
  let intent ← readIntent code.toNat
  let operation : ReplicationOperation := ⟨epoch,intent⟩
  demanded (operation.isValid measureWireValueJsonBytes) "Replication operation failed semantic validation"
  return operations ++ [operation]

def readSchema (h : FrameHeader) : GameBinaryReader (List SchemaCompatibilityEntry) :=
  repeated readSchemaEntry h.schemaCount.toNat []

def readOperations (h : FrameHeader) : GameBinaryReader (List ReplicationOperation) :=
  repeated (readOperation measureWireValueJsonBytes h.epoch) h.operationCount.toNat []

def decodeReplicationFrame (bytes : List UInt8) : Except SerializationError ReplicationFrame :=
  if bytes.length > maximumReplicationFrameBytes then
    .error ⟨.limitExceeded,"Replication frame exceeds its byte limit"⟩
  else match readHeader bytes with
    | .error message => .error ⟨.truncatedInput,message⟩
    | .ok (h,payload) =>
      match checkHeader h payload.length with
      | .error error => .error error
      | .ok kind =>
        match readSchema h payload with
        | .error message =>
          .error ⟨.invalidValue,if message.isEmpty then "Replication schema manifest is invalid" else message⟩
        | .ok (schema,rest) =>
          match readOperations measureWireValueJsonBytes h rest with
          | .error message => .error ⟨.invalidValue,message⟩
          | .ok (operations,trailing) =>
            let frame : ReplicationFrame := ⟨h.version,kind,h.epoch,h.sequence,schema,operations⟩
            if !trailing.isEmpty || !frame.isValid measureWireValueJsonBytes then
              .error ⟨.invalidValue,"Replication frame contains trailing or invalid data"⟩
            else .ok frame

end

end Gargantuan.ReplicationProtocol
