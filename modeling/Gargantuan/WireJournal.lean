import Gargantuan.ChangeJournal
import Gargantuan.ReplicationProtocol
import Gargantuan.WireCodec

/-!
The journal of changes as JSON: what is recorded for a change, the document of a list of records, and what is read from
a document. The registry of schemas is a parameter, as is the length of the text of a document; what the library says
of a number that is none is one message.
-/
namespace Gargantuan

namespace JsonCodec

def maximumProtocolDocumentBytes : Nat := 8 * 1024 * 1024
def maximumProtocolJsonDepth : Nat := 64
def maximumProtocolJsonNodes : Nat := 1024 * 1024

mutual
def validateJsonNode (depth nodes : Nat) : Json → Except String Nat
  | .object fields => do
    require (depth ≤ maximumProtocolJsonDepth) "Protocol JSON exceeds its nesting-depth limit"
    require (nodes != maximumProtocolJsonNodes) "Protocol JSON exceeds its node-count limit"
    validateFields depth (nodes + 1) fields
  | .array values => do
    require (depth ≤ maximumProtocolJsonDepth) "Protocol JSON exceeds its nesting-depth limit"
    require (nodes != maximumProtocolJsonNodes) "Protocol JSON exceeds its node-count limit"
    validateValues depth (nodes + 1) values
  | .string value => do
    require (depth ≤ maximumProtocolJsonDepth) "Protocol JSON exceeds its nesting-depth limit"
    require (nodes != maximumProtocolJsonNodes) "Protocol JSON exceeds its node-count limit"
    validateProtocolString value maximumProtocolStringBytes "Protocol string"
    return nodes + 1
  | .null | .boolean _ | .unsigned _ | .integer _ | .float _ => do
    require (depth ≤ maximumProtocolJsonDepth) "Protocol JSON exceeds its nesting-depth limit"
    require (nodes != maximumProtocolJsonNodes) "Protocol JSON exceeds its node-count limit"
    return nodes + 1

def validateFields (depth nodes : Nat) : List (ByteString × Json) → Except String Nat
  | [] => .ok nodes
  | field :: rest => do
    validateProtocolString field.1 maximumProtocolIdentifierBytes "Protocol field name"
    let nodes ← validateJsonNode (depth + 1) nodes field.2
    validateFields depth nodes rest

def validateValues (depth nodes : Nat) : List Json → Except String Nat
  | [] => .ok nodes
  | value :: rest => do
    let nodes ← validateJsonNode (depth + 1) nodes value
    validateValues depth nodes rest
end

/-- What `Parse` makes of the text of a document. A text that is nested too deep has nodes that are. -/
def readBack (textLength : Json → Nat) (document : Json) : Except String Json := do
  require (textLength document ≤ maximumProtocolDocumentBytes) "Protocol document byte length is invalid"
  let _ ← validateJsonNode 1 0 document.reread
  return document.reread

/-- `get<unsigned>`: numbers are converted, whatever they are. -/
def toUnsigned32 (numbers : Numbers) : Json → Except String Nat
  | .unsigned value => .ok (value % 2 ^ 32)
  | .integer value => .ok (value % 2 ^ 32).toNat
  | .float value => .ok (numbers.toUnsigned32 value)
  | .boolean value => .ok value.toNat
  | _ => .error "type must be number"

end JsonCodec

namespace WireJournal
open JsonCodec (Json Numbers)

def wireJournalFormatVersion : Nat := 6
def maximumWireJournalRecords : Nat := 4096

inductive ChangePayload where
  | objectCreated (className : ByteString) (classSchemaId : SchemaId) (definitionVersion : UInt32)
  | propertyUpdated (propertyName : ByteString) (value : WireValue) (replicated : Bool)
      (declaringClassSchemaId : Option SchemaId) (definitionVersion : UInt32)
  | attributeUpdated (attributeName : ByteString) (value : Option WireValue)
  | extensionPropertyUpdated (extensionSchemaId : SchemaId) (definitionVersion : UInt32) (propertyName : ByteString)
      (value : WireValue)
  | tagAdded (tagName : ByteString)
  | tagRemoved (tagName : ByteString)
  | objectReparented (parent : Option ObjectId)
  | objectDestroyed

inductive WireJournalOperation where
  | create | propertyUpdate | attributeUpdate | extensionPropertyUpdate | tagAdded | tagRemoved | reparent | destroy
deriving DecidableEq

structure WireJournalRecord where
  version : Nat := wireJournalFormatVersion
  sequence : Nat
  scope : ObjectId
  operation : WireJournalOperation
  object : ObjectId
  parent : Option ObjectId := none
  className : Option ByteString := none
  classSchemaId : Option SchemaId := none
  propertyName : Option ByteString := none
  declaringClassSchemaId : Option SchemaId := none
  attributeName : Option ByteString := none
  extensionSchemaId : Option SchemaId := none
  definitionVersion : Option UInt32 := none
  extensionPropertyName : Option ByteString := none
  tagName : Option ByteString := none
  value : Option WireValue := none
deriving DecidableEq

structure SchemaClass where
  id : SchemaId
  definitionVersion : UInt32
  className : ByteString
  canonicalName : ByteString
  isCustomData : Bool

structure Registry (τ : Type) where
  findClassById : SchemaId → Option SchemaClass
  findClassByName : ByteString → Option SchemaClass
  isClassConstructible : SchemaClass → Bool
  findCustomClassProperty : SchemaId → ByteString → Option τ
  /-- The definition version of an extension. -/
  findExtensionById : SchemaId → Option UInt32
  findExtensionProperty : SchemaId → ByteString → Option τ
  validateSchemaExtensionPropertyValue : τ → WireValue → Except String Unit

variable {τ : Type}

def encodeChangeRecord (registry : Registry τ) (record : ChangeRecord ChangePayload) :
    Except String WireJournalRecord :=
  let encoded (operation : WireJournalOperation) : WireJournalRecord :=
    { sequence := record.sequence, scope := record.scope, operation, object := record.object }
  match record.payload with
  | .objectCreated className classSchemaId definitionVersion =>
    let definition :=
      if classSchemaId.isValid then registry.findClassById classSchemaId else registry.findClassByName className
    match definition with
    | some definition =>
      if definitionVersion ≠ 0 ∧ definition.definitionVersion ≠ definitionVersion then
        .error "Create change has an unknown or incompatible class identity"
      else
        .ok { encoded .create with
          className := some className
          classSchemaId := some definition.id
          definitionVersion := some definition.definitionVersion }
    | none => .error "Create change has an unknown or incompatible class identity"
  | .propertyUpdated propertyName value replicated declaringClassSchemaId definitionVersion =>
    if !replicated then .error "Non-replicated property change cannot cross the wire boundary"
    else
      .ok { encoded .propertyUpdate with
        propertyName := some propertyName
        declaringClassSchemaId
        definitionVersion := declaringClassSchemaId.map fun _ => definitionVersion
        value := some value }
  | .attributeUpdated attributeName value =>
    .ok { encoded .attributeUpdate with attributeName := some attributeName, value := some (value.getD .nil) }
  | .extensionPropertyUpdated extensionSchemaId definitionVersion propertyName value =>
    .ok { encoded .extensionPropertyUpdate with
      extensionSchemaId := some extensionSchemaId
      definitionVersion := some definitionVersion
      extensionPropertyName := some propertyName
      value := some value }
  | .tagAdded tagName => .ok { encoded .tagAdded with tagName := some tagName }
  | .tagRemoved tagName => .ok { encoded .tagRemoved with tagName := some tagName }
  | .objectReparented parent => .ok { encoded .reparent with parent }
  | .objectDestroyed => .ok (encoded .destroy)

def operationName : WireJournalOperation → String
  | .create => "Create"
  | .propertyUpdate => "PropertyUpdate"
  | .attributeUpdate => "AttributeUpdate"
  | .extensionPropertyUpdate => "ExtensionPropertyUpdate"
  | .tagAdded => "TagAdded"
  | .tagRemoved => "TagRemoved"
  | .reparent => "Reparent"
  | .destroy => "Destroy"

def operations : List WireJournalOperation :=
  [.create,.propertyUpdate,.attributeUpdate,.extensionPropertyUpdate,.tagAdded,.tagRemoved,.reparent,.destroy]

def parseOperation (name : ByteString) : Option WireJournalOperation :=
  operations.find? fun operation => name == ascii (operationName operation)

section
variable (numbers : Numbers)

def encodeValue : Option WireValue → Except String Json
  | some value => JsonCodec.encodeWireValue numbers value
  | none => .ok .null

def encodeText (text : Option ByteString) : Json := .string (text.getD [])

def encodeSchemaId (id : Option SchemaId) : Json := .string ((id.map SchemaId.toString).getD [])

def encodeVersion (version : Option UInt32) : Json := .unsigned (version.getD 0).toNat

/-- The fields that only some operations have. -/
def operationFields (record : WireJournalRecord) : Except String (List (ByteString × Json)) :=
  match record.operation with
  | .create => .ok [(ascii "ClassName",encodeText record.className),
      (ascii "ClassSchemaId",encodeSchemaId record.classSchemaId),
      (ascii "DefinitionVersion",encodeVersion record.definitionVersion)]
  | .propertyUpdate => do
    let value ← encodeValue numbers record.value
    let owner := match record.declaringClassSchemaId with
      | some id => [(ascii "DeclaringClassSchemaId",encodeSchemaId (some id)),
          (ascii "DefinitionVersion",encodeVersion record.definitionVersion)]
      | none => []
    return [(ascii "PropertyName",encodeText record.propertyName),(ascii "Value",value)] ++ owner
  | .attributeUpdate => do
    return [(ascii "AttributeName",encodeText record.attributeName),
      (ascii "Value",← encodeValue numbers record.value)]
  | .extensionPropertyUpdate => do
    return [(ascii "ExtensionSchemaId",encodeSchemaId record.extensionSchemaId),
      (ascii "DefinitionVersion",encodeVersion record.definitionVersion),
      (ascii "PropertyName",encodeText record.extensionPropertyName),
      (ascii "Value",← encodeValue numbers record.value)]
  | .tagAdded | .tagRemoved => .ok [(ascii "TagName",encodeText record.tagName)]
  | .reparent => .ok [(ascii "ParentId",(record.parent.map JsonCodec.encodeObjectId).getD .null)]
  | .destroy => .ok []

def commonFields (record : WireJournalRecord) : List (ByteString × Json) :=
  [(ascii "Version",.unsigned record.version),(ascii "Sequence",.unsigned record.sequence),
    (ascii "Scope",JsonCodec.encodeObjectId record.scope),
    (ascii "Operation",.string (ascii (operationName record.operation))),
    (ascii "ObjectId",JsonCodec.encodeObjectId record.object)]

def encodeRecord (record : WireJournalRecord) : Except String Json := do
  return .object (commonFields record ++ (← operationFields numbers record))

def serializeWireJournalRecords (records : List WireJournalRecord) : Except String Json := do
  let encoded ← records.mapM (encodeRecord numbers)
  return .object [(ascii "Version",.unsigned wireJournalFormatVersion),(ascii "Records",.array encoded)]

variable (registry : Registry τ) (textLength : Json → Nat)

def demand {α : Type} (value : Option α) (message : String) : Except String α :=
  match value with
  | some value => .ok value
  | none => .error message

/-- An exception, as it is reported. -/
def thrown {α : Type} : Except String α → Except String α
  | .ok value => .ok value
  | .error message => .error ("Invalid wire journal: " ++ message)

def measureWireValueJsonBytes (value : WireValue) : Except String Nat := do
  return textLength (← JsonCodec.encodeWireValue numbers value)

def only (fields : List (ByteString × Json)) (others : List String) : Bool :=
  Json.hasOnlyFields fields (["Version","Sequence","Scope","Operation","ObjectId"] ++ others)

def textOf (fields : List (ByteString × Json)) (name : String) : Option ByteString :=
  (Json.field? fields name).bind Json.string?

/-- The value of an unsigned field, none where it does not fit. -/
def versionOf (fields : List (ByteString × Json)) (name : String) : Option UInt32 := do
  let version ← Json.field? fields name
  let _ ← version.unsigned?
  return (JsonCodec.decodeUnsigned32 version).getD 0

/-- The name of a class that `Create` records carry. -/
def expectedName (definition : SchemaClass) : ByteString :=
  if definition.isCustomData then definition.canonicalName else definition.className

def decodeCreate (fields : List (ByteString × Json)) (record : WireJournalRecord) :
    Except String WireJournalRecord := do
  let message := "Invalid Create journal record"
  require (only fields ["ClassName","ClassSchemaId","DefinitionVersion"]) message
  let name ← demand (textOf fields "ClassName") message
  require (!name.isEmpty) message
  let id ← demand (textOf fields "ClassSchemaId") message
  let version ← demand (versionOf fields "DefinitionVersion") message
  validateProtocolString name maximumProtocolIdentifierBytes "Create class name"
  let id ← demand (SchemaId.parse id) "Invalid Create class SchemaId"
  let identity := "Unknown, incompatible, or non-constructible Create class identity"
  let definition ← demand (registry.findClassById id) identity
  require (version != 0 && definition.definitionVersion == version && name == expectedName definition &&
    registry.isClassConstructible definition) identity
  return { record with className := some name, classSchemaId := some id, definitionVersion := some version }

def decodePropertyUpdate (fields : List (ByteString × Json)) (record : WireJournalRecord) :
    Except String WireJournalRecord := do
  let message := "Invalid PropertyUpdate journal record"
  require (only fields ["PropertyName","Value","DeclaringClassSchemaId","DefinitionVersion"]) message
  let name ← demand (textOf fields "PropertyName") message
  require (!name.isEmpty) message
  let value ← demand (Json.field? fields "Value") message
  let value ← demand (JsonCodec.decodeWireValue numbers value) "Invalid PropertyUpdate WireValue"
  validateProtocolString name maximumProtocolIdentifierBytes "Property name"
  let record := { record with propertyName := some name, value := some value }
  let hasOwner := (Json.field? fields "DeclaringClassSchemaId").isSome
  require (hasOwner == (Json.field? fields "DefinitionVersion").isSome)
    "Custom PropertyUpdate identity fields are incomplete"
  if !hasOwner then return record
  else
    let malformed := "Custom PropertyUpdate identity fields are malformed"
    let id ← demand (textOf fields "DeclaringClassSchemaId") malformed
    let version ← demand (versionOf fields "DefinitionVersion") malformed
    let identity := "Unknown or incompatible custom PropertyUpdate identity"
    let id ← demand (SchemaId.parse id) identity
    let definition ← demand (registry.findClassById id) identity
    require (definition.isCustomData && definition.definitionVersion == version) identity
    let property ← demand (registry.findCustomClassProperty id name) identity
    registry.validateSchemaExtensionPropertyValue property value
    return { record with declaringClassSchemaId := some id, definitionVersion := some version }

def decodeAttributeUpdate (fields : List (ByteString × Json)) (record : WireJournalRecord) :
    Except String WireJournalRecord := do
  let message := "Invalid AttributeUpdate journal record"
  require (only fields ["AttributeName","Value"]) message
  let name ← demand (textOf fields "AttributeName") message
  require (!name.isEmpty) message
  let value ← demand (Json.field? fields "Value") message
  let value ← demand (JsonCodec.decodeWireValue numbers value) "Invalid AttributeUpdate WireValue"
  ReplicationProtocol.validateAttributeName name
  if value = .nil then return { record with attributeName := some name, value := some value }
  else
    let _ ← ReplicationProtocol.validateAttributeValue (measureWireValueJsonBytes numbers textLength) value
    return { record with attributeName := some name, value := some value }

def decodeExtensionPropertyUpdate (fields : List (ByteString × Json)) (record : WireJournalRecord) :
    Except String WireJournalRecord := do
  let message := "Invalid ExtensionPropertyUpdate journal record"
  require (only fields ["ExtensionSchemaId","DefinitionVersion","PropertyName","Value"]) message
  let encodedId ← demand (textOf fields "ExtensionSchemaId") message
  let version ← demand (versionOf fields "DefinitionVersion") message
  let name ← demand (textOf fields "PropertyName") message
  let value ← demand (Json.field? fields "Value") message
  let id ← demand (SchemaId.parse encodedId) "Invalid extension SchemaId"
  require (id.toString == encodedId) "Invalid extension SchemaId"
  require (version != 0) "Invalid extension definition version"
  validateProtocolString name maximumProtocolIdentifierBytes "Extension property name"
  let identity := "Unknown or incompatible extension property identity"
  let extension ← demand (registry.findExtensionById id) identity
  let property ← demand (registry.findExtensionProperty id name) identity
  let value ← demand (JsonCodec.decodeWireValue numbers value) identity
  require (extension == version) identity
  registry.validateSchemaExtensionPropertyValue property value
  return { record with
    extensionSchemaId := some id
    definitionVersion := some version
    extensionPropertyName := some name
    value := some value }

def decodeTag (fields : List (ByteString × Json)) (record : WireJournalRecord) :
    Except String WireJournalRecord := do
  require (only fields ["TagName"]) "Invalid tag journal record"
  let name ← demand (textOf fields "TagName") "Invalid tag journal record"
  ReplicationProtocol.validateTagName name
  return { record with tagName := some name }

def decodeReparent (fields : List (ByteString × Json)) (record : WireJournalRecord) :
    Except String WireJournalRecord := do
  require (only fields ["ParentId"]) "Invalid Reparent journal record"
  let parent ← demand (Json.field? fields "ParentId") "Invalid Reparent journal record"
  if parent.isNull then return record
  else
    let parent ← demand (JsonCodec.decodeObjectId parent) "Invalid Reparent parent ObjectId"
    return { record with parent := some parent }

def decodeDestroy (fields : List (ByteString × Json)) (record : WireJournalRecord) :
    Except String WireJournalRecord := do
  require (only fields []) "Invalid Destroy journal record"
  return record

def decodeOperation (fields : List (ByteString × Json)) (record : WireJournalRecord) :
    Except String WireJournalRecord :=
  match record.operation with
  | .create => decodeCreate registry fields record
  | .propertyUpdate => decodePropertyUpdate numbers registry fields record
  | .attributeUpdate => decodeAttributeUpdate numbers textLength fields record
  | .extensionPropertyUpdate => decodeExtensionPropertyUpdate numbers registry fields record
  | .tagAdded | .tagRemoved => decodeTag fields record
  | .reparent => decodeReparent fields record
  | .destroy => decodeDestroy fields record

def decodeRecord (encoded : Json) : Except String WireJournalRecord := do
  let message := "Invalid or unsupported wire journal record"
  let fields ← demand encoded.object? message
  let version ← demand (Json.field? fields "Version") message
  let version ← thrown (JsonCodec.toUnsigned32 numbers version)
  require (version == wireJournalFormatVersion) message
  let sequence ← demand ((Json.field? fields "Sequence").bind Json.unsigned?) message
  let scope ← demand (Json.field? fields "Scope") message
  let operation ← demand (textOf fields "Operation") message
  let object ← demand (Json.field? fields "ObjectId") message
  let invalid := "Invalid wire journal operation, sequence, scope, or ObjectId"
  let operation ← demand (parseOperation operation) invalid
  let scope ← demand (JsonCodec.decodeObjectId scope) invalid
  let object ← demand (JsonCodec.decodeObjectId object) invalid
  require (sequence != 0) invalid
  thrown (decodeOperation numbers registry textLength fields { sequence, scope, operation, object })

/-- What is read from a document that `Parse` has returned. -/
def decodeRecords (document : Json) : Except String (List WireJournalRecord) := do
  let message := "Invalid or unsupported wire journal envelope"
  let fields ← demand document.object? message
  require (Json.hasOnlyFields fields ["Version","Records"]) message
  let version ← thrown (JsonCodec.toUnsigned32 numbers ((Json.field? fields "Version").getD (.unsigned 0)))
  require (version == wireJournalFormatVersion) message
  let records ← demand ((Json.field? fields "Records").bind Json.array?) message
  thrown (require (records.length ≤ maximumWireJournalRecords) "Wire journal record count exceeds its limit")
  records.mapM (decodeRecord numbers registry textLength)

def deserializeWireJournalRecords (parsed : Except String Json) : Except String (List WireJournalRecord) := do
  decodeRecords numbers registry textLength (← parsed)

end

end WireJournal
end Gargantuan
