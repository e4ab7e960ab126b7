import Gargantuan.WireCodecRoundTrip
import Gargantuan.WireJournal

/-!
A record of the journal that follows the rules of its operation is read from its document as it was; and whatever
document is read, the records follow the rules.
-/
namespace Gargantuan.WireJournal
open Option SchemaId ReplicationProtocol
open List (map_cons map_nil)
open JsonCodec (Json Numbers Kept bind_eq_ok of_require require_true)

variable {τ : Type} {numbers : Numbers} {registry : Registry τ} {textLength : Json → Nat}

/-- What all operations have. -/
structure Identified (sequence : Nat) (scope object : ObjectId) : Prop where
  sequence : sequence ≠ 0
  scope : scope.isValid = true
  object : object.isValid = true

structure ClassIdentified (registry : Registry τ) (name : ByteString) (id : SchemaId) (version : UInt32) : Prop where
  valid : id.isValid = true
  named : name ≠ []
  text : validateProtocolString name maximumProtocolIdentifierBytes "Create class name" = .ok ()
  versioned : version ≠ 0
  found : ∃ definition, registry.findClassById id = some definition ∧ definition.definitionVersion = version ∧
    name = expectedName definition ∧ registry.isClassConstructible definition = true

/-- The rules of a property of a custom class. -/
structure OwnerIdentified (registry : Registry τ) (id : SchemaId) (version : UInt32) (name : ByteString)
    (value : WireValue) : Prop where
  valid : id.isValid = true
  found : ∃ definition, registry.findClassById id = some definition ∧ definition.isCustomData = true ∧
    definition.definitionVersion = version
  property : ∃ property, registry.findCustomClassProperty id name = some property ∧
    registry.validateSchemaExtensionPropertyValue property value = .ok ()

structure ExtensionIdentified (registry : Registry τ) (id : SchemaId) (version : UInt32) (name : ByteString)
    (value : WireValue) : Prop where
  valid : id.isValid = true
  versioned : version ≠ 0
  found : registry.findExtensionById id = some version
  property : ∃ property, registry.findExtensionProperty id name = some property ∧
    registry.validateSchemaExtensionPropertyValue property value = .ok ()

/-- A record that has the fields of its operation and no others, each as it has to be. -/
inductive FollowsRules (numbers : Numbers) (registry : Registry τ) (textLength : Json → Nat) :
    WireJournalRecord → Prop where
  | create {sequence scope object name id version} (identified : Identified sequence scope object)
      (classes : ClassIdentified registry name id version) :
      FollowsRules numbers registry textLength {
        sequence, scope, operation := .create, object
        className := some name, classSchemaId := some id, definitionVersion := some version }
  | propertyUpdate {sequence scope object name value} (identified : Identified sequence scope object)
      (named : name ≠ []) (text : validateProtocolString name maximumProtocolIdentifierBytes "Property name" = .ok ())
      (valid : validateProtocolWireValue value = .ok ()) :
      FollowsRules numbers registry textLength {
        sequence, scope, operation := .propertyUpdate, object
        propertyName := some name, value := some value }
  | customPropertyUpdate {sequence scope object name value id version} (identified : Identified sequence scope object)
      (named : name ≠ []) (text : validateProtocolString name maximumProtocolIdentifierBytes "Property name" = .ok ())
      (valid : validateProtocolWireValue value = .ok ()) (owner : OwnerIdentified registry id version name value) :
      FollowsRules numbers registry textLength {
        sequence, scope, operation := .propertyUpdate, object
        propertyName := some name, value := some value, declaringClassSchemaId := some id, definitionVersion := some
            version }
  | attributeUpdate {sequence scope object name value} (identified : Identified sequence scope object)
      (text : ReplicationProtocol.validateAttributeName name = .ok ()) (valid : validateProtocolWireValue value = .ok
          ())
      (allowed : value = .nil ∨ ∃ bytes, ReplicationProtocol.validateAttributeValue
        (measureWireValueJsonBytes numbers textLength) value = .ok bytes) :
      FollowsRules numbers registry textLength {
        sequence, scope, operation := .attributeUpdate, object
        attributeName := some name, value := some value }
  | extensionPropertyUpdate {sequence scope object name value id version}
      (identified : Identified sequence scope object)
      (text : validateProtocolString name maximumProtocolIdentifierBytes "Extension property name" = .ok ())
      (valid : validateProtocolWireValue value = .ok ())
      (extension : ExtensionIdentified registry id version name value) :
      FollowsRules numbers registry textLength {
        sequence, scope, operation := .extensionPropertyUpdate, object
        extensionSchemaId := some id, definitionVersion := some version, extensionPropertyName := some name, value :=
            some value }
  | tag {sequence scope operation object name} (identified : Identified sequence scope object)
      (tagged : operation = .tagAdded ∨ operation = .tagRemoved)
      (text : ReplicationProtocol.validateTagName name = .ok ()) :
      FollowsRules numbers registry textLength {
        sequence, scope, operation, object
        tagName := some name }
  | reparent {sequence scope object parent} (identified : Identified sequence scope object)
      (valid : ∀ id, parent = some id → id.isValid = true) :
      FollowsRules numbers registry textLength {
        sequence, scope, operation := .reparent, object
        parent }
  | destroy {sequence scope object} (identified : Identified sequence scope object) :
      FollowsRules numbers registry textLength {
        sequence
        scope
        operation := .destroy
        object }

variable {message : String} {α : Type} {a : α} {value : Option α}

theorem of_demand (ok : demand value message = .ok a) : value = some a := by
  cases value with
  | none => cases ok
  | some b =>
    cases ok
    rfl

theorem of_thrown {result : Except String α} (ok : thrown result = .ok a) : result = .ok a := by
  cases result with
  | error message => cases ok
  | ok b =>
    cases ok
    rfl

theorem ne_nil_of_not_isEmpty {name : ByteString} (named : (!name.isEmpty) = true) : name ≠ [] := by
  rintro rfl
  cases named

variable {operation : WireJournalOperation}

section
variable {fields : List (ByteString × Json)} {sequence : Nat} {scope object : ObjectId} {record : WireJournalRecord}

section
variable (identified : Identified sequence scope object)
include identified

theorem rules_of_decodeCreate
    (decoded : decodeCreate registry fields { sequence, scope, operation := .create, object } = .ok record) :
    FollowsRules numbers registry textLength record := by
  simp only [decodeCreate,bind_eq_ok] at decoded
  obtain ⟨_,_,name,_,_,named,encodedId,_,version,_,_,text,id,parsed,definition,found,_,same,
    decoded⟩ := decoded
  cases decoded
  have checks := of_require same
  simp only [Bool.and_eq_true,bne_iff_ne,beq_iff_eq] at checks
  exact .create identified ⟨isValid_of_parse (of_demand parsed),ne_nil_of_not_isEmpty (of_require named),
      text,checks.1.1.1,definition,of_demand found,checks.1.1.2,checks.1.2,checks.2⟩

theorem rules_of_decodePropertyUpdate
    (decoded : decodePropertyUpdate numbers registry fields { sequence, scope, operation := .propertyUpdate, object } =
      .ok record) : FollowsRules numbers registry textLength record := by
  simp only [decodePropertyUpdate,bind_eq_ok] at decoded
  obtain ⟨_,_,name,_,_,named,encoded,_,value,valued,_,text,_,_,decoded⟩ := decoded
  have valid := JsonCodec.valid_of_decodeWireValue (of_demand valued)
  have named := ne_nil_of_not_isEmpty (of_require named)
  split at decoded
  · cases decoded
    exact .propertyUpdate identified named text valid
  · simp only [bind_eq_ok] at decoded
    obtain ⟨encodedId,_,version,_,id,parsed,definition,found,_,custom,property,known,_,allowed,
      decoded⟩ := decoded
    cases decoded
    have checks := Bool.and_eq_true_iff.mp (of_require custom)
    exact .customPropertyUpdate identified named text valid ⟨isValid_of_parse (of_demand parsed),
      ⟨definition,of_demand found,checks.1,beq_iff_eq.mp checks.2⟩,property,of_demand known,allowed⟩

theorem rules_of_decodeAttributeUpdate
    (decoded : decodeAttributeUpdate numbers textLength fields
      { sequence, scope, operation := .attributeUpdate, object } = .ok record) :
    FollowsRules numbers registry textLength record := by
  simp only [decodeAttributeUpdate,bind_eq_ok] at decoded
  obtain ⟨_,_,name,_,_,_,encoded,_,value,valued,_,text,decoded⟩ := decoded
  have valid := JsonCodec.valid_of_decodeWireValue (of_demand valued)
  split at decoded
  next nil =>
    cases decoded
    exact .attributeUpdate identified text valid (.inl nil)
  next =>
    obtain ⟨bytes,allowed,decoded⟩ := bind_eq_ok.mp decoded
    cases decoded
    exact .attributeUpdate identified text valid (.inr ⟨bytes,allowed⟩)

theorem rules_of_decodeExtensionPropertyUpdate
    (decoded : decodeExtensionPropertyUpdate numbers registry fields
      { sequence, scope, operation := .extensionPropertyUpdate, object } = .ok record) :
    FollowsRules numbers registry textLength record := by
  simp only [decodeExtensionPropertyUpdate,bind_eq_ok] at decoded
  obtain ⟨_,_,encodedId,_,version,_,name,_,encoded,_,id,parsed,_,_,_,versioned,_,text,extension,
    found,property,known,value,valued,_,same,_,allowed,decoded⟩ := decoded
  cases decoded
  have equal := beq_iff_eq.mp (of_require same)
  rw [equal] at found
  exact .extensionPropertyUpdate identified text (JsonCodec.valid_of_decodeWireValue (of_demand valued))
    ⟨isValid_of_parse (of_demand parsed),bne_iff_ne.mp (of_require versioned),of_demand found,property,
      of_demand known,allowed⟩

theorem rules_of_decodeTag (tagged : operation = .tagAdded ∨ operation = .tagRemoved)
    (decoded : decodeTag fields { sequence, scope, operation, object } = .ok record) :
    FollowsRules numbers registry textLength record := by
  simp only [decodeTag,bind_eq_ok] at decoded
  obtain ⟨_,_,name,_,_,text,decoded⟩ := decoded
  cases decoded
  exact .tag identified tagged text

theorem rules_of_decodeReparent
    (decoded : decodeReparent fields { sequence, scope, operation := .reparent, object } = .ok record) :
    FollowsRules numbers registry textLength record := by
  obtain ⟨_,_,decoded⟩ := bind_eq_ok.mp decoded
  obtain ⟨encoded,_,decoded⟩ := bind_eq_ok.mp decoded
  split at decoded
  · cases decoded
    exact .reparent identified fun _ none => by cases none
  · obtain ⟨parent,found,decoded⟩ := bind_eq_ok.mp decoded
    cases decoded
    refine .reparent identified fun id same => ?_
    cases same
    exact JsonCodec.isValid_of_decodeObjectId (of_demand found)

end

theorem rules_of_decodeRecord {encoded : Json}
    (decoded : decodeRecord numbers registry textLength encoded = .ok record) :
    FollowsRules numbers registry textLength record := by
  simp only [decodeRecord,bind_eq_ok] at decoded
  obtain ⟨fields,_,_,_,_,_,_,_,sequence,_,_,_,_,_,_,_,operation,_,scope,known,object,objected,
    _,numbered,decoded⟩ := decoded
  have decoded := of_thrown decoded
  have identified : Identified sequence scope object := ⟨bne_iff_ne.mp (of_require numbered),
    JsonCodec.isValid_of_decodeObjectId (of_demand known),JsonCodec.isValid_of_decodeObjectId (of_demand objected)⟩
  cases operation with
  | create => exact rules_of_decodeCreate identified decoded
  | propertyUpdate => exact rules_of_decodePropertyUpdate identified decoded
  | attributeUpdate => exact rules_of_decodeAttributeUpdate identified decoded
  | extensionPropertyUpdate => exact rules_of_decodeExtensionPropertyUpdate identified decoded
  | tagAdded => exact rules_of_decodeTag identified (.inl rfl) decoded
  | tagRemoved => exact rules_of_decodeTag identified (.inr rfl) decoded
  | reparent => exact rules_of_decodeReparent identified decoded
  | destroy =>
    obtain ⟨_,_,decoded⟩ := bind_eq_ok.mp decoded
    cases decoded
    exact .destroy identified

end

theorem demand_some (found : value = some a) : demand value message = .ok a := by
  rw [found]
  rfl

variable {β : Type} {next : α → Except String β}

theorem bind_of {first : Except String α} {b : β} (ok : first = .ok a)
    (rest : next a = .ok b) : (first >>= next) = .ok b := bind_eq_ok.mpr ⟨a,ok,rest⟩

theorem bind_demand {b : β} (found : value = some a) (rest : next a = .ok b) :
    (demand value message >>= next) = .ok b :=
  bind_of (demand_some found) rest

theorem bind_require {held : Bool} {next : Unit → Except String β} {b : β} (holds : held)
    (rest : next () = .ok b) : (require held message >>= next) = .ok b :=
  bind_of (require_true holds) rest

theorem parseOperation_operationName (operation : WireJournalOperation) :
    parseOperation (ascii (operationName operation)) = some operation := by
  cases operation <;> decide +kernel

section
variable {f : Json → Json}

def keptFields (f : Json → Json) (sequence : Nat) (scope : ObjectId) (operation : WireJournalOperation)
    (object : ObjectId) : List (ByteString × Json) :=
  [(ascii "Version",.unsigned wireJournalFormatVersion),(ascii "Sequence",.unsigned sequence),
    (ascii "Scope",f (JsonCodec.encodeObjectId scope)),
    (ascii "Operation",.string (ascii (operationName operation))),
    (ascii "ObjectId",f (JsonCodec.encodeObjectId object))]

variable {object scope : ObjectId} {sequence : Nat} {fields : List (ByteString × Json)} {record : WireJournalRecord}

theorem decodeRecord_kept (kept : Kept numbers f)
    (identified : Identified sequence scope object) {result : WireJournalRecord}
    (same : commonFields record = commonFields { sequence, scope, operation, object })
    (decoded : decodeOperation numbers registry textLength
      (keptFields f sequence scope operation object ++ fields.map fun field => (field.1,f field.2))
      { sequence, scope, operation, object } = .ok result) :
    decodeRecord numbers registry textLength (f (.object (commonFields record ++ fields))) = .ok result := by
  have mapped : (commonFields record ++ fields).map (fun field => (field.1,f field.2)) =
      keptFields f sequence scope operation object ++ fields.map fun field => (field.1,f field.2) := by
    rw [List.map_append,same]
    simp only [commonFields,map_cons,map_nil,kept.unsigned,kept.string]
    rfl
  rw [kept.object,mapped]
  refine bind_demand rfl ?_
  refine bind_demand rfl ?_
  refine bind_of rfl ?_
  refine bind_require rfl ?_
  refine bind_demand rfl ?_
  refine bind_demand rfl ?_
  refine bind_demand rfl ?_
  refine bind_demand rfl ?_
  refine bind_demand (parseOperation_operationName operation) ?_
  refine bind_demand (kept.objectId identified.scope) ?_
  refine bind_demand (kept.objectId identified.object) ?_
  refine bind_require (bne_iff_ne.mpr identified.sequence) ?_
  rw [decoded]
  rfl

variable {name : ByteString} {version : UInt32} {value : WireValue}

theorem isEmpty_eq_false (named : name ≠ []) : (!name.isEmpty) = true := by
  cases name with
  | nil => exact absurd rfl named
  | cons => rfl

theorem versionOf_written
    (there : Json.field? fields "DefinitionVersion" = some (.unsigned version.toNat)) :
    versionOf fields "DefinitionVersion" = some version := by
  unfold versionOf
  rw [there]
  change some ((JsonCodec.decodeUnsigned32 (.unsigned version.toNat)).getD 0) = _
  rw [JsonCodec.decodeUnsigned32_toNat]
  rfl

variable {id : SchemaId} {encoded : Json}

theorem decodeCreate_kept (classes : ClassIdentified registry name id version) :
    decodeCreate registry (keptFields f sequence scope .create object ++ [(ascii "ClassName",.string name),
        (ascii "ClassSchemaId",.string id.toString),(ascii "DefinitionVersion",.unsigned version.toNat)])
        { sequence, scope, operation := .create, object } =
      .ok {
        sequence, scope, operation := .create, object
        className := some name, classSchemaId := some id, definitionVersion := some version } := by
  obtain ⟨valid,named,text,versioned,definition,found,same,expected,constructible⟩ := classes
  have known : (version != 0 && definition.definitionVersion == version && name == expectedName definition &&
      registry.isClassConstructible definition) = true := by
    rw [same,← expected,constructible,bne_iff_ne.mpr versioned,beq_self_eq_true,beq_self_eq_true]
    rfl
  refine bind_require rfl ?_
  refine bind_demand rfl ?_
  refine bind_require (isEmpty_eq_false named) ?_
  refine bind_demand rfl ?_
  refine bind_demand (versionOf_written rfl) ?_
  refine bind_of text ?_
  refine bind_demand (parse_toString valid) ?_
  refine bind_demand found ?_
  exact bind_require known rfl

theorem decodePropertyUpdate_kept (named : name ≠ [])
    (text : validateProtocolString name maximumProtocolIdentifierBytes "Property name" = .ok ())
    (decoded : JsonCodec.decodeWireValue numbers encoded = some value) :
    decodePropertyUpdate numbers registry (keptFields f sequence scope .propertyUpdate object ++
        [(ascii "PropertyName",.string name),(ascii "Value",encoded)])
        { sequence, scope, operation := .propertyUpdate, object } =
      .ok {
        sequence, scope, operation := .propertyUpdate, object
        propertyName := some name, value := some value } := by
  refine bind_require rfl ?_
  refine bind_demand rfl ?_
  refine bind_require (isEmpty_eq_false named) ?_
  refine bind_demand rfl ?_
  refine bind_demand decoded ?_
  refine bind_of text ?_
  exact bind_require rfl rfl

theorem decodeCustomPropertyUpdate_kept (named : name ≠ [])
    (text : validateProtocolString name maximumProtocolIdentifierBytes "Property name" = .ok ())
    (decoded : JsonCodec.decodeWireValue numbers encoded = some value)
    (owner : OwnerIdentified registry id version name value) :
    decodePropertyUpdate numbers registry (keptFields f sequence scope .propertyUpdate object ++
        [(ascii "PropertyName",.string name),(ascii "Value",encoded),
          (ascii "DeclaringClassSchemaId",.string id.toString),(ascii "DefinitionVersion",.unsigned version.toNat)])
        { sequence, scope, operation := .propertyUpdate, object } =
      .ok {
        sequence, scope, operation := .propertyUpdate, object
        propertyName := some name, value := some value
        declaringClassSchemaId := some id, definitionVersion := some version } := by
  obtain ⟨valid,⟨definition,found,custom,same⟩,property,known,allowed⟩ := owner
  have identity : (definition.isCustomData && definition.definitionVersion == version) := by
    rw [custom,same,beq_self_eq_true]
    rfl
  refine bind_require rfl ?_
  refine bind_demand rfl ?_
  refine bind_require (isEmpty_eq_false named) ?_
  refine bind_demand rfl ?_
  refine bind_demand decoded ?_
  refine bind_of text ?_
  refine bind_require rfl ?_
  refine bind_demand rfl ?_
  refine bind_demand (versionOf_written rfl) ?_
  refine bind_demand (parse_toString valid) ?_
  refine bind_demand found ?_
  refine bind_require identity ?_
  refine bind_demand known ?_
  exact bind_of allowed rfl

theorem decodeAttributeUpdate_kept (text : validateAttributeName name = .ok ())
    (decoded : JsonCodec.decodeWireValue numbers encoded = some value)
    (allowed : value = .nil ∨ ∃ bytes, validateAttributeValue
      (measureWireValueJsonBytes numbers textLength) value = .ok bytes) :
    decodeAttributeUpdate numbers textLength (keptFields f sequence scope .attributeUpdate object ++
        [(ascii "AttributeName",.string name),(ascii "Value",encoded)])
        { sequence, scope, operation := .attributeUpdate, object } =
      .ok {
        sequence, scope, operation := .attributeUpdate, object
        attributeName := some name, value := some value } := by
  have named : name ≠ [] := by
    rintro rfl
    cases text
  refine bind_require rfl ?_
  refine bind_demand rfl ?_
  refine bind_require (isEmpty_eq_false named) ?_
  refine bind_demand rfl ?_
  refine bind_demand decoded ?_
  refine bind_of text ?_
  by_cases nil : value = .nil
  · rw [if_pos nil]
    rfl
  · rw [if_neg nil]
    obtain ⟨bytes,measured⟩ := allowed.resolve_left nil
    exact bind_of measured rfl

theorem decodeExtensionPropertyUpdate_kept
    (text : validateProtocolString name maximumProtocolIdentifierBytes "Extension property name" = .ok ())
    (decoded : JsonCodec.decodeWireValue numbers encoded = some value)
    (extension : ExtensionIdentified registry id version name value) :
    decodeExtensionPropertyUpdate numbers registry (keptFields f sequence scope .extensionPropertyUpdate object ++
        [(ascii "ExtensionSchemaId",.string id.toString),(ascii "DefinitionVersion",.unsigned version.toNat),
          (ascii "PropertyName",.string name),(ascii "Value",encoded)])
        { sequence, scope, operation := .extensionPropertyUpdate, object } =
      .ok {
        sequence, scope, operation := .extensionPropertyUpdate, object
        extensionSchemaId := some id, definitionVersion := some version
        extensionPropertyName := some name, value := some value } := by
  obtain ⟨valid,versioned,found,property,known,allowed⟩ := extension
  refine bind_require rfl ?_
  refine bind_demand rfl ?_
  refine bind_demand (versionOf_written rfl) ?_
  refine bind_demand rfl ?_
  refine bind_demand rfl ?_
  refine bind_demand (parse_toString valid) ?_
  refine bind_require (beq_self_eq_true _) ?_
  refine bind_require (bne_iff_ne.mpr versioned) ?_
  refine bind_of text ?_
  refine bind_demand found ?_
  refine bind_demand known ?_
  refine bind_demand decoded ?_
  refine bind_require (beq_self_eq_true _) ?_
  exact bind_of allowed rfl

theorem decodeRecord_encode (kept : Kept numbers f)
    (rules : FollowsRules numbers registry textLength record) : ∃ encoded, encodeRecord numbers record = .ok encoded ∧
      decodeRecord numbers registry textLength (f encoded) = .ok record := by
  have valued {value : WireValue} (valid : validateProtocolWireValue value = .ok ()) :
      encodeValue numbers (some value) = .ok (JsonCodec.encodeTyped numbers value) ∧
        JsonCodec.decodeWireValue numbers (f (JsonCodec.encodeTyped numbers value)) = some value :=
    ⟨bind_of valid rfl,JsonCodec.decodeWireValue_encode kept valid⟩
  cases rules with
  | create identified classes =>
    refine ⟨_,rfl,decodeRecord_kept kept identified rfl ?_⟩
    simp only [map_cons,map_nil,encodeText,encodeSchemaId,encodeVersion,kept.string,kept.unsigned]
    exact decodeCreate_kept classes
  | propertyUpdate identified named text valid =>
    refine ⟨_,bind_of (bind_of ((valued valid).1) rfl) rfl,decodeRecord_kept kept identified rfl ?_⟩
    simp only [List.append_nil,map_cons,map_nil,encodeText,kept.string]
    exact decodePropertyUpdate_kept named text (valued valid).2
  | customPropertyUpdate identified named text valid owner =>
    refine ⟨_,bind_of (bind_of ((valued valid).1) rfl) rfl,decodeRecord_kept kept identified rfl ?_⟩
    simp only [List.cons_append,List.nil_append,map_cons,map_nil,encodeText,encodeSchemaId,encodeVersion,
      kept.string,kept.unsigned]
    exact decodeCustomPropertyUpdate_kept named text (valued valid).2 owner
  | attributeUpdate identified text valid allowed =>
    refine ⟨_,bind_of (bind_of ((valued valid).1) rfl) rfl,decodeRecord_kept kept identified rfl ?_⟩
    simp only [map_cons,map_nil,encodeText,kept.string]
    exact decodeAttributeUpdate_kept text (valued valid).2 allowed
  | extensionPropertyUpdate identified text valid extension =>
    refine ⟨_,bind_of (bind_of ((valued valid).1) rfl) rfl,decodeRecord_kept kept identified rfl ?_⟩
    simp only [map_cons,map_nil,encodeText,encodeSchemaId,encodeVersion,kept.string,kept.unsigned]
    exact decodeExtensionPropertyUpdate_kept text (valued valid).2 extension
  | tag identified tagged text =>
    rcases tagged with rfl | rfl
    · refine ⟨_,rfl,decodeRecord_kept kept identified rfl ?_⟩
      simp only [map_cons,map_nil,encodeText,kept.string]
      refine bind_require rfl ?_
      refine bind_demand rfl ?_
      exact bind_of text rfl
    · refine ⟨_,rfl,decodeRecord_kept kept identified rfl ?_⟩
      simp only [map_cons,map_nil,encodeText,kept.string]
      refine bind_require rfl ?_
      refine bind_demand rfl ?_
      exact bind_of text rfl
  | @reparent sequence scope object parent identified valid =>
    refine ⟨_,rfl,decodeRecord_kept kept identified rfl ?_⟩
    cases parent with
    | none =>
      simp only [map_cons,map_nil,map_none,getD_none,kept.null]
      exact bind_require rfl (bind_demand rfl rfl)
    | some id =>
      simp only [map_cons,map_nil,map_some,getD_some]
      have found := kept.objectId (valid id rfl)
      refine bind_require rfl (bind_demand rfl ?_)
      have object : (f (JsonCodec.encodeObjectId id)).isNull = false := by
        rw [JsonCodec.encodeObjectId,kept.object]
        rfl
      rw [object]
      exact bind_demand found rfl
  | destroy identified =>
    refine ⟨_,rfl,decodeRecord_kept kept identified rfl ?_⟩
    exact bind_require rfl rfl

end

end Gargantuan.WireJournal
