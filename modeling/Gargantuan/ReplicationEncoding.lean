import Gargantuan.ReplicationProtocol

/-!
A replication frame that was encoded comes back as itself, its prepared publishes as the
publications they stand for; and whatever the decoder accepts is a valid frame that uses
up the whole input.

The checks before writing are not the limits of the reader. Of each part the proofs state
what the reader needs (`MapFits`, `StatesFit`, `PublishFits`) and derive it from the checks.
-/
namespace Gargantuan.ReplicationProtocol
open List SortedMap Function ReplicationIntent Field Nat
open GameBinaryWriter GameBinaryReader

def withNil (values : ValueMap) (nilProperties : List ByteString) : ValueMap :=
  values.mapValues fun name value => if nilProperties.contains name then .nil else value

def PublishReplication.patched (value : PublishReplication) (nilProperties : List ByteString) : PublishReplication :=
  { value with properties := withNil value.properties nilProperties }

def ReplicationIntent.ordinary : ReplicationIntent → ReplicationIntent
  | .preparedPublish _ (some template) nilProperties => .publish (template.publication.patched nilProperties)
  | intent => intent

def ReplicationOperation.ordinary (operation : ReplicationOperation) : ReplicationOperation :=
  ⟨operation.epoch,operation.intent.ordinary⟩

def ReplicationFrame.ordinary (frame : ReplicationFrame) : ReplicationFrame :=
  { frame with operations := frame.operations.map ReplicationOperation.ordinary }

def ReplicationFrame.TemplatesValid (measureWireValueJsonBytes : WireValue → Except String Nat)
    (frame : ReplicationFrame) : Prop :=
  ∀ operation ∈ frame.operations, ∀ object template nilProperties,
    operation.intent = .preparedPublish object (some template) nilProperties →
      isValidPublishReplication measureWireValueJsonBytes template.publication = true

@[simp] theorem withNil_nil (values : ValueMap) : withNil values [] = values := by
  simp [withNil,mapValues]

@[simp] theorem size_withNil (values : ValueMap) (nilProperties : List ByteString) :
    (withNil values nilProperties).size = values.size := by
  simp [withNil,mapValues,SortedMap.size]

@[simp] theorem patched_nil (value : PublishReplication) : value.patched [] = value := by
  simp [PublishReplication.patched]

def optionalObjectIdBytes (id : Option ObjectId) : List UInt8 :=
  littleEndian 1 (if id.isSome then 1 else 0) ++ id.elim [] objectIdBytes

def entryBytes (entry : ByteString × WireValue) : List UInt8 := stringBytes entry.1 ++ wireBytes entry.2

def valueMapBytes (values : ValueMap) : List UInt8 := countedBytes values.entries entryBytes

def stateBytes (state : SnapshotState) : List UInt8 :=
  schemaIdBytes state.schemaId ++ (littleEndian 4 state.definitionVersion.toNat ++ valueMapBytes state.properties)

def publishBytes (value : PublishReplication) : List UInt8 :=
  objectIdBytes value.object ++ (schemaIdBytes value.classSchemaId ++
    (littleEndian 4 value.definitionVersion.toNat ++ (optionalObjectIdBytes value.parent ++
      (stringBytes value.className ++ (stringBytes value.name ++ (valueMapBytes value.properties ++
        (valueMapBytes value.attributes ++ (countedBytes value.extensions stateBytes ++
          (countedBytes value.customProperties stateBytes ++ countedBytes value.tags stringBytes)))))))))

def intentBytes : ReplicationIntent → List UInt8
  | .publish value => publishBytes value
  | .preparedPublish _ template nilProperties =>
    template.elim [] fun template => publishBytes (template.publication.patched nilProperties)
  | .property object propertyName value declaringClassSchemaId definitionVersion =>
    objectIdBytes object ++ (stringBytes propertyName ++ (wireBytes value ++
      (littleEndian 1 (if declaringClassSchemaId.isSome then 1 else 0) ++
        (declaringClassSchemaId.elim [] schemaIdBytes ++
          definitionVersion.elim [] fun version => littleEndian 4 version.toNat))))
  | .extensionProperty object extensionSchemaId definitionVersion propertyName value =>
    objectIdBytes object ++ (schemaIdBytes extensionSchemaId ++ (littleEndian 4 definitionVersion.toNat ++
      (stringBytes propertyName ++ wireBytes value)))
  | .reparent object parent => objectIdBytes object ++ optionalObjectIdBytes parent
  | .attributeUpdate object attributeName value =>
    objectIdBytes object ++ (stringBytes attributeName ++
      (littleEndian 1 (if value.isSome then 1 else 0) ++ value.elim [] wireBytes))
  | .tagAdded object tagName | .tagRemoved object tagName => objectIdBytes object ++ stringBytes tagName
  | .unpublish object | .destroy object => objectIdBytes object

def operationBytes (operation : ReplicationOperation) : List UInt8 :=
  littleEndian 1 (operationCode operation.intent) ++ intentBytes operation.intent

def schemaEntryBytes (entry : SchemaCompatibilityEntry) : List UInt8 :=
  schemaIdBytes entry.id ++ (littleEndian 4 entry.definitionVersion.toNat ++
    littleEndian 1 (schemaKindIndex entry.kind))

def headerBytes (frame : ReplicationFrame) (payloadBytes : Nat) : List UInt8 :=
  littleEndian 4 replicationMagic ++ (littleEndian 2 frame.version.toNat ++
    (littleEndian 1 (messageKindIndex frame.kind) ++ (littleEndian 1 0 ++ (littleEndian 8 frame.epoch.toNat ++
      (littleEndian 8 frame.sequence.toNat ++ (littleEndian 4 frame.schema.length ++
        (littleEndian 4 frame.operations.length ++ littleEndian 4 payloadBytes)))))))

def payloadOf (frame : ReplicationFrame) : List UInt8 :=
  frame.schema.flatMap schemaEntryBytes ++ frame.operations.flatMap operationBytes

variable {α : Type}

theorem countedBytes_map {β : Type} (items : List α) (f : α → β) (bytes : β → List UInt8) :
    countedBytes (items.map f) bytes = countedBytes items fun x => bytes (f x) := by
  simp [countedBytes,flatMap_map]

structure TextFits (text : ByteString) (limit : Nat) : Prop where
  short : text.length ≤ limit
  utf8 : isValidProtocolUtf8 text = true

variable {limit : Nat} {values : ValueMap} {text : ByteString}

theorem textFits {description : String}
    (checked : (validateProtocolString text limit description).isOk) : TextFits text limit := by
  cases result : validateProtocolString text limit description with
  | error message => rw [result] at checked; cases checked
  | ok _ =>
    obtain ⟨short,utf8⟩ := validateProtocolString_ok result
    exact ⟨short,utf8⟩

structure EntryFits (entry : ByteString × WireValue) : Prop where
  name : TextFits entry.1 maximumProtocolIdentifierBytes
  value : entry.2.isValid = true

structure MapFits (values : ValueMap) (limit : Nat) : Prop where
  size : values.size ≤ limit
  each : ∀ entry ∈ values.entries, EntryFits entry

structure StateFits (limit : Nat) (state : SnapshotState) : Prop where
  schemaId : state.schemaId.isValid = true
  version : (state.definitionVersion != 0) = true
  properties : MapFits state.properties limit

structure StatesFit (states : List SnapshotState) (limit overrides : Nat) : Prop where
  length : states.length ≤ limit
  each : ∀ state ∈ states, StateFits overrides state

structure PublishFits (value : PublishReplication) : Prop where
  object : value.object.isValid = true
  classSchemaId : value.classSchemaId.isValid = true
  version : (value.definitionVersion != 0) = true
  parent : ∀ id ∈ value.parent, id.isValid = true
  className : TextFits value.className maximumProtocolIdentifierBytes
  name : TextFits value.name maximumProtocolStringBytes
  properties : MapFits value.properties maximumSnapshotPropertiesPerObject
  attributes : MapFits value.attributes maximumAttributesPerInstance
  extensions : StatesFit value.extensions maximumCustomExtensionDefinitions maximumExtensionOverridesPerInstance
  customProperties : StatesFit value.customProperties maximumCustomClassDefinitions
    maximumCustomPropertyOverridesPerInstance
  tagCount : value.tags.length ≤ maximumTagsPerInstance
  tags : ∀ tag ∈ value.tags, TextFits tag maximumTagNameBytes
  unique : value.tags.Nodup

variable {name : ByteString}

theorem attributeNameFits (checked : (validateAttributeName name).isOk) : TextFits name maximumAttributeNameBytes := by
  cases result : validateAttributeName name with
  | error message => rw [result] at checked; cases checked
  | ok _ =>
    unfold validateAttributeName at result
    split_ifs at result with none long invalid null
    exact ⟨by omega,by simpa using invalid⟩

theorem tagNameFits (checked : (validateTagName name).isOk) : TextFits name maximumTagNameBytes := by
  cases result : validateTagName name with
  | error message => rw [result] at checked; cases checked
  | ok _ =>
    unfold validateTagName at result
    split_ifs at result with none long null invalid
    exact ⟨by omega,by simpa using invalid⟩

variable {value : WireValue}

theorem isValid_of_supported (supported : attributeSupported value)
    (short : stringTooLong value = false) : value.isValid := by
  rw [WireValue.isValid_iff]
  cases value with
  | string s =>
    simp only [attributeSupported,Bool.and_eq_true,Bool.not_eq_true'] at supported
    simp only [stringTooLong,decide_eq_false_iff_not,not_lt] at short
    have within : ¬ s.length > maximumProtocolStringBytes := by
      simp only [maximumAttributeValueBytes] at short
      simp only [maximumProtocolStringBytes]
      omega
    simp only [validateProtocolWireValue,validateProtocolString,supported.1,supported.2,within]
    rfl
  | _ => simp_all [attributeSupported,validateProtocolWireValue,require]

variable {entry : ByteString × WireValue} {states : List SnapshotState} {overrides : Nat}

section
variable {measureWireValueJsonBytes : WireValue → Except String Nat}

theorem require_ok {check : Bool} {message : String} (passed : require check message = .ok ()) : check := by
  unfold require at passed
  split_ifs at passed with held
  exact held

theorem validateAttributeValue_ok {bytes : Nat}
    (checked : validateAttributeValue measureWireValueJsonBytes value = .ok bytes) : value.isValid := by
  obtain ⟨_,supported,checked⟩ := except_bind_ok checked
  obtain ⟨_,short,_⟩ := except_bind_ok checked
  exact isValid_of_supported (require_ok supported) (by simpa using require_ok short)

theorem attributeValueFits
    (checked : (validateAttributeValue measureWireValueJsonBytes value).isOk) : value.isValid := by
  cases result : validateAttributeValue measureWireValueJsonBytes value with
  | error message => rw [result] at checked; cases checked
  | ok bytes => exact validateAttributeValue_ok result

theorem addAttribute_ok {total sum : Nat}
    (checked : addAttribute measureWireValueJsonBytes total entry = .ok sum) : EntryFits entry := by
  obtain ⟨_,named,checked⟩ := except_bind_ok checked
  obtain ⟨_,measured,_⟩ := except_bind_ok checked
  obtain ⟨short,utf8⟩ := @attributeNameFits entry.1 (by rw [named]; rfl)
  exact ⟨⟨short.trans (by decide),utf8⟩,validateAttributeValue_ok measured⟩

theorem addAttributes_ok {entries : List (ByteString × WireValue)} {total sum : Nat}
    (checked : entries.foldlM (addAttribute measureWireValueJsonBytes) total = .ok sum) :
    ∀ entry ∈ entries, EntryFits entry := by
  induction entries generalizing total with
  | nil => simp
  | cons entry rest ih =>
    obtain ⟨next,first,others⟩ := except_bind_ok checked
    intro other member
    rcases mem_cons.mp member with rfl | later
    · exact addAttribute_ok first
    · exact ih others other later

theorem attributesFit {attributes : ValueMap}
    (checked : (validateAttributeCollection measureWireValueJsonBytes attributes).isOk) :
    MapFits attributes maximumAttributesPerInstance := by
  cases result : validateAttributeCollection measureWireValueJsonBytes attributes with
  | error message => rw [result] at checked; cases checked
  | ok total =>
    obtain ⟨_,counted,summed⟩ := except_bind_ok result
    exact ⟨by simpa using require_ok counted,addAttributes_ok summed⟩

variable {description : String}

theorem propertiesFit {properties : ValueMap} {limit : Nat}
    (checked : propertiesValid properties description) (size : properties.size ≤ limit) : MapFits properties limit := by
  refine ⟨size,fun entry member => ?_⟩
  have both := all_eq_true.mp checked entry member
  rw [Bool.and_eq_true] at both
  exact ⟨textFits both.1,both.2⟩

theorem statesFit {limit : Nat}
    (checked : statesValid states limit overrides description) : StatesFit states limit overrides := by
  simp only [statesValid,Bool.and_eq_true,decide_eq_true_eq,all_eq_true] at checked
  obtain ⟨⟨length,_⟩,each⟩ := checked
  refine ⟨length,fun state member => ?_⟩
  obtain ⟨⟨⟨schemaId,version⟩,size⟩,properties⟩ := each state member
  exact ⟨schemaId,version,propertiesFit properties size⟩

variable {value : PublishReplication}

theorem publishFits (valid : isValidPublishReplication measureWireValueJsonBytes value) : PublishFits value := by
  simp only [isValidPublishReplication,Bool.and_eq_true,decide_eq_true_eq,all_eq_true,Option.all_eq_true] at valid
  obtain ⟨⟨⟨⟨⟨⟨⟨⟨⟨⟨⟨⟨⟨object,className⟩,name⟩,size⟩,properties⟩,attributes⟩,extensions⟩,custom⟩,tagCount⟩,
    tags⟩,unique⟩,classSchemaId⟩,version⟩,parent⟩ := valid
  exact {
    object, classSchemaId, version, tagCount, unique
    parent := fun id held => parent id held
    className := textFits className
    name := textFits name
    properties := propertiesFit properties size
    attributes := attributesFit attributes
    extensions := statesFit extensions
    customProperties := statesFit custom
    tags := fun tag member => tagNameFits (tags tag member) }

theorem patched_valid (nilProperties : List ByteString)
    (valid : isValidPublishReplication measureWireValueJsonBytes value) :
    isValidPublishReplication measureWireValueJsonBytes (value.patched nilProperties) := by
  have properties : propertiesValid value.properties "Replication property name" := by
    simp only [isValidPublishReplication,Bool.and_eq_true] at valid
    exact valid.1.1.1.1.1.1.1.1.1.2
  have patched : propertiesValid (withNil value.properties nilProperties) "Replication property name" := by
    simp only [propertiesValid,withNil,mapValues,all_map,all_eq_true,comp,
      Bool.and_eq_true] at properties ⊢
    intro entry member
    obtain ⟨name,held⟩ := properties entry member
    refine ⟨name,?_⟩
    split_ifs
    · rfl
    · exact held
  unfold isValidPublishReplication at valid ⊢
  simp only [PublishReplication.patched,size_withNil,patched]
  rwa [properties] at valid

end

variable (w : GameBinaryWriter)

theorem emits_objectId (id : ObjectId) : Emits w (w.objectId id) (objectIdBytes id) :=
  (emits_integer w 4 _).trans (emits_integer _ 4 _)

theorem emits_schemaId (id : SchemaId) : Emits w (w.schemaId id) (schemaIdBytes id) :=
  (emits_integer w 8 _).trans (emits_integer _ 8 _)

theorem emits_text (fits : TextFits text limit) (limited : limit < 256 ^ 4) :
    Emits w (w.string text) (stringBytes text) :=
  emits_string w (by have := fits.short; omega)

theorem emits_optionalObjectId (id : Option ObjectId) :
    Emits w (writeOptionalObjectId w id) (optionalObjectIdBytes id) := by
  refine (emits_integer w 1 _).trans ?_
  cases id with
  | none => exact .nothing _
  | some id => exact emits_objectId _ id

theorem emits_value (nilProperties : List ByteString)
    (fits : EntryFits entry) : Emits w (writeValue nilProperties w entry)
      (entryBytes (entry.1,if nilProperties.contains entry.1 then .nil else entry.2)) := by
  have name := emits_text w fits.name (by decide)
  unfold writeValue entryBytes
  split_ifs
  · exact name.trans (emits_wireValue _ rfl)
  · exact name.trans (emits_wireValue _ fits.value)

theorem emits_valueMap (fits : MapFits values limit) (nilProperties : List ByteString) :
    Emits w (writeValueMap w values nilProperties) (valueMapBytes (withNil values nilProperties)) := by
  rw [valueMapBytes,withNil,mapValues,countedBytes_map]
  have each : ∀ entry ∈ values.entries, ∀ w, Emits w (writeValue nilProperties w entry)
      (entryBytes (entry.1,if nilProperties.contains entry.1 then .nil else entry.2)) :=
    fun entry member w => emits_value w nilProperties (fits.each entry member)
  exact emits_counted each w

theorem emits_wholeMap (fits : MapFits values limit) : Emits w (writeValueMap w values []) (valueMapBytes values) := by
  have written := emits_valueMap w fits []
  rwa [withNil_nil] at written

theorem emits_states (fits : StatesFit states limit overrides) :
    Emits w (w.counted states writeState) (countedBytes states stateBytes) := by
  refine emits_counted (fun state member w => ?_) w
  exact (emits_schemaId w _).trans ((emits_integer _ 4 _).trans (emits_wholeMap _ (fits.each state member).properties))

theorem emits_publish {value : PublishReplication} (fits : PublishFits value) (nilProperties : List ByteString) :
    Emits w (writePublish w value nilProperties) (publishBytes (value.patched nilProperties)) := by
  refine (emits_objectId w _).trans ((emits_schemaId _ _).trans ((emits_integer _ 4 _).trans ?_))
  refine (emits_optionalObjectId _ _).trans ((emits_text _ fits.className (by decide)).trans ?_)
  refine (emits_text _ fits.name (by decide)).trans ((emits_valueMap _ fits.properties nilProperties).trans ?_)
  refine (emits_wholeMap _ fits.attributes).trans ((emits_states _ fits.extensions).trans ?_)
  refine (emits_states _ fits.customProperties).trans ?_
  have each : ∀ tag ∈ value.tags, ∀ w : GameBinaryWriter, Emits w (w.string tag) (stringBytes tag) :=
    fun tag member w => emits_text w (fits.tags tag member) (by decide)
  exact emits_counted each _

section
variable {measureWireValueJsonBytes : WireValue → Except String Nat}

def ReplicationIntent.TemplateValid (measureWireValueJsonBytes : WireValue → Except String Nat)
    (intent : ReplicationIntent) : Prop :=
  ∀ object template nilProperties, intent = .preparedPublish object (some template) nilProperties →
    isValidPublishReplication measureWireValueJsonBytes template.publication = true

theorem emits_intent (w : GameBinaryWriter) {intent : ReplicationIntent}
    (valid : intent.isValid measureWireValueJsonBytes) (template : intent.TemplateValid measureWireValueJsonBytes) :
    Emits w (writeIntent w intent) (littleEndian 1 (operationCode intent) ++ intentBytes intent) := by
  refine (emits_integer w 1 _).trans ?_
  cases intent with
  | publish value =>
    simp only [isValid,Bool.and_eq_true] at valid
    have written := emits_publish (w.integer 1 0) (publishFits valid.2) []
    rwa [patched_nil] at written
  | preparedPublish object shared nilProperties =>
    cases shared with
    | none => exact .nothing _
    | some shared => exact emits_publish _ (publishFits (template _ _ _ rfl)) nilProperties
  | property object propertyName value declaringClassSchemaId definitionVersion =>
    simp only [isValid,Bool.and_eq_true,beq_iff_eq] at valid
    obtain ⟨⟨⟨⟨⟨_,name⟩,held⟩,together⟩,_⟩,_⟩ := valid
    refine (emits_objectId _ _).trans ((emits_text _ (textFits name) (by decide)).trans ?_)
    refine (emits_wireValue _ held).trans ((emits_integer _ 1 _).trans ?_)
    cases declaringClassSchemaId with
    | none =>
      cases definitionVersion with
      | none => exact .nothing _
      | some version => cases together
    | some id =>
      cases definitionVersion with
      | none => cases together
      | some version => exact (emits_schemaId _ id).trans (emits_integer _ 4 _)
  | extensionProperty object extensionSchemaId definitionVersion propertyName value =>
    simp only [isValid,Bool.and_eq_true] at valid
    obtain ⟨⟨⟨⟨_,name⟩,held⟩,_⟩,_⟩ := valid
    refine (emits_objectId _ _).trans ((emits_schemaId _ _).trans ((emits_integer _ 4 _).trans ?_))
    exact (emits_text _ (textFits name) (by decide)).trans (emits_wireValue _ held)
  | reparent object parent => exact (emits_objectId _ _).trans (emits_optionalObjectId _ _)
  | attributeUpdate object attributeName value =>
    simp only [isValid,Bool.and_eq_true] at valid
    obtain ⟨⟨_,name⟩,held⟩ := valid
    refine (emits_objectId _ _).trans ((emits_text _ (attributeNameFits name) (by decide)).trans ?_)
    refine (emits_integer _ 1 _).trans ?_
    cases value with
    | none => exact .nothing _
    | some value => exact emits_wireValue _ (attributeValueFits held)
  | tagAdded object tagName | tagRemoved object tagName =>
    simp only [isValid,Bool.and_eq_true] at valid
    exact (emits_objectId _ _).trans (emits_text _ (tagNameFits valid.2) (by decide))
  | unpublish object | destroy object => exact emits_objectId _ _

end

theorem emits_schemaEntry (w : GameBinaryWriter) (entry : SchemaCompatibilityEntry) :
    Emits w (writeSchemaEntry w entry) (schemaEntryBytes entry) :=
  (emits_schemaId w _).trans ((emits_integer _ 4 _).trans (emits_integer _ 1 _))

theorem writeHeader_bytes (frame : ReplicationFrame) (payloadBytes : Nat) (room : replicationHeaderBytes ≤ limit) :
    (writeHeader { maximumBytes := limit } frame payloadBytes).bytes = headerBytes frame payloadBytes := by
  have header : Emits { maximumBytes := limit } (writeHeader { maximumBytes := limit } frame payloadBytes)
      (headerBytes frame payloadBytes) :=
    (emits_integer _ 4 _).trans ((emits_integer _ 2 _).trans ((emits_integer _ 1 _).trans
      ((emits_integer _ 1 _).trans ((emits_integer _ 8 _).trans ((emits_integer _ 8 _).trans
        ((emits_integer _ 4 _).trans ((emits_integer _ 4 _).trans (emits_integer _ 4 _))))))))
  have length : (headerBytes frame payloadBytes).length = replicationHeaderBytes := by
    simp [headerBytes,replicationHeaderBytes]
  have fits : ([] : List UInt8).length + (headerBytes frame payloadBytes).length ≤ limit := by
    exact room
  exact (header.appends.ofRoom rfl fits).2.1.trans (nil_append _)

/-! ### Reading -/

theorem reads_text (fits : TextFits text limit) (limited : limit < 256 ^ 4) :
    Reads (string frameContext limit limited).read (stringBytes text) text :=
  (string frameContext limit limited).reads text ⟨fits.short,fits.utf8⟩

theorem reads_object {id : ObjectId} (valid : id.isValid) : Reads readObjectId (objectIdBytes id) id :=
  (Field.objectId frameContext).reads id ⟨⟨trivial,trivial⟩,valid⟩

theorem reads_schema {id : SchemaId} (valid : id.isValid) : Reads readSchemaId (schemaIdBytes id) id :=
  (Field.schemaId frameContext).reads id ⟨⟨trivial,trivial⟩,valid⟩

theorem reads_version (version : UInt32) : Reads readVersion (littleEndian 4 version.toNat) version :=
  (u32 frameContext).reads version trivial

theorem reads_marker (marker : UInt8) : Reads readMarker (littleEndian 1 marker.toNat) marker :=
  (u8 frameContext).reads marker trivial

theorem reads_value (valid : value.isValid) : Reads readWireValue (wireBytes value) value :=
  (Field.wireValue frameContext).reads value valid

theorem reads_absent : Reads readMarker (littleEndian 1 0) 0 := reads_marker 0

theorem reads_present : Reads readMarker (littleEndian 1 1) 1 := reads_marker 1

theorem reads_optionalObjectId {id : Option ObjectId} (valid : ∀ held ∈ id, held.isValid) :
    Reads readOptionalObjectId (optionalObjectIdBytes id) id := by
  cases id with
  | none =>
    refine reads_absent.bind (.demanded (by decide) ?_)
    exact reads_pure none
  | some id =>
    refine reads_present.bind (.demanded (by decide) ?_)
    exact (reads_object (valid id rfl)).map some

theorem entries_insert_last (above : ∀ other ∈ values.entries, other.1 < entry.1) :
    values.contains entry.1 = false ∧ (values.insert entry.1 entry.2).entries = values.entries ++ [entry] := by
  constructor
  · rw [Bool.eq_false_iff]
    intro present
    obtain ⟨x,found⟩ := contains_iff.mp present
    exact lt_irrefl _ (above (entry.1,x) (find?_eq_some.mp found))
  · have last := @filter_insertIn_last _ _ _ entry.1 entry.2 (fun _ => true) values.entries values.sorted
      (fun other member => (above other member).ne) (fun _ other member _ => above other member)
    simp only [filter_true,filter_cons,filter_nil,if_pos] at last
    exact last

theorem foldl_insert {rest : List (ByteString × WireValue)}
    (sorted : (values.entries ++ rest).Pairwise fun a b => a.1 < b.1) :
    (rest.foldl (fun m e => m.insert e.1 e.2) values).entries = values.entries ++ rest := by
  induction rest generalizing values with
  | nil => simp
  | cons entry rest ih =>
    have above : ∀ other ∈ values.entries, other.1 < entry.1 := fun other member =>
      (pairwise_append.mp sorted).2.2 other member entry (by simp)
    have placed := (entries_insert_last above).2
    have onward := @ih (values.insert entry.1 entry.2) (by rw [placed]; simpa using sorted)
    rw [foldl_cons,onward,placed]
    simp

theorem reads_valueMap (fits : MapFits values limit) (limited : limit < 256 ^ 4) :
    Reads (readValueMap limit) (valueMapBytes values) values := by
  have rebuilt : values.entries.foldl (fun m e => m.insert e.1 e.2) ∅ = values := by
    apply ext_entries
    rw [foldl_insert (by simpa using values.sorted)]
    simp
  have all : Reads (.repeated readValue values.entries.length ∅) (values.entries.flatMap entryBytes)
      (values.entries.foldl (fun m e => m.insert e.1 e.2) ∅) := by
    refine .repeated (fun m rest => ((m : ValueMap).entries ++ rest).Pairwise (fun a b => a.1 < b.1) ∧
      ∀ entry ∈ rest, EntryFits entry) ?_ ⟨by simpa using values.sorted,fits.each⟩
    rintro m entry rest ⟨sorted,each⟩
    have above : ∀ other ∈ m.entries, other.1 < entry.1 := fun other member =>
      (pairwise_append.mp sorted).2.2 other member entry (by simp)
    obtain ⟨absent,placed⟩ := entries_insert_last above
    obtain ⟨name,held⟩ := each entry (by simp)
    refine ⟨(reads_text name (by decide)).bind ((reads_value held).last (.demanded ?_ (reads_pure _))),?_,
      fun other member => each other (.tail _ member)⟩
    · rw [absent]
      rfl
    · rw [placed]
      simpa using sorted
  have read := Reads.counted frameContext "Replication value map exceeds its limit" fits.size limited all
  rwa [rebuilt] at read

theorem foldl_push (items start : List α) : items.foldl (fun l x => l ++ [x]) start = start ++ items := by
  induction items generalizing start with
  | nil => simp
  | cons x rest ih => simp [ih]

theorem reads_states (message : String)
    (fits : StatesFit states limit overrides) (limited : limit < 256 ^ 4) (overridesLimited : overrides < 256 ^ 4) :
    Reads (GameBinaryReader.counted frameContext limit message (readState overrides) [])
      (countedBytes states stateBytes) states := by
  have all : Reads (.repeated (readState overrides) states.length []) (states.flatMap stateBytes)
      (states.foldl (fun l x => l ++ [x]) []) := by
    refine .repeated (fun _ rest => ∀ state ∈ rest, StateFits overrides state) ?_ fits.each
    intro done state rest each
    obtain ⟨schemaId,version,properties⟩ := each state (by simp)
    refine ⟨(reads_schema schemaId).bind ((reads_version _).bind (.demanded version ?_)),
      fun other member => each other (.tail _ member)⟩
    exact (reads_valueMap properties overridesLimited).map _
  have read := Reads.counted frameContext message fits.length limited all
  rwa [foldl_push,nil_append] at read

theorem reads_tags {tags : List ByteString} (message : String) (short : tags.length ≤ maximumTagsPerInstance)
    (texts : ∀ tag ∈ tags, TextFits tag maximumTagNameBytes) (unique : tags.Nodup) :
    Reads (GameBinaryReader.counted frameContext maximumTagsPerInstance message readTag [])
      (countedBytes tags stringBytes) tags := by
  have all : Reads (.repeated readTag tags.length []) (tags.flatMap stringBytes)
      (tags.foldl (fun l x => l ++ [x]) []) := by
    refine .repeated (fun done rest => (done ++ rest).Nodup ∧ ∀ tag ∈ rest, TextFits tag maximumTagNameBytes) ?_
      ⟨by simpa using unique,texts⟩
    rintro done tag rest ⟨distinct,each⟩
    have fresh : tag ∉ done := fun member =>
      (nodup_append.mp distinct).2.2 tag member tag (by simp) rfl
    refine ⟨(reads_text (each tag (by simp)) (by decide)).last (.demanded (by simpa using fresh) (reads_pure _)),
      by simpa using distinct,fun other member => each other (.tail _ member)⟩
  have read := Reads.counted frameContext message short (by decide) all
  rwa [foldl_push,nil_append] at read

theorem reads_publish {value : PublishReplication} (fits : PublishFits value) :
    Reads readPublish (publishBytes value) value := by
  refine (reads_object fits.object).bind ((reads_schema fits.classSchemaId).bind ((reads_version _).bind ?_))
  refine .demanded fits.version ((reads_optionalObjectId fits.parent).bind ?_)
  refine (reads_text fits.className (by decide)).bind ((reads_text fits.name (by decide)).bind ?_)
  refine (reads_valueMap fits.properties (by decide)).bind ((reads_valueMap fits.attributes (by decide)).bind ?_)
  refine (reads_states _ fits.extensions (by decide) (by decide)).bind ?_
  refine (reads_states _ fits.customProperties (by decide) (by decide)).bind ?_
  exact (reads_tags _ fits.tagCount fits.tags fits.unique).map _

theorem reads_tagName {tag : ByteString} (fits : TextFits tag maximumTagNameBytes)
    (change : ObjectId → ByteString → ReplicationIntent) {object : ObjectId} (valid : object.isValid) :
    Reads (readTagChange change) (objectIdBytes object ++ stringBytes tag) (change object tag) :=
  (reads_object valid).bind ((reads_text fits (by decide)).map _)

variable {frame : ReplicationFrame}

section
variable {measureWireValueJsonBytes : WireValue → Except String Nat} {intent : ReplicationIntent}

theorem ordinary_valid (valid : intent.isValid measureWireValueJsonBytes)
    (template : intent.TemplateValid measureWireValueJsonBytes) :
    intent.ordinary.isValid measureWireValueJsonBytes := by
  cases intent with
  | preparedPublish object shared nilProperties =>
    cases shared with
    | none => exact valid
    | some shared =>
      have whole := template _ _ _ rfl
      have object := (publishFits whole).object
      simp only [ordinary,isValid,Bool.and_eq_true]
      exact ⟨object,patched_valid nilProperties whole⟩
  | _ => exact valid

theorem reads_intent (valid : intent.isValid measureWireValueJsonBytes)
    (template : intent.TemplateValid measureWireValueJsonBytes) :
    Reads (readIntent (operationCode intent)) (intentBytes intent) intent.ordinary := by
  cases intent with
  | publish value =>
    simp only [isValid,Bool.and_eq_true] at valid
    exact (reads_publish (publishFits valid.2)).map publish
  | preparedPublish object shared nilProperties =>
    cases shared with
    | none => simp [isValid,validatePreparedPublish] at valid
    | some shared =>
      have whole := patched_valid nilProperties (template _ _ _ rfl)
      exact (reads_publish (publishFits whole)).map publish
  | property object propertyName value declaringClassSchemaId definitionVersion =>
    simp only [isValid,Bool.and_eq_true,beq_iff_eq,Option.all_eq_true] at valid
    obtain ⟨⟨⟨⟨⟨identity,name⟩,held⟩,together⟩,schemaValid⟩,versionValid⟩ := valid
    refine (reads_object identity).bind ((reads_text (textFits name) (by decide)).bind ((reads_value held).bind ?_))
    cases declaringClassSchemaId with
    | none =>
      cases definitionVersion with
      | none =>
        refine reads_absent.bind (.demanded (by decide) ?_)
        exact reads_pure _
      | some version => cases together
    | some id =>
      cases definitionVersion with
      | none => cases together
      | some version =>
        refine reads_present.bind (.demanded (by decide) ?_)
        refine (reads_schema (schemaValid id rfl)).bind ((reads_version version).last ?_)
        exact .demanded (versionValid version rfl) (reads_pure _)
  | extensionProperty object extensionSchemaId definitionVersion propertyName value =>
    simp only [isValid,Bool.and_eq_true] at valid
    obtain ⟨⟨⟨⟨identity,name⟩,held⟩,schemaValid⟩,version⟩ := valid
    refine (reads_object identity).bind ((reads_schema schemaValid).bind ((reads_version _).bind ?_))
    exact .demanded version ((reads_text (textFits name) (by decide)).bind ((reads_value held).map _))
  | reparent object parent =>
    simp only [isValid,Bool.and_eq_true,Option.all_eq_true] at valid
    exact (reads_object valid.1).bind ((reads_optionalObjectId fun id held => valid.2 id held).map _)
  | attributeUpdate object attributeName value =>
    simp only [isValid,Bool.and_eq_true,Option.all_eq_true] at valid
    obtain ⟨⟨identity,name⟩,held⟩ := valid
    refine (reads_object identity).bind ((reads_text (attributeNameFits name) (by decide)).bind ?_)
    cases value with
    | none =>
      refine reads_absent.bind (.demanded (by decide) ?_)
      exact reads_pure _
    | some value =>
      refine reads_present.bind (.demanded (by decide) ?_)
      exact (reads_value (attributeValueFits (held value rfl))).map _
  | tagAdded object tagName =>
    simp only [isValid,Bool.and_eq_true] at valid
    exact reads_tagName (tagNameFits valid.2) .tagAdded valid.1
  | tagRemoved object tagName =>
    simp only [isValid,Bool.and_eq_true] at valid
    exact reads_tagName (tagNameFits valid.2) .tagRemoved valid.1
  | unpublish object => exact (reads_object valid).map unpublish
  | destroy object => exact (reads_object valid).map destroy


theorem code_restored (intent : ReplicationIntent) : (operationCode intent).toUInt8.toNat = operationCode intent := by
  cases intent <;> rfl

variable {operation : ReplicationOperation}

theorem reads_operation (valid : operation.isValid measureWireValueJsonBytes)
    (template : operation.intent.TemplateValid measureWireValueJsonBytes) (done : List ReplicationOperation) :
    Reads (readOperation measureWireValueJsonBytes operation.epoch done) (operationBytes operation)
      (done ++ [operation.ordinary]) := by
  simp only [ReplicationOperation.isValid,Bool.and_eq_true] at valid
  have marker := reads_marker (operationCode operation.intent).toUInt8
  have intent := reads_intent valid.2 template
  rw [code_restored] at marker
  rw [← code_restored] at intent
  refine marker.bind (intent.last (.demanded ?_ (reads_pure _)))
  simp only [ReplicationOperation.isValid,Bool.and_eq_true]
  exact ⟨valid.1,ordinary_valid valid.2 template⟩

structure FrameFits (measureWireValueJsonBytes : WireValue → Except String Nat) (frame : ReplicationFrame) : Prop where
  version : frame.version = replicationProtocolVersion
  operationCount : frame.operations.length ≤ maximumReplicationOperationsPerFrame
  schemaCount : frame.schema.length ≤ maximumReplicationSchemaDefinitions
  entries : ∀ entry ∈ frame.schema, entry.id.isValid = true ∧ (entry.definitionVersion != 0) = true
  epochs : ∀ operation ∈ frame.operations, operation.epoch = frame.epoch
  operations : ∀ operation ∈ frame.operations, operation.isValid measureWireValueJsonBytes = true
  templates : ∀ operation ∈ frame.operations, operation.intent.TemplateValid measureWireValueJsonBytes

variable {frame : ReplicationFrame}

theorem frameFits (valid : frame.isValid measureWireValueJsonBytes)
    (templates : frame.TemplatesValid measureWireValueJsonBytes) : FrameFits measureWireValueJsonBytes frame := by
  simp only [ReplicationFrame.isValid,Bool.and_eq_true,decide_eq_true_eq,all_eq_true,beq_iff_eq] at valid
  obtain ⟨⟨⟨⟨⟨⟨⟨⟨⟨version,_⟩,_⟩,operationCount⟩,schemaCount⟩,_⟩,_⟩,entries⟩,_⟩,operations⟩ := valid
  exact {
    version, operationCount, schemaCount, entries
    epochs := fun operation member => (operations operation member).1
    operations := fun operation member => (operations operation member).2
    templates := fun operation member object template nilProperties same =>
      templates operation member object template nilProperties same }

theorem ordinary_frame_valid (valid : frame.isValid measureWireValueJsonBytes)
    (templates : frame.TemplatesValid measureWireValueJsonBytes) :
    frame.ordinary.isValid measureWireValueJsonBytes := by
  have fits := frameFits valid templates
  have operations : (frame.ordinary.operations.all fun operation => operation.epoch == frame.epoch &&
      operation.isValid measureWireValueJsonBytes) = true := by
    simp only [ReplicationFrame.ordinary,all_map,all_eq_true,comp,Bool.and_eq_true,beq_iff_eq]
    intro operation member
    have whole := fits.operations operation member
    simp only [ReplicationOperation.isValid,Bool.and_eq_true] at whole
    refine ⟨fits.epochs operation member,?_⟩
    simp only [ReplicationOperation.isValid,ReplicationOperation.ordinary,Bool.and_eq_true]
    exact ⟨whole.1,ordinary_valid whole.2 (fits.templates operation member)⟩
  have same : frame.ordinary.operations.length = frame.operations.length := length_map _
  unfold ReplicationFrame.isValid at valid ⊢
  rw [same]
  simp only [Bool.and_eq_true] at valid ⊢
  obtain ⟨others,_⟩ := valid
  exact ⟨others,operations⟩

section
variable (fits : FrameFits measureWireValueJsonBytes frame)
include fits

theorem reads_operations :
    Reads (repeated (readOperation measureWireValueJsonBytes frame.epoch) frame.operations.length [])
      (frame.operations.flatMap operationBytes) frame.ordinary.operations := by
  have all : Reads (repeated (readOperation measureWireValueJsonBytes frame.epoch) frame.operations.length [])
      (frame.operations.flatMap operationBytes)
      (frame.operations.foldl (fun done operation => done ++ [operation.ordinary]) []) := by
    refine .repeated (fun _ rest => ∀ operation ∈ rest, operation ∈ frame.operations) ?_ fun _ member => member
    intro done operation rest inside
    have member := inside operation (by simp)
    have read := reads_operation (fits.operations operation member) (fits.templates operation member) done
    rw [fits.epochs operation member] at read
    exact ⟨read,fun other later => inside other (.tail _ later)⟩
  have pushed := foldl_push (frame.operations.map ReplicationOperation.ordinary) []
  rw [foldl_map,nil_append] at pushed
  rwa [pushed] at all

theorem reads_schemaEntries :
    Reads (repeated readSchemaEntry frame.schema.length []) (frame.schema.flatMap schemaEntryBytes) frame.schema := by
  have all : Reads (repeated readSchemaEntry frame.schema.length []) (frame.schema.flatMap schemaEntryBytes)
      (frame.schema.foldl (fun done entry => done ++ [entry]) []) := by
    refine .repeated (fun _ rest => ∀ entry ∈ rest, entry ∈ frame.schema) ?_ fun _ member => member
    intro done entry rest inside
    obtain ⟨identity,version⟩ := fits.entries entry (inside entry (by simp))
    refine ⟨(reads_schema identity).bind ((reads_version _).bind (.demanded version ?_)),
      fun other later => inside other (.tail _ later)⟩
    obtain ⟨id,definitionVersion,kind⟩ := entry
    cases kind with
    | objectClass => exact (reads_marker 0).last (reads_pure _)
    | enumeration => exact (reads_marker 1).last (reads_pure _)
    | extension => exact (reads_marker 2).last (reads_pure _)
  rwa [foldl_push,nil_append] at all


end

theorem length_schemaEntryBytes (entry : SchemaCompatibilityEntry) :
    (schemaEntryBytes entry).length = replicationSchemaEntryBytes := by
  simp [schemaEntryBytes,schemaIdBytes,replicationSchemaEntryBytes]

theorem length_objectIdBytes (id : ObjectId) : (objectIdBytes id).length = 8 := by
  simp [objectIdBytes]

theorem length_operationBytes_le (valid : operation.isValid measureWireValueJsonBytes) :
    minimumReplicationOperationBytes ≤ (operationBytes operation).length := by
  simp only [ReplicationOperation.isValid,Bool.and_eq_true] at valid
  obtain ⟨_,valid⟩ := valid
  have behind : 8 ≤ (intentBytes operation.intent).length := by
    cases intent : operation.intent with
    | preparedPublish object shared nilProperties =>
      rw [intent] at valid
      cases shared with
      | none => simp [isValid,validatePreparedPublish] at valid
      | some shared =>
        simp only [intentBytes,Option.elim,publishBytes,length_append,length_objectIdBytes]
        omega
    | _ =>
      simp only [intentBytes,publishBytes,length_append,length_objectIdBytes]
      omega
  simp only [operationBytes,length_append,length_littleEndian,minimumReplicationOperationBytes]
  omega

theorem length_mul_le_flatMap {items : List α} {bytes : α → List UInt8} {least : Nat}
    (each : ∀ x ∈ items, least ≤ (bytes x).length) : items.length * least ≤ (items.flatMap bytes).length := by
  induction items with
  | nil => simp
  | cons x rest ih =>
    have first := each x (by simp)
    have others := ih fun y member => each y (.tail _ member)
    rw [length_cons,flatMap_cons,length_append,add_mul,one_mul]
    omega

theorem length_schema (schema : List SchemaCompatibilityEntry) :
    (schema.flatMap schemaEntryBytes).length = schema.length * replicationSchemaEntryBytes := by
  induction schema with
  | nil => simp
  | cons entry rest ih =>
    rw [flatMap_cons,length_append,ih,length_schemaEntryBytes,length_cons,add_mul,one_mul,add_comm]

def headerOf (frame : ReplicationFrame) (payloadBytes : Nat) : FrameHeader where
  magic := replicationMagic.toUInt32
  version := frame.version
  kind := (messageKindIndex frame.kind).toUInt8
  reserved := 0
  epoch := frame.epoch
  sequence := frame.sequence
  schemaCount := frame.schema.length.toUInt32
  operationCount := frame.operations.length.toUInt32
  payloadBytes := payloadBytes.toUInt32

theorem word_restored {n : Nat} (small : n < 256 ^ 4) : n.toUInt32.toNat = n :=
  UInt32.toNat_ofNat_of_lt small

theorem reads_word {n : Nat} (small : n < 256 ^ 4) :
    Reads (u32 frameContext).read (littleEndian 4 n) n.toUInt32 := by
  have read := (u32 frameContext).reads n.toUInt32 trivial
  rwa [bytes_u32,word_restored small] at read

theorem reads_header {payloadBytes : Nat} (schemaSmall : frame.schema.length < 256 ^ 4)
    (operationsSmall : frame.operations.length < 256 ^ 4) (payloadSmall : payloadBytes < 256 ^ 4) :
    Reads readHeader (headerBytes frame payloadBytes) (headerOf frame payloadBytes) := by
  have kind : Reads (u8 frameContext).read (littleEndian 1 (messageKindIndex frame.kind))
      (messageKindIndex frame.kind).toUInt8 := by
    cases frame.kind with
    | baseline => exact reads_marker 0
    | incremental => exact reads_marker 1
  have reserved : Reads (u8 frameContext).read (littleEndian 1 0) 0 := reads_marker 0
  have magic : Reads (u32 frameContext).read (littleEndian 4 replicationMagic) replicationMagic.toUInt32 :=
    reads_word (by decide)
  refine magic.bind (((u16 frameContext).reads frame.version trivial).bind (kind.bind (reserved.bind ?_)))
  refine ((sequence frameContext).reads frame.epoch trivial).bind ?_
  refine ((sequence frameContext).reads frame.sequence trivial).bind ?_
  exact (reads_word schemaSmall).bind ((reads_word operationsSmall).bind ((reads_word payloadSmall).map _))

theorem checkHeader_headerOf (fits : FrameFits measureWireValueJsonBytes frame)
    (payloadSmall : (payloadOf frame).length < 256 ^ 4) :
    checkHeader (headerOf frame (payloadOf frame).length) (payloadOf frame).length = .ok frame.kind := by
  have schemaCount : frame.schema.length ≤ 4096 := fits.schemaCount
  have operationCount : frame.operations.length ≤ 65536 := fits.operationCount
  have schemaSame : frame.schema.length.toUInt32.toNat = frame.schema.length :=
    word_restored (by omega)
  have operationsSame : frame.operations.length.toUInt32.toNat = frame.operations.length :=
    word_restored (by omega)
  have payloadSame : (payloadOf frame).length.toUInt32.toNat = (payloadOf frame).length :=
    word_restored payloadSmall
  have kind : kindOf (messageKindIndex frame.kind).toUInt8.toNat = some frame.kind := by
    cases frame.kind <;> rfl
  have split : (payloadOf frame).length = frame.schema.length * replicationSchemaEntryBytes +
      (frame.operations.flatMap operationBytes).length := by
    rw [payloadOf,length_append,length_schema]
  have operations : frame.operations.length * minimumReplicationOperationBytes ≤
      (frame.operations.flatMap operationBytes).length :=
    length_mul_le_flatMap fun operation member => length_operationBytes_le (fits.operations operation member)
  have schemaFits : ¬ frame.schema.length > (payloadOf frame).length / replicationSchemaEntryBytes := by
    rw [not_lt,le_div_iff_mul_le (by decide)]
    omega
  have operationsFit : ¬ frame.operations.length > ((payloadOf frame).length -
      frame.schema.length * replicationSchemaEntryBytes) / minimumReplicationOperationBytes := by
    rw [not_lt,le_div_iff_mul_le (by decide)]
    omega
  have counts : ¬ (decide (frame.schema.length > maximumReplicationSchemaDefinitions) ||
      decide (frame.operations.length > maximumReplicationOperationsPerFrame)) = true := by
    simp only [Bool.or_eq_true,decide_eq_true_eq,not_or,not_lt]
    exact ⟨fits.schemaCount,fits.operationCount⟩
  unfold checkHeader headerOf
  simp only [schemaSame,operationsSame,payloadSame,kind,fits.version]
  rw [if_neg nofun,if_neg nofun,if_neg nofun,if_neg counts,if_neg nofun,if_neg schemaFits,
    if_neg operationsFit]

variable {bytes : List UInt8}

variable (templates : frame.TemplatesValid measureWireValueJsonBytes)
include templates

variable (encoded : encodeReplicationFrame measureWireValueJsonBytes frame = .ok bytes)
include encoded

theorem encodeReplicationFrame_ok : frame.isValid measureWireValueJsonBytes ∧
      bytes = headerBytes frame (payloadOf frame).length ++ payloadOf frame ∧
      (payloadOf frame).length ≤ maximumReplicationFrameBytes - replicationHeaderBytes := by
  unfold encodeReplicationFrame encodeReplicationFrameBounded at encoded
  simp only [min_self] at encoded
  split_ifs at encoded with invalid short failed
  simp only [Bool.not_eq_true',Bool.not_eq_false] at invalid
  have fits := frameFits invalid templates
  simp only [GameBinaryWriter.succeeded,Bool.not_not,Bool.not_eq_true] at failed
  have schema := @emits_all _ writeSchemaEntry schemaEntryBytes frame.schema
    (fun entry _ w => emits_schemaEntry w entry)
    { maximumBytes := maximumReplicationFrameBytes - replicationHeaderBytes }
  have operations := @emits_all _ writeOperation operationBytes frame.operations
    (fun operation member w => by
      have whole := fits.operations operation member
      simp only [ReplicationOperation.isValid,Bool.and_eq_true] at whole
      exact emits_intent w whole.2 (fits.templates operation member))
    (frame.schema.foldl writeSchemaEntry { maximumBytes := maximumReplicationFrameBytes - replicationHeaderBytes })
  have payload := schema.trans operations
  have written := (payload.writes.ofSucceeded failed).2
  have within := payload.writes.within (zero_le _)
  rw [payload.writes.limit,written] at within
  refine ⟨invalid,?_,within⟩
  rw [← Except.ok.inj encoded,written,writeHeader_bytes frame _ (by decide)]
  rfl

theorem decodeReplicationFrame_encodeReplicationFrame :
    decodeReplicationFrame measureWireValueJsonBytes bytes = .ok frame.ordinary := by
  obtain ⟨valid,split,short⟩ := encodeReplicationFrame_ok templates encoded
  have fits := frameFits valid templates
  have headerLength : (headerBytes frame (payloadOf frame).length).length = replicationHeaderBytes := by
    simp [headerBytes,replicationHeaderBytes]
  have limit : maximumReplicationFrameBytes = 8388608 := rfl
  have header36 : replicationHeaderBytes = 36 := rfl
  have whole : ¬ bytes.length > maximumReplicationFrameBytes := by
    rw [split,length_append,headerLength]
    omega
  have payloadSmall : (payloadOf frame).length < 256 ^ 4 := by omega
  have schemaCount : frame.schema.length ≤ 4096 := fits.schemaCount
  have operationCount : frame.operations.length ≤ 65536 := fits.operationCount
  have header := @reads_header frame (payloadOf frame).length (by omega) (by omega) payloadSmall (payloadOf frame)
  have schemaSame : frame.schema.length.toUInt32.toNat = frame.schema.length :=
    word_restored (by omega)
  have operationsSame : frame.operations.length.toUInt32.toNat = frame.operations.length :=
    word_restored (by omega)
  have schema : readSchema (headerOf frame (payloadOf frame).length) (payloadOf frame) =
      .ok (frame.schema,frame.operations.flatMap operationBytes) := by
    have read := reads_schemaEntries fits (frame.operations.flatMap operationBytes)
    unfold readSchema headerOf
    simp only [schemaSame]
    exact read
  have operations : readOperations measureWireValueJsonBytes (headerOf frame (payloadOf frame).length)
      (frame.operations.flatMap operationBytes) = .ok (frame.ordinary.operations,[]) := by
    have read := reads_operations fits []
    rw [append_nil] at read
    unfold readOperations headerOf
    simp only [operationsSame]
    exact read
  unfold decodeReplicationFrame
  rw [if_neg whole,split]
  simp only [header,checkHeader_headerOf fits payloadSmall,schema,operations]
  have accepted := ordinary_frame_valid valid templates
  rw [if_neg]
  · rfl
  · change ¬ ((!List.isEmpty [] || !frame.ordinary.isValid measureWireValueJsonBytes) = true)
    rw [accepted]
    decide

end

/-! ### What a decoder accepts -/

theorem local_optionalObjectId : Local readOptionalObjectId :=
  (Local.field _).bind fun _ => (Local.demanded _ _).bind fun _ => (Local.pure _).ite ((Local.field _).map some)

theorem local_valueMap (limit : Nat) : Local (readValueMap limit) :=
  Local.counted _ _ _ (fun _ => (Local.field _).bind fun _ => (Local.field _).bind fun _ =>
    (Local.demanded _ _).bind fun _ => .pure _) _

theorem local_states (limit : Nat) (message : String) (overrides : Nat) :
    Local (GameBinaryReader.counted frameContext limit message (readState overrides) []) :=
  Local.counted _ _ _ (fun _ => (Local.field _).bind fun _ => (Local.field _).bind fun _ =>
    (Local.demanded _ _).bind fun _ => (local_valueMap overrides).map _) _

theorem local_tags (limit : Nat) (message : String) :
    Local (GameBinaryReader.counted frameContext limit message readTag []) :=
  Local.counted _ _ _ (fun _ => (Local.field _).bind fun _ => (Local.demanded _ _).bind fun _ => .pure _) _

theorem local_publish : Local readPublish := by
  refine (Local.field _).bind fun _ => (Local.field _).bind fun _ => (Local.field _).bind fun _ => ?_
  refine (Local.demanded _ _).bind fun _ => local_optionalObjectId.bind fun _ => (Local.field _).bind fun _ => ?_
  refine (Local.field _).bind fun _ => (local_valueMap _).bind fun _ => (local_valueMap _).bind fun _ => ?_
  exact (local_states _ _ _).bind fun _ => (local_states _ _ _).bind fun _ => (local_tags _ _).map _

theorem local_property : Local readProperty := by
  refine (Local.field _).bind fun _ => (Local.field _).bind fun _ => (Local.field _).bind fun _ => ?_
  refine (Local.field _).bind fun _ => (Local.demanded _ _).bind fun _ => (Local.pure _).ite ?_
  exact (Local.field _).bind fun _ => (Local.field _).bind fun _ => (Local.demanded _ _).bind fun _ => .pure _

theorem local_extensionProperty : Local readExtensionProperty := by
  refine (Local.field _).bind fun _ => (Local.field _).bind fun _ => (Local.field _).bind fun _ => ?_
  exact (Local.demanded _ _).bind fun _ => (Local.field _).bind fun _ => (Local.field _).map _

theorem local_attribute : Local readAttribute := by
  refine (Local.field _).bind fun _ => (Local.field _).bind fun _ => (Local.field _).bind fun _ => ?_
  exact (Local.demanded _ _).bind fun _ => (Local.pure _).ite ((Local.field _).map _)

theorem local_tagChange (intent : ObjectId → ByteString → ReplicationIntent) : Local (readTagChange intent) :=
  (Local.field _).bind fun _ => (Local.field _).map _

theorem local_intent (code : Nat) : Local (readIntent code) := by
  unfold readIntent
  split
  · exact local_publish.map _
  · exact local_property
  · exact local_extensionProperty
  · exact (Local.field _).bind fun _ => local_optionalObjectId.map _
  · exact local_attribute
  · exact local_tagChange _
  · exact local_tagChange _
  · exact (Local.field _).map _
  · exact (Local.field _).map _
  · exact .fail _

theorem local_schemaEntry (schema : List SchemaCompatibilityEntry) : Local (readSchemaEntry schema) := by
  refine (Local.field _).bind fun _ => (Local.field _).bind fun _ => (Local.demanded _ _).bind fun _ => ?_
  refine (Local.field _).bind fun kind => ?_
  split
  · exact .fail _
  · exact .pure _

theorem local_header : Local readHeader := by
  refine (Local.field _).bind fun _ => (Local.field _).bind fun _ => (Local.field _).bind fun _ => ?_
  refine (Local.field _).bind fun _ => (Local.field _).bind fun _ => (Local.field _).bind fun _ => ?_
  exact (Local.field _).bind fun _ => (Local.field _).bind fun _ => (Local.field _).map _

theorem local_operation (measureWireValueJsonBytes : WireValue → Except String Nat) (epoch : ReplicationEpoch)
    (operations : List ReplicationOperation) : Local (readOperation measureWireValueJsonBytes epoch operations) :=
  (Local.field _).bind fun _ => (local_intent _).bind fun _ => (Local.demanded _ _).bind fun _ => .pure _

structure UsesUp (measureWireValueJsonBytes : WireValue → Except String Nat) (input : List UInt8)
    (frame : ReplicationFrame) (h : FrameHeader) (headerPart schemaPart operationPart : List UInt8) : Prop where
  whole : input = headerPart ++ (schemaPart ++ operationPart)
  payload : (schemaPart ++ operationPart).length = h.payloadBytes.toNat
  header : Reads readHeader headerPart h
  schema : Reads (readSchema h) schemaPart frame.schema
  operations : Reads (readOperations measureWireValueJsonBytes h) operationPart frame.operations

theorem checkHeader_ok {h : FrameHeader} {remaining : Nat} {kind : ReplicationMessageKind}
    (checked : checkHeader h remaining = .ok kind) : h.payloadBytes.toNat = remaining := by
  unfold checkHeader at checked
  cases named : kindOf h.kind.toNat with
  | none =>
    simp only [named] at checked
    split_ifs at checked
  | some other =>
    simp only [named] at checked
    split_ifs at checked with magic version reserved counts payload
    exact not_not.mp payload

theorem decodeReplicationFrame_ok {measureWireValueJsonBytes : WireValue → Except String Nat} {input : List UInt8}
    (decoded : decodeReplicationFrame measureWireValueJsonBytes input = .ok frame) :
    frame.isValid measureWireValueJsonBytes ∧ ∃ h headerPart schemaPart operationPart,
      UsesUp measureWireValueJsonBytes input frame h headerPart schemaPart operationPart := by
  unfold decodeReplicationFrame at decoded
  split_ifs at decoded with long
  cases first : readHeader input with
  | error message => rw [first] at decoded; cases decoded
  | ok result =>
    obtain ⟨h,payload⟩ := result
    simp only [first] at decoded
    cases checked : checkHeader h payload.length with
    | error failure => rw [checked] at decoded; cases decoded
    | ok kind =>
      simp only [checked] at decoded
      cases second : readSchema h payload with
      | error message => rw [second] at decoded; cases decoded
      | ok result =>
        obtain ⟨schema,rest⟩ := result
        simp only [second] at decoded
        cases third : readOperations measureWireValueJsonBytes h rest with
        | error message => rw [third] at decoded; cases decoded
        | ok result =>
          obtain ⟨operations,trailing⟩ := result
          simp only [third] at decoded
          split_ifs at decoded with refused
          cases decoded
          simp only [Bool.or_eq_true,Bool.not_eq_true',not_or,Bool.not_eq_false,List.isEmpty_iff] at refused
          obtain ⟨rfl,valid⟩ := refused
          obtain ⟨headerPart,splitHeader,header⟩ := local_header first
          obtain ⟨schemaPart,splitSchema,schemaRead⟩ := Local.repeated local_schemaEntry _ _ second
          obtain ⟨operationPart,splitOperations,operationsRead⟩ :=
            Local.repeated (local_operation measureWireValueJsonBytes h.epoch) _ _ third
          rw [append_nil] at splitOperations
          subst splitOperations splitSchema
          exact ⟨valid,h,headerPart,schemaPart,rest,splitHeader,(checkHeader_ok checked).symm,header,schemaRead,
            operationsRead⟩

/-- Every value and every frame that was written comes back, a prepared publish as the
    publication it stands for; an accepted input is a valid frame and is used up. -/
theorem replication_frames_round_trip (measureWireValueJsonBytes : WireValue → Except String Nat) :
    (∀ (value : WireValue) (w : GameBinaryWriter), value.isValid = true → (w.wireValue value).failed = false →
      ∃ written, (w.wireValue value).bytes = w.bytes ++ written ∧ Reads readWireValue written value) ∧
    (∀ (frame : ReplicationFrame) (bytes : List UInt8), frame.TemplatesValid measureWireValueJsonBytes →
      encodeReplicationFrame measureWireValueJsonBytes frame = .ok bytes →
        decodeReplicationFrame measureWireValueJsonBytes bytes = .ok frame.ordinary) ∧
    ∀ (input : List UInt8) (frame : ReplicationFrame),
      decodeReplicationFrame measureWireValueJsonBytes input = .ok frame →
        frame.isValid measureWireValueJsonBytes = true ∧ ∃ h headerPart schemaPart operationPart,
          UsesUp measureWireValueJsonBytes input frame h headerPart schemaPart operationPart := by
  refine ⟨fun value w valid written => ?_,fun frame bytes templates encoded => ?_,fun input frame decoded => ?_⟩
  · exact ⟨wireBytes value,((emits_wireValue w valid).writes.ofSucceeded written).2,reads_value valid⟩
  · exact decodeReplicationFrame_encodeReplicationFrame templates encoded
  · exact decodeReplicationFrame_ok decoded

def partTemplate : StructuralMaterializationTemplate where
  world := ⟨1,1⟩
  object := ⟨2,1⟩
  publication :=
    { object := ⟨2,1⟩, classSchemaId := ⟨0,7⟩, definitionVersion := 1, className := ascii "Part", name := ascii "A"
      properties := (∅ : ValueMap).insert (ascii "Link") (.objectReference ⟨3,1⟩) }

/-- The reference is nil for this peer. -/
def preparedFrame : ReplicationFrame where
  epoch := ⟨1⟩
  sequence := ⟨1⟩
  operations := [⟨⟨1⟩,.preparedPublish ⟨2,1⟩ (some partTemplate) [ascii "Link"]⟩]

/-- The size of the JSON text of the boolean `true`; no attribute stands in the frame. -/
def measureTrue : WireValue → Except String Nat := fun _ => .ok 4

theorem preparedFrame_round_trip :
    Reads readWireValue (wireBytes (.boolean true)) (.boolean true) ∧ ∃ bytes,
      encodeReplicationFrame measureTrue preparedFrame = .ok bytes ∧
        decodeReplicationFrame measureTrue bytes = .ok preparedFrame.ordinary ∧
          preparedFrame.ordinary.isValid measureTrue = true := by
  have encoded : encodeReplicationFrame measureTrue preparedFrame =
      .ok (headerBytes preparedFrame (payloadOf preparedFrame).length ++ payloadOf preparedFrame) := by decide
  have templates : preparedFrame.TemplatesValid measureTrue := by
    intro operation member object template nilProperties same
    obtain rfl := mem_singleton.mp member
    cases same
    decide
  obtain ⟨values,frames,inputs⟩ := replication_frames_round_trip measureTrue
  have decoded := frames _ _ templates encoded
  obtain ⟨written,split,read⟩ := values (.boolean true) { maximumBytes := 2 } rfl (by decide)
  have same : written = wireBytes (.boolean true) := split.symm
  rw [same] at read
  exact ⟨read,_,encoded,decoded,(inputs _ _ decoded).1⟩

end Gargantuan.ReplicationProtocol
