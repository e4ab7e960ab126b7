import Gargantuan.WireJournalRoundTrip

/-!
The document of a list of records is within the limits of nesting and of nodes, so that it is refused only where its
    text
is too long; and what is read from it are the records.
-/
namespace Gargantuan
open List Nat ReplicationProtocol

variable {value : ByteString} {description : String}

theorem validateProtocolString_mono {small large : Nat} {other : String}
    (valid : validateProtocolString value small description = .ok ()) (within : small ≤ large) :
    validateProtocolString value large other = .ok () := by
  rw [validateProtocolString] at valid ⊢
  split at valid
  · cases valid
  next fits =>
    rw [if_neg (by omega)]
    split at valid
    · cases valid
    next whole =>
      rw [if_neg whole]
      split at valid
      · cases valid
      next scalar => rw [if_neg scalar]

theorem isValidProtocolUtf8_ascii (plain : ∀ b ∈ value, b ≤ 0x7f) : isValidProtocolUtf8 value := by
  induction value with
  | nil => rfl
  | cons first rest ih =>
    rw [isValidProtocolUtf8.eq_def]
    dsimp only
    rw [if_pos (plain first (.head _))]
    exact ih fun b inside => plain b (.tail _ inside)

theorem hexDigit_plain {nibble : Nat} (small : nibble < 16) : hexDigit nibble ≤ 0x7f ∧ hexDigit nibble ≠ 0 := by
  revert nibble
  decide

theorem hexDigits_plain {half : UInt64} {b : UInt8} (inside : b ∈ hexDigits half) : b ≤ 0x7f ∧ b ≠ 0 := by
  obtain ⟨index,_,rfl⟩ := mem_map.mp inside
  exact hexDigit_plain (mod_lt _ (by decide))

theorem validateProtocolString_toString (id : SchemaId) (description : String) :
    validateProtocolString id.toString maximumProtocolStringBytes description = .ok () := by
  have plain : ∀ b ∈ id.toString, b ≤ 0x7f ∧ b ≠ 0 := fun b inside =>
    (mem_append.mp inside).elim hexDigits_plain hexDigits_plain
  have length : id.toString.length = 32 := by
    rw [SchemaId.toString,length_append,hexDigits,hexDigits,length_map,length_map,length_range]
  have whole : ¬ id.toString.contains 0 := by
    rw [contains_iff_mem]
    exact fun inside => (plain 0 inside).2 rfl
  rw [validateProtocolString,if_neg (by rw [length]; decide),if_neg whole,
    isValidProtocolUtf8_ascii fun b inside => (plain b inside).1]
  rfl

variable {name : ByteString}

theorem validateProtocolString_attributeName
    (valid : validateAttributeName name = .ok ()) (description : String) :
    validateProtocolString name maximumProtocolStringBytes description = .ok () := by
  rw [validateAttributeName] at valid
  split_ifs at valid with _ long scalar whole
  have fits : ¬ name.length > maximumProtocolStringBytes := fun exceeds =>
    long (lt_trans (by decide) exceeds)
  rw [validateProtocolString,if_neg fits,if_neg whole,if_neg scalar]

theorem validateProtocolString_tagName
    (valid : validateTagName name = .ok ()) (description : String) :
    validateProtocolString name maximumProtocolStringBytes description = .ok () := by
  rw [validateTagName] at valid
  split_ifs at valid with _ long whole scalar
  have fits : ¬ name.length > maximumProtocolStringBytes := fun exceeds =>
    long (lt_trans (by decide) exceeds)
  rw [validateProtocolString,if_neg fits,if_neg whole,if_neg scalar]

namespace JsonCodec

/-! ### Sizes -/

def Fits (levels nodes : Nat) (value : Json) : Prop :=
  ∀ depth before, depth + levels ≤ maximumProtocolJsonDepth + 1 → before + nodes ≤ maximumProtocolJsonNodes →
    ∃ count ≤ nodes, validateJsonNode depth before value = .ok (before + count)

def FieldsFit (levels nodes : Nat) (fields : List (ByteString × Json)) : Prop :=
  ∀ depth before, depth + levels ≤ maximumProtocolJsonDepth → before + nodes ≤ maximumProtocolJsonNodes →
    ∃ count ≤ nodes, validateFields depth before fields = .ok (before + count)

def ValuesFit (levels nodes : Nat) (values : List Json) : Prop :=
  ∀ depth before, depth + levels ≤ maximumProtocolJsonDepth → before + nodes ≤ maximumProtocolJsonNodes →
    ∃ count ≤ nodes, validateValues depth before values = .ok (before + count)

variable {levels nodes : Nat} {value : Json}

theorem Fits.mono {more larger : Nat} (fits : Fits levels nodes value) (deeper : levels ≤ more)
    (wider : nodes ≤ larger) : Fits more larger value := by
  intro depth before deep wide
  obtain ⟨count,small,accepted⟩ := fits depth before (by omega) (by omega)
  exact ⟨count,by omega,accepted⟩

theorem node_accepted (levels nodes : Nat) {depth before : Nat}
    (deep : depth + (levels + 1) ≤ maximumProtocolJsonDepth + 1)
    (wide : before + (nodes + 1) ≤ maximumProtocolJsonNodes) :
    require (depth ≤ maximumProtocolJsonDepth) "Protocol JSON exceeds its nesting-depth limit" = .ok () ∧
      require (before != maximumProtocolJsonNodes) "Protocol JSON exceeds its node-count limit" = .ok () := by
  refine ⟨require_true (decide_eq_true (by omega)),require_true (bne_iff_ne.mpr (by omega))⟩

/-- Neither a text nor a container. -/
def isScalar : Json → Bool
  | .null | .boolean _ | .unsigned _ | .integer _ | .float _ => true
  | _ => false

theorem fits_scalar (scalar : isScalar value) : Fits 1 1 value := by
  intro depth before deep wide
  obtain ⟨levels,nodes⟩ := node_accepted 0 0 deep wide
  refine ⟨1,le_rfl,?_⟩
  cases value with
  | string text => cases scalar
  | array values => cases scalar
  | object fields => cases scalar
  | _ =>
    exact bind_eq_ok.mpr ⟨(),levels,bind_eq_ok.mpr ⟨(),nodes,rfl⟩⟩

variable {text : ByteString}

theorem fits_string
    (valid : validateProtocolString text maximumProtocolStringBytes "Protocol string" = .ok ()) :
    Fits 1 1 (.string text) := by
  intro depth before deep wide
  obtain ⟨levels,nodes⟩ := node_accepted 0 0 deep wide
  refine ⟨1,le_rfl,?_⟩
  exact bind_eq_ok.mpr ⟨(),levels,bind_eq_ok.mpr ⟨(),nodes,bind_eq_ok.mpr ⟨(),valid,rfl⟩⟩⟩

theorem fieldsFit_nil (levels : Nat) : FieldsFit levels 0 [] := by
  intro depth before _ _
  refine ⟨0,le_rfl,?_⟩
  rfl

variable {rest : List (ByteString × Json)} {first others : Nat}

theorem fieldsFit_cons {name : ByteString}
    (named : validateProtocolString name maximumProtocolIdentifierBytes "Protocol field name" = .ok ())
    (fits : Fits levels first value) (remaining : FieldsFit levels others rest) :
    FieldsFit levels (first + others) ((name,value) :: rest) := by
  intro depth before deep wide
  obtain ⟨count,small,accepted⟩ := fits (depth + 1) before (by omega) (by omega)
  obtain ⟨more,less,later⟩ := remaining depth (before + count) deep (by omega)
  refine ⟨count + more,by omega,?_⟩
  refine bind_eq_ok.mpr ⟨(),named,bind_eq_ok.mpr ⟨_,accepted,?_⟩⟩
  rw [later,add_assoc]

variable {values : List Json}

theorem valuesFit (each : ∀ value ∈ values, Fits levels nodes value) :
    ValuesFit levels (values.length * nodes) values := by
  induction values with
  | nil =>
    intro depth before _ _
    refine ⟨0,zero_le _,?_⟩
    rfl
  | cons value rest ih =>
    intro depth before deep wide
    rw [length_cons,succ_mul] at wide ⊢
    obtain ⟨count,small,accepted⟩ := each value (.head _) (depth + 1) before (by omega) (by omega)
    obtain ⟨more,less,later⟩ :=
      ih (fun other inside => each other (.tail _ inside)) depth (before + count) deep (by omega)
    refine ⟨count + more,by omega,?_⟩
    refine bind_eq_ok.mpr ⟨_,accepted,?_⟩
    rw [later,add_assoc]

variable {fields : List (ByteString × Json)}

theorem fits_object (fit : FieldsFit levels nodes fields) : Fits (levels + 1) (nodes + 1) (.object fields) := by
  intro depth before deep wide
  obtain ⟨level,node⟩ := node_accepted _ _ deep wide
  obtain ⟨count,small,accepted⟩ := fit depth (before + 1) (by omega) (by omega)
  refine ⟨count + 1,by omega,?_⟩
  refine bind_eq_ok.mpr ⟨(),level,bind_eq_ok.mpr ⟨(),node,?_⟩⟩
  rw [accepted,add_assoc,add_comm 1 count]

theorem fits_array (each : ∀ value ∈ values, Fits levels nodes value) :
    Fits (levels + 1) (values.length * nodes + 1) (.array values) := by
  intro depth before deep wide
  obtain ⟨level,node⟩ := node_accepted _ _ deep wide
  obtain ⟨count,small,accepted⟩ := valuesFit each depth (before + 1) (by omega) (by omega)
  refine ⟨count + 1,by omega,?_⟩
  refine bind_eq_ok.mpr ⟨(),level,bind_eq_ok.mpr ⟨(),node,?_⟩⟩
  rw [accepted,add_assoc,add_comm 1 count]

theorem FieldsFit.mono {larger : Nat} (fits : FieldsFit levels nodes fields)
    (wider : nodes ≤ larger) : FieldsFit levels larger fields := by
  intro depth before deep wide
  obtain ⟨count,small,accepted⟩ := fits depth before deep (by omega)
  exact ⟨count,by omega,accepted⟩

theorem fieldsFit_known {name : String} (known : validateWireText (ascii name) 32) (fits : Fits levels first value)
    (remaining : FieldsFit levels others rest) : FieldsFit levels (first + others) ((ascii name,value) :: rest) :=
  fieldsFit_cons (validateProtocolString_mono (ok_of_validateWireText known "") (by decide)) fits remaining

theorem fits_known {text : String} (known : validateWireText (ascii text) 32) : Fits 1 1 (.string (ascii text)) :=
  fits_string (validateProtocolString_mono (ok_of_validateWireText known "") (by decide))

theorem fits_text {maximum : Nat}
    (valid : validateProtocolString text maximum description = .ok ()) (small : maximum ≤ maximumProtocolStringBytes) :
    Fits 1 1 (.string text) :=
  fits_string (validateProtocolString_mono valid small)

variable {numbers : Numbers}

theorem fits_float (x : Float64Bits) : Fits 1 1 (Json.float x).reread := by
  refine fits_scalar ?_
  rw [Json.reread]
  split
  · rfl
  · rfl

theorem fits_integer (x : Int32) : Fits 1 1 (integer x).reread := by
  refine fits_scalar ?_
  rw [integer,Json.reread]
  split
  · rfl
  · rfl

theorem fits_objectId (id : ObjectId) : Fits 2 3 (encodeObjectId id).reread := by
  exact fits_object (fieldsFit_known (by decide +kernel) (fits_scalar rfl)
    (fieldsFit_known (by decide +kernel) (fits_scalar rfl) (fieldsFit_nil 1)))

theorem fits_typed {type : String} (known : validateWireText (ascii type) 32)
    (fits : Fits (levels + 1) nodes value.reread) : Fits (levels + 2) (nodes + 2) (typed type value).reread := by
  refine (fits_object (fieldsFit_known (by decide +kernel) ((fits_known known).mono (by omega) (le_refl 1))
    (fieldsFit_known (by decide +kernel) fits (fieldsFit_nil _)))).mono le_rfl (by omega)

theorem fits_numbers {type : String} (known : validateWireText (ascii type) 32)
    (few : values.length ≤ 12) (each : ∀ value ∈ values, Fits 1 1 value.reread) :
    Fits 3 16 (typed type (.array values)).reread := by
  have array : Fits 2 13 (Json.array values).reread := by
    rw [Json.reread,rereadAll_eq]
    have scalars : ∀ value ∈ values.map Json.reread, Fits 1 1 value := by
      intro value inside
      obtain ⟨written,there,rfl⟩ := mem_map.mp inside
      exact each written there
    exact (fits_array scalars).mono (le_refl 2) (by rw [length_map]; omega)
  exact (fits_typed known array).mono (le_refl 3) (by omega)

theorem fits_encodeTyped {value : WireValue} (valid : validateProtocolWireValue value = .ok ()) :
    Fits 3 16 (encodeTyped numbers value).reread := by
  have scalar {type : String} {inner : Json} (known : validateWireText (ascii type) 32 = true)
      (fits : Fits 1 1 inner.reread) : Fits 3 16 (typed type inner).reread :=
    (fits_typed known fits).mono (by omega) (by omega)
  cases value with
  | nil =>
    rw [encodeTyped,Json.reread]
    exact (fits_object (fieldsFit_known (by decide +kernel) (fits_known (by decide +kernel)) (fieldsFit_nil 1))).mono
      (by omega) (by omega)
  | boolean value => exact scalar (by decide +kernel) (fits_scalar (by rw [Json.reread]; rfl))
  | integer value => exact scalar (by decide +kernel) (fits_integer value)
  | double value => exact scalar (by decide +kernel) (fits_float value)
  | float value => exact scalar (by decide +kernel) (fits_float _)
  | string value =>
    refine scalar (by decide +kernel) ?_
    exact fits_text valid le_rfl
  | vector2 x y =>
    refine fits_numbers (by decide +kernel) (le_of_ble_eq_true rfl) fun value inside => ?_
    simp only [mem_cons,not_mem_nil,or_false] at inside
    rcases inside with rfl | rfl <;> exact fits_float _
  | vector3 x y z =>
    refine fits_numbers (by decide +kernel) (le_of_ble_eq_true rfl) fun value inside => ?_
    simp only [mem_cons,not_mem_nil,or_false] at inside
    rcases inside with rfl | rfl | rfl <;> exact fits_float _
  | color3 r g b =>
    refine fits_numbers (by decide +kernel) (le_of_ble_eq_true rfl) fun value inside => ?_
    simp only [mem_cons,not_mem_nil,or_false] at inside
    rcases inside with rfl | rfl | rfl <;> exact fits_float _
  | uDim value =>
    refine fits_numbers (by decide +kernel) (le_of_ble_eq_true rfl) fun value inside => ?_
    simp only [mem_cons,not_mem_nil,or_false] at inside
    rcases inside with rfl | rfl
    · exact fits_float _
    · exact fits_integer _
  | uDim2 x y =>
    refine fits_numbers (by decide +kernel) (le_of_ble_eq_true rfl) fun value inside => ?_
    simp only [mem_cons,not_mem_nil,or_false] at inside
    rcases inside with rfl | rfl | rfl | rfl
    · exact fits_float _
    · exact fits_integer _
    · exact fits_float _
    · exact fits_integer _
  | cFrame components =>
    refine fits_numbers (by decide +kernel) ?_ fun value inside => ?_
    · rw [length_map,components.property]
    · obtain ⟨x,_,rfl⟩ := mem_map.mp inside
      exact fits_float _
  | enumItem enumType item =>
    obtain ⟨_,first,second⟩ := bind_eq_ok.mp valid
    rw [encodeTyped,Json.reread]
    exact (fits_object (fieldsFit_known (by decide +kernel) (fits_text first (by decide))
      (fieldsFit_known (by decide +kernel) (fits_known (by decide +kernel))
        (fieldsFit_known (by decide +kernel) (fits_text second (by decide)) (fieldsFit_nil 1))))).mono
      (by omega) (by omega)
  | schemaEnum id version item =>
    have identity : Fits 1 1 (Json.string id.toString).reread := by
      exact fits_string (validateProtocolString_toString id _)
    have type : Fits 1 1 (Json.string (ascii "SchemaEnum")).reread := by
      rw [Json.reread]
      exact fits_known (by decide +kernel)
    have number : Fits 1 1 (Json.unsigned version.toNat).reread := by
      exact fits_scalar rfl
    rw [encodeTyped,Json.reread,rereadFields_eq]
    simp only [map_cons,map_nil]
    exact (fits_object (fieldsFit_known (by decide +kernel) number (fieldsFit_known (by decide +kernel) identity
      (fieldsFit_known (by decide +kernel) type (fieldsFit_known (by decide +kernel) (fits_integer item)
        (fieldsFit_nil 1)))))).mono (by omega) (by omega)
  | objectReference object =>
    exact (fits_typed (by decide +kernel) (fits_objectId object)).mono (by omega) (by omega)

end JsonCodec

namespace WireJournal
open JsonCodec (Json Numbers Fits FieldsFit bind_eq_ok fits_text fits_known fits_scalar fits_objectId fieldsFit_known
  fieldsFit_nil fits_object fits_array fits_string fits_encodeTyped)

variable {τ : Type} {numbers : Numbers} {registry : Registry τ} {textLength : Json → Nat} {record : WireJournalRecord}

theorem fits_record {fields : List (ByteString × Json)}
    (fit : FieldsFit 3 19 (fields.map fun field => (field.1,field.2.reread))) :
    Fits 4 29 (Json.object (commonFields record ++ fields)).reread := by
  have operation : Fits 1 1 (.string (ascii (operationName record.operation))) := by
    cases record.operation <;> exact fits_known (by decide +kernel)
  have deep {value : Json} (fits : Fits 1 1 value) : Fits 3 1 value := fits.mono (by omega) (le_refl 1)
  have object (id : ObjectId) : Fits 3 3 (JsonCodec.encodeObjectId id).reread :=
    (fits_objectId id).mono (by omega) (le_refl 3)
  rw [Json.reread,JsonCodec.rereadFields_eq]
  simp only [commonFields,map_cons,cons_append,nil_append]
  exact (fits_object (fieldsFit_known (by decide +kernel) (deep (fits_scalar rfl))
    (fieldsFit_known (by decide +kernel) (deep (fits_scalar rfl)) (fieldsFit_known (by decide +kernel) (object _)
      (fieldsFit_known (by decide +kernel) (deep operation)
        (fieldsFit_known (by decide +kernel) (object _) fit)))))).mono (le_refl 4) (by omega)

theorem fits_encodeRecord (rules : FollowsRules numbers registry textLength record)
    {encoded : Json} (written : encodeRecord numbers record = .ok encoded) : Fits 4 29 encoded.reread := by
  have deep {value : Json} (fits : Fits 1 1 value) : Fits 3 1 value := fits.mono (by omega) (le_refl 1)
  have identity (id : SchemaId) : Fits 3 1 (encodeSchemaId (some id)).reread := by
    exact deep (fits_string (validateProtocolString_toString id _))
  have number (version : Option UInt32) : Fits 3 1 (encodeVersion version).reread := by
    exact deep (fits_scalar rfl)
  have text {name : ByteString} (valid : validateProtocolString name maximumProtocolStringBytes "" = .ok ()) :
      Fits 3 1 (encodeText (some name)).reread := by
    exact deep (fits_text valid le_rfl)
  have named {name : ByteString} {description : String}
      (valid : validateProtocolString name maximumProtocolIdentifierBytes description = .ok ()) :
      Fits 3 1 (encodeText (some name)).reread := text (validateProtocolString_mono valid (by decide))
  obtain ⟨fields,others,written⟩ := bind_eq_ok.mp written
  cases written
  refine fits_record ?_
  cases rules with
  | create identified classes =>
    cases others
    exact (fieldsFit_known (by decide +kernel) (named classes.text) (fieldsFit_known (by decide +kernel) (identity _)
      (fieldsFit_known (by decide +kernel) (number _) (fieldsFit_nil 3)))).mono (by omega)
  | propertyUpdate identified filled valid value =>
    obtain ⟨encoded,encodes,others⟩ := bind_eq_ok.mp others
    obtain ⟨_,_,encodes⟩ := bind_eq_ok.mp encodes
    cases encodes
    cases others
    exact (fieldsFit_known (by decide +kernel) (named valid)
      (fieldsFit_known (by decide +kernel) (fits_encodeTyped value) (fieldsFit_nil 3))).mono (by omega)
  | customPropertyUpdate identified filled valid value owner =>
    obtain ⟨encoded,encodes,others⟩ := bind_eq_ok.mp others
    obtain ⟨_,_,encodes⟩ := bind_eq_ok.mp encodes
    cases encodes
    cases others
    exact (fieldsFit_known (by decide +kernel) (named valid)
      (fieldsFit_known (by decide +kernel) (fits_encodeTyped value) (fieldsFit_known (by decide +kernel) (identity _)
        (fieldsFit_known (by decide +kernel) (number _) (fieldsFit_nil 3))))).mono (by omega)
  | attributeUpdate identified valid value allowed =>
    obtain ⟨encoded,encodes,others⟩ := bind_eq_ok.mp others
    obtain ⟨_,_,encodes⟩ := bind_eq_ok.mp encodes
    cases encodes
    cases others
    exact (fieldsFit_known (by decide +kernel) (text (validateProtocolString_attributeName valid _))
      (fieldsFit_known (by decide +kernel) (fits_encodeTyped value) (fieldsFit_nil 3))).mono (by omega)
  | extensionPropertyUpdate identified valid value extension =>
    obtain ⟨encoded,encodes,others⟩ := bind_eq_ok.mp others
    obtain ⟨_,_,encodes⟩ := bind_eq_ok.mp encodes
    cases encodes
    cases others
    exact (fieldsFit_known (by decide +kernel) (identity _) (fieldsFit_known (by decide +kernel) (number _)
      (fieldsFit_known (by decide +kernel) (named valid)
        (fieldsFit_known (by decide +kernel) (fits_encodeTyped value) (fieldsFit_nil 3))))).mono (by omega)
  | tag identified tagged valid =>
    have one : FieldsFit 3 19 ([(ascii "TagName",(encodeText (some _)).reread)]) :=
      (fieldsFit_known (by decide +kernel) (text (validateProtocolString_tagName valid _)) (fieldsFit_nil 3)).mono
        (by omega)
    rcases tagged with rfl | rfl
    · cases others
      exact one
    · cases others
      exact one
  | @reparent sequence scope object parent identified valid =>
    cases others
    have inner : Fits 3 3 ((parent.map JsonCodec.encodeObjectId).getD .null).reread := by
      cases parent with
      | none =>
        exact (fits_scalar rfl).mono (by omega) (by omega)
      | some id => exact (fits_objectId id).mono (by omega) (le_refl 3)
    exact (fieldsFit_known (by decide +kernel) inner (fieldsFit_nil 3)).mono (by omega)
  | destroy identified =>
    cases others
    exact (fieldsFit_nil 3).mono (by omega)

theorem mapM_ok_cons {α β : Type} {step : α → Except String β} {a : α} {rest : List α} {b : β} {others : List β}
    (first : step a = .ok b) (remaining : rest.mapM step = .ok others) : (a :: rest).mapM step = .ok (b :: others) := by
  rw [mapM_cons,first,remaining]
  rfl

variable {records : List WireJournalRecord}

theorem mapM_encodeRecord (rules : ∀ record ∈ records, FollowsRules numbers registry textLength record) :
    ∃ encoded, records.mapM (encodeRecord numbers) = .ok encoded ∧ encoded.length = records.length ∧
      (∀ value ∈ encoded, Fits 4 29 value.reread) ∧
      (encoded.map Json.reread).mapM (decodeRecord numbers registry textLength) = .ok records := by
  induction records with
  | nil => exact ⟨[],rfl,rfl,fun _ inside => absurd inside not_mem_nil,rfl⟩
  | cons record rest ih =>
    obtain ⟨first,written,read⟩ := decodeRecord_encode JsonCodec.kept_reread (rules record (.head _))
    obtain ⟨others,remaining,length,fit,decoded⟩ :=
      ih fun other inside => rules other (.tail _ inside)
    refine ⟨first :: others,mapM_ok_cons written remaining,congrArg succ length,?_,mapM_ok_cons read decoded⟩
    intro value inside
    rcases mem_cons.mp inside with rfl | inside
    · exact fits_encodeRecord (rules record (.head _)) written
    · exact fit value inside

theorem rules_of_mapM {encoded : List Json}
    (decoded : encoded.mapM (decodeRecord numbers registry textLength) = .ok records) :
    ∀ record ∈ records, FollowsRules numbers registry textLength record := by
  induction encoded generalizing records with
  | nil =>
    cases decoded
    exact fun _ inside => absurd inside not_mem_nil
  | cons value rest ih =>
    rw [mapM_cons] at decoded
    obtain ⟨first,read,decoded⟩ := bind_eq_ok.mp decoded
    obtain ⟨others,remaining,decoded⟩ := bind_eq_ok.mp decoded
    cases decoded
    intro record inside
    rcases mem_cons.mp inside with rfl | inside
    · exact rules_of_decodeRecord read
    · exact ih remaining record inside

theorem rules_of_deserialize {parsed : Except String Json}
    (decoded : deserializeWireJournalRecords numbers registry textLength parsed = .ok records) :
    ∀ record ∈ records, FollowsRules numbers registry textLength record := by
  obtain ⟨document,_,decoded⟩ := bind_eq_ok.mp decoded
  obtain ⟨_,_,decoded⟩ := bind_eq_ok.mp decoded
  obtain ⟨_,_,decoded⟩ := bind_eq_ok.mp decoded
  obtain ⟨_,_,decoded⟩ := bind_eq_ok.mp decoded
  obtain ⟨_,_,decoded⟩ := bind_eq_ok.mp decoded
  obtain ⟨_,_,decoded⟩ := bind_eq_ok.mp decoded
  obtain ⟨_,_,decoded⟩ := bind_eq_ok.mp decoded
  exact rules_of_mapM decoded

theorem deserialize_serialize (few : records.length ≤ maximumWireJournalRecords)
    (rules : ∀ record ∈ records, FollowsRules numbers registry textLength record) :
    ∃ document, serializeWireJournalRecords numbers records = .ok document ∧
      (textLength document ≤ JsonCodec.maximumProtocolDocumentBytes →
        deserializeWireJournalRecords numbers registry textLength (JsonCodec.readBack textLength document) =
          .ok records) := by
  obtain ⟨encoded,written,length,fit,read⟩ := mapM_encodeRecord rules
  refine ⟨_,bind_eq_ok.mpr ⟨encoded,written,rfl⟩,fun short => ?_⟩
  have document : (Json.object [(ascii "Version",.unsigned wireJournalFormatVersion),
      (ascii "Records",.array encoded)]).reread = .object [(ascii "Version",.unsigned wireJournalFormatVersion),
        (ascii "Records",.array (encoded.map Json.reread))] := by
    simp only [Json.reread,Json.rereadFields,JsonCodec.rereadAll_eq]
  have records_fit : Fits 5 (4096 * 29 + 1) (.array (encoded.map Json.reread)) := by
    have each : ∀ value ∈ encoded.map Json.reread, Fits 4 29 value := by
      intro value inside
      obtain ⟨inner,there,rfl⟩ := mem_map.mp inside
      exact fit inner there
    refine (fits_array each).mono (le_refl 5) ?_
    rw [length_map,length]
    exact succ_le_succ (mul_le_mul_right 29 few)
  have fits : Fits 6 (4096 * 29 + 3) (.object [(ascii "Version",.unsigned wireJournalFormatVersion),
      (ascii "Records",.array (encoded.map Json.reread))]) :=
    (fits_object (fieldsFit_known (by decide +kernel) ((fits_scalar rfl).mono (by omega) (le_refl 1))
      (fieldsFit_known (by decide +kernel) records_fit (fieldsFit_nil 5)))).mono (le_refl 6) (by omega)
  obtain ⟨count,_,accepted⟩ := fits 1 0 (by decide) (by decide)
  rw [← document] at accepted
  refine bind_eq_ok.mpr ⟨_,bind_eq_ok.mpr ⟨(),JsonCodec.require_true (decide_eq_true short),
    bind_eq_ok.mpr ⟨_,accepted,rfl⟩⟩,?_⟩
  rw [document]
  have counted : (encoded.map Json.reread).length ≤ maximumWireJournalRecords := by
    rwa [length_map,length]
  refine bind_eq_ok.mpr ⟨_,demand_some rfl,bind_eq_ok.mpr ⟨(),JsonCodec.require_true rfl,?_⟩⟩
  refine bind_eq_ok.mpr ⟨wireJournalFormatVersion,rfl,bind_eq_ok.mpr ⟨(),JsonCodec.require_true rfl,?_⟩⟩
  refine bind_eq_ok.mpr ⟨encoded.map Json.reread,demand_some rfl,bind_eq_ok.mpr ⟨(),?_,read⟩⟩
  rw [JsonCodec.require_true (decide_eq_true counted)]
  rfl

/-- Floats as doubles with the same bits, which is enough for documents without them. -/
def sameBits : Numbers where
  widen x := ⟨x.bits.toUInt64⟩
  narrow x := ⟨x.bits.toUInt32⟩
  inRange _ := true
  ofUnsigned _ := ⟨0⟩
  ofInteger _ := ⟨0⟩
  toUnsigned32 _ := 0
  exact x _ := by
    refine ⟨?_,rfl,congrArg Float32Bits.mk (UInt32.toUInt32_toUInt64 x.bits)⟩
    rw [Float64Bits.isFinite,bne_iff_ne]
    intro same
    have small : (x.bits.toUInt64 &&& 0x7ff0000000000000).toNat ≤ x.bits.toUInt64.toNat := by
      rw [UInt64.toNat_and]
      exact Nat.and_le_left
    rw [same,UInt32.toNat_toUInt64] at small
    exact absurd (Nat.lt_of_le_of_lt small x.bits.toNat_lt) (by decide)

def emptyRegistry : Registry Unit where
  findClassById _ := none
  findClassByName _ := none
  isClassConstructible _ := false
  findCustomClassProperty _ _ := none
  findExtensionById _ := none
  findExtensionProperty _ _ := none
  validateSchemaExtensionPropertyValue _ _ := .ok ()

def someObject : ObjectId := { slot := 1, generation := 1 }

def destroyed (sequence : Nat) : ChangeRecord ChangePayload := ⟨sequence,someObject,someObject,.objectDestroyed⟩

def destroyedRecord (sequence : Nat) : WireJournalRecord :=
  { sequence, scope := someObject, operation := .destroy, object := someObject }

end WireJournal
end Gargantuan
