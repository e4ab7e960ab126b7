import Gargantuan.WireCodec

/-!
A wire value that passes its checks is decoded from its JSON as it was, before and after the JSON was printed and
read; and what is decoded passes the checks.
-/
namespace Gargantuan
open List SchemaId Bool Nat
open Option (bind_eq_bind bind_eq_some_iff bind_some filter_some map_eq_some_iff)

theorem hexValue_hexDigit {nibble : Nat} (small : nibble < 16) : hexValue (hexDigit nibble) = some nibble := by
  revert nibble
  decide

theorem foldlM_hexDigits (half : UInt64) (count : Nat) (within : count ≤ 16) :
    ((List.range count).map fun index => hexDigit (half.toNat / 16 ^ (15 - index) % 16)).foldlM
      (fun result character => (hexValue character).map (result * 16 % 2 ^ 64 + ·)) 0 =
        some (half.toNat / 16 ^ (16 - count)) := by
  induction count with
  | zero =>
    have below : half.toNat < 16 ^ 16 := half.toNat_lt
    rw [Nat.div_eq_of_lt below]
    rfl
  | succ count ih =>
    have shift : 16 ^ (16 - count) = 16 ^ (15 - count) * 16 := by
      rw [← Nat.pow_succ]
      congr 1
      omega
    have small : half.toNat / 16 ^ (16 - count) * 16 < 2 ^ 64 := by
      have least : half.toNat / 16 ^ (16 - count) * 16 ^ (16 - count) ≤ half.toNat := Nat.div_mul_le_self _ _
      have one : 16 ≤ 16 ^ (16 - count) := by
        calc
          16 = 16 ^ 1 := rfl
          _ ≤ 16 ^ (16 - count) := Nat.pow_le_pow_right (by decide) (by omega)
      calc
        half.toNat / 16 ^ (16 - count) * 16 ≤ half.toNat / 16 ^ (16 - count) * 16 ^ (16 - count) :=
          Nat.mul_le_mul_left _ one
        _ ≤ half.toNat := least
        _ < 2 ^ 64 := half.toNat_lt
    rw [range_succ,map_append,foldlM_append,ih (by omega)]
    simp only [map_singleton,foldlM_cons,foldlM_nil,bind_eq_bind,bind_some,
      hexValue_hexDigit (Nat.mod_lt _ (by decide : 0 < 16)),Option.map_some,Nat.mod_eq_of_lt small]
    rw [shift,← Nat.div_div_eq_div_mul,Nat.mul_comm,show 16 - (count + 1) = 15 - count by omega]
    exact congrArg some (Nat.div_add_mod _ 16)

theorem parseHalf_hexDigits (half : UInt64) : parseHalf (hexDigits half) = some half.toNat := by
  have parsed := foldlM_hexDigits half 16 le_rfl
  rwa [Nat.pow_zero,Nat.div_one] at parsed

theorem SchemaId.parse_toString {id : SchemaId} (valid : id.isValid) : parse id.toString = some id := by
  have length (half : UInt64) : (hexDigits half).length = 16 := by
    rw [hexDigits,length_map,length_range]
  have first : id.toString.take 16 = hexDigits id.high := by
    rw [toString,← length id.high,take_left]
  have second : id.toString.drop 16 = hexDigits id.low := by
    rw [toString,← length id.high,drop_left]
  have total : id.toString.length = 32 := by
    rw [toString,length_append,length,length]
  rw [parse,if_neg (not_not.mpr total),first,second,parseHalf_hexDigits,parseHalf_hexDigits]
  dsimp only
  rw [show id.high.toNat.toUInt64 = id.high from UInt64.ofNat_toNat,show id.low.toNat.toUInt64 = id.low from
    UInt64.ofNat_toNat,if_pos valid]

theorem SchemaId.isValid_of_parse {text : ByteString} {id : SchemaId} (parsed : parse text = some id) :
    id.isValid := by
  rw [parse] at parsed
  split at parsed
  · cases parsed
  · split at parsed
    · dsimp only at parsed
      split at parsed
      next valid =>
        cases parsed
        exact valid
      next => cases parsed
    · cases parsed

namespace JsonCodec

theorem decodeSignedInt32_integer (x : Int32) : decodeSignedInt32 (integer x) = some x := by
  have low := x.le_toInt
  have high := x.toInt_lt
  rw [integer,decodeSignedInt32,if_neg (by omega),Int32.ofInt_toInt]

theorem decodeSignedInt32_reread (x : Int32) : decodeSignedInt32 (integer x).reread = some x := by
  have high := x.toInt_lt
  rw [integer,Json.reread]
  split
  next nonneg =>
    rw [decodeSignedInt32,if_pos (by omega),Int.toNat_of_nonneg nonneg,Int32.ofInt_toInt]
  next => exact decodeSignedInt32_integer x

theorem decodeUnsigned32_toNat (x : UInt32) : decodeUnsigned32 (.unsigned x.toNat) = some x := by
  have below := x.toNat_lt
  rw [decodeUnsigned32,if_neg (by omega),UInt32.ofNat_toNat]

variable {numbers : Numbers} {x : Float32Bits}

theorem decodeFiniteFloat_float (finite : x.isFinite) :
    decodeFiniteFloat numbers (float numbers x) = some x := by
  obtain ⟨wide,range,same⟩ := numbers.exact x finite
  rw [decodeFiniteFloat,decodeFiniteDouble,float,toDouble,filter_some,if_pos wide,filter_some,
    if_pos range,Option.map_some,same,filter_some,if_pos finite]

variable {value : Json}

theorem isFinite_of_decodeFiniteFloat
    (decoded : decodeFiniteFloat numbers value = some x) : x.isFinite :=
  (Option.filter_eq_some_iff.mp decoded).2

theorem decodeObjectId_encode {id : ObjectId} (valid : id.isValid) : decodeObjectId (encodeObjectId id) = some id := by
  have slot := decodeUnsigned32_toNat id.slot
  have generation := decodeUnsigned32_toNat id.generation
  have only : (Json.hasOnlyFields [(ascii "Generation",.unsigned id.generation.toNat),
      (ascii "Slot",.unsigned id.slot.toNat)] ["Slot","Generation"] && true) = true := rfl
  rw [encodeObjectId,decodeObjectId]
  simp only [Json.object?,bind_eq_bind,bind_some]
  rw [show Json.field? _ "Slot" = some (Json.unsigned id.slot.toNat) from rfl,
    show Json.field? _ "Generation" = some (.unsigned id.generation.toNat) from rfl]
  simp only [bind_some,slot,generation,valid,if_true]
  rfl

theorem isValid_of_decodeObjectId {id : ObjectId} (decoded : decodeObjectId value = some id) :
    id.isValid := by
  obtain ⟨fields,_,decoded⟩ := bind_eq_some_iff.mp decoded
  split at decoded
  · cases decoded
  · obtain ⟨_,_,decoded⟩ := bind_eq_some_iff.mp decoded
    obtain ⟨_,_,decoded⟩ := bind_eq_some_iff.mp decoded
    obtain ⟨_,_,decoded⟩ := bind_eq_some_iff.mp decoded
    obtain ⟨_,_,decoded⟩ := bind_eq_some_iff.mp decoded
    dsimp only at decoded
    split at decoded
    next valid =>
      cases decoded
      exact valid
    next => cases decoded

/-- What a document may become before it is decoded: itself, or what is read after it was printed. -/
structure Kept (numbers : Numbers) (f : Json → Json) : Prop where
  boolean : ∀ value, f (.boolean value) = .boolean value
  unsigned : ∀ value, f (.unsigned value) = .unsigned value
  string : ∀ value, f (.string value) = .string value
  double : ∀ x : Float64Bits, x.isFinite = true → f (.float x) = .float x
  integer : ∀ x, decodeSignedInt32 (f (integer x)) = some x
  array : ∀ values, f (.array values) = .array (values.map f)
  object : ∀ fields, f (.object fields) = .object (fields.map fun field => (field.1,f field.2))
  null : f .null = .null

theorem kept_id : Kept numbers id where
  boolean _ := rfl
  unsigned _ := rfl
  string _ := rfl
  double _ _ := rfl
  integer := decodeSignedInt32_integer
  array values := by rw [map_id]; rfl
  object fields := congrArg Json.object (map_id fields).symm
  null := rfl

theorem rereadAll_eq (values : List Json) : Json.rereadAll values = values.map Json.reread := by
  induction values with
  | nil => rfl
  | cons value rest ih => rw [Json.rereadAll,ih,map_cons]

theorem rereadFields_eq (fields : List (ByteString × Json)) :
    Json.rereadFields fields = fields.map fun field => (field.1,field.2.reread) := by
  induction fields with
  | nil => rfl
  | cons field rest ih => rw [Json.rereadFields,ih,map_cons]

theorem kept_reread : Kept numbers Json.reread where
  boolean _ := by rw [Json.reread]
  unsigned _ := by rw [Json.reread]
  string _ := by rw [Json.reread]
  double x finite := by rw [Json.reread,if_pos finite]
  integer := decodeSignedInt32_reread
  array values := by rw [Json.reread,rereadAll_eq]
  object fields := by rw [Json.reread,rereadFields_eq]
  null := by rw [Json.reread]

variable {α : Type} {fields : List (ByteString × Json)} {components : List Float32Bits}

section
variable {f : Json → Json}

theorem Kept.float (kept : Kept numbers f) (finite : x.isFinite) :
    decodeFiniteFloat numbers (f (JsonCodec.float numbers x)) = some x := by
  rw [JsonCodec.float,kept.double _ (numbers.exact x finite).1]
  exact decodeFiniteFloat_float finite

theorem Kept.objectId (kept : Kept numbers f) {id : ObjectId} (valid : id.isValid) :
    decodeObjectId (f (encodeObjectId id)) = some id := by
  rw [encodeObjectId,kept.object,map_cons,map_cons]
  rw [kept.unsigned,kept.unsigned]
  exact decodeObjectId_encode valid

theorem Kept.typed (kept : Kept numbers f) (type : String) (value : Json) :
    f (JsonCodec.typed type value) = JsonCodec.typed type (f value) := by
  rw [JsonCodec.typed,kept.object,map_cons,map_cons]
  rw [kept.string]
  rfl

theorem decodeWireValue_object {type : ByteString}
    (typed : Json.field? fields "Type" = some (.string type)) (valued : Json.field? fields "Value" = some value)
    (known : validateWireText type 32) (other : type ≠ ascii "Null") :
    decodeWireValue numbers (.object fields) = decodeTyped numbers fields type value := by
  rw [decodeWireValue]
  simp only [Json.object?,bind_eq_bind,bind_some,typed,valued,Json.string?,known,other,
    Bool.not_true,Bool.false_eq_true,if_false]

theorem decodeWireValue_typed {type : String} (known : validateWireText (ascii type) 32)
    (other : ascii type ≠ ascii "Null") (value : Json) : decodeWireValue numbers (typed type value) =
      decodeTyped numbers [(ascii "Type",.string (ascii type)),(ascii "Value",value)] (ascii type) value :=
  decodeWireValue_object rfl rfl known other

theorem plain_fields (type value : Json) :
    (Json.hasOnlyFields [(ascii "Type",type),(ascii "Value",value)] ["Type","Value"] &&
      [(ascii "Type",type),(ascii "Value",value)].length == 2) := rfl

theorem mapM_float (kept : Kept numbers f)
    (finite : components.all Float32Bits.isFinite) :
    ((components.map (JsonCodec.float numbers)).map f).mapM (decodeFiniteFloat numbers) = some components := by
  induction components with
  | nil => rfl
  | cons x rest ih =>
    rw [all_cons,and_eq_true] at finite
    rw [map_cons,map_cons,mapM_cons,kept.float finite.1,ih finite.2]
    rfl

theorem isOk_of_ok {result : Except String α} {a : α} (ok : result = .ok a) : result.isOk := by
  rw [ok]
  rfl

theorem bind_eq_ok {β : Type} {x : Except String α} {next : α → Except String β} {b : β} :
    (x >>= next) = .ok b ↔ ∃ a, x = .ok a ∧ next a = .ok b := by
  cases x with
  | error message =>
    constructor
    · exact fun refused => by cases refused
    · rintro ⟨_,none,_⟩
      cases none
  | ok a =>
    constructor
    · exact fun ok => ⟨a,rfl,ok⟩
    · rintro ⟨_,same,ok⟩
      cases same
      exact ok

theorem validateWireText_of_ok {value : ByteString} {maximum : Nat} {description : String}
    (ok : validateProtocolString value maximum description = .ok ()) : validateWireText value maximum := by
  rw [validateProtocolString] at ok
  rw [validateWireText,validateProtocolString]
  split at ok
  · cases ok
  next fits =>
    rw [if_neg fits]
    split at ok
    · cases ok
    next whole =>
      rw [if_neg whole]
      split at ok
      · cases ok
      next scalar =>
        rw [if_neg scalar]
        rfl

theorem of_require {check : Bool} {message : String} (ok : require check message = .ok ()) : check := by
  cases check with
  | false => cases ok
  | true => rfl

theorem decodeWireValue_encode (kept : Kept numbers f) {value : WireValue}
    (valid : validateProtocolWireValue value = .ok ()) :
    decodeWireValue numbers (f (encodeTyped numbers value)) = some value := by
  cases value with
  | nil =>
    rw [encodeTyped,kept.object,map_cons]
    rw [kept.string]
    rfl
  | boolean value =>
    rw [encodeTyped,kept.typed,kept.boolean,decodeWireValue_typed (by decide +kernel) (by decide +kernel),
        decodeTyped]
    simp +decide only [if_true,if_false,plain_fields]
    rfl
  | integer value =>
    rw [encodeTyped,kept.typed,decodeWireValue_typed (by decide +kernel) (by decide +kernel),decodeTyped]
    simp +decide only [if_true,if_false,plain_fields]
    rw [kept.integer]
    rfl
  | double value =>
    have finite := of_require valid
    rw [encodeTyped,kept.typed,kept.double _ finite,decodeWireValue_typed (by decide +kernel) (by decide +kernel),
        decodeTyped]
    simp +decide only [if_true,if_false,plain_fields]
    rw [decodeFiniteDouble,toDouble,filter_some,if_pos finite]
    rfl
  | float value =>
    rw [encodeTyped,kept.typed,decodeWireValue_typed (by decide +kernel) (by decide +kernel),decodeTyped]
    simp +decide only [if_true,if_false,plain_fields]
    rw [kept.float (of_require valid)]
    rfl
  | string value =>
    have text : validateWireText value maximumProtocolStringBytes := isOk_of_ok valid
    rw [encodeTyped,kept.typed,kept.string,decodeWireValue_typed (by decide +kernel) (by decide +kernel),
        decodeTyped]
    simp +decide only [if_true,if_false,plain_fields]
    exact if_pos text
  | vector2 x y =>
    have finite := and_eq_true_iff.mp (of_require valid)
    rw [encodeTyped,kept.typed,kept.array,decodeWireValue_typed (by decide +kernel) (by decide +kernel),decodeTyped]
    simp +decide only [if_true,if_false,plain_fields]
    simp only [Json.array?,bind_some,map_cons,map_nil,decodeVector2,kept.float finite.1,kept.float finite.2]
    rfl
  | vector3 x y z =>
    have finite := and_eq_true_iff.mp (of_require valid)
    have first := and_eq_true_iff.mp finite.1
    rw [encodeTyped,kept.typed,kept.array,decodeWireValue_typed (by decide +kernel) (by decide +kernel),decodeTyped]
    simp +decide only [if_true,if_false,plain_fields]
    simp only [Json.array?,bind_some,map_cons,map_nil,decodeVector3,kept.float first.1,
      kept.float first.2,kept.float finite.2]
    rfl
  | color3 r g b =>
    have finite := and_eq_true_iff.mp (of_require valid)
    have first := and_eq_true_iff.mp finite.1
    rw [encodeTyped,kept.typed,kept.array,decodeWireValue_typed (by decide +kernel) (by decide +kernel),decodeTyped]
    simp +decide only [if_true,if_false,plain_fields]
    simp only [Json.array?,bind_some,map_cons,map_nil,decodeColor3,kept.float first.1,
      kept.float first.2,kept.float finite.2]
    rfl
  | uDim value =>
    rw [encodeTyped,kept.typed,kept.array,decodeWireValue_typed (by decide +kernel) (by decide +kernel),decodeTyped]
    simp +decide only [if_true,if_false,plain_fields]
    simp only [Json.array?,bind_some,map_cons,map_nil,decodeUDims,decodeUDim,
      kept.float (of_require valid),kept.integer]
    rfl
  | uDim2 x y =>
    have finite := and_eq_true_iff.mp (of_require valid)
    rw [encodeTyped,kept.typed,kept.array,decodeWireValue_typed (by decide +kernel) (by decide +kernel),decodeTyped]
    simp +decide only [if_true,if_false,plain_fields]
    simp only [Json.array?,bind_some,map_cons,map_nil,decodeUDim2,decodeUDim,kept.float finite.1,
      kept.float finite.2,kept.integer]
    rfl
  | cFrame components =>
    rw [encodeTyped,kept.typed,kept.array,decodeWireValue_typed (by decide +kernel) (by decide +kernel),decodeTyped]
    simp +decide only [if_true,if_false,plain_fields]
    simp only [Json.array?,bind_some,decodeCFrame,mapM_float kept (of_require valid)]
    exact dif_pos components.property
  | enumItem enumType item =>
    obtain ⟨_,first,second⟩ := bind_eq_ok.mp valid
    have texts : (validateWireText enumType maximumProtocolIdentifierBytes &&
        validateWireText item maximumProtocolIdentifierBytes) = true :=
      and_eq_true_iff.mpr ⟨validateWireText_of_ok first,validateWireText_of_ok second⟩
    rw [encodeTyped,kept.object]
    simp only [map_cons,map_nil,kept.string]
    rw [decodeWireValue_object rfl rfl (by decide +kernel) (by decide +kernel),decodeTyped]
    simp +decide only [if_true,if_false]
    exact if_pos texts
  | schemaEnum id version item =>
    have checked := and_eq_true_iff.mp (of_require valid)
    have below := version.toNat_lt
    have positive : version.toNat > 0 ∧ version.toNat ≤ 2 ^ 32 - 1 := by
      refine ⟨pos_of_ne_zero fun zero => ?_,by omega⟩
      exact (bne_iff_ne.mp checked.2) (UInt32.toNat_inj.mp zero)
    rw [encodeTyped,kept.object]
    simp only [map_cons,map_nil,kept.string,kept.unsigned]
    rw [decodeWireValue_object rfl rfl (by decide +kernel) (by decide +kernel),decodeTyped]
    simp +decide only [if_true,if_false]
    change decodeSchemaEnum id.toString version.toNat (f (JsonCodec.integer item)) = _
    simp only [decodeSchemaEnum,parse_toString checked.1,kept.integer,bind_eq_bind,bind_some,
      if_pos positive,UInt32.ofNat_toNat]
  | objectReference object =>
    rw [encodeTyped,kept.typed,decodeWireValue_typed (by decide +kernel) (by decide +kernel),decodeTyped]
    simp +decide only [if_true,if_false,plain_fields]
    rw [kept.objectId (of_require valid)]
    rfl

end

theorem require_true {check : Bool} {message : String} (passes : check) : require check message = .ok () := by
  rw [passes]
  rfl

theorem ok_of_validateWireText {value : ByteString} {maximum : Nat} (valid : validateWireText value maximum)
    (description : String) : validateProtocolString value maximum description = .ok () := by
  rw [validateWireText,validateProtocolString] at valid
  rw [validateProtocolString]
  split at valid
  · cases valid
  next fits =>
    rw [if_neg fits]
    split at valid
    · cases valid
    next whole =>
      rw [if_neg whole]
      split at valid
      · cases valid
      next scalar => rw [if_neg scalar]

variable {values : List Json} {value : WireValue}

theorem finite_of_mapM
    (decoded : values.mapM (decodeFiniteFloat numbers) = some components) : components.all Float32Bits.isFinite := by
  induction values generalizing components with
  | nil =>
    cases decoded
    rfl
  | cons value rest ih =>
    rw [mapM_cons] at decoded
    obtain ⟨x,first,decoded⟩ := bind_eq_some_iff.mp decoded
    obtain ⟨others,remaining,decoded⟩ := bind_eq_some_iff.mp decoded
    cases decoded
    rw [all_cons,isFinite_of_decodeFiniteFloat first,ih remaining]
    rfl

theorem finite_of_decodeUDim {scale offset : Json} {value : WireUDim}
    (decoded : decodeUDim numbers scale offset = some value) : value.scale.isFinite := by
  obtain ⟨x,first,decoded⟩ := bind_eq_some_iff.mp decoded
  obtain ⟨y,_,decoded⟩ := bind_eq_some_iff.mp decoded
  cases decoded
  exact isFinite_of_decodeFiniteFloat first

theorem valid_of_decodeVector2 (decoded : decodeVector2 numbers values = some value) :
    validateProtocolWireValue value = .ok () := by
  rw [decodeVector2.eq_def] at decoded
  split at decoded
  · obtain ⟨x,first,decoded⟩ := bind_eq_some_iff.mp decoded
    obtain ⟨y,second,decoded⟩ := bind_eq_some_iff.mp decoded
    cases decoded
    refine require_true ?_
    rw [isFinite_of_decodeFiniteFloat first,isFinite_of_decodeFiniteFloat second]
    rfl
  · cases decoded

theorem finite_of_three {a b c : Json} {y z : Float32Bits} (first : decodeFiniteFloat numbers a = some x)
    (second : decodeFiniteFloat numbers b = some y) (third : decodeFiniteFloat numbers c = some z) :
    (x.isFinite && y.isFinite && z.isFinite) := by
  rw [isFinite_of_decodeFiniteFloat first,isFinite_of_decodeFiniteFloat second,isFinite_of_decodeFiniteFloat third]
  rfl

theorem valid_of_decodeVector3 (decoded : decodeVector3 numbers values = some value) :
    validateProtocolWireValue value = .ok () := by
  rw [decodeVector3.eq_def] at decoded
  split at decoded
  · obtain ⟨x,first,decoded⟩ := bind_eq_some_iff.mp decoded
    obtain ⟨y,second,decoded⟩ := bind_eq_some_iff.mp decoded
    obtain ⟨z,third,decoded⟩ := bind_eq_some_iff.mp decoded
    cases decoded
    exact require_true (finite_of_three first second third)
  · cases decoded

theorem valid_of_decodeColor3 (decoded : decodeColor3 numbers values = some value) :
    validateProtocolWireValue value = .ok () := by
  rw [decodeColor3.eq_def] at decoded
  split at decoded
  · obtain ⟨x,first,decoded⟩ := bind_eq_some_iff.mp decoded
    obtain ⟨y,second,decoded⟩ := bind_eq_some_iff.mp decoded
    obtain ⟨z,third,decoded⟩ := bind_eq_some_iff.mp decoded
    cases decoded
    exact require_true (finite_of_three first second third)
  · cases decoded

theorem valid_of_decodeUDims (decoded : decodeUDims numbers values = some value) :
    validateProtocolWireValue value = .ok () := by
  rw [decodeUDims.eq_def] at decoded
  split at decoded
  · obtain ⟨x,first,decoded⟩ := bind_eq_some_iff.mp decoded
    cases decoded
    exact require_true (finite_of_decodeUDim first)
  · cases decoded

theorem valid_of_decodeUDim2 (decoded : decodeUDim2 numbers values = some value) :
    validateProtocolWireValue value = .ok () := by
  rw [decodeUDim2.eq_def] at decoded
  split at decoded
  · obtain ⟨x,first,decoded⟩ := bind_eq_some_iff.mp decoded
    obtain ⟨y,second,decoded⟩ := bind_eq_some_iff.mp decoded
    cases decoded
    refine require_true ?_
    rw [finite_of_decodeUDim first,finite_of_decodeUDim second]
    rfl
  · cases decoded

theorem valid_of_decodeCFrame (decoded : decodeCFrame numbers values = some value) :
    validateProtocolWireValue value = .ok () := by
  obtain ⟨components,all,decoded⟩ := bind_eq_some_iff.mp decoded
  split at decoded
  · cases decoded
    exact require_true (finite_of_mapM all)
  · cases decoded

theorem valid_of_decodeEnumItem {enumType item : ByteString} (decoded : decodeEnumItem enumType item = some value) :
    validateProtocolWireValue value = .ok () := by
  rw [decodeEnumItem] at decoded
  split at decoded
  next texts =>
    cases decoded
    obtain ⟨first,second⟩ := and_eq_true_iff.mp texts
    exact bind_eq_ok.mpr ⟨(),ok_of_validateWireText first _,ok_of_validateWireText second _⟩
  next => cases decoded

variable {encoded : Json}

theorem valid_of_decodeSchemaEnum {id : ByteString} {version : Nat}
    (decoded : decodeSchemaEnum id version encoded = some value) : validateProtocolWireValue value = .ok () := by
  obtain ⟨schema,parsed,decoded⟩ := bind_eq_some_iff.mp decoded
  obtain ⟨item,_,decoded⟩ := bind_eq_some_iff.mp decoded
  split at decoded
  next small =>
    cases decoded
    refine require_true (and_eq_true_iff.mpr ⟨isValid_of_parse parsed,bne_iff_ne.mpr fun zero => ?_⟩)
    have equal := congrArg UInt32.toNat zero
    rw [UInt32.toNat_ofNat_of_lt' (lt_succ_of_le small.2)] at equal
    exact absurd equal (pos_iff_ne_zero.mp small.1)
  next => cases decoded

theorem valid_of_decodeString {text : ByteString} (decoded : decodeString text = some value) :
    validateProtocolWireValue value = .ok () := by
  rw [decodeString] at decoded
  split at decoded
  next fits =>
    cases decoded
    exact ok_of_validateWireText fits _
  next => cases decoded

theorem of_ite {c P : Prop} [Decidable c] {a b : Option α} {x : α} (whole : (if c then a else b) = some x)
    (first : a = some x → P) (second : b = some x → P) : P := by
  by_cases holds : c
  · rw [if_pos holds] at whole
    exact first whole
  · rw [if_neg holds] at whole
    exact second whole

theorem of_plain {c : Prop} [Decidable c] {a : Option α} {x : α} (whole : (if c then a else none) = some x) :
    a = some x :=
  of_ite whole id fun none => by cases none

theorem of_plain_bind {β : Type} {c c' P : Prop} [Decidable c] [Decidable c'] {o : Option β} {f : β → Option α}
    {b : Option α} {x : α} (whole : (if c then if c' then o.bind f else none else b) = some x)
    (first : ∀ {y}, f y = some x → P) (second : b = some x → P) : P :=
  of_ite whole (fun plain => (bind_eq_some_iff.mp (of_plain plain)).elim fun _ found => first found.2) second

theorem valid_of_decodeTyped {type : ByteString}
    (decoded : decodeTyped numbers fields type encoded = some value) : validateProtocolWireValue value = .ok () := by
  rw [decodeTyped] at decoded
  refine of_ite decoded (fun decoded => ?_) fun decoded => ?_
  · obtain ⟨_,_,rfl⟩ := map_eq_some_iff.mp (of_plain decoded)
    rfl
  refine of_ite decoded (fun decoded => ?_) fun decoded => ?_
  · obtain ⟨_,_,rfl⟩ := map_eq_some_iff.mp (of_plain decoded)
    rfl
  refine of_ite decoded (fun decoded => ?_) fun decoded => ?_
  · obtain ⟨x,finite,rfl⟩ := map_eq_some_iff.mp (of_plain decoded)
    exact require_true (Option.filter_eq_some_iff.mp finite).2
  refine of_ite decoded (fun decoded => ?_) fun decoded => ?_
  · obtain ⟨x,finite,rfl⟩ := map_eq_some_iff.mp (of_plain decoded)
    exact require_true (isFinite_of_decodeFiniteFloat finite)
  refine of_plain_bind decoded valid_of_decodeString fun decoded => ?_
  refine of_plain_bind decoded valid_of_decodeVector2 fun decoded => ?_
  refine of_plain_bind decoded valid_of_decodeVector3 fun decoded => ?_
  refine of_plain_bind decoded valid_of_decodeColor3 fun decoded => ?_
  refine of_plain_bind decoded valid_of_decodeUDims fun decoded => ?_
  refine of_plain_bind decoded valid_of_decodeUDim2 fun decoded => ?_
  refine of_plain_bind decoded valid_of_decodeCFrame fun decoded => ?_
  refine of_ite decoded (fun decoded => ?_) fun decoded => ?_
  · obtain ⟨_,_,decoded⟩ := bind_eq_some_iff.mp (of_plain decoded)
    obtain ⟨_,_,decoded⟩ := bind_eq_some_iff.mp decoded
    obtain ⟨_,_,decoded⟩ := bind_eq_some_iff.mp decoded
    exact valid_of_decodeEnumItem decoded
  refine of_ite decoded (fun decoded => ?_) fun decoded => ?_
  · obtain ⟨_,_,decoded⟩ := bind_eq_some_iff.mp (of_plain decoded)
    obtain ⟨_,_,decoded⟩ := bind_eq_some_iff.mp decoded
    obtain ⟨_,_,decoded⟩ := bind_eq_some_iff.mp decoded
    obtain ⟨_,_,decoded⟩ := bind_eq_some_iff.mp decoded
    exact valid_of_decodeSchemaEnum decoded
  obtain ⟨object,found,rfl⟩ := map_eq_some_iff.mp (of_plain (of_plain decoded))
  exact require_true (isValid_of_decodeObjectId found)

theorem valid_of_decodeWireValue (decoded : decodeWireValue numbers encoded = some value) :
    validateProtocolWireValue value = .ok () := by
  obtain ⟨fields,_,decoded⟩ := bind_eq_some_iff.mp decoded
  obtain ⟨typed,_,decoded⟩ := bind_eq_some_iff.mp decoded
  obtain ⟨type,_,decoded⟩ := bind_eq_some_iff.mp decoded
  split_ifs at decoded
  · cases decoded
    rfl
  · obtain ⟨inner,_,decoded⟩ := bind_eq_some_iff.mp decoded
    exact valid_of_decodeTyped decoded

end JsonCodec
end Gargantuan
