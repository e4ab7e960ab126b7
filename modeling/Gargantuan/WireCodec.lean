import Gargantuan.WireValue

/-!
Wire values as JSON, and back. Documents are trees; that the JSON library prints a tree and reads it back is its
business, except that an integer that is not negative is read as an unsigned one, and that a floating-point number has
to be finite to be printed as one.
-/
namespace Gargantuan

namespace JsonCodec

/-- A JSON value. The fields of an object have distinct names, and nothing depends on their order. -/
inductive Json where
  | null
  | boolean (value : Bool)
  | unsigned (value : Nat)
  | integer (value : Int)
  | float (value : Float64Bits)
  | string (value : ByteString)
  | array (values : List Json)
  | object (fields : List (ByteString × Json))

/-- Conversions between the numbers of the language. -/
structure Numbers where
  widen : Float32Bits → Float64Bits
  narrow : Float64Bits → Float32Bits
  /-- Whether a double is within the range of the floats. -/
  inRange : Float64Bits → Bool
  ofUnsigned : Nat → Float64Bits
  ofInteger : Int → Float64Bits
  toUnsigned32 : Float64Bits → Nat
  /-- A float converts to a double and back. -/
  exact : ∀ x, x.isFinite = true → (widen x).isFinite = true ∧ inRange (widen x) = true ∧ narrow (widen x) = x

namespace Json

def field? (fields : List (ByteString × Json)) (name : String) : Option Json := fields.lookup (ascii name)

def hasOnlyFields (fields : List (ByteString × Json)) (allowed : List String) : Bool :=
  fields.all fun field => (allowed.map ascii).contains field.1

def isNull : Json → Bool
  | null => true
  | _ => false

def boolean? : Json → Option Bool
  | boolean value => some value
  | _ => none

def unsigned? : Json → Option Nat
  | unsigned value => some value
  | _ => none

def string? : Json → Option ByteString
  | string value => some value
  | _ => none

def array? : Json → Option (List Json)
  | array values => some values
  | _ => none

def object? : Json → Option (List (ByteString × Json))
  | object fields => some fields
  | _ => none

mutual
/-- A value as it is read after it was printed. -/
def reread : Json → Json
  | null => null
  | boolean value => boolean value
  | unsigned value => unsigned value
  | integer value => if 0 ≤ value then unsigned value.toNat else integer value
  | float value => if value.isFinite then float value else null
  | string value => string value
  | array values => array (rereadAll values)
  | object fields => object (rereadFields fields)

def rereadAll : List Json → List Json
  | [] => []
  | value :: rest => value.reread :: rereadAll rest

def rereadFields : List (ByteString × Json) → List (ByteString × Json)
  | [] => []
  | field :: rest => (field.1,field.2.reread) :: rereadFields rest
end

end Json

def decodeSignedInt32 : Json → Option Int32
  | .unsigned raw => if raw ≤ 2 ^ 31 - 1 then some (Int32.ofInt raw) else none
  | .integer raw => if raw < -2 ^ 31 ∨ raw > 2 ^ 31 - 1 then none else some (Int32.ofInt raw)
  | _ => none

def decodeUnsigned32 : Json → Option UInt32
  | .unsigned raw => if raw > 2 ^ 32 - 1 then none else some (UInt32.ofNat raw)
  | _ => none

section
variable (numbers : Numbers)

def toDouble : Json → Option Float64Bits
  | .unsigned raw => some (numbers.ofUnsigned raw)
  | .integer raw => some (numbers.ofInteger raw)
  | .float value => some value
  | _ => none

def decodeFiniteDouble (value : Json) : Option Float64Bits := (toDouble numbers value).filter (·.isFinite)

def decodeFiniteFloat (value : Json) : Option Float32Bits :=
  (((decodeFiniteDouble numbers value).filter numbers.inRange).map numbers.narrow).filter (·.isFinite)

end

def validateWireText (value : ByteString) (maximumBytes : Nat) : Bool :=
  (validateProtocolString value maximumBytes "Wire string").isOk

end JsonCodec

def hexDigit (nibble : Nat) : UInt8 := if nibble < 10 then (48 + nibble).toUInt8 else (87 + nibble).toUInt8

def hexDigits (half : UInt64) : ByteString :=
  (List.range 16).map fun index => hexDigit (half.toNat / 16 ^ (15 - index) % 16)

def SchemaId.toString (id : SchemaId) : ByteString := hexDigits id.high ++ hexDigits id.low

def hexValue (character : UInt8) : Option Nat :=
  if 48 ≤ character ∧ character ≤ 57 then some (character.toNat - 48)
  else if 97 ≤ character ∧ character ≤ 102 then some (character.toNat - 97 + 10)
  else if 65 ≤ character ∧ character ≤ 70 then some (character.toNat - 65 + 10)
  else none

/-- The low bits of what is shifted by a digit are those of the digit. -/
def parseHalf (value : ByteString) : Option Nat :=
  value.foldlM (fun result character => (hexValue character).map (result * 16 % 2 ^ 64 + ·)) 0

def SchemaId.parse (value : ByteString) : Option SchemaId :=
  if value.length ≠ 32 then none
  else match parseHalf (value.take 16), parseHalf (value.drop 16) with
    | some high, some low =>
      let result : SchemaId := ⟨high.toUInt64,low.toUInt64⟩
      if result.isValid then some result else none
    | _, _ => none

namespace JsonCodec

def encodeObjectId (id : ObjectId) : Json :=
  .object [(ascii "Generation",.unsigned id.generation.toNat),(ascii "Slot",.unsigned id.slot.toNat)]

def decodeObjectId (value : Json) : Option ObjectId := do
  let fields ← value.object?
  if !(Json.hasOnlyFields fields ["Slot","Generation"] && fields.length == 2) then none
  else
    let slot ← Json.field? fields "Slot"
    let generation ← Json.field? fields "Generation"
    let slot ← decodeUnsigned32 slot
    let generation ← decodeUnsigned32 generation
    let result : ObjectId := { slot, generation }
    if result.isValid then some result else none

def typed (type : String) (value : Json) : Json :=
  .object [(ascii "Type",.string (ascii type)),(ascii "Value",value)]

section
variable (numbers : Numbers)

def float (x : Float32Bits) : Json := .float (numbers.widen x)

def integer (x : Int32) : Json := .integer x.toInt

def encodeTyped : WireValue → Json
  | .nil => .object [(ascii "Type",.string (ascii "Null"))]
  | .boolean value => typed "Bool" (.boolean value)
  | .integer value => typed "Int" (integer value)
  | .double value => typed "Double" (.float value)
  | .float value => typed "Float" (float numbers value)
  | .string value => typed "String" (.string value)
  | .vector2 x y => typed "Vector2" (.array [float numbers x,float numbers y])
  | .vector3 x y z => typed "Vector3" (.array [float numbers x,float numbers y,float numbers z])
  | .color3 r g b => typed "Color3" (.array [float numbers r,float numbers g,float numbers b])
  | .uDim value => typed "UDim" (.array [float numbers value.scale,integer value.offset])
  | .uDim2 x y =>
    typed "UDim2" (.array [float numbers x.scale,integer x.offset,float numbers y.scale,integer y.offset])
  | .cFrame components => typed "CFrame" (.array (components.val.map (float numbers)))
  | .enumItem enumType item => .object [(ascii "Enum",.string enumType),(ascii "Type",.string (ascii "EnumItem")),
      (ascii "Value",.string item)]
  | .schemaEnum id version item => .object [(ascii "DefinitionVersion",.unsigned version.toNat),
      (ascii "SchemaId",.string id.toString),(ascii "Type",.string (ascii "SchemaEnum")),
      (ascii "Value",integer item)]
  | .objectReference object => typed "ObjectReference" (encodeObjectId object)

def encodeWireValue (value : WireValue) : Except String Json := do
  validateProtocolWireValue value
  return encodeTyped numbers value

def decodeVector2 : List Json → Option WireValue
  | [x,y] => do return .vector2 (← decodeFiniteFloat numbers x) (← decodeFiniteFloat numbers y)
  | _ => none

def decodeVector3 : List Json → Option WireValue
  | [x,y,z] => do
    return .vector3 (← decodeFiniteFloat numbers x) (← decodeFiniteFloat numbers y) (← decodeFiniteFloat numbers z)
  | _ => none

def decodeColor3 : List Json → Option WireValue
  | [r,g,b] => do
    return .color3 (← decodeFiniteFloat numbers r) (← decodeFiniteFloat numbers g) (← decodeFiniteFloat numbers b)
  | _ => none

def decodeUDim (scale offset : Json) : Option WireUDim := do
  return ⟨← decodeFiniteFloat numbers scale,← decodeSignedInt32 offset⟩

def decodeUDims : List Json → Option WireValue
  | [scale,offset] => do return .uDim (← decodeUDim numbers scale offset)
  | _ => none

def decodeUDim2 : List Json → Option WireValue
  | [xScale,xOffset,yScale,yOffset] => do
    return .uDim2 (← decodeUDim numbers xScale xOffset) (← decodeUDim numbers yScale yOffset)
  | _ => none

def decodeCFrame (values : List Json) : Option WireValue := do
  let components ← values.mapM (decodeFiniteFloat numbers)
  if twelve : components.length = 12 then some (.cFrame ⟨components,twelve⟩) else none

def decodeString (value : ByteString) : Option WireValue :=
  if validateWireText value maximumProtocolStringBytes then some (.string value) else none

def decodeEnumItem (enumType item : ByteString) : Option WireValue :=
  if validateWireText enumType maximumProtocolIdentifierBytes &&
      validateWireText item maximumProtocolIdentifierBytes then some (.enumItem enumType item) else none

def decodeSchemaEnum (id : ByteString) (version : Nat) (value : Json) : Option WireValue := do
  let id ← SchemaId.parse id
  let item ← decodeSignedInt32 value
  if version > 0 ∧ version ≤ 2 ^ 32 - 1 then some (.schemaEnum id (UInt32.ofNat version) item) else none

/-- The value of an object of a type other than `Null`. -/
def decodeTyped (fields : List (ByteString × Json)) (type : ByteString) (value : Json) : Option WireValue :=
  let plain (decoded : Option WireValue) : Option WireValue :=
    if Json.hasOnlyFields fields ["Type","Value"] && fields.length == 2 then decoded else none
  if type = ascii "Bool" then plain (value.boolean?.map .boolean)
  else if type = ascii "Int" then plain ((decodeSignedInt32 value).map .integer)
  else if type = ascii "Double" then plain ((decodeFiniteDouble numbers value).map .double)
  else if type = ascii "Float" then plain ((decodeFiniteFloat numbers value).map .float)
  else if type = ascii "String" then plain (value.string?.bind decodeString)
  else if type = ascii "Vector2" then plain (value.array?.bind (decodeVector2 numbers))
  else if type = ascii "Vector3" then plain (value.array?.bind (decodeVector3 numbers))
  else if type = ascii "Color3" then plain (value.array?.bind (decodeColor3 numbers))
  else if type = ascii "UDim" then plain (value.array?.bind (decodeUDims numbers))
  else if type = ascii "UDim2" then plain (value.array?.bind (decodeUDim2 numbers))
  else if type = ascii "CFrame" then plain (value.array?.bind (decodeCFrame numbers))
  else if type = ascii "EnumItem" then
    if Json.hasOnlyFields fields ["Type","Enum","Value"] && fields.length == 3 then do
      decodeEnumItem (← (← Json.field? fields "Enum").string?) (← value.string?)
    else none
  else if type = ascii "SchemaEnum" then
    if Json.hasOnlyFields fields ["Type","SchemaId","DefinitionVersion","Value"] && fields.length == 4 then do
      decodeSchemaEnum (← (← Json.field? fields "SchemaId").string?)
        (← (← Json.field? fields "DefinitionVersion").unsigned?) value
    else none
  else if type = ascii "ObjectReference" then plain ((decodeObjectId value).map .objectReference)
  else none

def decodeWireValue (encoded : Json) : Option WireValue := do
  let fields ← encoded.object?
  let type ← (← Json.field? fields "Type").string?
  if !validateWireText type 32 then none
  else if type = ascii "Null" then
    if Json.hasOnlyFields fields ["Type"] && fields.length == 1 then some .nil else none
  else decodeTyped numbers fields type (← Json.field? fields "Value")

end

end JsonCodec
end Gargantuan
