import Mathlib.Data.List.Lex
import Gargantuan.Identity

/-!
Values that Remote calls and replicated properties carry, and the checks every
value passes before it is sent or accepted. Floating point values are kept as
their bit patterns: the protocol only copies them and asks whether they are
finite.
-/
namespace Gargantuan

/-- The bytes of a `std::string`. -/
abbrev ByteString := List UInt8

/-- Characters are ordered by their numbers, and strings by the first that differs. -/
instance byteOrder : LinearOrder UInt8 where
  le_refl _ := UInt8.le_refl _
  le_trans _ _ _ := UInt8.le_trans
  le_antisymm _ _ := UInt8.le_antisymm
  le_total := UInt8.le_total
  lt_iff_le_not_ge a b := by
    rw [UInt8.not_le]
    exact ⟨fun less => ⟨UInt8.le_of_lt less,less⟩,And.right⟩
  toDecidableLE := inferInstance

/-- The bytes of an ASCII literal of the source. -/
def ascii (text : String) : ByteString := text.toList.map fun c => c.toNat.toUInt8

structure SchemaId where
  high : UInt64 := 0
  low : UInt64 := 0
deriving DecidableEq, Repr

def SchemaId.isValid (id : SchemaId) : Bool := id.high != 0 || id.low != 0

/-- A single-precision value by its bits. -/
structure Float32Bits where
  bits : UInt32
deriving DecidableEq, Repr

/-- A double-precision value by its bits. -/
structure Float64Bits where
  bits : UInt64
deriving DecidableEq, Repr

/-- Infinities and NaNs are the values whose exponent bits are all set. -/
def Float32Bits.isFinite (x : Float32Bits) : Bool := x.bits &&& 0x7f800000 != 0x7f800000

def Float64Bits.isFinite (x : Float64Bits) : Bool := x.bits &&& 0x7ff0000000000000 != 0x7ff0000000000000

structure WireUDim where
  scale : Float32Bits
  offset : Int32
deriving DecidableEq

/-- The alternatives of the wire variant in tag order. -/
inductive WireValue where
  | nil
  | boolean (value : Bool)
  | integer (value : Int32)
  | double (value : Float64Bits)
  | float (value : Float32Bits)
  | string (value : ByteString)
  | vector2 (x y : Float32Bits)
  | vector3 (x y z : Float32Bits)
  | color3 (r g b : Float32Bits)
  | uDim (value : WireUDim)
  | uDim2 (x y : WireUDim)
  | cFrame (components : { c : List Float32Bits // c.length = 12 })
  | enumItem (enumType item : ByteString)
  | schemaEnum (enumSchemaId : SchemaId) (definitionVersion : UInt32) (itemValue : Int32)
  | objectReference (object : ObjectId)
deriving DecidableEq

def maximumProtocolStringBytes : Nat := 64 * 1024
def maximumProtocolIdentifierBytes : Nat := 256

private def isContinuation (b : UInt8) : Bool := b &&& 0xc0 == 0x80

private def extend (codePoint : UInt32) (b : UInt8) : UInt32 := (codePoint <<< 6) ||| (b &&& 0x3f).toUInt32

private def isScalar (minimum codePoint : UInt32) : Bool :=
  !(codePoint < minimum || codePoint > 0x10ffff || (codePoint >= 0xd800 && codePoint <= 0xdfff))

/-- Scalar by scalar decoding. The source skips eight ASCII bytes at a time,
    each of which is one valid scalar here. -/
def isValidProtocolUtf8 : ByteString → Bool
  | [] => true
  | first :: rest =>
    if first ≤ 0x7f then isValidProtocolUtf8 rest
    else if first &&& 0xe0 == 0xc0 then
      match rest with
      | b :: rest' => isContinuation b && isScalar 0x80 (extend (first &&& 0x1f).toUInt32 b) && isValidProtocolUtf8 rest'
      | [] => false
    else if first &&& 0xf0 == 0xe0 then
      match rest with
      | b :: c :: rest' =>
        isContinuation b && isContinuation c &&
          isScalar 0x800 (extend (extend (first &&& 0x0f).toUInt32 b) c) && isValidProtocolUtf8 rest'
      | _ => false
    else if first &&& 0xf8 == 0xf0 then
      match rest with
      | b :: c :: d :: rest' =>
        isContinuation b && isContinuation c && isContinuation d &&
          isScalar 0x10000 (extend (extend (extend (first &&& 0x07).toUInt32 b) c) d) && isValidProtocolUtf8 rest'
      | _ => false
    else false

/-- The first failed check names itself after the described field. -/
def validateProtocolString (value : ByteString) (maximumBytes : Nat) (description : String) : Except String Unit :=
  if value.length > maximumBytes then .error (description ++ " exceeds its byte limit")
  else if value.contains 0 then .error (description ++ " contains an embedded null")
  else if !isValidProtocolUtf8 value then .error (description ++ " is not valid UTF-8")
  else .ok ()

def require (check : Bool) (message : String) : Except String Unit :=
  if check then .ok () else .error message

def validateProtocolWireValue : WireValue → Except String Unit
  | .nil | .boolean _ | .integer _ => .ok ()
  | .double x => require x.isFinite "Wire double must be finite"
  | .float x => require x.isFinite "Wire float must be finite"
  | .string s => validateProtocolString s maximumProtocolStringBytes "Wire string"
  | .vector2 x y => require (x.isFinite && y.isFinite) "Wire Vector2 must be finite"
  | .vector3 x y z => require (x.isFinite && y.isFinite && z.isFinite) "Wire Vector3 must be finite"
  | .color3 r g b => require (r.isFinite && g.isFinite && b.isFinite) "Wire Color3 must be finite"
  | .uDim d => require d.scale.isFinite "Wire UDim must be finite"
  | .uDim2 x y => require (x.scale.isFinite && y.scale.isFinite) "Wire UDim2 must be finite"
  | .cFrame c => require (c.val.all Float32Bits.isFinite) "Wire CFrame must be finite"
  | .enumItem enumType item => do
    validateProtocolString enumType maximumProtocolIdentifierBytes "Wire enum type"
    validateProtocolString item maximumProtocolIdentifierBytes "Wire enum item"
  | .schemaEnum id version _ =>
    require (id.isValid && version != 0) "Wire schema enum identity or version is invalid"
  | .objectReference object => require object.isValid "Wire object reference identity is invalid"

def WireValue.isValid (value : WireValue) : Bool := (validateProtocolWireValue value).isOk

theorem validateProtocolString_ok {value : ByteString} {maximum : Nat} {description : String}
    (accepted : validateProtocolString value maximum description = .ok ()) :
    value.length ≤ maximum ∧ isValidProtocolUtf8 value := by
  simp only [validateProtocolString] at accepted
  split_ifs at accepted with long null invalid
  exact ⟨by omega,by simpa using invalid⟩

theorem WireValue.isValid_iff {value : WireValue} : value.isValid ↔ validateProtocolWireValue value = .ok () := by
  unfold isValid
  cases validateProtocolWireValue value <;> simp [Except.isOk,Except.toBool]

end Gargantuan
