import Gargantuan.WireCodec

/-!
How the glTF importer reads an accessor out of the buffers: the sizes come from the document, the
arithmetic is that of `size_t`, and the guards stand where the source has them. What is read is
compared with the ranges in unbounded numbers. The conversions to doubles are parameters.
-/
namespace Gargantuan.Gltf
open JsonCodec List Option Nat Except

/-- The code and the message of a diagnostic. -/
abbrev Diagnostic := String × String

def plus (a b : Nat) : Nat := (a + b) % 2 ^ 64
def times (a b : Nat) : Nat := a * b % 2 ^ 64
def minus (a b : Nat) : Nat := (a + 2 ^ 64 - b) % 2 ^ 64

/-- The bytes of a vector, whose size is a `size_t`. -/
abbrev Buffer := { bytes : List UInt8 // bytes.length < 2 ^ 64 }

structure Doubles where
  Double : Type
  ofInt : Int → Double
  /-- A quotient, and the greater of it and minus one. -/
  quotient : Int → Nat → Double
  clamped : Int → Nat → Double
  ofFloat : Nat → Double

section
variable (κ : Doubles)

def refuse (check : Prop) [Decidable check] (code message : String) : Except Diagnostic Unit :=
  if check then .error (code,message) else .ok ()

def demand {α : Type} (x : Option α) (code message : String) : Except Diagnostic α :=
  match x with
  | some a => .ok a
  | none => .error (code,message)

/-- A number of the document that a `size_t` holds. -/
def unsigned (value : Json) : Option Nat := value.unsigned?.filter (· < 2 ^ 64)

def numberOf (fields : List (ByteString × Json)) (name : String) : Option Nat :=
  (Json.field? fields name).bind unsigned

def numberOr (fields : List (ByteString × Json)) (name : String) (default : Nat) : Option Nat :=
  match Json.field? fields name with
  | some value => unsigned value
  | none => some default

def arrayOf (root : Json) (name : String) : Option (List Json) :=
  root.object?.bind fun fields => (Json.field? fields name).bind Json.array?

def maximumMeshIndices : Nat := 1048576
def maximumGltfAccessors : Nat := 4096
def maximumGltfBufferViews : Nat := 4096

def componentSize (type : Nat) : Nat :=
  if type = 5120 ∨ type = 5121 then 1 else if type = 5122 ∨ type = 5123 then 2
  else if type = 5125 ∨ type = 5126 then 4 else 0

def componentCount (type : String) : Nat :=
  if type = "SCALAR" then 1 else if type = "VEC2" then 2 else if type = "VEC3" then 3
  else if type = "VEC4" then 4 else if type = "MAT4" then 16 else 0

def readU32 (bytes : List UInt8) (offset : Nat) : Option Nat :=
  if offset > bytes.length ∨ minus bytes.length offset < 4 then none
  else
    let byte := fun i => (bytes.getD (plus offset i) 0).toNat
    some (byte 0 ||| byte 1 <<< 8 ||| byte 2 <<< 16 ||| byte 3 <<< 24)

/-- The number that bits write in two's complement. -/
def signed (width bits : Nat) : Int := if bits < 2 ^ (width - 1) then bits else bits - 2 ^ width

def readComponent (bytes : List UInt8) (offset type : Nat) (normalized : Bool) : Except Diagnostic κ.Double := do
  refuse (offset > bytes.length ∨ componentSize type > minus bytes.length offset)
    "AccessorOutOfRange" "glTF accessor component is out of range"
  let byte := fun i => (bytes.getD (plus offset i) 0).toNat
  let raw := byte 0 ||| byte 1 <<< 8
  if type = 5120 then
    .ok (if normalized then κ.clamped (signed 8 (byte 0)) 127 else κ.ofInt (signed 8 (byte 0)))
  else if type = 5121 then .ok (if normalized then κ.quotient (byte 0) 255 else κ.ofInt (byte 0))
  else if type = 5122 then
    .ok (if normalized then κ.clamped (signed 16 raw) 32767 else κ.ofInt (signed 16 raw))
  else if type = 5123 then .ok (if normalized then κ.quotient raw 65535 else κ.ofInt raw)
  else if type = 5125 then
    let value ← demand (readU32 bytes offset) "AccessorOutOfRange" "glTF uint accessor is out of range"
    .ok (κ.ofInt value)
  else if type = 5126 then
    let raw ← demand (readU32 bytes offset) "AccessorOutOfRange" "glTF float accessor is out of range"
    -- The exponent of a float that is infinite or no number has all its bits set.
    refuse (raw / 2 ^ 23 % 2 ^ 8 = 255) "NonFiniteGltf" "glTF accessor contains NaN or infinity"
    .ok (κ.ofFloat raw)
  else .error ("UnsupportedAccessor","glTF accessor component type is unsupported")

structure Description where
  viewOffset : Nat
  viewLength : Nat
  accessorOffset : Nat
  count : Nat
  stride : Option Nat
  componentType : Nat
  componentBytes : Nat
  components : Nat
  buffer : Nat
  normalized : Option Json

def describe (root : Json) (accessorIndex : Nat) (expectedType : String) (requiredComponent : Option Nat) :
    Except Diagnostic Description := do
  let accessors ← demand (arrayOf root "accessors") "InvalidAccessor" "glTF accessor index is invalid"
  refuse (accessors.length > maximumGltfAccessors) "InvalidAccessor" "glTF accessor index is invalid"
  let accessor ← demand accessors[accessorIndex]? "InvalidAccessor" "glTF accessor index is invalid"
  let shape := "glTF accessor shape or sparse storage is unsupported"
  let accessor ← demand accessor.object? "UnsupportedAccessor" shape
  let has := fun name => (Json.field? accessor name).isSome
  refuse (has "sparse" ∨ ¬ has "bufferView" ∨ ¬ has "componentType" ∨ ¬ has "count") "UnsupportedAccessor" shape
  let type ← demand ((Json.field? accessor "type").bind Json.string?) "UnsupportedAccessor" shape
  refuse (type ≠ ascii expectedType) "UnsupportedAccessor" shape
  let metadata := "glTF accessor metadata is invalid"
  let viewIndex ← demand (numberOf accessor "bufferView") "InvalidAccessor" metadata
  let count ← demand (numberOf accessor "count") "InvalidAccessor" metadata
  let component ← demand (numberOf accessor "componentType") "InvalidAccessor" metadata
  refuse (count = 0 ∨ count > maximumMeshIndices ∨ component > 2 ^ 32 - 1) "InvalidAccessor" metadata
  refuse (requiredComponent.any (· ≠ component)) "UnsupportedAccessor"
    "glTF accessor component type does not match the supported semantic"
  let normalized := Json.field? accessor "normalized"
  refuse (requiredComponent.isSome ∧ normalized.any (·.boolean? ≠ some false)) "InvalidAccessor"
    "glTF float geometry accessors cannot be normalized"
  let componentBytes := componentSize component
  let components := componentCount expectedType
  refuse (componentBytes = 0 ∨ components = 0) "UnsupportedAccessor"
    "glTF accessor component or vector type is unsupported"
  let views ← demand (arrayOf root "bufferViews") "InvalidBufferView" "glTF bufferView index is invalid"
  refuse (views.length > maximumGltfBufferViews) "InvalidBufferView" "glTF bufferView index is invalid"
  let view ← demand views[viewIndex]? "InvalidBufferView" "glTF bufferView index is invalid"
  let incomplete := "glTF bufferView metadata is incomplete"
  let view ← demand view.object? "InvalidBufferView" incomplete
  refuse ((Json.field? view "buffer").isNone ∨ (Json.field? view "byteLength").isNone) "InvalidBufferView" incomplete
  let range := "glTF bufferView range is invalid"
  let buffer ← demand (numberOf view "buffer") "InvalidBufferView" range
  let viewLength ← demand (numberOf view "byteLength") "InvalidBufferView" range
  let viewOffset ← demand (numberOr view "byteOffset" 0) "InvalidBufferView" range
  let accessorOffset ← demand (numberOr accessor "byteOffset" 0) "InvalidBufferView" range
  let stride := numberOr view "byteStride" (times componentBytes components)
  return { viewOffset, viewLength, accessorOffset, count, stride, componentType := component,
           componentBytes, components, buffer, normalized }

/-- The rest of `ReadAccessor`: the ranges, and the components one after the other. -/
def Description.read (m : Description) (buffers : List Buffer) : Except Diagnostic (List κ.Double) := do
  let buffer ← demand buffers[m.buffer]? "InvalidBufferView" "glTF bufferView range is invalid"
  refuse (m.viewOffset > buffer.1.length ∨ m.viewLength > minus buffer.1.length m.viewOffset) "InvalidBufferView"
    "glTF bufferView range is invalid"
  let elementBytes := times m.componentBytes m.components
  let invalid := "glTF accessor stride or offset is invalid"
  let stride ← demand m.stride "InvalidAccessor" invalid
  refuse (stride < elementBytes ∨ stride > 252 ∨ m.accessorOffset > m.viewLength) "InvalidAccessor" invalid
  refuse (minus m.count 1 > minus (2 ^ 64 - 1) elementBytes / stride) "GltfOverflow" "glTF accessor range overflows"
  let requiredBytes := plus (times (minus m.count 1) stride) elementBytes
  refuse (requiredBytes > minus m.viewLength m.accessorOffset) "AccessorOutOfRange"
    "glTF accessor exceeds its bufferView"
  refuse (m.normalized.any (·.boolean?.isNone)) "InvalidAccessor" "glTF accessor normalized flag must be boolean"
  let normalized := (m.normalized.bind Json.boolean?).getD false
  refuse (m.count > (2 ^ 64 - 1) / m.components) "GltfOverflow" "glTF accessor element count overflows"
  let start := plus m.viewOffset m.accessorOffset
  let offsets := (List.range m.count).flatMap fun element => (List.range m.components).map fun component =>
    plus (plus start (times element stride)) (times component m.componentBytes)
  offsets.mapM fun offset => readComponent κ buffer.1 offset m.componentType normalized

def readAccessor (root : Json) (buffers : List Buffer) (accessorIndex : Nat) (expectedType : String)
    (requiredComponent : Option Nat) : Except Diagnostic (List κ.Double) := do
  let m ← describe root accessorIndex expectedType requiredComponent
  m.read κ buffers

def describeView (root : Json) (viewIndex : Nat) : Except Diagnostic (Nat × Nat × Nat) := do
  let views ← demand (arrayOf root "bufferViews") "InvalidBufferView" "glTF image bufferView index is invalid"
  let view ← demand views[viewIndex]? "InvalidBufferView" "glTF image bufferView index is invalid"
  let incomplete := "glTF image bufferView is incomplete"
  let view ← demand view.object? "InvalidBufferView" incomplete
  refuse ((Json.field? view "buffer").isNone ∨ (Json.field? view "byteLength").isNone) "InvalidBufferView" incomplete
  let range := "glTF image bufferView range is invalid"
  let index ← demand (numberOf view "buffer") "InvalidBufferView" range
  let length ← demand (numberOf view "byteLength") "InvalidBufferView" range
  let offset ← demand (numberOr view "byteOffset" 0) "InvalidBufferView" range
  return (index,offset,length)

def bufferViewBytes (root : Json) (buffers : List Buffer) (viewIndex : Nat) : Except Diagnostic (List UInt8) := do
  let (index,offset,length) ← describeView root viewIndex
  let range := "glTF image bufferView range is invalid"
  let buffer ← demand buffers[index]? "InvalidBufferView" range
  refuse (offset > buffer.1.length ∨ length > minus buffer.1.length offset) "InvalidBufferView" range
  return (buffer.1.drop offset).take length

/-! ### The ranges in unbounded numbers -/

variable {β : Type} {α : Type} {value : β}

theorem bind_ok {x : Except Diagnostic α} {next : α → Except Diagnostic β} :
    (x >>= next) = .ok value ↔ ∃ a, x = .ok a ∧ next a = .ok value := by
  cases x with
  | error => simp [bind,Except.bind]
  | ok a => simp [bind,Except.bind]

theorem refuse_bind {check : Prop} [Decidable check] {code message : String}
    {next : Unit → Except Diagnostic β} :
    (refuse check code message >>= next) = .ok value ↔ ¬ check ∧ next () = .ok value := by
  unfold refuse
  split_ifs with h
  · simp [h,bind,Except.bind]
  · simp [h,bind,Except.bind]

theorem demand_bind {x : Option α} {code message : String} {next : α → Except Diagnostic β} :
    (demand x code message >>= next) = .ok value ↔ ∃ a, x = some a ∧ next a = .ok value := by
  cases x with
  | none => simp [demand,bind,Except.bind]
  | some a => simp [demand,bind,Except.bind]

theorem minus_eq {a b : Nat} (le : b ≤ a) (small : a < 2 ^ 64) : minus a b = a - b := by
  unfold minus
  omega

structure Description.Bounded (m : Description) : Prop where
  count : 0 < m.count ∧ m.count ≤ maximumMeshIndices
  bytes : m.componentBytes = componentSize m.componentType ∧ m.componentBytes ≠ 0
  components : m.components ≠ 0 ∧ m.components ≤ 16
  view : m.viewOffset < 2 ^ 64 ∧ m.viewLength < 2 ^ 64
  offset : m.accessorOffset < 2 ^ 64

variable {fields : List (ByteString × Json)}

theorem numberOr_lt {name : String} {n : Nat}
    (read : numberOr fields name 0 = some n) : n < 2 ^ 64 := by
  unfold numberOr at read
  split at read
  · simpa using (filter_eq_some_iff.mp read).2
  · cases read
    decide

theorem numberOf_lt {name : String} {n : Nat}
    (read : numberOf fields name = some n) : n < 2 ^ 64 := by
  obtain ⟨value,-,number⟩ := bind_eq_some_iff.mp read
  simpa using (filter_eq_some_iff.mp number).2

theorem componentSize_le (type : Nat) : componentSize type ≤ 4 := by
  unfold componentSize
  split_ifs <;> decide

theorem componentCount_le (type : String) : componentCount type ≤ 16 := by
  unfold componentCount
  split_ifs <;> decide

theorem describe_bounded {root : Json} {index : Nat} {type : String} {required : Option Nat} {m : Description}
    (described : describe root index type required = .ok m) : m.Bounded := by
  simp only [describe,refuse_bind,demand_bind] at described
  obtain ⟨_,-,-,_,-,_,-,-,_,-,-,_,-,count,hcount,component,-,numbers,-,-,sizes,_,-,-,_,-,_,-,
    -,_,-,length,hlength,offset,hoffset,start,hstart,made⟩ := described
  cases made
  simp only [not_or,not_lt] at numbers sizes
  exact ⟨⟨pos_of_ne_zero numbers.1,numbers.2.1⟩,⟨rfl,sizes.1⟩,⟨sizes.2,componentCount_le type⟩,
    ⟨numberOr_lt hoffset,numberOf_lt hlength⟩,numberOr_lt hstart⟩

structure Description.Fits (m : Description) (buffer : Buffer) (stride : Nat) : Prop where
  view : m.viewOffset + m.viewLength ≤ buffer.1.length
  step : m.componentBytes * m.components ≤ stride ∧ stride ≤ 252
  elements : m.accessorOffset + (m.count - 1) * stride + m.componentBytes * m.components ≤ m.viewLength

def Description.cells (m : Description) (stride : Nat) : List Nat :=
  (List.range m.count).flatMap fun element => (List.range m.components).map fun component =>
    m.viewOffset + m.accessorOffset + element * stride + component * m.componentBytes

def Description.flag (m : Description) : Option Bool :=
  match m.normalized with
  | some value => value.boolean?
  | none => some false

variable {κ} {m : Description} {buffer : Buffer} {stride : Nat}

theorem Description.Fits.cell (fits : m.Fits buffer stride) {o : Nat} (cell : o ∈ m.cells stride) :
    m.viewOffset + m.accessorOffset ≤ o ∧ o + m.componentBytes ≤ m.viewOffset + m.viewLength := by
  obtain ⟨element,first,inner⟩ := mem_flatMap.mp cell
  obtain ⟨component,second,rfl⟩ := mem_map.mp inner
  have below := mem_range.mp first
  have rows : element * stride ≤ (m.count - 1) * stride := mul_le_mul_right _ (by omega)
  have columns : (component + 1) * m.componentBytes ≤ m.components * m.componentBytes :=
    mul_le_mul_right _ (mem_range.mp second)
  have all := fits.elements
  rw [add_mul,one_mul] at columns
  rw [mul_comm m.components] at columns
  omega

theorem length_cells : (m.cells stride).length = m.count * m.components := by
  simp [Description.cells,length_flatMap]

theorem readComponent_cut {bytes : List UInt8} (small : bytes.length < 2 ^ 64) {o type : Nat} (normalized : Bool)
    (some : componentSize type ≠ 0) (inside : o + componentSize type ≤ bytes.length) :
    readComponent κ bytes o type normalized =
      readComponent κ ((bytes.drop o).take (componentSize type)) 0 type normalized := by
  have cut (i : Nat) (less : i < componentSize type) :
      bytes[plus o i]?.getD 0 = ((bytes.drop o).take (componentSize type))[plus 0 i]?.getD 0 := by
    have start : plus 0 i = i := by
      unfold plus
      omega
    have sum : plus o i = o + i := mod_eq_of_lt (by omega)
    simp [less,sum,start]
  have size : ((bytes.drop o).take (componentSize type)).length = componentSize type := by
    simp
    omega
  have room : ¬ (o > bytes.length ∨ componentSize type > minus bytes.length o) := by
    rw [minus_eq (by omega) small]
    omega
  have room' : ¬ (0 > componentSize type ∨ componentSize type > minus (componentSize type) 0) := by
    rw [minus_eq (by omega) (by omega)]
    omega
  have types : type = 5120 ∨ type = 5121 ∨ type = 5122 ∨ type = 5123 ∨ type = 5125 ∨ type = 5126 := by
    unfold componentSize at some
    split_ifs at some
    all_goals omega
  have word (four : componentSize type = 4) :
      readU32 bytes o = readU32 ((bytes.drop o).take (componentSize type)) 0 := by
    unfold readU32
    rw [size,if_neg (by omega),if_neg (by omega)]
    simp only [getD_eq_getElem?_getD]
    rw [cut 0 (by omega),cut 1 (by omega),cut 2 (by omega),cut 3 (by omega)]
  unfold readComponent
  rw [size]
  simp only [refuse,if_neg room,if_neg room',getD_eq_getElem?_getD]
  rcases types with rfl | rfl | rfl | rfl | rfl | rfl
  · simp only [cut 0 (by decide),reduceIte]
  · simp only [cut 0 (by decide),reduceIte,reduceEqDiff]
  · simp only [cut 0 (by decide),cut 1 (by decide),reduceIte,reduceEqDiff]
  · simp only [cut 0 (by decide),cut 1 (by decide),reduceIte,reduceEqDiff]
  · simp only [word rfl,reduceIte,reduceEqDiff]
  · simp only [word rfl,reduceIte,reduceEqDiff]

theorem Description.Bounded.unit (bounded : m.Bounded) :
    times m.componentBytes m.components = m.componentBytes * m.components ∧ 0 < m.componentBytes * m.components ∧
      m.componentBytes * m.components ≤ 64 := by
  have four : m.componentBytes ≤ 4 := bounded.bytes.1 ▸ componentSize_le _
  have size : m.componentBytes * m.components ≤ 4 * 16 := Nat.mul_le_mul four bounded.components.2
  refine ⟨Nat.mod_eq_of_lt (by omega),?_,size⟩
  exact Nat.mul_pos (Nat.pos_of_ne_zero bounded.bytes.2) (Nat.pos_of_ne_zero bounded.components.1)

theorem Description.Bounded.fits_iff (bounded : m.Bounded) :
    (¬ (m.viewOffset > buffer.1.length ∨ m.viewLength > minus buffer.1.length m.viewOffset) ∧
      ¬ (stride < times m.componentBytes m.components ∨ stride > 252 ∨ m.accessorOffset > m.viewLength) ∧
      ¬ minus m.count 1 > minus (2 ^ 64 - 1) (times m.componentBytes m.components) / stride ∧
      ¬ plus (times (minus m.count 1) stride) (times m.componentBytes m.components) >
        minus m.viewLength m.accessorOffset) ↔ m.Fits buffer stride := by
  obtain ⟨unit,positive,size⟩ := bounded.unit
  have small := buffer.2
  have view := bounded.view
  have count := bounded.count
  unfold maximumMeshIndices at count
  have one : minus m.count 1 = m.count - 1 := minus_eq count.1 (by omega)
  have most : minus (2 ^ 64 - 1) (m.componentBytes * m.components) = 2 ^ 64 - 1 - m.componentBytes * m.components :=
    minus_eq (by omega) (by omega)
  have rows (short : stride ≤ 252) : (m.count - 1) * stride ≤ 1048576 * 252 := Nat.mul_le_mul (by omega) short
  have total (short : stride ≤ 252) : plus (times (m.count - 1) stride) (m.componentBytes * m.components) =
      (m.count - 1) * stride + m.componentBytes * m.components := by
    have few := rows short
    unfold plus times
    rw [Nat.mod_eq_of_lt (by omega),Nat.mod_eq_of_lt (by omega)]
  rw [unit,one,most]
  constructor
  · rintro ⟨inside,shape,-,required⟩
    rw [not_or,Nat.not_lt] at inside
    rw [minus_eq inside.1 small] at inside
    rw [minus_eq (by omega) view.2,total (by omega)] at required
    exact ⟨by omega,by omega,by omega⟩
  · rintro ⟨inside,shape,all⟩
    have few := rows shape.2
    have under : m.count - 1 ≤ (2 ^ 64 - 1 - m.componentBytes * m.components) / stride :=
      (Nat.le_div_iff_mul_le (by omega)).mpr (by omega)
    rw [minus_eq (b := m.viewOffset) (by omega) small,minus_eq (by omega) view.2,total shape.2]
    omega

theorem Description.Fits.offsets (fits : m.Fits buffer stride) :
    ((List.range m.count).flatMap fun element => (List.range m.components).map fun component =>
      plus (plus (plus m.viewOffset m.accessorOffset) (times element stride)) (times component m.componentBytes)) =
      m.cells stride := by
  have small := buffer.2
  have view := fits.view
  refine flatMap_congr fun element first => map_congr_left fun component second => ?_
  have cell := fits.cell (mem_flatMap.mpr ⟨element,first,mem_map.mpr ⟨component,second,rfl⟩⟩)
  unfold plus times
  rw [mod_eq_of_lt (a := element * stride) (by omega),mod_eq_of_lt (a := component * _) (by omega),
    mod_eq_of_lt (a := m.viewOffset + _) (by omega),mod_eq_of_lt (a := _ + element * stride) (by omega),
    mod_eq_of_lt (by omega)]

theorem flag_iff {normalized : Bool} :
    m.flag = some normalized ↔ ¬ m.normalized.any (·.boolean?.isNone) ∧
      (m.normalized.bind Json.boolean?).getD false = normalized := by
  unfold Description.flag
  rcases m.normalized with _ | value
  · simp
  · cases h : value.boolean? <;> simp [h]

theorem mapM_congr {f g : α → Except Diagnostic β} {l : List α} (same : ∀ a ∈ l, f a = g a) :
    l.mapM f = l.mapM g := by
  induction l with
  | nil => rfl
  | cons a l ih =>
    rw [mapM_cons,mapM_cons,same a (by simp),ih fun b member => same b (by simp [member])]

theorem read_iff (bounded : m.Bounded) {buffers : List Buffer} {values : List κ.Double} :
    m.read κ buffers = .ok values ↔ ∃ buffer stride normalized, buffers[m.buffer]? = some buffer ∧
      m.stride = some stride ∧ m.flag = some normalized ∧ m.Fits buffer stride ∧
      (m.cells stride).mapM (fun o => readComponent κ ((buffer.1.drop o).take m.componentBytes) 0 m.componentType
        normalized) = .ok values := by
  have own {buffer : Buffer} {stride : Nat} {normalized : Bool} (fits : m.Fits buffer stride) :
      (m.cells stride).mapM (fun o => readComponent κ buffer.1 o m.componentType normalized) =
        (m.cells stride).mapM fun o => readComponent κ ((buffer.1.drop o).take m.componentBytes) 0 m.componentType
          normalized := by
    refine mapM_congr fun o cell => ?_
    have inside := fits.cell cell
    have view := fits.view
    obtain ⟨bytes,some⟩ := bounded.bytes
    rw [bytes] at inside some ⊢
    exact readComponent_cut buffer.2 normalized some (by omega)
  have few : ¬ m.count > (2 ^ 64 - 1) / m.components := by
    have count := bounded.count
    unfold maximumMeshIndices at count
    have all : m.count * m.components ≤ 1048576 * 16 := Nat.mul_le_mul count.2 bounded.components.2
    rw [Nat.not_lt,Nat.le_div_iff_mul_le (Nat.pos_of_ne_zero bounded.components.1)]
    omega
  simp only [Description.read,refuse_bind,demand_bind]
  constructor
  · rintro ⟨buffer,found,view,stride,step,shape,overflow,required,flag,-,run⟩
    have fits := bounded.fits_iff.mp ⟨view,shape,overflow,required⟩
    rw [fits.offsets,own fits] at run
    exact ⟨buffer,stride,_,found,step,flag_iff.mpr ⟨flag,rfl⟩,fits,run⟩
  · rintro ⟨buffer,stride,normalized,found,step,flag,fits,run⟩
    obtain ⟨view,shape,overflow,required⟩ := bounded.fits_iff.mpr fits
    obtain ⟨valid,rfl⟩ := flag_iff.mp flag
    refine ⟨buffer,found,view,stride,step,shape,overflow,required,valid,few,?_⟩
    rwa [fits.offsets,own fits]

theorem length_mapM {f : α → Except Diagnostic β} {l : List α} {values : List β}
    (run : l.mapM f = .ok values) : values.length = l.length := by
  induction l generalizing values with
  | nil =>
    cases run
    rfl
  | cons a l ih =>
    rw [mapM_cons] at run
    obtain ⟨_,-,run⟩ := bind_ok.mp run
    obtain ⟨_,more,made⟩ := bind_ok.mp run
    cases made
    exact congrArg succ (ih more)

/-- Reading an accessor succeeds exactly when the numbers of the document describe ranges that fit; it gives the
    components of those ranges, each read from its own bytes, which are in the view. A view gives exactly its bytes. -/
theorem readAccessor_iff (root : Json) (buffers : List Buffer) (index : Nat) (type : String) (required : Option Nat) :
    (∀ values, readAccessor κ root buffers index type required = .ok values ↔
      ∃ m, describe root index type required = .ok m ∧ ∃ buffer stride normalized,
        buffers[m.buffer]? = some buffer ∧ m.stride = some stride ∧ m.flag = some normalized ∧ m.Fits buffer stride ∧
        values.length = m.count * m.components ∧
        (∀ o ∈ m.cells stride, m.viewOffset ≤ o ∧ o + m.componentBytes ≤ m.viewOffset + m.viewLength) ∧
        (m.cells stride).mapM (fun o => readComponent κ ((buffer.1.drop o).take m.componentBytes) 0 m.componentType
          normalized) = .ok values) ∧
    ∀ bytes, bufferViewBytes root buffers index = .ok bytes ↔ ∃ view, describeView root index = .ok view ∧
      ∃ buffer, buffers[view.1]? = some buffer ∧ view.2.1 + view.2.2 ≤ buffer.1.length ∧
        bytes = (buffer.1.drop view.2.1).take view.2.2 := by
  refine ⟨fun values => ?_,fun bytes => ?_⟩
  · unfold readAccessor
    rcases described : describe root index type required with error | m
    · simp [bind,Except.bind]
    · refine (read_iff (describe_bounded described)).trans ⟨?_,?_⟩
      · rintro ⟨buffer,stride,normalized,found,step,flag,fits,run⟩
        refine ⟨m,rfl,buffer,stride,normalized,found,step,flag,fits,?_,fun o cell => ?_,run⟩
        · rw [length_mapM run,length_cells]
        · have inside := fits.cell cell
          exact ⟨by omega,inside.2⟩
      · rintro ⟨m',same,buffer,stride,normalized,found,step,flag,fits,-,-,run⟩
        cases same
        exact ⟨buffer,stride,normalized,found,step,flag,fits,run⟩
  · unfold bufferViewBytes
    rcases described : describeView root index with error | ⟨number,offset,length⟩
    · simp [bind,Except.bind]
    · change (demand buffers[number]? _ _ >>= fun buffer => refuse _ _ _ >>= fun _ =>
        .ok ((buffer.1.drop offset).take length)) = _ ↔ _
      simp only [demand_bind,refuse_bind]
      constructor
      · rintro ⟨buffer,found,inside,made⟩
        rw [not_or,Nat.not_lt] at inside
        rw [minus_eq inside.1 buffer.2] at inside
        cases made
        exact ⟨_,rfl,buffer,found,by dsimp only; omega,rfl⟩
      · rintro ⟨view,same,buffer,found,inside,rfl⟩
        cases same
        dsimp only at inside
        refine ⟨buffer,found,?_,rfl⟩
        rw [minus_eq (by omega) buffer.2]
        omega

end
end Gargantuan.Gltf
