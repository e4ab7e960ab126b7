import Gargantuan.WireValue

/-!
The little-endian writer and reader of the game protocol. A write either appends
all of its bytes or fails for good, so a writer that succeeded holds the
concatenation of what was written (`Writes`); `Reads` states that a reader
consumes exactly those bytes again.
-/
namespace Gargantuan
open List WireValue Pure

def littleEndian : Nat → Nat → List UInt8
  | 0, _ => []
  | width + 1, n => (n % 256).toUInt8 :: littleEndian width (n / 256)

def ofLittleEndian : List UInt8 → Nat
  | [] => 0
  | b :: rest => b.toNat + 256 * ofLittleEndian rest

@[simp] theorem length_littleEndian (width n : Nat) : (littleEndian width n).length = width := by
  induction width generalizing n with
  | zero => rfl
  | succ width ih => simp [littleEndian,ih]

theorem ofLittleEndian_littleEndian {width n : Nat} (fits : n < 256 ^ width) :
    ofLittleEndian (littleEndian width n) = n := by
  induction width generalizing n with
  | zero => simp only [Nat.pow_zero] at fits; simp [littleEndian,ofLittleEndian]; omega
  | succ width ih =>
    have upper : n / 256 < 256 ^ width := by
      rw [Nat.div_lt_iff_lt_mul (by decide)]; rwa [Nat.pow_succ] at fits
    have low : ((n % 256).toUInt8).toNat = n % 256 := by
      rw [UInt8.toNat_ofNat']
      omega
    rw [littleEndian,ofLittleEndian,ih upper]
    omega

/-! ### Writing -/

structure GameBinaryWriter where
  maximumBytes : Nat
  bytes : List UInt8 := []
  failed : Bool := false

variable {value : ByteString}

namespace GameBinaryWriter

def append (w : GameBinaryWriter) (value : List UInt8) : GameBinaryWriter :=
  if w.failed || w.bytes.length > w.maximumBytes || value.length > w.maximumBytes - w.bytes.length then
    { w with failed := true }
  else { w with bytes := w.bytes ++ value }

def succeeded (w : GameBinaryWriter) : Bool := !w.failed

/-- An integer of the given number of bytes. -/
def integer (w : GameBinaryWriter) (width n : Nat) : GameBinaryWriter := w.append (littleEndian width n)

def float (w : GameBinaryWriter) (x : Float32Bits) : GameBinaryWriter := w.integer 4 x.bits.toNat
def double (w : GameBinaryWriter) (x : Float64Bits) : GameBinaryWriter := w.integer 8 x.bits.toNat
def signed (w : GameBinaryWriter) (x : Int32) : GameBinaryWriter := w.integer 4 x.toUInt32.toNat

/-- The length and the bytes, checked together. -/
def string (w : GameBinaryWriter) (value : ByteString) : GameBinaryWriter :=
  if value.length > 0xffffffff then w else w.append (littleEndian 4 value.length ++ value)

def objectId (w : GameBinaryWriter) {domain : Type} (id : GenerationalId domain) : GameBinaryWriter :=
  (w.integer 4 id.slot.toNat).integer 4 id.generation.toNat

def schemaId (w : GameBinaryWriter) (id : SchemaId) : GameBinaryWriter :=
  (w.integer 8 id.high.toNat).integer 8 id.low.toNat

/-- The index of the variant's alternative. -/
def tagOf : WireValue → Nat
  | .nil => 0
  | .boolean _ => 1
  | .integer _ => 2
  | .double _ => 3
  | .float _ => 4
  | .string _ => 5
  | .vector2 .. => 6
  | .vector3 .. => 7
  | .color3 .. => 8
  | .uDim _ => 9
  | .uDim2 .. => 10
  | .cFrame _ => 11
  | .enumItem .. => 12
  | .schemaEnum .. => 13
  | .objectReference _ => 14

def wireValue (w : GameBinaryWriter) (value : WireValue) : GameBinaryWriter :=
  let w := w.integer 1 (tagOf value)
  match value with
  | .nil => w
  | .boolean b => w.integer 1 (if b then 1 else 0)
  | .integer n => w.signed n
  | .double x => w.double x
  | .float x => w.float x
  | .string s => w.string s
  | .vector2 x y => (w.float x).float y
  | .vector3 x y z => ((w.float x).float y).float z
  | .color3 r g b => ((w.float r).float g).float b
  | .uDim d => (w.float d.scale).signed d.offset
  | .uDim2 x y => (((w.float x.scale).signed x.offset).float y.scale).signed y.offset
  | .cFrame components => components.val.foldl float w
  | .enumItem enumType item => (w.string enumType).string item
  | .schemaEnum id version item => ((w.schemaId id).integer 4 version.toNat).signed item
  | .objectReference object => w.objectId object

structure Writes (w w' : GameBinaryWriter) (written : List UInt8) : Prop where
  ofSucceeded : w'.failed = false → w.failed = false ∧ w'.bytes = w.bytes ++ written
  limit : w'.maximumBytes = w.maximumBytes
  within : w.bytes.length ≤ w.maximumBytes → w'.bytes.length ≤ w'.maximumBytes

variable (w : GameBinaryWriter)

theorem Writes.nothing : Writes w w [] := ⟨fun ok => ⟨ok,by simp⟩,rfl,id⟩

variable {a b c : GameBinaryWriter} {first second : List UInt8}

theorem Writes.trans (left : Writes a b first) (right : Writes b c second) : Writes a c (first ++ second) := by
  refine ⟨fun ok => ?_,right.limit.trans left.limit,fun start => right.within (left.within start)⟩
  obtain ⟨okB,bytesC⟩ := right.ofSucceeded ok
  obtain ⟨okA,bytesB⟩ := left.ofSucceeded okB
  exact ⟨okA,by rw [bytesC,bytesB,append_assoc]⟩

theorem writes_append (value : List UInt8) : Writes w (w.append value) value := by
  simp only [append]
  split_ifs with stop
  · exact ⟨fun ok => absurd ok nofun,rfl,id⟩
  · simp only [Bool.or_eq_true,decide_eq_true_eq,not_or,not_lt,Bool.not_eq_true] at stop
    refine ⟨fun _ => ⟨stop.1.1,rfl⟩,rfl,fun _ => ?_⟩
    simp only [length_append]
    omega

@[simp] theorem maximumBytes_append (value : List UInt8) : (w.append value).maximumBytes = w.maximumBytes := by
  simp only [append]
  split_ifs <;> rfl

theorem length_append_le {w : GameBinaryWriter} {value : List UInt8} (ok : (w.append value).failed = false) :
    (w.append value).bytes.length ≤ w.maximumBytes := by
  simp only [append] at ok ⊢
  split_ifs at ok ⊢ with stop
  simp only [Bool.or_eq_true,decide_eq_true_eq,not_or,not_lt] at stop
  simp only [length_append]
  omega

structure Appends (w w' : GameBinaryWriter) (written : List UInt8) : Prop where
  ofRoom : w.failed = false → w.bytes.length + written.length ≤ w.maximumBytes →
    w'.failed = false ∧ w'.bytes = w.bytes ++ written ∧ w'.maximumBytes = w.maximumBytes

theorem Appends.nothing : Appends w w [] := ⟨fun ok _ => ⟨ok,by simp,rfl⟩⟩

theorem Appends.trans (left : Appends a b first) (right : Appends b c second) : Appends a c (first ++ second) := by
  refine ⟨fun ok room => ?_⟩
  rw [length_append] at room
  obtain ⟨okB,bytesB,limitB⟩ := left.ofRoom ok (by omega)
  have roomB : b.bytes.length + second.length ≤ b.maximumBytes := by
    rw [bytesB,length_append]
    omega
  obtain ⟨okC,bytesC,limitC⟩ := right.ofRoom okB roomB
  exact ⟨okC,by rw [bytesC,bytesB,append_assoc],limitC.trans limitB⟩

theorem appends_append (value : List UInt8) : Appends w (w.append value) value := by
  refine ⟨fun ok room => ?_⟩
  have fits : ¬ ((w.failed || w.bytes.length > w.maximumBytes || value.length > w.maximumBytes - w.bytes.length)) := by
    simp only [ok,Bool.false_or,Bool.or_eq_true,decide_eq_true_eq]
    omega
  simp only [append,if_neg fits]
  exact ⟨ok,trivial,trivial⟩

structure Emits (w w' : GameBinaryWriter) (written : List UInt8) : Prop where
  writes : Writes w w' written
  appends : Appends w w' written

theorem Emits.nothing : Emits w w [] := ⟨.nothing w,.nothing w⟩

theorem Emits.trans (left : Emits a b first) (right : Emits b c second) : Emits a c (first ++ second) :=
  ⟨left.writes.trans right.writes,left.appends.trans right.appends⟩

theorem emits_append (value : List UInt8) : Emits w (w.append value) value :=
  ⟨writes_append w value,appends_append w value⟩

theorem emits_integer (width n : Nat) : Emits w (w.integer width n) (littleEndian width n) :=
  emits_append w (littleEndian width n)

theorem emits_string (short : value.length ≤ 0xffffffff) :
    Emits w (w.string value) (littleEndian 4 value.length ++ value) := by
  rw [string,if_neg (by omega)]
  exact emits_append w _

theorem emits_floats (values : List Float32Bits) :
    Emits w (values.foldl float w) (values.flatMap fun x => littleEndian 4 x.bits.toNat) := by
  induction values generalizing w with
  | nil => exact .nothing w
  | cons x rest ih => exact (emits_integer w 4 x.bits.toNat).trans (ih _)

end GameBinaryWriter

/-! ### Reading -/

/-- A reader over the remaining input; its error is the first one that was set. -/
abbrev GameBinaryReader := StateT (List UInt8) (Except String)

variable {maximum : Nat}

namespace GameBinaryReader

def fail {α : Type} (message : String) : GameBinaryReader α := fun _ => .error message

def take (context : String) (count : Nat) (message : String) : GameBinaryReader (List UInt8) := fun input =>
  if input.length < count then .error (context ++ message) else .ok (input.take count,input.drop count)

def integer (context : String) (width : Nat) : GameBinaryReader Nat := do
  let bytes ← take context width " is truncated"
  return ofLittleEndian bytes

def float (context : String) : GameBinaryReader Float32Bits := do
  return ⟨(← integer context 4).toUInt32⟩

def double (context : String) : GameBinaryReader Float64Bits := do
  return ⟨(← integer context 8).toUInt64⟩

def signed (context : String) : GameBinaryReader Int32 := do
  return (← integer context 4).toUInt32.toInt32

def string (context : String) (maximumBytes : Nat) : GameBinaryReader ByteString := do
  let length ← integer context 4
  if length > maximumBytes then fail (context ++ " string exceeds its limit")
  else
    let value ← take context length " string is truncated"
    if isValidProtocolUtf8 value then return value else fail (context ++ " string is not valid UTF-8")

def objectId (context : String) : GameBinaryReader ObjectId := do
  let slot ← integer context 4
  let generation ← integer context 4
  let id : ObjectId := ⟨slot.toUInt32,generation.toUInt32⟩
  if id.isValid then return id else fail "Binary ObjectId is invalid"

def schemaId (context : String) : GameBinaryReader SchemaId := do
  let high ← integer context 8
  let low ← integer context 8
  let id : SchemaId := ⟨high.toUInt64,low.toUInt64⟩
  if id.isValid then return id else fail "Binary SchemaId is invalid"

def floats (context : String) : (count : Nat) → GameBinaryReader { c : List Float32Bits // c.length = count }
  | 0 => return ⟨[],rfl⟩
  | count + 1 => do
    let x ← float context
    let rest ← floats context count
    return ⟨x :: rest.val,by rw [length_cons,rest.property]⟩

def wirePayload (context : String) (maximumStringBytes : Nat) : Nat → GameBinaryReader WireValue
  | 0 => return .nil
  | 1 => do
    let v ← integer context 1
    if v > 1 then fail "Binary Boolean is invalid" else return .boolean (v != 0)
  | 2 => return .integer (← signed context)
  | 3 => return .double (← double context)
  | 4 => return .float (← float context)
  | 5 => return .string (← string context maximumStringBytes)
  | 6 => return .vector2 (← float context) (← float context)
  | 7 => return .vector3 (← float context) (← float context) (← float context)
  | 8 => return .color3 (← float context) (← float context) (← float context)
  | 9 => return .uDim ⟨← float context,← signed context⟩
  | 10 => return .uDim2 ⟨← float context,← signed context⟩ ⟨← float context,← signed context⟩
  | 11 => return .cFrame (← floats context 12)
  | 12 => return .enumItem (← string context maximumProtocolIdentifierBytes) (← string context maximumProtocolIdentifierBytes)
  | 13 => do
    let id ← schemaId context
    let version ← integer context 4
    let item ← signed context
    if version == 0 then fail "Binary schema enum is invalid" else return .schemaEnum id version.toUInt32 item
  | 14 => return .objectReference (← objectId context)
  | _ => fail "Binary WireValue tag is invalid"

def wireValue (context : String) (maximumStringBytes : Nat) : GameBinaryReader WireValue := do
  let tag ← integer context 1
  let value ← wirePayload context maximumStringBytes tag
  match validateProtocolWireValue value with
  | .ok () => return value
  | .error message => fail message

def Reads {α : Type} (reader : GameBinaryReader α) (bytes : List UInt8) (value : α) : Prop :=
  ∀ rest, reader (bytes ++ rest) = .ok (value,rest)

variable {α : Type} {reader : GameBinaryReader α}

theorem reads_pure (value : α) : Reads (pure value) [] value := fun _ => rfl

variable {β : Type} {next : α → GameBinaryReader β}

theorem Reads.bind {first second : List UInt8} {x : α} {y : β}
    (left : Reads reader first x) (right : Reads (next x) second y) : Reads (reader >>= next) (first ++ second) y := by
  intro rest
  change (do let (a,s) ← reader (first ++ second ++ rest); next a s) = _
  rw [append_assoc,left]
  exact right rest

variable {bytes : List UInt8}

theorem Reads.last {x : α} {y : β} (left : Reads reader bytes x) (right : Reads (next x) [] y) :
    Reads (reader >>= next) bytes y := by
  have both : Reads (reader >>= next) (bytes ++ []) y := left.bind right
  rwa [append_nil] at both

theorem Reads.map {x : α} (f : α → β) (left : Reads reader bytes x) :
    Reads (reader >>= fun a => pure (f a)) bytes (f x) :=
  left.last (reads_pure (f x))

theorem reads_check {check : Bool} (value : α) (message : String) (passed : check) :
    Reads (if check then pure value else fail message) [] value := by
  rw [if_pos passed]
  exact reads_pure value

variable (context : String)

theorem reads_take (bytes : List UInt8) (message : String) : Reads (take context bytes.length message) bytes bytes := by
  intro rest
  rw [take]
  simp

theorem reads_integer {w n : Nat} (fits : n < 256 ^ w) : Reads (integer context w) (littleEndian w n) n := by
  have bytes := reads_take context (littleEndian w n) " is truncated"
  simpa [integer,ofLittleEndian_littleEndian fits] using bytes.map ofLittleEndian

theorem reads_float (x : Float32Bits) : Reads (float context) (littleEndian 4 x.bits.toNat) x := by
  have bits := reads_integer context (w := 4) x.bits.toNat_lt
  simpa [float] using bits.map fun n => (⟨n.toUInt32⟩ : Float32Bits)

theorem reads_double (x : Float64Bits) : Reads (double context) (littleEndian 8 x.bits.toNat) x := by
  have bits := reads_integer context (w := 8) x.bits.toNat_lt
  simpa [double] using bits.map fun n => (⟨n.toUInt64⟩ : Float64Bits)

theorem reads_signed (x : Int32) : Reads (signed context) (littleEndian 4 x.toUInt32.toNat) x := by
  have bits := reads_integer context (w := 4) x.toUInt32.toNat_lt
  simpa [signed] using bits.map fun n => n.toUInt32.toInt32

theorem reads_string (short : value.length ≤ maximum)
    (maximumFits : maximum < 256 ^ 4) (utf8 : isValidProtocolUtf8 value) :
    Reads (string context maximum) (littleEndian 4 value.length ++ value) value := by
  have length := reads_integer context (lt_of_le_of_lt short maximumFits)
  refine length.bind ?_
  intro rest
  have bytes := reads_take context value " string is truncated" rest
  rw [if_neg (by omega)]
  change (do let (a,s) ← take context value.length " string is truncated" (value ++ rest)
             (if isValidProtocolUtf8 a then pure a else fail (context ++ " string is not valid UTF-8") :
               GameBinaryReader ByteString) s) = _
  rw [bytes]
  change (if isValidProtocolUtf8 value then pure value else fail _ : GameBinaryReader ByteString) rest = _
  rw [if_pos utf8]
  rfl

theorem reads_objectId {id : ObjectId} (valid : id.isValid) :
    Reads (objectId context) (littleEndian 4 id.slot.toNat ++ littleEndian 4 id.generation.toNat) id := by
  have slot := reads_integer context (w := 4) id.slot.toNat_lt
  have generation := reads_integer context (w := 4) id.generation.toNat_lt
  refine slot.bind (generation.last ?_)
  have rebuilt : (⟨id.slot.toNat.toUInt32,id.generation.toNat.toUInt32⟩ : ObjectId) = id := by simp
  rw [rebuilt]
  exact reads_check id _ valid

theorem reads_schemaId {id : SchemaId} (valid : id.isValid) :
    Reads (schemaId context) (littleEndian 8 id.high.toNat ++ littleEndian 8 id.low.toNat) id := by
  have high := reads_integer context (w := 8) id.high.toNat_lt
  have low := reads_integer context (w := 8) id.low.toNat_lt
  refine high.bind (low.last ?_)
  have rebuilt : (⟨id.high.toNat.toUInt64,id.low.toNat.toUInt64⟩ : SchemaId) = id := by simp
  rw [rebuilt]
  exact reads_check id _ valid

theorem reads_floats {count : Nat} (values : { c : List Float32Bits // c.length = count }) :
    Reads (floats context count) (values.val.flatMap fun x => littleEndian 4 x.bits.toNat) values := by
  induction count with
  | zero =>
    obtain ⟨l,length⟩ := values
    have none : l = [] := length_eq_zero_iff.mp length
    subst none
    exact reads_pure _
  | succ count ih =>
    obtain ⟨l,length⟩ := values
    obtain ⟨x,rest,rfl⟩ := exists_cons_of_length_eq_add_one length
    have tail := ih ⟨rest,by simpa using length⟩
    exact (reads_float context x).bind (tail.map _)

end GameBinaryReader

open GameBinaryWriter GameBinaryReader

def wirePayloadBytes : WireValue → List UInt8
  | .nil => []
  | .boolean b => littleEndian 1 (if b then 1 else 0)
  | .integer n => littleEndian 4 n.toUInt32.toNat
  | .double x => littleEndian 8 x.bits.toNat
  | .float x => littleEndian 4 x.bits.toNat
  | .string s => littleEndian 4 s.length ++ s
  | .vector2 x y => littleEndian 4 x.bits.toNat ++ littleEndian 4 y.bits.toNat
  | .vector3 x y z | .color3 x y z =>
    littleEndian 4 x.bits.toNat ++ (littleEndian 4 y.bits.toNat ++ littleEndian 4 z.bits.toNat)
  | .uDim d => littleEndian 4 d.scale.bits.toNat ++ littleEndian 4 d.offset.toUInt32.toNat
  | .uDim2 x y => littleEndian 4 x.scale.bits.toNat ++ (littleEndian 4 x.offset.toUInt32.toNat ++
      (littleEndian 4 y.scale.bits.toNat ++ littleEndian 4 y.offset.toUInt32.toNat))
  | .cFrame c => c.val.flatMap fun x => littleEndian 4 x.bits.toNat
  | .enumItem enumType item => (littleEndian 4 enumType.length ++ enumType) ++ (littleEndian 4 item.length ++ item)
  | .schemaEnum id version item => (littleEndian 8 id.high.toNat ++ littleEndian 8 id.low.toNat) ++
      (littleEndian 4 version.toNat ++ littleEndian 4 item.toUInt32.toNat)
  | .objectReference object => littleEndian 4 object.slot.toNat ++ littleEndian 4 object.generation.toNat

def wireBytes (value : WireValue) : List UInt8 := littleEndian 1 (tagOf value) ++ wirePayloadBytes value

def StringsWithin (maximum : Nat) : WireValue → Prop
  | .string s => s.length ≤ maximum
  | _ => True

variable {value : WireValue}

theorem emits_wireValue (w : GameBinaryWriter) (valid : value.isValid) :
    Emits w (w.wireValue value) (wireBytes value) := by
  refine (emits_integer w 1 (tagOf value)).trans ?_
  rw [isValid_iff] at valid
  cases value with
  | nil => exact .nothing _
  | boolean b => exact emits_integer ..
  | integer n => exact emits_integer ..
  | double x => exact emits_integer ..
  | float x => exact emits_integer ..
  | string s =>
    have bound := (validateProtocolString_ok valid).1
    exact emits_string _ (bound.trans (by decide))
  | vector2 x y => exact (emits_integer ..).trans (emits_integer ..)
  | vector3 x y z => exact (emits_integer ..).trans ((emits_integer ..).trans (emits_integer ..))
  | color3 r g b => exact (emits_integer ..).trans ((emits_integer ..).trans (emits_integer ..))
  | uDim d => exact (emits_integer ..).trans (emits_integer ..)
  | uDim2 x y =>
    exact (emits_integer ..).trans ((emits_integer ..).trans ((emits_integer ..).trans (emits_integer ..)))
  | cFrame c => exact emits_floats ..
  | enumItem enumType item =>
    simp only [validateProtocolWireValue] at valid
    cases first : validateProtocolString enumType maximumProtocolIdentifierBytes "Wire enum type" with
    | error message => rw [first] at valid; cases valid
    | ok _ =>
      rw [first] at valid
      have boundType := (validateProtocolString_ok first).1
      have boundItem : item.length ≤ maximumProtocolIdentifierBytes := (validateProtocolString_ok valid).1
      exact (emits_string _ (boundType.trans (by decide))).trans (emits_string _ (boundItem.trans (by decide)))
  | schemaEnum id version item =>
    exact ((emits_integer ..).trans (emits_integer ..)).trans ((emits_integer ..).trans (emits_integer ..))
  | objectReference object => exact (emits_integer ..).trans (emits_integer ..)

private theorem reads_payload (context : String) (valid : value.isValid)
    (strings : StringsWithin maximum value) (maximumFits : maximum < 256 ^ 4) :
    Reads (wirePayload context maximum (tagOf value)) (wirePayloadBytes value) value := by
  rw [isValid_iff] at valid
  cases value with
  | nil => exact reads_pure _
  | boolean b =>
    refine (reads_integer context (by cases b <;> decide)).last ?_
    cases b <;> exact reads_pure _
  | integer n => exact (reads_signed context n).map _
  | double x => exact (reads_double context x).map _
  | float x => exact (reads_float context x).map _
  | string s =>
    exact (reads_string context strings maximumFits (validateProtocolString_ok valid).2).map _
  | vector2 x y => exact (reads_float context x).bind ((reads_float context y).map _)
  | vector3 x y z =>
    exact (reads_float context x).bind ((reads_float context y).bind ((reads_float context z).map _))
  | color3 r g b =>
    exact (reads_float context r).bind ((reads_float context g).bind ((reads_float context b).map _))
  | uDim d => exact (reads_float context d.scale).bind ((reads_signed context d.offset).map _)
  | uDim2 x y =>
    exact (reads_float context x.scale).bind ((reads_signed context x.offset).bind
      ((reads_float context y.scale).bind ((reads_signed context y.offset).map _)))
  | cFrame c => exact (reads_floats context c).map _
  | enumItem enumType item =>
    simp only [validateProtocolWireValue] at valid
    cases first : validateProtocolString enumType maximumProtocolIdentifierBytes "Wire enum type" with
    | error message => rw [first] at valid; cases valid
    | ok _ =>
      rw [first] at valid
      obtain ⟨boundType,utf8Type⟩ := validateProtocolString_ok first
      obtain ⟨boundItem,utf8Item⟩ : item.length ≤ maximumProtocolIdentifierBytes ∧ _ := validateProtocolString_ok valid
      exact (reads_string context boundType (by decide) utf8Type).bind
        ((reads_string context boundItem (by decide) utf8Item).map _)
  | schemaEnum id version item =>
    simp only [validateProtocolWireValue,require] at valid
    split_ifs at valid with checked
    obtain ⟨identity,versioned⟩ := (Bool.and_eq_true _ _).mp checked
    refine (reads_schemaId context identity).bind
      ((reads_integer context version.toNat_lt).bind ((reads_signed context item).last ?_))
    have nonzero : (version.toNat == 0) = false := by
      rw [beq_eq_false_iff_ne]
      intro zero
      exact absurd (UInt32.toNat_inj.mp zero) (by simpa using versioned)
    rw [if_neg (by simp [nonzero])]
    simpa using reads_pure (schemaEnum id version item)
  | objectReference object =>
    simp only [validateProtocolWireValue,require] at valid
    split_ifs at valid with checked
    exact (reads_objectId context checked).map _

theorem reads_wireValue (context : String) (valid : value.isValid)
    (strings : StringsWithin maximum value) (maximumFits : maximum < 256 ^ 4) :
    Reads (GameBinaryReader.wireValue context maximum) (wireBytes value) value := by
  have tag := reads_integer context (w := 1) (n := tagOf value) (by cases value <;> simp [tagOf])
  refine tag.bind ((reads_payload context valid strings maximumFits).last ?_)
  rw [isValid_iff] at valid
  rw [valid]
  exact reads_pure value

end Gargantuan
