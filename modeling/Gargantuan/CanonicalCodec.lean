import Gargantuan.BinaryCodec

/-!
The other direction of the game protocol's bytes: what a reader accepted is
exactly what a writer with enough room puts out for the value that was read, so
no value has two encodings.
-/
namespace Gargantuan
open List UInt32 UInt64

variable (bytes : List UInt8)

theorem ofLittleEndian_lt : ofLittleEndian bytes < 256 ^ bytes.length := by
  induction bytes with
  | nil => simp [ofLittleEndian]
  | cons b rest ih =>
    have low := b.toNat_lt
    simp only [ofLittleEndian,length_cons,Nat.pow_succ]
    omega

theorem littleEndian_ofLittleEndian : littleEndian bytes.length (ofLittleEndian bytes) = bytes := by
  induction bytes with
  | nil => rfl
  | cons b rest ih =>
    have low := b.toNat_lt
    have first : (b.toNat + 256 * ofLittleEndian rest) % 256 = b.toNat := by omega
    have others : (b.toNat + 256 * ofLittleEndian rest) / 256 = ofLittleEndian rest := by omega
    rw [length_cons,ofLittleEndian,littleEndian,others,ih]
    simp

namespace GameBinaryReader

/-! ### Readers from their results -/

variable {input rest : List UInt8} {message context : String}

theorem bind_ok {α β : Type} {reader : GameBinaryReader α} {next : α → GameBinaryReader β} {y : β}
    (accepted : (reader >>= next) input = .ok (y,rest)) :
    ∃ x middle, reader input = .ok (x,middle) ∧ next x middle = .ok (y,rest) := by
  change (do let (a,s) ← reader input; next a s) = _ at accepted
  cases first : reader input with
  | error message => rw [first] at accepted; cases accepted
  | ok result =>
    rw [first] at accepted
    exact ⟨result.1,result.2,rfl,accepted⟩

variable {α : Type} {x y : α}

theorem pure_ok (accepted : (Pure.pure x : GameBinaryReader α) input = .ok (y,rest)) : x = y ∧ input = rest := by
  cases accepted
  exact ⟨rfl,rfl⟩

theorem fail_not_ok {y : α} : ¬ (fail message : GameBinaryReader α) input = .ok (y,rest) := by
  intro accepted
  cases accepted

theorem check_ok {check : Prop} [Decidable check]
    (accepted : (if check then Pure.pure x else fail message : GameBinaryReader α) input = .ok (y,rest)) :
    check ∧ x = y ∧ input = rest := by
  split_ifs at accepted with passed
  · exact ⟨passed,pure_ok accepted⟩
  · exact absurd accepted fail_not_ok

theorem refusal_ok {check : Prop} [Decidable check]
    (accepted : (if check then fail message else Pure.pure x : GameBinaryReader α) input = .ok (y,rest)) :
    ¬ check ∧ x = y ∧ input = rest := by
  split_ifs at accepted with refused
  · exact absurd accepted fail_not_ok
  · exact ⟨refused,pure_ok accepted⟩

def Consumes {α : Type} (reader : GameBinaryReader α) (bytesOf : α → List UInt8) : Prop :=
  ∀ {input value rest}, reader input = .ok (value,rest) → input = bytesOf value ++ rest

theorem consumes_take (context : String) (count : Nat) (message : String) :
    Consumes (take context count message) id := by
  intro input value rest accepted
  simp only [take] at accepted
  split_ifs at accepted
  cases accepted
  exact (take_append_drop count input).symm

theorem length_take {count : Nat} {value : List UInt8}
    (accepted : take context count message input = .ok (value,rest)) : value.length = count := by
  simp only [take] at accepted
  split_ifs at accepted with short
  cases accepted
  rw [length_take]
  omega

theorem consumes_integer (context : String) (width : Nat) : Consumes (integer context width) (littleEndian width) := by
  intro input n rest accepted
  obtain ⟨bytes,middle,taken,last⟩ := bind_ok accepted
  obtain ⟨rfl,rfl⟩ := pure_ok last
  have restored := littleEndian_ofLittleEndian bytes
  rw [length_take taken] at restored
  rw [restored]
  exact consumes_take _ _ _ taken

theorem integer_lt {width n : Nat} (accepted : integer context width input = .ok (n,rest)) : n < 256 ^ width := by
  obtain ⟨bytes,middle,taken,last⟩ := bind_ok accepted
  obtain ⟨rfl,-⟩ := pure_ok last
  have bound := ofLittleEndian_lt bytes
  rwa [length_take taken] at bound

section
variable (context : String)

theorem consumes_float : Consumes (float context) fun x => littleEndian 4 x.bits.toNat := by
  intro input x rest accepted
  obtain ⟨n,middle,taken,last⟩ := bind_ok accepted
  obtain ⟨rfl,rfl⟩ := pure_ok last
  have small : n < 4294967296 := integer_lt taken
  have same : n.toUInt32.toNat = n := toNat_ofNat_of_lt small
  simp only [same]
  exact consumes_integer _ _ taken

theorem consumes_double : Consumes (double context) fun x => littleEndian 8 x.bits.toNat := by
  intro input x rest accepted
  obtain ⟨n,middle,taken,last⟩ := bind_ok accepted
  obtain ⟨rfl,rfl⟩ := pure_ok last
  have small : n < 18446744073709551616 := integer_lt taken
  have same : n.toUInt64.toNat = n := toNat_ofNat_of_lt small
  simp only [same]
  exact consumes_integer _ _ taken

theorem consumes_signed : Consumes (signed context) fun x => littleEndian 4 x.toUInt32.toNat := by
  intro input x rest accepted
  obtain ⟨n,middle,taken,last⟩ := bind_ok accepted
  obtain ⟨rfl,rfl⟩ := pure_ok last
  have small : n < 4294967296 := integer_lt taken
  have same : n.toUInt32.toInt32.toUInt32.toNat = n := by
    exact toNat_ofNat_of_lt small
  simp only [same]
  exact consumes_integer _ _ taken

end

def stringBytes (value : ByteString) : List UInt8 := littleEndian 4 value.length ++ value

theorem consumes_string (context : String) (maximum : Nat) : Consumes (string context maximum) stringBytes := by
  intro input value rest accepted
  obtain ⟨length,middle,read,next⟩ := bind_ok accepted
  split_ifs at next
  · exact absurd next fail_not_ok
  obtain ⟨bytes,tail,taken,last⟩ := bind_ok next
  obtain ⟨-,rfl,rfl⟩ := check_ok last
  rw [consumes_integer _ _ read,consumes_take _ _ _ taken,stringBytes,length_take taken]
  rfl

variable {maximum : Nat}

theorem string_le {value : ByteString} (accepted : string context maximum input = .ok (value,rest)) :
    value.length ≤ maximum := by
  obtain ⟨length,middle,read,next⟩ := bind_ok accepted
  split_ifs at next with long
  · exact absurd next fail_not_ok
  obtain ⟨bytes,tail,taken,last⟩ := bind_ok next
  obtain ⟨-,rfl,rfl⟩ := check_ok last
  rw [length_take taken]
  omega

def objectIdBytes {domain : Type} (id : GenerationalId domain) : List UInt8 :=
  littleEndian 4 id.slot.toNat ++ littleEndian 4 id.generation.toNat

section
variable (context : String)

theorem consumes_objectId : Consumes (objectId context) objectIdBytes := by
  intro input id rest accepted
  obtain ⟨slot,middle,first,next⟩ := bind_ok accepted
  obtain ⟨generation,tail,second,last⟩ := bind_ok next
  obtain ⟨-,rfl,rfl⟩ := check_ok last
  have slotSmall : slot < 4294967296 := integer_lt first
  have generationSmall : generation < 4294967296 := integer_lt second
  have slotSame : slot.toUInt32.toNat = slot := toNat_ofNat_of_lt slotSmall
  have generationSame : generation.toUInt32.toNat = generation := toNat_ofNat_of_lt generationSmall
  rw [consumes_integer _ _ first,consumes_integer _ _ second,objectIdBytes,slotSame,generationSame,append_assoc]

theorem consumes_schemaId :
    Consumes (schemaId context) fun id => littleEndian 8 id.high.toNat ++ littleEndian 8 id.low.toNat := by
  intro input id rest accepted
  obtain ⟨high,middle,first,next⟩ := bind_ok accepted
  obtain ⟨low,tail,second,last⟩ := bind_ok next
  obtain ⟨-,rfl,rfl⟩ := check_ok last
  have highSmall : high < 18446744073709551616 := integer_lt first
  have lowSmall : low < 18446744073709551616 := integer_lt second
  have highSame : high.toUInt64.toNat = high := toNat_ofNat_of_lt highSmall
  have lowSame : low.toUInt64.toNat = low := toNat_ofNat_of_lt lowSmall
  rw [consumes_integer _ _ first,consumes_integer _ _ second]
  simp only [highSame,lowSame,append_assoc]

theorem consumes_floats (count : Nat) :
    Consumes (floats context count) fun c => c.val.flatMap fun x => littleEndian 4 x.bits.toNat := by
  induction count with
  | zero =>
    intro input c rest accepted
    obtain ⟨rfl,rfl⟩ := pure_ok accepted
    rfl
  | succ count ih =>
    intro input c rest accepted
    obtain ⟨x,middle,first,next⟩ := bind_ok accepted
    obtain ⟨others,tail,second,last⟩ := bind_ok next
    obtain ⟨rfl,rfl⟩ := pure_ok last
    rw [consumes_float _ first,ih second]
    simp only [flatMap_cons,append_assoc]

end

variable {value : WireValue}

theorem consumes_wirePayload {tag : Nat}
    (accepted : wirePayload context maximum tag input = .ok (value,rest)) :
    GameBinaryWriter.tagOf value = tag ∧ input = wirePayloadBytes value ++ rest := by
  unfold wirePayload at accepted
  split at accepted
  case h_1 =>
    obtain ⟨rfl,rfl⟩ := pure_ok accepted
    exact ⟨rfl,rfl⟩
  case h_2 =>
    obtain ⟨v,middle,first,last⟩ := bind_ok accepted
    obtain ⟨small,rfl,rfl⟩ := refusal_ok last
    refine ⟨rfl,(consumes_integer _ _ first).trans ?_⟩
    obtain rfl | rfl : v = 0 ∨ v = 1 := by omega
    · rfl
    · rfl
  case h_3 =>
    obtain ⟨n,middle,first,last⟩ := bind_ok accepted
    obtain ⟨rfl,rfl⟩ := pure_ok last
    exact ⟨rfl,consumes_signed _ first⟩
  case h_4 =>
    obtain ⟨x,middle,first,last⟩ := bind_ok accepted
    obtain ⟨rfl,rfl⟩ := pure_ok last
    exact ⟨rfl,consumes_double _ first⟩
  case h_5 =>
    obtain ⟨x,middle,first,last⟩ := bind_ok accepted
    obtain ⟨rfl,rfl⟩ := pure_ok last
    exact ⟨rfl,consumes_float _ first⟩
  case h_6 =>
    obtain ⟨s,middle,first,last⟩ := bind_ok accepted
    obtain ⟨rfl,rfl⟩ := pure_ok last
    exact ⟨rfl,consumes_string _ _ first⟩
  case h_7 =>
    obtain ⟨x,inputY,first,next⟩ := bind_ok accepted
    obtain ⟨y,inputZ,second,last⟩ := bind_ok next
    obtain ⟨rfl,rfl⟩ := pure_ok last
    refine ⟨rfl,?_⟩
    rw [consumes_float _ first,consumes_float _ second]
    simp only [wirePayloadBytes,append_assoc]
  case h_8 =>
    obtain ⟨x,inputY,first,next⟩ := bind_ok accepted
    obtain ⟨y,inputZ,second,next⟩ := bind_ok next
    obtain ⟨z,left,third,last⟩ := bind_ok next
    obtain ⟨rfl,rfl⟩ := pure_ok last
    refine ⟨rfl,?_⟩
    rw [consumes_float _ first,consumes_float _ second,consumes_float _ third]
    simp only [wirePayloadBytes,append_assoc]
  case h_9 =>
    obtain ⟨r,inputG,first,next⟩ := bind_ok accepted
    obtain ⟨g,inputB,second,next⟩ := bind_ok next
    obtain ⟨b,left,third,last⟩ := bind_ok next
    obtain ⟨rfl,rfl⟩ := pure_ok last
    refine ⟨rfl,?_⟩
    rw [consumes_float _ first,consumes_float _ second,consumes_float _ third]
    simp only [wirePayloadBytes,append_assoc]
  case h_10 =>
    obtain ⟨scale,inputOffset,first,next⟩ := bind_ok accepted
    obtain ⟨offset,left,second,last⟩ := bind_ok next
    obtain ⟨rfl,rfl⟩ := pure_ok last
    refine ⟨rfl,?_⟩
    rw [consumes_float _ first,consumes_signed _ second]
    simp only [wirePayloadBytes,append_assoc]
  case h_11 =>
    obtain ⟨xScale,inputXOffset,first,next⟩ := bind_ok accepted
    obtain ⟨xOffset,inputY,second,next⟩ := bind_ok next
    obtain ⟨yScale,inputYOffset,third,next⟩ := bind_ok next
    obtain ⟨yOffset,left,fourth,last⟩ := bind_ok next
    obtain ⟨rfl,rfl⟩ := pure_ok last
    refine ⟨rfl,?_⟩
    rw [consumes_float _ first,consumes_signed _ second,consumes_float _ third,consumes_signed _ fourth]
    simp only [wirePayloadBytes,append_assoc]
  case h_12 =>
    obtain ⟨c,left,first,last⟩ := bind_ok accepted
    obtain ⟨rfl,rfl⟩ := pure_ok last
    exact ⟨rfl,consumes_floats _ _ first⟩
  case h_13 =>
    obtain ⟨enumType,inputItem,first,next⟩ := bind_ok accepted
    obtain ⟨item,left,second,last⟩ := bind_ok next
    obtain ⟨rfl,rfl⟩ := pure_ok last
    refine ⟨rfl,?_⟩
    rw [consumes_string _ _ first,consumes_string _ _ second]
    simp only [wirePayloadBytes,stringBytes,append_assoc]
  case h_14 =>
    obtain ⟨id,inputVersion,first,next⟩ := bind_ok accepted
    obtain ⟨version,inputItem,second,next⟩ := bind_ok next
    obtain ⟨item,left,third,last⟩ := bind_ok next
    obtain ⟨-,rfl,rfl⟩ := refusal_ok last
    have small : version < 4294967296 := integer_lt second
    have same : version.toUInt32.toNat = version := toNat_ofNat_of_lt small
    refine ⟨rfl,?_⟩
    rw [consumes_schemaId _ first,consumes_integer _ _ second,consumes_signed _ third]
    simp only [wirePayloadBytes,same,append_assoc]
  case h_15 =>
    obtain ⟨id,left,first,last⟩ := bind_ok accepted
    obtain ⟨rfl,rfl⟩ := pure_ok last
    exact ⟨rfl,consumes_objectId _ first⟩
  case h_16 => exact absurd accepted fail_not_ok

theorem wireValue_ok (accepted : GameBinaryReader.wireValue context maximum input = .ok (value,rest)) :
    value.isValid ∧ input = wireBytes value ++ rest := by
  obtain ⟨tag,inputPayload,first,next⟩ := bind_ok accepted
  obtain ⟨read,left,second,last⟩ := bind_ok next
  cases checked : validateProtocolWireValue read with
  | error message =>
    rw [checked] at last
    exact absurd last fail_not_ok
  | ok _ =>
    rw [checked] at last
    obtain ⟨rfl,rfl⟩ := pure_ok last
    obtain ⟨tagged,payload⟩ := consumes_wirePayload second
    refine ⟨WireValue.isValid_iff.mpr checked,?_⟩
    rw [consumes_integer _ _ first,payload,wireBytes,tagged,append_assoc]

end GameBinaryReader

end Gargantuan
