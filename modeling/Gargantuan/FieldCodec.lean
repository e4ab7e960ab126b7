import Gargantuan.CanonicalCodec

/-!
Fields of a frame. A field knows how it is written and how it is read, and that
the two agree in both directions; the fields of a frame in wire order are put
together by `pair`, and a structure over them by `through`.
-/
namespace Gargantuan
open GameBinaryWriter GameBinaryReader

theorem except_bind_ok {ε α β : Type} {x : Except ε α} {f : α → Except ε β} {y : β} (done : (x >>= f) = .ok y) :
    ∃ a, x = .ok a ∧ f a = .ok y := by
  cases x with
  | error e => cases done
  | ok a => exact ⟨a,rfl,done⟩

theorem except_ok_bind {ε α β : Type} (a : α) (f : α → Except ε β) : (Except.ok a >>= f) = f a := rfl

structure Field (α : Type) where
  write : GameBinaryWriter → α → GameBinaryWriter
  read : GameBinaryReader α
  bytes : α → List UInt8
  /-- The values that the reader returns. -/
  accepts : α → Prop
  writes : ∀ w x, accepts x → Writes w (write w x) (bytes x)
  appends : ∀ w x, accepts x → Appends w (write w x) (bytes x)
  reads : ∀ x, accepts x → Reads read (bytes x) x
  consumes : ∀ {input x rest}, read input = .ok (x,rest) → accepts x ∧ input = bytes x ++ rest

namespace Field
variable {α β : Type}

def number (context : String) (width : Nat) (ofNat : Nat → α) (toNat : α → Nat) (restored : ∀ x, ofNat (toNat x) = x)
    (fits : ∀ x, toNat x < 256 ^ width) (exact : ∀ n < 256 ^ width, toNat (ofNat n) = n) : Field α where
  write w x := w.integer width (toNat x)
  read := do return ofNat (← GameBinaryReader.integer context width)
  bytes x := littleEndian width (toNat x)
  accepts _ := True
  writes w x _ := (emits_integer w width (toNat x)).writes
  appends w x _ := (emits_integer w width (toNat x)).appends
  reads x _ := by
    have number := (reads_integer context (fits x)).map ofNat
    rwa [restored] at number
  consumes := by
    intro input x rest accepted
    obtain ⟨n,middle,taken,last⟩ := bind_ok accepted
    obtain ⟨rfl,rfl⟩ := pure_ok last
    refine ⟨trivial,?_⟩
    rw [exact n (integer_lt taken)]
    exact consumes_integer _ _ taken

def u8 (context : String) : Field UInt8 :=
  number context 1 Nat.toUInt8 UInt8.toNat (fun x => by simp) (fun x => x.toNat_lt)
    (fun _ small => UInt8.toNat_ofNat_of_lt small)

def u16 (context : String) : Field UInt16 :=
  number context 2 Nat.toUInt16 UInt16.toNat (fun x => by simp) (fun x => x.toNat_lt)
    (fun _ small => UInt16.toNat_ofNat_of_lt small)

def u32 (context : String) : Field UInt32 :=
  number context 4 Nat.toUInt32 UInt32.toNat (fun x => by simp) (fun x => x.toNat_lt)
    (fun _ small => UInt32.toNat_ofNat_of_lt small)

def u64 (context : String) : Field UInt64 :=
  number context 8 Nat.toUInt64 UInt64.toNat (fun x => by simp) (fun x => x.toNat_lt)
    (fun _ small => UInt64.toNat_ofNat_of_lt small)

/-- One field after the other. -/
def pair (f : Field α) (g : Field β) : Field (α × β) where
  write w x := g.write (f.write w x.1) x.2
  read := do
    let first ← f.read
    let second ← g.read
    return (first,second)
  bytes x := f.bytes x.1 ++ g.bytes x.2
  accepts x := f.accepts x.1 ∧ g.accepts x.2
  writes w x good := (f.writes w x.1 good.1).trans (g.writes _ x.2 good.2)
  appends w x good := (f.appends w x.1 good.1).trans (g.appends _ x.2 good.2)
  reads x good := (f.reads x.1 good.1).bind ((g.reads x.2 good.2).map fun second => (x.1,second))
  consumes := by
    intro input x rest accepted
    obtain ⟨first,middle,atFirst,next⟩ := bind_ok accepted
    obtain ⟨second,left,atSecond,last⟩ := bind_ok next
    obtain ⟨rfl,rfl⟩ := pure_ok last
    obtain ⟨goodFirst,bytesFirst⟩ := f.consumes atFirst
    obtain ⟨goodSecond,bytesSecond⟩ := g.consumes atSecond
    refine ⟨⟨goodFirst,goodSecond⟩,?_⟩
    rw [bytesFirst,bytesSecond,List.append_assoc]

/-- The same bytes as another type. -/
def through (f : Field α) (toType : α → β) (ofType : β → α) (restored : ∀ y, toType (ofType y) = y)
    (exact : ∀ x, ofType (toType x) = x) : Field β where
  write w y := f.write w (ofType y)
  read := do return toType (← f.read)
  bytes y := f.bytes (ofType y)
  accepts y := f.accepts (ofType y)
  writes w y good := f.writes w (ofType y) good
  appends w y good := f.appends w (ofType y) good
  reads y good := by
    have same := (f.reads (ofType y) good).map toType
    rwa [restored] at same
  consumes := by
    intro input y rest accepted
    obtain ⟨x,middle,taken,last⟩ := bind_ok accepted
    obtain ⟨rfl,rfl⟩ := pure_ok last
    rw [exact]
    exact f.consumes taken

def checked (f : Field α) (check : α → Bool) (message : String) : Field α where
  write := f.write
  read := do
    let x ← f.read
    if check x then return x else GameBinaryReader.fail message
  bytes := f.bytes
  accepts x := f.accepts x ∧ check x = true
  writes w x good := f.writes w x good.1
  appends w x good := f.appends w x good.1
  reads x good := (f.reads x good.1).last (reads_check x message good.2)
  consumes := by
    intro input x rest accepted
    obtain ⟨y,middle,taken,last⟩ := bind_ok accepted
    obtain ⟨passed,rfl,rfl⟩ := check_ok last
    obtain ⟨good,bytes⟩ := f.consumes taken
    exact ⟨⟨good,passed⟩,bytes⟩

def float (context : String) : Field Float32Bits :=
  (u32 context).through Float32Bits.mk Float32Bits.bits (fun _ => rfl) (fun _ => rfl)

def sequence (context : String) {domain : Type} : Field (MonotonicSequence domain) :=
  (u64 context).through MonotonicSequence.mk MonotonicSequence.value (fun _ => rfl) (fun _ => rfl)

def objectId (context : String) : Field ObjectId :=
  ((pair (u32 context) (u32 context)).through (fun x => ⟨x.1,x.2⟩) (fun id => (id.slot,id.generation))
    (fun _ => rfl) (fun _ => rfl)).checked GenerationalId.isValid "Binary ObjectId is invalid"

/-- A number of bytes that is known in advance. -/
def octets (context : String) : (count : Nat) → Field { l : List UInt8 // l.length = count }
  | 0 =>
    { write := fun w _ => w, read := Pure.pure ⟨[],rfl⟩, bytes := fun _ => [], accepts := fun _ => True
      writes := fun w _ _ => .nothing w, appends := fun w _ _ => .nothing w
      reads := fun x _ => by
        obtain ⟨l,none⟩ := x
        have empty : l = [] := List.length_eq_zero_iff.mp none
        subst empty
        exact reads_pure _
      consumes := by
        intro input x rest accepted
        obtain ⟨_,rfl⟩ := pure_ok accepted
        exact ⟨trivial,rfl⟩ }
  | count + 1 =>
    (pair (u8 context) (octets context count)).through
      (fun x => ⟨x.1 :: x.2.val,by rw [List.length_cons,x.2.property]⟩)
      (fun l => (l.val.head (by intro none; have := l.property; rw [none] at this; cases this),
        ⟨l.val.tail,by rw [List.length_tail,l.property]; rfl⟩))
      (fun l => Subtype.ext (List.cons_head_tail _))
      (fun x => rfl)

variable (context : String)

theorem length_octets {count : Nat} (l : { l : List UInt8 // l.length = count }) :
    ((octets context count).bytes l).length = count := by
  induction count with
  | zero => rfl
  | succ count ih =>
    change (littleEndian 1 _ ++ (octets context count).bytes _).length = count + 1
    rw [List.length_append,length_littleEndian,ih]
    omega

theorem octets_accepts {count : Nat} (l : { l : List UInt8 // l.length = count }) :
    (octets context count).accepts l := by
  induction count with
  | zero => trivial
  | succ count ih => exact ⟨trivial,ih _⟩

variable (f : Field α)

@[simp] theorem bytes_pair (g : Field β) (x : α × β) : (pair f g).bytes x = f.bytes x.1 ++ g.bytes x.2 :=
  rfl

@[simp] theorem bytes_through (toType : α → β) (ofType : β → α) (restored : ∀ y, toType (ofType y) = y)
    (exact : ∀ x, ofType (toType x) = x) (y : β) : (f.through toType ofType restored exact).bytes y = f.bytes (ofType y) :=
  rfl

@[simp] theorem bytes_checked (check : α → Bool) (message : String) (x : α) :
    (f.checked check message).bytes x = f.bytes x := rfl

@[simp] theorem bytes_u8 (x : UInt8) : (u8 context).bytes x = littleEndian 1 x.toNat := rfl
@[simp] theorem bytes_u16 (x : UInt16) : (u16 context).bytes x = littleEndian 2 x.toNat := rfl
@[simp] theorem bytes_u32 (x : UInt32) : (u32 context).bytes x = littleEndian 4 x.toNat := rfl
@[simp] theorem bytes_u64 (x : UInt64) : (u64 context).bytes x = littleEndian 8 x.toNat := rfl

@[simp] theorem bytes_float (x : Float32Bits) :
    (float context).bytes x = littleEndian 4 x.bits.toNat := rfl

@[simp] theorem bytes_sequence {domain : Type} (x : MonotonicSequence domain) :
    (sequence context).bytes x = littleEndian 8 x.value.toNat := rfl

@[simp] theorem bytes_objectId (id : ObjectId) :
    (objectId context).bytes id = littleEndian 4 id.slot.toNat ++ littleEndian 4 id.generation.toNat := rfl

end Field

end Gargantuan
