import Gargantuan.FieldCodec

/-!
Readers that look at a beginning of their input only. Such a reader used up certain
bytes, returns the same value whenever they are followed by something else, and leaves
what follows untouched; so it never depends on a byte it did not consume. A loop over a
count that was read is local if its step is, and it restores a sequence of items whose
bytes stand one after the other.
-/
namespace Gargantuan
open GameBinaryWriter

namespace GameBinaryReader
variable {α β σ : Type}

def Local (reader : GameBinaryReader α) : Prop :=
  ∀ ⦃input x rest⦄, reader input = .ok (x,rest) → ∃ used, input = used ++ rest ∧ Reads reader used x

theorem Local.pure (x : α) : Local (Pure.pure x : GameBinaryReader α) := by
  intro input y rest accepted
  obtain ⟨rfl,rfl⟩ := pure_ok accepted
  exact ⟨[],rfl,reads_pure x⟩

theorem Local.fail (message : String) : Local (GameBinaryReader.fail message : GameBinaryReader α) :=
  fun _ _ _ accepted => absurd accepted fail_not_ok

variable {reader : GameBinaryReader α}

theorem Local.bind {next : α → GameBinaryReader β} (first : Local reader)
    (second : ∀ x, Local (next x)) : Local (reader >>= next) := by
  intro input y rest accepted
  obtain ⟨x,middle,atFirst,atSecond⟩ := bind_ok accepted
  obtain ⟨usedFirst,splitFirst,readsFirst⟩ := first atFirst
  obtain ⟨usedSecond,splitSecond,readsSecond⟩ := second x atSecond
  refine ⟨usedFirst ++ usedSecond,?_,readsFirst.bind readsSecond⟩
  rw [splitFirst,splitSecond,List.append_assoc]

theorem Local.map (f : α → β) (first : Local reader) : Local (reader >>= fun x => Pure.pure (f x)) :=
  first.bind fun x => .pure (f x)

theorem Local.ite {check : Prop} [Decidable check] {yes no : GameBinaryReader α} (left : Local yes) (right : Local no) :
    Local (if check then yes else no) := by
  split_ifs
  · exact left
  · exact right

theorem Local.field (f : Field α) : Local f.read := by
  intro input x rest accepted
  obtain ⟨good,split⟩ := f.consumes accepted
  exact ⟨f.bytes x,split,f.reads x good⟩

/-- A check between two fields. -/
def demanded (check : Bool) (message : String) : GameBinaryReader Unit :=
  if check then Pure.pure () else GameBinaryReader.fail message

theorem Local.demanded (check : Bool) (message : String) : Local (demanded check message) :=
  (Local.pure ()).ite (.fail message)

theorem Reads.demanded {check : Bool} {message : String} {next : GameBinaryReader α} {bytes : List UInt8} {x : α}
    (passed : check) (reads : Reads next bytes x) :
    Reads (GameBinaryReader.demanded check message >>= fun _ => next) bytes x := by
  subst passed
  exact reads

def repeated (step : σ → GameBinaryReader σ) : Nat → σ → GameBinaryReader σ
  | 0, s => Pure.pure s
  | count + 1, s => do
    let s ← step s
    repeated step count s

variable {step : σ → GameBinaryReader σ}

theorem Local.repeated (each : ∀ s, Local (step s)) (count : Nat) (s : σ) : Local (repeated step count s) := by
  induction count generalizing s with
  | zero => exact .pure s
  | succ count ih => exact (each s).bind ih

variable {bytes : α → List UInt8} {after : σ → α → σ}

theorem Reads.repeated (good : σ → List α → Prop)
    (each : ∀ s x rest, good s (x :: rest) → Reads (step s) (bytes x) (after s x) ∧ good (after s x) rest)
    {items : List α} {s : σ} (start : good s items) :
    Reads (GameBinaryReader.repeated step items.length s) (items.flatMap bytes) (items.foldl after s) := by
  induction items generalizing s with
  | nil => exact reads_pure s
  | cons x rest ih =>
    obtain ⟨head,tail⟩ := each s x rest start
    exact head.bind (ih tail)

/-- A count within its limit, then as many items. -/
def counted (context : String) (limit : Nat) (message : String) (step : σ → GameBinaryReader σ) (start : σ) :
    GameBinaryReader σ := do
  let count ← integer context 4
  demanded (count ≤ limit) message
  repeated step count start

variable (context : String)

theorem Local.integer (width : Nat) : Local (GameBinaryReader.integer context width) := by
  intro input n rest accepted
  exact ⟨littleEndian width n,consumes_integer _ _ accepted,reads_integer context (integer_lt accepted)⟩

theorem Local.counted (limit : Nat) (message : String) (each : ∀ s, Local (step s)) (start : σ) :
    Local (counted context limit message step start) :=
  (Local.integer context 4).bind fun count => (Local.demanded _ message).bind fun _ => .repeated each count start

def countedBytes (items : List α) (bytes : α → List UInt8) : List UInt8 :=
  littleEndian 4 items.length ++ items.flatMap bytes

theorem Reads.counted {limit : Nat} (message : String)
    {items : List α} {start : σ} (short : items.length ≤ limit) (limited : limit < 256 ^ 4)
    (all : Reads (GameBinaryReader.repeated step items.length start) (items.flatMap bytes) (items.foldl after start)) :
    Reads (GameBinaryReader.counted context limit message step start) (countedBytes items bytes)
      (items.foldl after start) :=
  (reads_integer context (lt_of_le_of_lt short limited)).bind (.demanded (by simpa using short) all)

end GameBinaryReader

namespace GameBinaryWriter
variable {α : Type} {write : GameBinaryWriter → α → GameBinaryWriter} {bytes : α → List UInt8}

theorem emits_all {items : List α} (each : ∀ x ∈ items, ∀ w, Emits w (write w x) (bytes x)) (w : GameBinaryWriter) :
    Emits w (items.foldl write w) (items.flatMap bytes) := by
  induction items generalizing w with
  | nil => exact .nothing w
  | cons x rest ih =>
    exact (each x (by simp) w).trans (ih (fun y member => each y (.tail _ member)) _)

def counted (w : GameBinaryWriter) (items : List α) (write : GameBinaryWriter → α → GameBinaryWriter) :
    GameBinaryWriter :=
  items.foldl write (w.integer 4 items.length)

theorem emits_counted {items : List α} (each : ∀ x ∈ items, ∀ w, Emits w (write w x) (bytes x)) (w : GameBinaryWriter) :
    Emits w (w.counted items write) (GameBinaryReader.countedBytes items bytes) :=
  (emits_integer w 4 items.length).trans (emits_all each _)

end GameBinaryWriter

def schemaIdBytes (id : SchemaId) : List UInt8 := littleEndian 8 id.high.toNat ++ littleEndian 8 id.low.toNat

namespace Field
open GameBinaryReader

def schemaId (context : String) : Field SchemaId :=
  ((pair (u64 context) (u64 context)).through (fun x => ⟨x.1,x.2⟩) (fun id => (id.high,id.low))
    (fun _ => rfl) (fun _ => rfl)).checked SchemaId.isValid "Binary SchemaId is invalid"

def string (context : String) (limit : Nat) (limited : limit < 256 ^ 4) : Field ByteString where
  write := GameBinaryWriter.string
  read := GameBinaryReader.string context limit
  bytes := stringBytes
  accepts s := s.length ≤ limit ∧ isValidProtocolUtf8 s = true
  writes w s good := (emits_string w (by have := good.1; omega)).writes
  appends w s good := (emits_string w (by have := good.1; omega)).appends
  reads s good := reads_string context good.1 limited good.2
  consumes := by
    intro input s rest accepted
    refine ⟨⟨string_le accepted,?_⟩,consumes_string context limit accepted⟩
    obtain ⟨length,middle,_,next⟩ := bind_ok accepted
    split_ifs at next
    · exact absurd next fail_not_ok
    obtain ⟨bytes,tail,_,last⟩ := bind_ok next
    obtain ⟨utf8,rfl,-⟩ := check_ok last
    exact utf8

def wireValue (context : String) : Field WireValue where
  write := GameBinaryWriter.wireValue
  read := GameBinaryReader.wireValue context maximumProtocolStringBytes
  bytes := wireBytes
  accepts value := value.isValid = true
  writes w _ valid := (emits_wireValue w valid).writes
  appends w _ valid := (emits_wireValue w valid).appends
  reads value valid := by
    refine reads_wireValue context valid ?_ (by decide)
    cases value with
    | string s => exact (validateProtocolString_ok (WireValue.isValid_iff.mp valid)).1
    | _ => trivial
  consumes accepted := wireValue_ok accepted

end Field

end Gargantuan
