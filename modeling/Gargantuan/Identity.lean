import Mathlib.Algebra.Order.Ring.Nat

/-!
Identities of the network runtime: generational slots for objects and
connections, and the one-based monotonic sequences that number messages,
publications and requests. Each carries a phantom domain, as the sequences do
in the source, so that numbers of different domains cannot be confused.
-/
namespace Gargantuan

structure GenerationalId (domain : Type) where
  slot : UInt32 := 0
  generation : UInt32 := 0
deriving DecidableEq, Repr

namespace GenerationalId
variable {domain : Type}

instance : Inhabited (GenerationalId domain) := ⟨{}⟩

def isValid (id : GenerationalId domain) : Bool := id.slot != 0 && id.generation != 0

def key (id : GenerationalId domain) : Nat := id.slot.toNat * 2 ^ 32 + id.generation.toNat

theorem key_injective : Function.Injective (key : GenerationalId domain → Nat) := by
  rintro ⟨slotA,generationA⟩ ⟨slotB,generationB⟩ same
  simp only [key] at same
  have boundA := generationA.toNat_lt
  have boundB := generationB.toNat_lt
  have slots : slotA = slotB := UInt32.toNat_inj.mp (by omega)
  have generations : generationA = generationB := UInt32.toNat_inj.mp (by omega)
  rw [slots,generations]

instance : LinearOrder (GenerationalId domain) := LinearOrder.lift' key key_injective

instance : LawfulBEq (GenerationalId domain) := inferInstance

/-- The number the hash and the Remote state channel use: generation first. -/
def combined (id : GenerationalId domain) : UInt64 := (id.generation.toUInt64 <<< 32) ||| id.slot.toUInt64

end GenerationalId

inductive ObjectDomain
inductive ConnectionDomain

abbrev ObjectId := GenerationalId ObjectDomain
abbrev ConnectionId := GenerationalId ConnectionDomain

/-- A sequence number whose zero value means "not set". -/
structure MonotonicSequence (domain : Type) where
  value : UInt64 := 0
deriving DecidableEq, Repr

namespace MonotonicSequence
variable {domain : Type}

instance : Inhabited (MonotonicSequence domain) := ⟨{}⟩

def isValid (n : MonotonicSequence domain) : Bool := n.value != 0

def isNewerThan (n other : MonotonicSequence domain) : Bool :=
  n.isValid && other.isValid && decide (other.value < n.value)

def tryNext (n : MonotonicSequence domain) : Option (MonotonicSequence domain) :=
  if !n.isValid || n.value == 0xffffffffffffffff then none else some ⟨n.value + 1⟩

/-- The number as a natural; comparisons and bounds are stated on it. -/
def toNat (n : MonotonicSequence domain) : Nat := n.value.toNat

theorem toNat_injective : Function.Injective (toNat : MonotonicSequence domain → Nat) := by
  rintro ⟨a⟩ ⟨b⟩ same
  exact congrArg MonotonicSequence.mk (UInt64.toNat_inj.mp same)

instance : LinearOrder (MonotonicSequence domain) := LinearOrder.lift' toNat toNat_injective

theorem isValid_iff {n : MonotonicSequence domain} : n.isValid ↔ 0 < n.toNat := by
  rw [isValid,bne_iff_ne,ne_eq,← UInt64.toNat_inj,toNat]
  simp [Nat.pos_iff_ne_zero]

theorem isNewerThan_iff {n other : MonotonicSequence domain} :
    n.isNewerThan other ↔ 0 < other.toNat ∧ other.toNat < n.toNat := by
  simp only [isNewerThan,Bool.and_eq_true,isValid_iff,decide_eq_true_eq,UInt64.lt_iff_toNat_lt]
  simp only [toNat]
  omega

theorem tryNext_toNat {n next : MonotonicSequence domain} (stepped : n.tryNext = some next) :
    0 < n.toNat ∧ next.toNat = n.toNat + 1 := by
  simp only [tryNext] at stepped
  split_ifs at stepped with stop
  cases stepped
  simp only [Bool.or_eq_true,Bool.not_eq_true',beq_iff_eq,not_or,Bool.not_eq_false] at stop
  obtain ⟨valid,notLast⟩ := stop
  have below : n.value.toNat ≠ 18446744073709551615 := fun h => notLast (UInt64.toNat_inj.mp h)
  have bound := n.value.toNat_lt
  refine ⟨isValid_iff.mp valid,?_⟩
  simp only [toNat,UInt64.toNat_add,UInt64.toNat_one]
  omega

end MonotonicSequence

inductive ReplicationEpochDomain
inductive ReliableReplicationSequenceDomain
inductive RealtimeStateSequenceDomain
inductive RemoteEventSequenceDomain
inductive RemotePublicationIdDomain
inductive RemoteRequestIdDomain
inductive StateChannelIdDomain

abbrev ReplicationEpoch := MonotonicSequence ReplicationEpochDomain
abbrev ReliableReplicationSequence := MonotonicSequence ReliableReplicationSequenceDomain
abbrev RealtimeStateSequence := MonotonicSequence RealtimeStateSequenceDomain
abbrev RemoteEventSequence := MonotonicSequence RemoteEventSequenceDomain
abbrev RemotePublicationId := MonotonicSequence RemotePublicationIdDomain
abbrev RemoteRequestId := MonotonicSequence RemoteRequestIdDomain
abbrev StateChannelId := MonotonicSequence StateChannelIdDomain

end Gargantuan
