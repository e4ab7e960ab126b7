import Gargantuan.ReliableByteAdmissionSound
import Gargantuan.OrdinaryServicePolicy

/-!
Both kinds of credit, that of reliable bytes and that of ordinary traffic, grow as a
level in millionths does: at a rate, up to a cap. The shortcut for a long time, the
carry and its reset at the cap only compute this. So no matter at which times a credit
is looked at, it comes to the same (`credit_of_polling`), and no machine word wraps.
-/
namespace Gargantuan
open Option Function Nat
open TokenBucket (grow grow_grow)

/-! Operations on machine words, which fail where they would wrap or divide by zero. -/

def checkedSub (a b : Nat) : Option Nat := if b ≤ a then some (a - b) else none
def checkedAdd (a b : Nat) : Option Nat := if a + b ≤ maximumUInt64 then some (a + b) else none
def checkedMul (a b : Nat) : Option Nat := if a * b ≤ maximumUInt64 then some (a * b) else none
def checkedDiv (a b : Nat) : Option Nat := if b = 0 then none else some (a / b)

variable {a b : Nat}

theorem checkedSub_eq (enough : b ≤ a) : checkedSub a b = some (a - b) := if_pos enough
theorem checkedAdd_eq (fits : a + b ≤ maximumUInt64) : checkedAdd a b = some (a + b) := if_pos fits
theorem checkedMul_eq (fits : a * b ≤ maximumUInt64) : checkedMul a b = some (a * b) := if_pos fits
theorem checkedDiv_eq (positive : 0 < b) : checkedDiv a b = some (a / b) := if_neg positive.ne'

namespace Bucket
variable {b : Bucket} {now rate cap : Nat}

/-- `refill` with every operation that is not bounded by its own operands checked. -/
def checkedRefill (b : Bucket) (now rate cap : Nat) : Option Bucket := do
  let elapsed ← checkedSub now b.updated
  let remaining ← checkedSub cap b.bytes
  let seconds := elapsed / 1000000
  let whole ← checkedDiv remaining rate
  if whole < seconds then return ⟨cap,0,now⟩
  let gained ← checkedMul (elapsed % 1000000) rate
  let fraction ← checkedAdd gained b.remainder
  let product ← checkedMul seconds rate
  let added ← checkedAdd product (fraction / 1000000)
  let bytes ← checkedAdd b.bytes (min remaining added)
  return ⟨bytes,if bytes = cap then 0 else fraction % 1000000,now⟩

structure Bounded (rate cap : Nat) : Prop where
  positive : 0 < rate
  second : rate * 999999 + 999999 ≤ maximumUInt64
  cap : 2 * cap ≤ maximumUInt64

theorem checkedRefill_eq (within : b.Within cap now) (bounded : Bounded rate cap) :
    b.checkedRefill now rate cap = some (b.refill now rate cap) := by
  obtain ⟨bytes,part,later⟩ := within
  obtain ⟨positive,second,capped⟩ := bounded
  unfold checkedRefill refill
  simp only [sub64_eq later,sub64_eq bytes,checkedSub_eq later,checkedSub_eq bytes,checkedDiv_eq positive,
    bind_eq_bind,bind_some]
  split
  · rfl
  next fits =>
  have product : (now - b.updated) / 1000000 * rate ≤ cap - b.bytes :=
    (le_div_iff_mul_le positive).mp (not_lt.mp fits)
  have gained : (now - b.updated) % 1000000 * rate ≤ rate * 999999 := by
    rw [mul_comm]
    exact mul_le_mul_left rate (by omega)
  rw [checkedMul_eq (by omega),bind_some,checkedAdd_eq (by omega),bind_some,
    checkedMul_eq (by omega),bind_some,checkedAdd_eq (by omega),bind_some,checkedAdd_eq (by omega),
    bind_some]
  rfl

theorem refill_eq (within : b.Within cap now) (positive : 0 < rate) :
    b.refill now rate cap = ⟨grow 1000000 rate cap b.micros (now - b.updated) / 1000000,
      grow 1000000 rate cap b.micros (now - b.updated) % 1000000,now⟩ := by
  obtain ⟨bytes,part,later⟩ := within
  unfold refill grow
  rw [sub64_eq later,sub64_eq bytes,micros]
  dsimp only
  generalize now - b.updated = elapsed
  have split : rate * elapsed = elapsed / 1000000 * rate * 1000000 + elapsed % 1000000 * rate := by
    conv_lhs => rw [← Nat.div_add_mod elapsed 1000000]
    ring
  rw [split]
  by_cases full : (cap - b.bytes) / rate < elapsed / 1000000
  · have short : cap - b.bytes < elapsed / 1000000 * rate := (Nat.div_lt_iff_lt_mul positive).mp full
    rw [if_pos full,Nat.min_eq_right (by omega),Nat.mul_div_cancel _ (by decide),Nat.mul_mod_left]
  rw [if_neg full]
  generalize elapsed / 1000000 * rate = seconds
  generalize elapsed % 1000000 * rate = fraction
  rcases Nat.lt_or_ge (seconds + (fraction + b.remainder) / 1000000) (cap - b.bytes) with fits | fills
  · rw [Nat.min_eq_right fits.le,if_neg (by omega),Nat.min_eq_left (by omega)]
    congr 1
    · omega
    · omega
  · rw [Nat.min_eq_left fills,if_pos (by omega),Nat.min_eq_right (by omega),Nat.mul_div_cancel _ (by decide),
      Nat.mul_mod_left,Nat.add_sub_cancel' bytes]

theorem refill_refill {first second : Nat} (within : b.Within cap first) (positive : 0 < rate) (later : first ≤ second) :
    (b.refill first rate cap).refill second rate cap = b.refill second rate cap := by
  obtain ⟨middle,updated,-⟩ := refill_spec within positive
  have level : (b.refill first rate cap).micros = grow 1000000 rate cap b.micros (first - b.updated) := by
    rw [refill_eq within positive,micros]
    exact div_add_mod' _ _
  have sum : first - b.updated + (second - first) = second - b.updated := by
    have := within.updated
    omega
  rw [refill_eq (middle.later later) positive,refill_eq (within.later later) positive,level,updated,grow_grow,sum]

end Bucket

theorem ReliableServiceProfile.bounded_of_isValid {profile : ReliableServiceProfile} (valid : profile.isValid) :
    Bucket.Bounded profile.peerRate profile.peerCap ∧ Bucket.Bounded profile.globalRate profile.globalCap := by
  obtain ⟨peerPositive,globalPositive,peer,all⟩ := rates_of_isValid valid
  have caps : 2 * profile.peerCap ≤ maximumUInt64 ∧ 2 * profile.globalCap ≤ maximumUInt64 := by
    unfold peerCap globalCap
    cases pooled : profile.isPooled with
    | true =>
      obtain ⟨-,-,-,-,peer,all⟩ := pooled_of_isValid valid pooled
      rw [if_pos rfl,if_pos rfl,peer,all]
      decide
    | false =>
      obtain ⟨-,-,-,-,peer,all⟩ := reserved_of_isValid valid pooled
      exact ⟨(mul_le_mul_left 2 peer).trans (by decide),(mul_le_mul_left 2 all).trans (by decide)⟩
  exact ⟨⟨peerPositive,peer,caps.1⟩,⟨globalPositive,all,caps.2⟩⟩

namespace OrdinarySourceBucket
variable {b b' : OrdinarySourceBucket} {time n : Nat}

/-- A bucket that has no time yet is as it was made. -/
def Timed (b : OrdinarySourceBucket) : Prop := b.updated = 0 → b = full b.rate b.cap

theorem advance_updated (advanced : b.advance time = some b') : b'.updated = time ∧ time ≠ 0 ∧ b.updated ≤ time := by
  unfold advance at advanced
  dsimp only at advanced
  split_ifs at advanced with early
  all_goals
    cases advanced
    exact ⟨rfl,by omega,by omega⟩

theorem Timed.refilled (timed : b.Timed) (refilled : Refilled time b b') : b'.Timed := by
  rcases refilled with rfl | advanced
  · exact timed
  · obtain ⟨updated,positive,-⟩ := advance_updated advanced
    exact fun none => absurd (updated.symm.trans none) positive

theorem Timed.charged (charged : Charged time n b b') : b'.Timed := by
  obtain ⟨grown,advanced,-,same⟩ := charged
  obtain ⟨updated,positive,-⟩ := advance_updated advanced
  rw [same]
  exact fun none => absurd (updated.symm.trans none) positive

theorem advance_eq (capped : b.credit ≤ b.cap) (fraction : b.fraction < 1000000) (refills : b.cap ≤ b.rate)
    (begun : b.updated ≠ 0) (later : b.updated ≤ time) :
    b.advance time = some { b with
      credit := grow 1000000 b.rate b.cap b.level (time - b.updated) / 1000000
      fraction := grow 1000000 b.rate b.cap b.level (time - b.updated) % 1000000
      updated := time } := by
  unfold advance grow level
  rw [if_neg (by omega),if_neg begun]
  dsimp only
  generalize time - b.updated = elapsed
  split_ifs with long fills
  · have filled := Nat.mul_le_mul refills long
    rw [Nat.min_eq_right (by omega),Nat.mul_div_cancel _ (by decide),Nat.mul_mod_left]
  all_goals generalize b.rate * elapsed = gained at fills ⊢
  · rw [Nat.min_eq_right (by omega),Nat.mul_div_cancel _ (by decide),Nat.mul_mod_left]
  · rw [Nat.min_eq_left (by omega)]
    congr 2
    · omega
    · omega

theorem advance_advance {first second : Nat} (capped : b.credit ≤ b.cap) (fraction : b.fraction < 1000000)
    (refills : b.cap ≤ b.rate) (timed : b.Timed) (later : first ≤ second) :
    ((b.advance first).getD b).advance second = b.advance second := by
  cases advanced : b.advance first with
  | none => rfl
  | some middle =>
  obtain ⟨updated,positive,begun⟩ := advance_updated advanced
  rw [getD_some]
  by_cases untimed : b.updated = 0
  · -- A bucket without a time only takes the first one, and is full at any later one.
    have begins : ∀ time, time ≠ 0 → b.advance time = some { b with updated := time } := by
      intro time some
      rw [advance,if_neg (by omega),if_pos untimed]
    rw [begins first positive] at advanced
    cases advanced
    have whole := timed untimed
    have credit : b.credit = b.cap := congrArg credit whole
    have none : b.fraction = 0 := congrArg OrdinarySourceBucket.fraction whole
    rw [begins second (by omega),advance_eq (b := { b with updated := first }) capped fraction refills positive later,
      grow,level]
    rw [credit,none,Nat.add_zero,Nat.min_eq_right (Nat.le_add_right _ _),Nat.mul_div_cancel _ (by decide),
      Nat.mul_mod_left]
  · rw [advance_eq capped fraction refills untimed begun] at advanced
    cases advanced
    have most : grow 1000000 b.rate b.cap b.level (first - b.updated) ≤ 1000000 * b.cap := by
      rw [Nat.mul_comm 1000000]
      exact Nat.min_le_right _ _
    have sum : first - b.updated + (second - first) = second - b.updated := by omega
    refine (advance_eq (b := { b with credit := _, fraction := _, updated := first }) (Nat.div_le_of_le_mul most)
      (Nat.mod_lt _ (by decide)) refills positive later).trans ?_
    have whole : ∀ n, level { b with credit := n / 1000000, fraction := n % 1000000, updated := first } = n :=
      fun n => Nat.div_add_mod' n 1000000
    rw [advance_eq capped fraction refills untimed (begun.trans later),whole]
    rw [grow_grow,sum]

end OrdinarySourceBucket

namespace OrdinarySources
open OrdinarySourceBucket
variable {Peer : Type} [DecidableEq Peer] {s : OrdinarySources Peer}

def Timed (s : OrdinarySources Peer) : Prop :=
  ∀ peer, ((s.policies peer).messages.Timed ∧ (s.policies peer).bytes.Timed) ∧
    s.budget.messages.Timed ∧ s.budget.bytes.Timed

theorem operate_timed (timed : s.Timed) (o : Operation Peer) : (s.operate o).Timed := by
  cases o with
  | setNormal onOwnerThread value => cases onOwnerThread <;> exact timed
  | setReady onOwnerThread peer value =>
    intro other
    dsimp only [operate]
    by_cases here : other = peer
    · rw [here,update_self]
      cases onOwnerThread <;> exact timed peer
    · rw [update_of_ne here]
      exact timed other
  | accept onOwnerThread peer completeBytes origin time =>
    cases accepted : (s.policies peer).accept s.budget onOwnerThread completeBytes origin time with
    | mk policy rest =>
    obtain ⟨budget,metadata⟩ := rest
    have own : (policy.messages.Timed ∧ policy.bytes.Timed) ∧ budget.messages.Timed ∧ budget.bytes.Timed := by
      obtain ⟨⟨messages,bytes⟩,globalMessages,globalBytes⟩ := timed peer
      obtain ⟨-,⟨-,moves⟩ | ⟨-,-,moves⟩⟩ := OrdinaryServicePolicy.accept_cases accepted
      · exact ⟨⟨messages.refilled moves.messages,bytes.refilled moves.bytes⟩,
          globalMessages.refilled moves.globalMessages,globalBytes.refilled moves.globalBytes⟩
      · exact ⟨⟨.charged moves.messages,.charged moves.bytes⟩,.charged moves.globalMessages,
          .charged moves.globalBytes⟩
    intro other
    dsimp only [operate]
    rw [accepted]
    by_cases here : other = peer
    · rwa [here,update_self]
    · rw [update_of_ne here]
      exact ⟨(timed other).1,own.2⟩

theorem operations_timed (l : List (Operation Peer)) : (operations ({} : OrdinarySources Peer) l).Timed := by
  have run : ∀ s : OrdinarySources Peer, s.Timed → (operations s l).Timed := by
    induction l with
    | nil => exact fun _ timed => timed
    | cons o rest ih => exact fun s timed => ih _ (operate_timed timed o)
  exact run {} fun _ => ⟨⟨fun _ => rfl,fun _ => rfl⟩,fun _ => rfl,fun _ => rfl⟩

end OrdinarySources

/-- The rates and caps of ordinary traffic: of a peer and of all peers, by messages and by bytes. -/
def ordinaryRates : List (Nat × Nat) := [(64,16),(32768,20480),(512,128),(262144,163840)]

/-- Refilling never wraps or divides by zero, and comes to the same at a time no matter at which times before it was
    done; so does the credit of ordinary traffic, whose buckets are full until they have a time in every run. -/
theorem credit_of_polling :
    (∀ (profile : ReliableServiceProfile) (rate cap : Nat) (b : Bucket) (first second : Nat), profile.isValid = true →
      (rate, cap) ∈ [(profile.peerRate, profile.peerCap), (profile.globalRate, profile.globalCap)] →
      b.Within cap first → first ≤ second → b.checkedRefill first rate cap = some (b.refill first rate cap) ∧
        (b.refill first rate cap).checkedRefill second rate cap = some (b.refill second rate cap) ∧
        b.checkedRefill second rate cap = some (b.refill second rate cap)) ∧
    (∀ (b : OrdinarySourceBucket) (first second : Nat), (b.rate, b.cap) ∈ ordinaryRates → b.credit ≤ b.cap →
      b.fraction < 1000000 → b.Timed → first ≤ second → ((b.advance first).getD b).advance second = b.advance second) ∧
    ∀ (Peer : Type) [DecidableEq Peer] (l : List (OrdinarySources.Operation Peer)),
      (OrdinarySources.operations {} l).Timed := by
  refine ⟨?_,?_,fun _ _ l => OrdinarySources.operations_timed l⟩
  · intro profile rate cap b first second valid given within later
    have bounds := profile.bounded_of_isValid valid
    have bounded : Bucket.Bounded rate cap := by
      simp only [List.mem_cons,List.not_mem_nil,or_false,Prod.mk.injEq] at given
      obtain ⟨rfl,rfl⟩ | ⟨rfl,rfl⟩ := given
      · exact bounds.1
      · exact bounds.2
    have middle := (Bucket.refill_spec within bounded.positive).1
    refine ⟨Bucket.checkedRefill_eq within bounded,?_,Bucket.checkedRefill_eq (within.later later) bounded⟩
    rw [Bucket.checkedRefill_eq (middle.later later) bounded,Bucket.refill_refill within bounded.positive later]
  · intro b first second given capped fraction timed later
    have refills : b.cap ≤ b.rate := by
      simp only [ordinaryRates,List.mem_cons,List.not_mem_nil,or_false,Prod.mk.injEq] at given
      omega
    exact OrdinarySourceBucket.advance_advance capped fraction refills timed later

theorem credit_of_polling_fills :
    let b : Bucket := ⟨524287,0,5⟩
    let profile : ReliableServiceProfile := {}
    (b.refill 6 profile.peerRate profile.peerCap).checkedRefill 11 profile.peerRate profile.peerCap =
      some ⟨524288,0,11⟩ :=
  (credit_of_polling.1 {} _ _ ⟨524287,0,5⟩ 6 11 (by decide) (.head _ ..)
    ⟨by decide,by decide,by decide⟩ (by decide)).2.1

end Gargantuan
