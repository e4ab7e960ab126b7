import Gargantuan.TokenBucket

/-!
Which ordinary traffic is protected. Every peer has a credit of messages and one of
bytes, and all peers share one of each; a submission is protected if all four have
room for it, and then takes from all four. What is protected in any window of time is
within the burst and the rate of each credit (`protected_within`).

The owner thread of the shared budget is the one that every call has to come from;
`onOwnerThread` says whether a call does.
-/
namespace Gargantuan
open Function Nat

/-- A credit of messages or bytes. Each cap fits one second of its refill, and the product of the rate and a time
    below one second stays within a machine word. -/
structure OrdinarySourceBucket where
  rate : Nat
  cap : Nat
  credit : Nat
  updated : Nat := 0
  fraction : Nat := 0
deriving DecidableEq

namespace OrdinarySourceBucket

def full (rate cap : Nat) : OrdinarySourceBucket := { rate, cap, credit := cap }

/-- The credit at a time, which is never zero; none if the time moves back. -/
def advance (b : OrdinarySourceBucket) (time : Nat) : Option OrdinarySourceBucket :=
  if time = 0 ∨ (b.updated ≠ 0 ∧ time < b.updated) then none
  else if b.updated = 0 then some { b with updated := time }
  else
    let elapsed := time - b.updated
    if 1000000 ≤ elapsed then some { b with updated := time, credit := b.cap, fraction := 0 }
    else
      let numerator := b.rate * elapsed + b.fraction
      let added := numerator / 1000000
      if b.cap - b.credit ≤ added then some { b with updated := time, credit := b.cap, fraction := 0 }
      else some { b with updated := time, credit := b.credit + added, fraction := numerator % 1000000 }

end OrdinarySourceBucket

/-- When a submission was accepted, where it came from, and whether it is protected. -/
structure OrdinaryServiceMetadata where
  acceptedAtMicroseconds : Nat := 0
  origin : Nat := 6
  isProtected : Bool := false
deriving DecidableEq

structure OrdinaryServiceBudget where
  messages : OrdinarySourceBucket := .full 512 128
  bytes : OrdinarySourceBucket := .full 262144 163840
  normal : Bool := true
deriving DecidableEq

/-- A change of scope never refills a budget. -/
def OrdinaryServiceBudget.setNormal (g : OrdinaryServiceBudget) (onOwnerThread value : Bool) : OrdinaryServiceBudget × Bool :=
  if onOwnerThread then ({ g with normal := value },true) else (g,false)

structure OrdinaryServicePolicy where
  messages : OrdinarySourceBucket := .full 64 16
  bytes : OrdinarySourceBucket := .full 32768 20480
  ready : Bool := false
deriving DecidableEq

namespace OrdinaryServicePolicy

def setReady (p : OrdinaryServicePolicy) (onOwnerThread value : Bool) : OrdinaryServicePolicy × Bool :=
  if onOwnerThread then ({ p with ready := value },true) else (p,false)

/-- The four credits grow one after the other, up to the first whose time would move back; a submission that the
    transport may not take is not charged yet. -/
def prepare (p : OrdinaryServicePolicy) (g : OrdinaryServiceBudget) (onOwnerThread : Bool)
    (completeBytes origin time : Nat) : OrdinaryServicePolicy × OrdinaryServiceBudget × OrdinaryServiceMetadata :=
  let result : OrdinaryServiceMetadata := ⟨time,origin,false⟩
  if onOwnerThread = false ∨ p.ready = false ∨ g.normal = false ∨ completeBytes = 0 ∨ 6 < origin then (p,g,result)
  else
    match p.messages.advance time with
    | none => (p,g,result)
    | some messages =>
      match p.bytes.advance time with
      | none => ({ p with messages },g,result)
      | some bytes =>
        match g.messages.advance time with
        | none => ({ p with messages, bytes },g,result)
        | some globalMessages =>
          match g.bytes.advance time with
          | none => ({ p with messages, bytes },{ g with messages := globalMessages },result)
          | some globalBytes =>
            ({ p with messages, bytes },{ g with messages := globalMessages, bytes := globalBytes },
              { result with
                isProtected := decide (messages.credit ≠ 0) && decide (globalMessages.credit ≠ 0) &&
                  decide (completeBytes ≤ bytes.credit) && decide (completeBytes ≤ globalBytes.credit) })

def take (b : OrdinarySourceBucket) (n : Nat) : OrdinarySourceBucket := { b with credit := b.credit - n }

/-- A prepared submission that is protected is charged; its membership is not reconsidered. -/
def commit (p : OrdinaryServicePolicy) (g : OrdinaryServiceBudget) (onOwnerThread : Bool) (completeBytes : Nat)
    (accepted : OrdinaryServiceMetadata) : OrdinaryServicePolicy × OrdinaryServiceBudget × Bool :=
  if accepted.acceptedAtMicroseconds = 0 ∨ 6 < accepted.origin ∨ completeBytes = 0 then (p,g,false)
  else if accepted.isProtected = false then (p,g,true)
  else if onOwnerThread = false then (p,g,false)
  else if p.messages.credit = 0 ∨ g.messages.credit = 0 ∨ p.bytes.credit < completeBytes ∨
      g.bytes.credit < completeBytes then (p,g,false)
  else
    ({ p with messages := take p.messages 1, bytes := take p.bytes completeBytes },
      { g with messages := take g.messages 1, bytes := take g.bytes completeBytes },true)

def accept (p : OrdinaryServicePolicy) (g : OrdinaryServiceBudget) (onOwnerThread : Bool)
    (completeBytes origin time : Nat) : OrdinaryServicePolicy × OrdinaryServiceBudget × OrdinaryServiceMetadata :=
  let (p,g,result) := p.prepare g onOwnerThread completeBytes origin time
  let (p,g,done) := p.commit g onOwnerThread completeBytes result
  (p,g,if done then result else { result with isProtected := false })

end OrdinaryServicePolicy

structure OrdinarySubmission (Peer : Type) where
  peer : Peer
  completeBytes : Nat
  metadata : OrdinaryServiceMetadata

structure OrdinarySources (Peer : Type) where
  budget : OrdinaryServiceBudget := {}
  policies : Peer → OrdinaryServicePolicy := fun _ => {}
  submissions : List (OrdinarySubmission Peer) := []

inductive OrdinarySources.Operation (Peer : Type) where
  | accept (onOwnerThread : Bool) (peer : Peer) (completeBytes origin time : Nat)
  | setReady (onOwnerThread : Bool) (peer : Peer) (value : Bool)
  | setNormal (onOwnerThread : Bool) (value : Bool)

namespace OrdinarySources
variable {Peer : Type} [DecidableEq Peer]

def operate (s : OrdinarySources Peer) : Operation Peer → OrdinarySources Peer
  | .accept onOwnerThread peer completeBytes origin time =>
    let (policy,budget,metadata) := (s.policies peer).accept s.budget onOwnerThread completeBytes origin time
    ⟨budget,Function.update s.policies peer policy,⟨peer,completeBytes,metadata⟩ :: s.submissions⟩
  | .setReady onOwnerThread peer value =>
    { s with policies := Function.update s.policies peer ((s.policies peer).setReady onOwnerThread value).1 }
  | .setNormal onOwnerThread value => { s with budget := (s.budget.setNormal onOwnerThread value).1 }

def operations (s : OrdinarySources Peer) (l : List (Operation Peer)) : OrdinarySources Peer := l.foldl operate s

omit [DecidableEq Peer] in
def protectedIn (start length : Nat) (measure : OrdinarySubmission Peer → Nat) (l : List (OrdinarySubmission Peer)) : Nat :=
  (l.map fun s =>
    if s.metadata.isProtected = true ∧ start ≤ s.metadata.acceptedAtMicroseconds ∧
        s.metadata.acceptedAtMicroseconds ≤ start + length then measure s else 0).sum

end OrdinarySources

namespace OrdinarySourceBucket
variable {b b' : OrdinarySourceBucket} {time start length spent n : Nat}

def level (b : OrdinarySourceBucket) : Nat := b.credit * 1000000 + b.fraction

structure Sound (b : OrdinarySourceBucket) : Prop where
  capped : b.credit ≤ b.cap
  fraction : b.fraction < 1000000
  whole : b.credit = b.cap → b.fraction = 0
  refills : b.cap ≤ b.rate

theorem Sound.level_le (sound : b.Sound) : b.level ≤ b.cap * 1000000 := by
  obtain ⟨capped,fraction,whole,-⟩ := sound
  unfold level
  by_cases filled : b.credit = b.cap
  · rw [whole filled,filled,add_zero]
  · omega

theorem advance_spec (sound : b.Sound) (advanced : b.advance time = some b') :
    b'.Sound ∧ b'.rate = b.rate ∧ b'.cap = b.cap ∧ b'.updated = time ∧ b.updated ≤ time ∧ b.credit ≤ b'.credit ∧
      b'.level ≤ b.level + b.rate * (time - b.updated) := by
  obtain ⟨capped,fraction,whole,refills⟩ := sound
  unfold advance at advanced
  dsimp only at advanced
  split at advanced
  · cases advanced
  next moves =>
  push Not at moves
  obtain ⟨-,later⟩ := moves
  split at advanced
  next fresh =>
    cases advanced
    exact ⟨⟨capped,fraction,whole,refills⟩,rfl,rfl,rfl,by omega,le_rfl,Nat.le_add_right _ _⟩
  next old =>
  have later := later old
  generalize elapsed_eq : time - b.updated = elapsed at advanced ⊢
  split at advanced
  next long =>
    cases advanced
    have filled := Nat.mul_le_mul refills long
    refine ⟨⟨le_rfl,(by omega : 0 < 1000000),fun _ => rfl,refills⟩,rfl,rfl,rfl,later,capped,?_⟩
    unfold level
    rw [Nat.add_zero]
    exact filled.trans (Nat.le_add_left _ _)
  generalize b.rate * elapsed = gained at advanced ⊢
  have small := Nat.mod_lt (gained + b.fraction) (by decide : 0 < 1000000)
  unfold level at *
  split at advanced
  next fills =>
    cases advanced
    refine ⟨⟨le_rfl,?_,fun _ => rfl,refills⟩,rfl,rfl,rfl,later,capped,?_⟩
    · dsimp only
      omega
    · dsimp only
      omega
  next fits =>
    cases advanced
    exact ⟨⟨by dsimp only; omega,small,by dsimp only; omega,refills⟩,rfl,rfl,rfl,later,Nat.le_add_right _ _,
      by dsimp only; omega⟩

/-- A bucket that is left as it is, or only grows. -/
def Refilled (time : Nat) (b b' : OrdinarySourceBucket) : Prop := b' = b ∨ b.advance time = some b'

def Charged (time n : Nat) (b b' : OrdinarySourceBucket) : Prop :=
  ∃ grown, b.advance time = some grown ∧ b'.credit + n = grown.credit ∧ b' = { grown with credit := b'.credit }

structure Follows (b : OrdinarySourceBucket) (start length spent : Nat) : Prop where
  sound : b.Sound
  account : TokenBucket.Account 1000000 b.rate b.cap start length b.level b.updated spent

theorem follows_full {rate cap : Nat} (refills : cap ≤ rate) : (full rate cap).Follows start length 0 := by
  have sound : (full rate cap).Sound := ⟨le_rfl,(by omega : 0 < 1000000),fun _ => rfl,refills⟩
  exact ⟨sound,.opened sound.level_le⟩

variable (follows : b.Follows start length spent)
include follows

theorem Follows.advance (advanced : b.advance time = some b') :
    b'.Follows start length spent ∧ b'.rate = b.rate ∧ b'.cap = b.cap ∧ b'.updated = time := by
  obtain ⟨sound,rate,cap,updated,later,-,grown⟩ := advance_spec follows.sound advanced
  refine ⟨⟨sound,?_⟩,rate,cap,updated⟩
  have most := sound.level_le
  rw [cap] at most
  rw [rate,cap,updated]
  exact follows.account.refill later grown most

theorem Follows.refilled (refilled : Refilled time b b') :
    b'.Follows start length spent ∧ b'.rate = b.rate ∧ b'.cap = b.cap := by
  rcases refilled with rfl | advanced
  · exact ⟨follows,rfl,rfl⟩
  · obtain ⟨after,rate,cap,-⟩ := follows.advance advanced
    exact ⟨after,rate,cap⟩

theorem Follows.charged (charged : Charged time n b b') (positive : 0 < n) :
    b'.Follows start length ((if start ≤ time ∧ time ≤ start + length then n else 0) + spent) ∧ b'.rate = b.rate ∧
      b'.cap = b.cap := by
  obtain ⟨grown,advanced,gives,same⟩ := charged
  obtain ⟨⟨sound,account⟩,rate,cap,updated⟩ := follows.advance advanced
  have level : b'.level = grown.level - n * 1000000 := by
    unfold OrdinarySourceBucket.level
    rw [same]
    dsimp only
    omega
  have enough : n * 1000000 ≤ grown.level := by
    unfold OrdinarySourceBucket.level
    omega
  have sound' : b'.Sound := by
    obtain ⟨capped,fraction,-,refills⟩ := sound
    rw [same]
    exact ⟨by dsimp only; omega,fraction,by dsimp only; omega,refills⟩
  have rate' : b'.rate = grown.rate := by rw [same]
  have cap' : b'.cap = grown.cap := by rw [same]
  have updated' : b'.updated = grown.updated := by rw [same]
  refine ⟨⟨sound',?_⟩,rate'.trans rate,cap'.trans cap⟩
  rw [rate',cap',level,updated']
  split
  next inside =>
    rw [add_comm]
    exact account.spend enough (inside.1.trans_eq updated.symm) (updated.le.trans inside.2)
  next => rw [zero_add]; exact account.spend_outside n

end OrdinarySourceBucket

namespace OrdinaryServicePolicy
open OrdinarySourceBucket (Refilled Charged)

structure Moves (moved moved' : OrdinarySourceBucket → OrdinarySourceBucket → Prop) (p p' : OrdinaryServicePolicy)
    (g g' : OrdinaryServiceBudget) : Prop where
  messages : moved p.messages p'.messages
  bytes : moved' p.bytes p'.bytes
  globalMessages : moved g.messages g'.messages
  globalBytes : moved' g.bytes g'.bytes

variable {p p' : OrdinaryServicePolicy} {g g' : OrdinaryServiceBudget} {onOwnerThread : Bool}
  {completeBytes origin time : Nat} {result : OrdinaryServiceMetadata}

theorem prepare_cases (prepared : p.prepare g onOwnerThread completeBytes origin time = (p',g',result)) :
    result.acceptedAtMicroseconds = time ∧
      (result.isProtected = false ∧ Moves (Refilled time) (Refilled time) p p' g g' ∨
        result.isProtected ∧ onOwnerThread ∧ time ≠ 0 ∧ origin ≤ 6 ∧ result.origin = origin ∧
          0 < completeBytes ∧ 0 < p'.messages.credit ∧ 0 < g'.messages.credit ∧ completeBytes ≤ p'.bytes.credit ∧
          completeBytes ≤ g'.bytes.credit ∧ Moves (fun b b' => b.advance time = some b')
            (fun b b' => b.advance time = some b') p p' g g') := by
  have same : Moves (Refilled time) (Refilled time) p p g g := ⟨.inl rfl,.inl rfl,.inl rfl,.inl rfl⟩
  unfold prepare at prepared
  split at prepared
  · cases prepared
    exact ⟨rfl,.inl ⟨rfl,same⟩⟩
  next normal =>
  push Not at normal
  obtain ⟨owner,-,-,some,known⟩ := normal
  cases messages : p.messages.advance time with
  | none =>
    rw [messages] at prepared
    cases prepared
    exact ⟨rfl,.inl ⟨rfl,same⟩⟩
  | some m =>
  cases bytes : p.bytes.advance time with
  | none =>
    rw [messages,bytes] at prepared
    cases prepared
    exact ⟨rfl,.inl ⟨rfl,{ same with messages := .inr messages }⟩⟩
  | some b =>
  cases globalMessages : g.messages.advance time with
  | none =>
    rw [messages,bytes,globalMessages] at prepared
    cases prepared
    exact ⟨rfl,.inl ⟨rfl,{ same with messages := .inr messages, bytes := .inr bytes }⟩⟩
  | some gm =>
  cases globalBytes : g.bytes.advance time with
  | none =>
    rw [messages,bytes,globalMessages,globalBytes] at prepared
    cases prepared
    exact ⟨rfl,.inl ⟨rfl,⟨.inr messages,.inr bytes,.inr globalMessages,.inl rfl⟩⟩⟩
  | some gb =>
  rw [messages,bytes,globalMessages,globalBytes] at prepared
  cases prepared
  refine ⟨rfl,?_⟩
  cases protects : decide (m.credit ≠ 0) && decide (gm.credit ≠ 0) && decide (completeBytes ≤ b.credit) &&
      decide (completeBytes ≤ gb.credit) with
  | false => exact .inl ⟨rfl,⟨.inr messages,.inr bytes,.inr globalMessages,.inr globalBytes⟩⟩
  | true =>
    simp only [Bool.and_eq_true,decide_eq_true_eq] at protects
    obtain ⟨⟨⟨room,globalRoom⟩,fits⟩,globalFits⟩ := protects
    have positive : time ≠ 0 := by
      rintro rfl
      simp [OrdinarySourceBucket.advance] at messages
    exact .inr ⟨rfl,eq_true_of_ne_false owner,positive,known,rfl,pos_of_ne_zero some,
      pos_of_ne_zero room,pos_of_ne_zero globalRoom,fits,globalFits,
      ⟨messages,bytes,globalMessages,globalBytes⟩⟩

theorem charged_take {b grown : OrdinarySourceBucket} {n : Nat} (advanced : b.advance time = some grown)
    (enough : n ≤ grown.credit) : Charged time n b (take grown n) :=
  ⟨grown,advanced,Nat.sub_add_cancel enough,rfl⟩

theorem accept_cases (accepted : p.accept g onOwnerThread completeBytes origin time = (p',g',result)) :
    result.acceptedAtMicroseconds = time ∧
      (result.isProtected = false ∧ Moves (Refilled time) (Refilled time) p p' g g' ∨
        result.isProtected ∧ 0 < completeBytes ∧ Moves (Charged time 1) (Charged time completeBytes) p p' g g') := by
  unfold accept at accepted
  cases prepared : p.prepare g onOwnerThread completeBytes origin time with
  | mk q rest =>
  obtain ⟨h,metadata⟩ := rest
  rw [prepared] at accepted
  dsimp only at accepted
  obtain ⟨clock,⟨plain,moves⟩ |
    ⟨protects,owner,positive,known,kind,some,room,globalRoom,fits,globalFits,moves⟩⟩ := prepare_cases prepared
  · have kept : ∃ done, q.commit h onOwnerThread completeBytes metadata = (q,h,done) := by
      unfold commit
      split
      · exact ⟨false,rfl⟩
      · exact ⟨true,rfl⟩
    obtain ⟨done,kept⟩ := kept
    rw [kept] at accepted
    cases done with
    | false =>
      cases accepted
      exact ⟨clock,.inl ⟨rfl,moves⟩⟩
    | true =>
      cases accepted
      exact ⟨clock,.inl ⟨plain,moves⟩⟩
  · have charged : q.commit h onOwnerThread completeBytes metadata =
        ({ q with messages := take q.messages 1, bytes := take q.bytes completeBytes },
          { h with messages := take h.messages 1, bytes := take h.bytes completeBytes },true) := by
      unfold commit
      rw [if_neg (by omega),if_neg (by rw [protects]; exact Bool.true_eq_false_eq_False),if_neg (by rw [owner]; exact Bool.true_eq_false_eq_False),
        if_neg (by omega)]
    rw [charged] at accepted
    cases accepted
    exact ⟨clock,.inr ⟨protects,some,charged_take moves.messages room,charged_take moves.bytes fits,
      charged_take moves.globalMessages globalRoom,charged_take moves.globalBytes globalFits⟩⟩

end OrdinaryServicePolicy

namespace OrdinarySources
open OrdinaryServicePolicy (Moves accept_cases)
open OrdinarySourceBucket (Refilled Charged Follows)
variable {Peer : Type} [DecidableEq Peer] {s : OrdinarySources Peer} {start length : Nat}

def messagesOf (peer : Peer) (s : OrdinarySubmission Peer) : Nat := if s.peer = peer then 1 else 0
def bytesOf (peer : Peer) (s : OrdinarySubmission Peer) : Nat := if s.peer = peer then s.completeBytes else 0

structure PolicySound (start length : Nat) (p : OrdinaryServicePolicy) (spent spentBytes : Nat) : Prop where
  messages : p.messages.Follows start length spent
  bytes : p.bytes.Follows start length spentBytes
  rates : p.messages.rate = 64 ∧ p.messages.cap = 16 ∧ p.bytes.rate = 32768 ∧ p.bytes.cap = 20480

structure BudgetSound (start length : Nat) (g : OrdinaryServiceBudget) (spent spentBytes : Nat) : Prop where
  messages : g.messages.Follows start length spent
  bytes : g.bytes.Follows start length spentBytes
  rates : g.messages.rate = 512 ∧ g.messages.cap = 128 ∧ g.bytes.rate = 262144 ∧ g.bytes.cap = 163840

structure Sound (start length : Nat) (s : OrdinarySources Peer) : Prop where
  peers : ∀ peer, PolicySound start length (s.policies peer) (protectedIn start length (messagesOf peer) s.submissions)
    (protectedIn start length (bytesOf peer) s.submissions)
  budget : BudgetSound start length s.budget (protectedIn start length (fun _ => 1) s.submissions)
    (protectedIn start length OrdinarySubmission.completeBytes s.submissions)

theorem sound_empty (start length : Nat) : Sound start length ({} : OrdinarySources Peer) := by
  refine ⟨fun _ => ⟨?_,?_,rfl,rfl,rfl,rfl⟩,⟨?_,?_,rfl,rfl,rfl,rfl⟩⟩
  · exact OrdinarySourceBucket.follows_full (by decide)
  · exact OrdinarySourceBucket.follows_full (by decide)
  · exact OrdinarySourceBucket.follows_full (by decide)
  · exact OrdinarySourceBucket.follows_full (by decide)

def gain (start length n : Nat) (metadata : OrdinaryServiceMetadata) : Nat :=
  if metadata.isProtected = true ∧ start ≤ metadata.acceptedAtMicroseconds ∧
    metadata.acceptedAtMicroseconds ≤ start + length then n else 0

omit [DecidableEq Peer] in
theorem protectedIn_cons (measure : OrdinarySubmission Peer → Nat) (x : OrdinarySubmission Peer)
    (l : List (OrdinarySubmission Peer)) : protectedIn start length measure (x :: l) =
      gain start length (measure x) x.metadata + protectedIn start length measure l := by
  rfl

theorem gain_zero (metadata : OrdinaryServiceMetadata) : gain start length 0 metadata = 0 := ite_self 0

variable {metadata : OrdinaryServiceMetadata}

theorem follows_moved {b b' : OrdinarySourceBucket} {time spent n : Nat}
    (follows : b.Follows start length spent) (clock : metadata.acceptedAtMicroseconds = time)
    (moved : metadata.isProtected = false ∧ Refilled time b b' ∨ metadata.isProtected ∧ 0 < n ∧ Charged time n b b') :
    b'.Follows start length (gain start length n metadata + spent) ∧ b'.rate = b.rate ∧ b'.cap = b.cap := by
  rcases moved with ⟨plain,refilled⟩ | ⟨protects,positive,charged⟩
  · have none : gain start length n metadata = 0 := if_neg (by rw [plain]; exact fun inside => Bool.noConfusion inside.1)
    rw [none,zero_add]
    exact follows.refilled refilled
  · have some : gain start length n metadata = if start ≤ time ∧ time ≤ start + length then n else 0 := by
      rw [gain,clock]
      simp only [protects,true_and]
    rw [some]
    exact follows.charged charged positive

theorem accept_follows {p p' : OrdinaryServicePolicy} {g g' : OrdinaryServiceBudget} {onOwnerThread : Bool}
    {completeBytes origin time spent spentBytes total totalBytes : Nat}
    (accepted : p.accept g onOwnerThread completeBytes origin time = (p',g',metadata))
    (own : PolicySound start length p spent spentBytes) (all : BudgetSound start length g total totalBytes) :
    PolicySound start length p' (gain start length 1 metadata + spent)
        (gain start length completeBytes metadata + spentBytes) ∧
      BudgetSound start length g' (gain start length 1 metadata + total)
        (gain start length completeBytes metadata + totalBytes) := by
  obtain ⟨clock,either⟩ := accept_cases accepted
  have moved : (metadata.isProtected = false ∧ Refilled time p.messages p'.messages ∨
        metadata.isProtected = true ∧ 0 < 1 ∧ Charged time 1 p.messages p'.messages) ∧
      (metadata.isProtected = false ∧ Refilled time p.bytes p'.bytes ∨
        metadata.isProtected = true ∧ 0 < completeBytes ∧ Charged time completeBytes p.bytes p'.bytes) ∧
      (metadata.isProtected = false ∧ Refilled time g.messages g'.messages ∨
        metadata.isProtected = true ∧ 0 < 1 ∧ Charged time 1 g.messages g'.messages) ∧
      (metadata.isProtected = false ∧ Refilled time g.bytes g'.bytes ∨
        metadata.isProtected = true ∧ 0 < completeBytes ∧ Charged time completeBytes g.bytes g'.bytes) := by
    rcases either with ⟨plain,moves⟩ | ⟨protects,positive,moves⟩
    · exact ⟨.inl ⟨plain,moves.messages⟩,.inl ⟨plain,moves.bytes⟩,.inl ⟨plain,moves.globalMessages⟩,
        .inl ⟨plain,moves.globalBytes⟩⟩
    · exact ⟨.inr ⟨protects,one_pos,moves.messages⟩,.inr ⟨protects,positive,moves.bytes⟩,
        .inr ⟨protects,one_pos,moves.globalMessages⟩,.inr ⟨protects,positive,moves.globalBytes⟩⟩
  obtain ⟨messages,bytes,globalMessages,globalBytes⟩ := moved
  obtain ⟨m,mr,mc⟩ := follows_moved own.messages clock messages
  obtain ⟨b,br,bc⟩ := follows_moved own.bytes clock bytes
  obtain ⟨gm,gmr,gmc⟩ := follows_moved all.messages clock globalMessages
  obtain ⟨gb,gbr,gbc⟩ := follows_moved all.bytes clock globalBytes
  refine ⟨⟨m,b,?_⟩,⟨gm,gb,?_⟩⟩
  · rw [mr,mc,br,bc]
    exact own.rates
  · rw [gmr,gmc,gbr,gbc]
    exact all.rates

section
variable (sound : Sound start length s)
include sound

theorem accept_sound (onOwnerThread : Bool) (peer : Peer) (completeBytes origin time : Nat) :
    Sound start length (s.operate (.accept onOwnerThread peer completeBytes origin time)) := by
  cases accepted : (s.policies peer).accept s.budget onOwnerThread completeBytes origin time with
  | mk policy rest =>
  obtain ⟨budget,metadata⟩ := rest
  have same : s.operate (.accept onOwnerThread peer completeBytes origin time) =
      ⟨budget,update s.policies peer policy,⟨peer,completeBytes,metadata⟩ :: s.submissions⟩ := by
    rw [operate,accepted]
  rw [same]
  obtain ⟨own,all⟩ := accept_follows accepted (sound.peers peer) sound.budget
  constructor
  · intro other
    rw [protectedIn_cons,protectedIn_cons,messagesOf,bytesOf]
    dsimp only
    by_cases here : peer = other
    · rwa [← here,update_self,if_pos rfl,if_pos rfl]
    · rw [update_of_ne (Ne.symm here),if_neg here,if_neg here,gain_zero,zero_add,zero_add]
      exact sound.peers other
  · dsimp only
    exact all

theorem setReady_sound (onOwnerThread : Bool) (peer : Peer) (value : Bool) :
    Sound start length (s.operate (.setReady onOwnerThread peer value)) := by
  refine ⟨?_,sound.budget⟩
  intro other
  dsimp only [operate]
  by_cases here : other = peer
  · have holds := sound.peers peer
    rw [here,update_self]
    cases onOwnerThread with
    | false => exact holds
    | true => exact ⟨holds.messages,holds.bytes,holds.rates⟩
  · rw [update_of_ne here]
    exact sound.peers other

theorem operate_sound (o : Operation Peer) : Sound start length (s.operate o) := by
  cases o with
  | accept onOwnerThread peer completeBytes origin time =>
    exact accept_sound sound onOwnerThread peer completeBytes origin time
  | setReady onOwnerThread peer value => exact setReady_sound sound onOwnerThread peer value
  | setNormal onOwnerThread value =>
    cases onOwnerThread with
    | false => exact sound
    | true => exact ⟨sound.peers,⟨sound.budget.messages,sound.budget.bytes,sound.budget.rates⟩⟩

theorem operations_sound (l : List (Operation Peer)) : Sound start length (operations s l) := by
  induction l generalizing s with
  | nil => exact sound
  | cons o rest ih => exact ih (operate_sound sound o)

end

/-- What is protected, and what it does to the credits, after some operations. -/
structure WithinRates (s : OrdinarySources Peer) : Prop where
  messages : ∀ peer start length,
    protectedIn start length (messagesOf peer) s.submissions ≤ 16 + 64 * length / 1000000
  bytes : ∀ peer start length,
    protectedIn start length (bytesOf peer) s.submissions ≤ 20480 + 32768 * length / 1000000
  globalMessages : ∀ start length, protectedIn start length (fun _ => 1) s.submissions ≤ 128 + 512 * length / 1000000
  globalBytes : ∀ start length,
    protectedIn start length OrdinarySubmission.completeBytes s.submissions ≤ 163840 + 262144 * length / 1000000
  charged : ∀ peer onOwnerThread completeBytes origin time policy budget metadata,
    (s.policies peer).accept s.budget onOwnerThread completeBytes origin time = (policy,budget,metadata) →
      metadata.isProtected = true →
        Moves (Charged time 1) (Charged time completeBytes) (s.policies peer) policy s.budget budget
  unprotected : ∀ peer onOwnerThread completeBytes origin time policy budget metadata,
    (s.policies peer).accept s.budget onOwnerThread completeBytes origin time = (policy,budget,metadata) →
      metadata.isProtected = false →
        Moves (Refilled time) (Refilled time) (s.policies peer) policy s.budget budget
  whole : ∀ peer, ((s.policies peer).messages.Sound ∧ (s.policies peer).bytes.Sound) ∧
    s.budget.messages.Sound ∧ s.budget.bytes.Sound

/-- Along every run, what is protected for one peer and for all peers together in any window of time is within the
    burst and the rate, by messages and by bytes; a protected submission takes from the credits what they have, and
    one that is not protected takes nothing: each credit stays or only grows to its time. -/
theorem protected_within (l : List (Operation Peer)) : WithinRates (operations ({} : OrdinarySources Peer) l) := by
  have sound : ∀ start length, Sound start length (operations ({} : OrdinarySources Peer) l) :=
    fun start length => operations_sound (sound_empty start length) l
  refine ⟨?_,?_,?_,?_,?_,?_,?_⟩
  · intro peer start length
    have holds := (sound start length).peers peer
    have within := holds.messages.account.spent_le (by omega)
    rwa [holds.rates.1,holds.rates.2.1] at within
  · intro peer start length
    have holds := (sound start length).peers peer
    have within := holds.bytes.account.spent_le (by omega)
    rwa [holds.rates.2.2.1,holds.rates.2.2.2] at within
  · intro start length
    have holds := (sound start length).budget
    have within := holds.messages.account.spent_le (by omega)
    rwa [holds.rates.1,holds.rates.2.1] at within
  · intro start length
    have holds := (sound start length).budget
    have within := holds.bytes.account.spent_le (by omega)
    rwa [holds.rates.2.2.1,holds.rates.2.2.2] at within
  · intro peer onOwnerThread completeBytes origin time policy budget metadata accepted protects
    rcases accept_cases accepted with ⟨-,⟨plain,-⟩ | ⟨-,-,moves⟩⟩
    · rw [plain] at protects
      cases protects
    · exact moves
  · intro peer onOwnerThread completeBytes origin time policy budget metadata accepted plain
    rcases accept_cases accepted with ⟨-,⟨-,moves⟩ | ⟨protects,-⟩⟩
    · exact moves
    · rw [plain] at protects
      cases protects
  · intro peer
    have holds := sound 0 0
    exact ⟨⟨(holds.peers peer).messages.sound,(holds.peers peer).bytes.sound⟩,holds.budget.messages.sound,
      holds.budget.bytes.sound⟩

/-- A message of all the bytes of a peer is protected; half a second later another of more bytes than there are is
    not, and yet the credit of the peer grows. -/
theorem unprotected_refills :
    let s := operations ({} : OrdinarySources Unit) [.setReady true () true,.accept true () 20480 6 1]
    let r := (s.policies ()).accept s.budget true 20481 6 500001
    r.2.2.isProtected = false ∧ (s.policies ()).bytes.credit = 0 ∧ r.1.bytes.credit = 16384 := by
  decide +kernel

end OrdinarySources
end Gargantuan
