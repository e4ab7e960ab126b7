import Gargantuan.ReliableByteAdmission

/-!
What holds of the admission of reliable bytes in every run: the counters are the
sums over the peers, credits are within their caps, the reservation in progress
can be committed, and whoever holds the funding turn is a peer without a grant.
Every operation has one lemma that says it keeps this, and those that take or
return credit one more that says all they do.
-/
namespace Gargantuan
open SortedMap List Nat Bucket Bool ReliableServiceProfile

theorem SortedMap.le_total {κ ν : Type} [LinearOrder κ] (f : ν → Nat) {m : SortedMap κ ν} {k : κ} {x : ν}
    (found : m.find? k = some x) : f x ≤ m.total f := by
  rw [total_erase f found]
  exact le_add_left _ _

theorem SortedMap.total_mapValues {κ ν : Type} [LinearOrder κ] {f : ν → Nat} {m : SortedMap κ ν} {g : κ → ν → ν}
    (same : ∀ k x, f (g k x) = f x) : (m.mapValues g).total f = m.total f := by
  rw [SortedMap.total,SortedMap.mapValues,map_map]
  exact congrArg List.sum (map_congr_left fun e _ => same e.1 e.2)

/-- A credit in millionths of a byte. -/
@[irreducible] def Bucket.micros (b : Bucket) : Nat := b.bytes * 1000000 + b.remainder

structure Bucket.Within (b : Bucket) (cap now : Nat) : Prop where
  bytes : b.bytes ≤ cap
  remainder : b.remainder < 1000000
  updated : b.updated ≤ now

variable {now : Nat} {b : Bucket} {cap : Nat}

theorem Bucket.Within.later {now' : Nat} (within : b.Within cap now) (later : now ≤ now') :
    b.Within cap now' := ⟨within.bytes,within.remainder,within.updated.trans later⟩

theorem Bucket.Within.micros_le (within : b.Within cap now) :
    b.micros ≤ cap * 1000000 + 999999 := by
  have := within.bytes
  have := within.remainder
  rw [micros]
  omega

theorem Bucket.refill_updated (b : Bucket) (now rate cap : Nat) : (b.refill now rate cap).updated = now := by
  unfold refill
  dsimp only
  split_ifs <;> rfl

theorem Bucket.refill_spec {rate : Nat} (within : b.Within cap now) (positive : 0 < rate) :
    (b.refill now rate cap).Within cap now ∧ (b.refill now rate cap).updated = now ∧
      (b.refill now rate cap).micros ≤ b.micros + rate * (now - b.updated) := by
  have elapsed : sub64 now b.updated = now - b.updated := sub64_eq within.updated
  have remaining : sub64 cap b.bytes = cap - b.bytes := sub64_eq within.bytes
  have bytes := within.bytes
  unfold refill
  dsimp only
  rw [remaining,elapsed]
  generalize now - b.updated = time
  have split : rate * time = time / 1000000 * rate * 1000000 + time % 1000000 * rate := by
    conv_lhs => rw [← div_add_mod time 1000000]
    ring
  split_ifs with full whole
  · refine ⟨⟨le_rfl,zero_lt_succ _,le_rfl⟩,rfl,?_⟩
    have short : cap - b.bytes < time / 1000000 * rate := (div_lt_iff_lt_mul positive).mp full
    simp only [micros]
    omega
  all_goals
    generalize time / 1000000 * rate = seconds at split ⊢
    generalize time % 1000000 * rate = fraction at split ⊢
    have most : b.bytes + min (cap - b.bytes) (seconds + (fraction + b.remainder) / 1000000) ≤ cap := by omega
    simp only [micros]
  · exact ⟨⟨most,zero_lt_succ _,le_rfl⟩,trivial,by omega⟩
  · exact ⟨⟨most,mod_lt _ (zero_lt_succ _),le_rfl⟩,trivial,by omega⟩

namespace ReliableByteAdmission
variable {profile : ReliableServiceProfile} {a b : ReliableByteAdmission}

/-! ### What holds in every state -/

def nativeGrant (value : Peer) : Nat := if value.ownsNativeCapacity then 1 else 0
def nativeBytes (value : Peer) : Nat := if value.ownsNativeCapacity then value.grantBytes else 0
def unseen (value : Peer) : Nat := if value.seen then 0 else 1

structure PeerSound (profile : ReliableServiceProfile) (now step : Nat) (value : Peer) : Prop where
  credit : value.credit.Within profile.peerCap now
  token : value.debt ≠ 0 ↔ value.debtToken ≠ 0
  granted : value.debt ≠ 0 → value.ownsGrant = true
  native : value.ownsNativeCapacity = true → value.ownsGrant = true
  small : value.grantBytes ≤ maximumReliableServiceGroupBytes
  reserved : profile.isPooled = false → value.ownsGrant = false
  demand : value.demandStep ≤ step
  begun : 0 < step

/-- What holds of the reservation that is neither committed nor rolled back. -/
structure ActiveSound (profile : ReliableServiceProfile) (a : ReliableByteAdmission) (receipt : Reservation) : Prop where
  latest : receipt.token = a.nextToken
  positive : 0 < receipt.token ∧ 0 < receipt.bytes
  small : receipt.bytes ≤ maximumReliableServiceGroupBytes
  owner : ∃ value, a.peers.find? receipt.connection = some value ∧ value.ownsGrant = false
  room : profile.isPooled = true → a.totals.activeDrainGrants < profile.pooled.maximumDrainGrants ∧
    a.totals.outstandingBytes + receipt.bytes ≤ profile.pooled.globalPendingCap ∧
    a.totals.acceptedBytes + receipt.bytes ≤ maximumUInt64

structure Sound (profile : ReliableServiceProfile) (a : ReliableByteAdmission) : Prop where
  peers : ∀ id value, a.peers.find? id = some value → PeerSound profile a.now a.step value
  outstanding : a.totals.outstandingBytes = a.peers.total Peer.debt
  grants : a.totals.activeDrainGrants = a.peers.total nativeGrant
  native : a.totals.nativeCapacityBytes = a.peers.total nativeBytes
  unobserved : a.unobserved = a.peers.total unseen
  fewGrants : a.totals.activeDrainGrants ≤ profile.pooled.maximumDrainGrants
  pending : a.totals.outstandingBytes ≤ profile.pooled.globalPendingCap
  balance : profile.isPooled = true → a.totals.acceptedBytes =
    a.totals.outstandingBytes + a.totals.verifiedAttributedRetirement + a.totals.terminalReleasedBytes
  accepted : a.totals.acceptedBytes ≤ maximumUInt64
  active : ∀ receipt, a.active = some receipt → ActiveSound profile a receipt
  global : a.global.Within profile.globalCap a.now
  started : a.initialized = false → a.now = 0
  current : a.initialized = true → a.global.updated = a.now
  wait : ∀ id, a.globalWait = some id → ∃ value, a.peers.find? id = some value ∧ value.ownsGrant = false

theorem sound_empty : Sound profile {} := by
  refine ⟨?_,rfl,rfl,rfl,rfl,zero_le _,zero_le _,fun _ => rfl,zero_le _,?_,?_,fun _ => rfl,?_,?_⟩
  · intro id value found
    cases found
  · intro receipt held
    cases held
  · exact ⟨zero_le _,by decide,le_rfl⟩
  · intro started
    cases started
  · intro id held
    cases held

variable {value : Peer} {id : ConnectionId} {step : Nat}

theorem PeerSound.later {now' : Nat} (sound : PeerSound profile now step value) (later : now ≤ now') :
    PeerSound profile now' step value := { sound with credit := sound.credit.later later }

structure SameShare (value value' : Peer) : Prop where
  debt : value'.debt = value.debt
  native : value'.ownsNativeCapacity = value.ownsNativeCapacity
  bytes : value'.grantBytes = value.grantBytes
  seen : value'.seen = value.seen
  grant : value'.ownsGrant = value.ownsGrant

variable {m : SortedMap ConnectionId Peer} {value' : Peer}

theorem total_insert_same {f : Peer → Nat}
    (found : m.find? id = some value) (same : f value' = f value) : (m.insert id value').total f = m.total f := by
  have := total_insert f found value'
  omega

theorem owner_setPeer {id' : ConnectionId} (found : a.peers.find? id = some value)
    (grant : value.ownsGrant = false → value'.ownsGrant = false)
    (owner : ∃ v, a.peers.find? id' = some v ∧ v.ownsGrant = false) :
    ∃ v, (a.peers.insert id value').find? id' = some v ∧ v.ownsGrant = false := by
  obtain ⟨v,held,free⟩ := owner
  rw [find?_insert]
  split_ifs with here
  · rw [here,found] at held
    cases held
    exact ⟨value',rfl,grant free⟩
  · exact ⟨v,held,free⟩

theorem Sound.setPeer (sound : Sound profile a) (found : a.peers.find? id = some value)
    (holds : PeerSound profile a.now a.step value') (same : SameShare value value') :
    Sound profile (a.setPeer id value') := by
  have keeps : value.ownsGrant = false → value'.ownsGrant = false := same.grant.trans
  refine { sound with peers := ?_, outstanding := ?_, grants := ?_, native := ?_, unobserved := ?_, active := ?_, wait := ?_ }
  · intro id' v found'
    change (a.peers.insert id value').find? id' = some v at found'
    rw [find?_insert] at found'
    split_ifs at found' with here
    · cases found'
      exact holds
    · exact sound.peers id' v found'
  · exact sound.outstanding.trans (total_insert_same found same.debt).symm
  · refine sound.grants.trans (total_insert_same found ?_).symm
    rw [nativeGrant,nativeGrant,same.native]
  · refine sound.native.trans (total_insert_same found ?_).symm
    rw [nativeBytes,nativeBytes,same.native,same.bytes]
  · refine sound.unobserved.trans (total_insert_same found ?_).symm
    rw [unseen,unseen,same.seen]
  · intro receipt held
    have before := sound.active receipt held
    exact { before with owner := owner_setPeer found keeps before.owner }
  · intro id' held
    exact owner_setPeer found keeps (sound.wait id' held)

theorem Sound.releaseWait (sound : Sound profile a) (id : ConnectionId) : Sound profile (a.releaseWait id) := by
  unfold ReliableByteAdmission.releaseWait
  split_ifs with here
  · refine { sound with active := ?_, wait := ?_ }
    · intro receipt held
      exact { sound.active receipt held with }
    · intro id' held
      cases held
  · exact sound

theorem Sound.advance (sound : Sound profile a) (valid : profile.isValid) {time : Nat}
    (moved : a.advance profile time = some b) :
    Sound profile b ∧ a.now ≤ time ∧ b.now = time ∧
      b.global.micros ≤ a.global.micros + profile.globalRate * (time - a.now) ∧
      b = { a with now := time, initialized := true, global := b.global } := by
  unfold ReliableByteAdmission.advance at moved
  by_cases back : a.initialized = true ∧ time < a.now
  · rw [if_pos back] at moved
    cases moved
  rw [if_neg back] at moved
  obtain rfl := Option.some.inj moved
  have later : a.now ≤ time := by
    cases begun : a.initialized with
    | false =>
      rw [sound.started begun]
      exact zero_le _
    | true => exact not_lt.mp fun less => back ⟨begun,less⟩
  have start : ∀ global, (global = if a.initialized = true then a.global else { a.global with updated := time }) →
      global.Within profile.globalCap time ∧
        global.micros + profile.globalRate * (time - global.updated) ≤
          a.global.micros + profile.globalRate * (time - a.now) := by
    rintro global rfl
    by_cases begun : a.initialized = true
    · rw [if_pos begun,sound.current begun]
      exact ⟨sound.global.later later,le_rfl⟩
    · rw [if_neg begun,Nat.sub_self,Nat.mul_zero,Nat.add_zero]
      refine ⟨⟨sound.global.bytes,sound.global.remainder,le_rfl⟩,?_⟩
      simp only [Bucket.micros]
      exact Nat.le_add_right _ _
  generalize same : (if a.initialized = true then a.global else { a.global with updated := time }) = global
  have start := start global same.symm
  obtain ⟨within,updated,grown⟩ := Bucket.refill_spec start.1 (rates_of_isValid valid).2.1
  have total := grown.trans start.2
  refine ⟨?_,later,rfl,total,rfl⟩
  refine { sound with peers := ?_, active := ?_, global := within, started := ?_, current := fun _ => updated }
  · intro id value found
    exact (sound.peers id value found).later later
  · intro receipt held
    exact { sound.active receipt held with }
  · intro begun
    cases begun

theorem total_unseen_all (none : ∀ e ∈ m.entries, e.2.seen = false) :
    m.total unseen = m.size := by
  have each : ∀ l : List (ConnectionId × Peer), (∀ e ∈ l, e.2.seen = false) →
      (l.map fun e => unseen e.2).sum = l.length := by
    intro l all
    induction l with
    | nil => rfl
    | cons e rest ih =>
      rw [map_cons,sum_cons,ih fun other inside => all other (.tail _ inside),unseen,
        all e (.head _),length_cons]
      exact add_comm 1 _
  exact each m.entries none

theorem beginStep_sound (sound : Sound profile a) (valid : profile.isValid) (time : Nat) :
    Sound profile (a.beginStep profile time).1 := by
  unfold beginStep
  split_ifs with busy
  · exact sound
  cases moved : a.advance profile time with
  | none => exact sound
  | some b =>
    have after := (sound.advance valid moved).1
    have idle : b.active = none := by
      rw [(sound.advance valid moved).2.2.2.2]
      exact Option.not_isSome_iff_eq_none.mp fun held => busy (.inl held)
    have kept : ∀ f : Peer → Nat,
        (∀ value : Peer, f { value with seen := false, exposure := none, service := none } = f value) →
        (b.peers.mapValues fun _ value => { value with seen := false, exposure := none, service := none }).total f =
          b.peers.total f := fun f same => total_mapValues fun _ value => same value
    refine { after with peers := ?_, outstanding := ?_, grants := ?_, native := ?_, unobserved := ?_, active := ?_, wait := ?_ }
    · intro id value found
      rw [find?_mapValues] at found
      obtain ⟨before,held,rfl⟩ := Option.map_eq_some_iff.mp found
      have known := after.peers id before held
      exact { known with demand := known.demand.trans (le_succ _), begun := succ_pos _ }
    · exact after.outstanding.trans (kept Peer.debt fun _ => rfl).symm
    · exact after.grants.trans (kept nativeGrant fun _ => rfl).symm
    · exact after.native.trans (kept nativeBytes fun _ => rfl).symm
    · have same : (b.peers.mapValues fun _ value => { value with seen := false, exposure := none, service := none }).size =
          b.peers.size := length_map _
      refine same.symm.trans (total_unseen_all ?_).symm
      intro e inside
      obtain ⟨before,-,rfl⟩ := mem_map.mp inside
      rfl
    · intro receipt held
      rw [idle] at held
      cases held
    · intro id held
      obtain ⟨value,found,free⟩ := after.wait id held
      refine ⟨{ value with seen := false, exposure := none, service := none },?_,free⟩
      rw [find?_mapValues,found]
      rfl

variable {new : Peer}

theorem Sound.change (sound : Sound profile a) (found : a.peers.find? id = some value)
    (peers : b.peers = a.peers.insert id new) (now : b.now = a.now) (step : b.step = a.step)
    (holds : PeerSound profile a.now a.step new)
    (outstanding : b.totals.outstandingBytes + value.debt = a.totals.outstandingBytes + new.debt)
    (grants : b.totals.activeDrainGrants + nativeGrant value = a.totals.activeDrainGrants + nativeGrant new)
    (native : b.totals.nativeCapacityBytes + nativeBytes value = a.totals.nativeCapacityBytes + nativeBytes new)
    (unobserved : b.unobserved + unseen value = a.unobserved + unseen new)
    (fewGrants : b.totals.activeDrainGrants ≤ profile.pooled.maximumDrainGrants)
    (pending : b.totals.outstandingBytes ≤ profile.pooled.globalPendingCap)
    (balance : profile.isPooled → b.totals.acceptedBytes =
      b.totals.outstandingBytes + b.totals.verifiedAttributedRetirement + b.totals.terminalReleasedBytes)
    (accepted : b.totals.acceptedBytes ≤ maximumUInt64)
    (active : ∀ receipt, b.active = some receipt → ActiveSound profile b receipt)
    (global : b.global.Within profile.globalCap a.now) (initialized : b.initialized = a.initialized)
    (current : a.initialized → b.global.updated = a.now)
    (wait : ∀ id', b.globalWait = some id' → ∃ v, b.peers.find? id' = some v ∧ v.ownsGrant = false) :
    Sound profile b := by
  have debts := total_insert Peer.debt found new
  have nativeGrants := total_insert nativeGrant found new
  have nativeSizes := total_insert nativeBytes found new
  have unseens := total_insert unseen found new
  have s1 := sound.outstanding
  have s2 := sound.grants
  have s3 := sound.native
  have s4 := sound.unobserved
  refine ⟨?_,?_,?_,?_,?_,fewGrants,pending,balance,accepted,active,?_,?_,?_,wait⟩
  · intro id' v found'
    rw [now,step]
    rw [peers,find?_insert] at found'
    split_ifs at found' with here
    · cases found'
      exact holds
    · exact sound.peers id' v found'
  · rw [peers]
    omega
  · rw [peers]
    omega
  · rw [peers]
    omega
  · rw [peers]
    omega
  · rwa [now]
  · rw [initialized,now]
    exact sound.started
  · rwa [initialized,now]

theorem entered_eq_some {unobserved : Nat} (found : a.entered profile id = some (value,unobserved)) :
    (a.peers.find? id = some value ∧ unobserved = a.unobserved) ∨
      (a.peers.find? id = none ∧ value = { credit := { updated := a.now } } ∧ unobserved = a.unobserved + 1) := by
  unfold entered at found
  cases known : a.peers.find? id with
  | some before =>
    rw [known] at found
    cases found
    exact .inl ⟨rfl,rfl⟩
  | none =>
    rw [known] at found
    split_ifs at found
    cases found
    exact .inr ⟨rfl,rfl,rfl⟩

section
variable (sound : Sound profile a)
include sound

theorem enter_sound (absent : a.peers.find? id = none)
    (holds : PeerSound profile a.now a.step new) (debt : new.debt = 0) (native : new.ownsNativeCapacity = false)
    (seen : new.seen) : Sound profile (a.setPeer id new) := by
  have fresh : ∀ id' v, a.peers.find? id' = some v → id' ≠ id := by
    rintro id' v found rfl
    rw [absent] at found
    cases found
  have stays : ∀ id', (∃ v, a.peers.find? id' = some v ∧ v.ownsGrant = false) →
      ∃ v, (a.peers.insert id new).find? id' = some v ∧ v.ownsGrant = false := by
    rintro id' ⟨v,found,free⟩
    exact ⟨v,by rw [find?_insert_of_ne _ _ (fresh id' v found)]; exact found,free⟩
  have same : ∀ f : Peer → Nat, f new = 0 → a.peers.total f = (a.peers.insert id new).total f := by
    intro f zero
    rw [total_insert_new f absent,zero,add_zero]
  refine { sound with peers := ?_, outstanding := ?_, grants := ?_, native := ?_, unobserved := ?_, active := ?_, wait := ?_ }
  · intro id' v found'
    change (a.peers.insert id new).find? id' = some v at found'
    rw [find?_insert] at found'
    split_ifs at found' with here
    · cases found'
      exact holds
    · exact sound.peers id' v found'
  · exact sound.outstanding.trans (same Peer.debt debt)
  · exact sound.grants.trans (same nativeGrant (by rw [nativeGrant,native]; rfl))
  · exact sound.native.trans (same nativeBytes (by rw [nativeBytes,native]; rfl))
  · exact sound.unobserved.trans (same unseen (by rw [unseen,seen]; rfl))
  · intro receipt held
    have before := sound.active receipt held
    exact { before with owner := stays _ before.owner }
  · intro id' held
    exact stays _ (sound.wait id' held)

theorem observe_sound (id : ConnectionId) (exposure : Option Nat) :
    Sound profile (a.observe profile id exposure).1 := by
  unfold observe
  split_ifs with refused
  · exact sound
  cases entering : a.entered profile id with
  | none => exact sound
  | some pair =>
    obtain ⟨value,unobserved⟩ := pair
    dsimp only
    split_ifs with known
    · exact sound
    have begun : 0 < a.step := pos_of_ne_zero fun zero => refused (.inl zero)
    have unseenValue : unseen value = 1 := by
      rw [unseen,if_neg known]
    have after : Sound profile ({ a with unobserved := unobserved - 1 }.setPeer id { value with seen := true, exposure }) := by
      rcases entered_eq_some entering with ⟨found,rfl⟩ | ⟨absent,rfl,rfl⟩
      · have holds := sound.peers id value found
        have counted : 1 ≤ a.unobserved := by
          rw [sound.unobserved,← unseenValue]
          exact le_total unseen found
        refine sound.change found rfl rfl rfl { holds with } rfl rfl rfl ?_ sound.fewGrants sound.pending
          sound.balance sound.accepted ?_ sound.global rfl sound.current ?_
        · change a.unobserved - 1 + unseen value = a.unobserved + 0
          omega
        · intro receipt held
          have before := sound.active receipt held
          exact { before with owner := owner_setPeer found (fun free => free) before.owner }
        · intro id' held
          exact owner_setPeer found (fun free => free) (sound.wait id' held)
      · refine enter_sound sound absent ?_ rfl rfl rfl
        exact ⟨⟨zero_le _,zero_lt_succ _,le_rfl⟩,by simp,absurd rfl,
          fun owns => (by cases owns),zero_le _,fun _ => rfl,zero_le _,begun⟩
    cases exposure with
    | none => exact { after with active := fun receipt held => { after.active receipt held with } }
    | some bytes => exact { after with active := fun receipt held => { after.active receipt held with } }

theorem share_le (found : a.peers.find? id = some value) :
    value.debt ≤ a.totals.outstandingBytes ∧ nativeGrant value ≤ a.totals.activeDrainGrants ∧
      nativeBytes value ≤ a.totals.nativeCapacityBytes := by
  rw [sound.outstanding,sound.grants,sound.native]
  exact ⟨le_total _ found,le_total _ found,le_total _ found⟩

theorem refreshService_sound (id : ConnectionId)
    (service : Option ServiceObservation) : Sound profile (a.refreshService profile id service).1 := by
  unfold refreshService
  cases found : a.peers.find? id with
  | none => exact sound
  | some value =>
    dsimp only
    by_cases refused : profile.isPooled = false ∨ value.seen = false ∨ a.active.isSome
    · rwa [if_pos refused]
    have holds := sound.peers id value found
    have told : Sound profile (a.setPeer id { value with service }) :=
      sound.setPeer found { holds with } ⟨rfl,rfl,rfl,rfl,rfl⟩
    have pooled : profile.isPooled := by
      cases pooled : profile.isPooled with
      | true => rfl
      | false => exact absurd (.inl pooled) refused
    have idle : ∀ receipt, a.active ≠ some receipt := by
      intro receipt held
      exact refused (.inr (.inr (by rw [held]; rfl)))
    obtain ⟨-,owned,sized⟩ := share_le sound found
    split_ifs with free stays owns
    · exact told
    · have free' : PeerSound profile a.now a.step
          { value with service, ownsGrant := false, ownsNativeCapacity := false, grantBytes := 0 } :=
        { holds with
          granted := absurd free.2.1, native := fun owns => (by cases owns), small := zero_le _
          reserved := fun _ => rfl }
      rw [nativeGrant,if_pos owns] at owned
      rw [nativeBytes,if_pos owns] at sized
      have less : sub64 a.totals.activeDrainGrants 1 = a.totals.activeDrainGrants - 1 := sub64_eq owned
      have less' : sub64 a.totals.nativeCapacityBytes value.grantBytes = a.totals.nativeCapacityBytes - value.grantBytes :=
        sub64_eq sized
      have fewer := sound.fewGrants
      refine sound.change found rfl rfl rfl free' rfl ?_ ?_ rfl ?_ sound.pending sound.balance sound.accepted ?_
        sound.global rfl sound.current ?_
      · change sub64 a.totals.activeDrainGrants 1 + nativeGrant value = a.totals.activeDrainGrants + 0
        rw [nativeGrant,if_pos owns]
        omega
      · change sub64 a.totals.nativeCapacityBytes value.grantBytes + nativeBytes value = a.totals.nativeCapacityBytes + 0
        rw [nativeBytes,if_pos owns]
        omega
      · change sub64 a.totals.activeDrainGrants 1 ≤ _
        omega
      · intro receipt held
        exact absurd held (idle receipt)
      · intro id' held
        exact owner_setPeer found (fun _ => rfl) (sound.wait id' held)
    · refine sound.change found rfl rfl rfl ?_ rfl ?_ ?_ rfl sound.fewGrants sound.pending sound.balance sound.accepted ?_
        sound.global rfl sound.current ?_
      · exact { holds with
          granted := absurd free.2.1, native := fun owns => (by cases owns), small := zero_le _
          reserved := fun _ => rfl }
      · change a.totals.activeDrainGrants + nativeGrant value = a.totals.activeDrainGrants + 0
        rw [nativeGrant,if_neg owns]
      · change a.totals.nativeCapacityBytes + nativeBytes value = a.totals.nativeCapacityBytes + 0
        rw [nativeBytes,if_neg owns]
      · intro receipt held
        exact absurd held (idle receipt)
      · intro id' held
        exact owner_setPeer found (fun _ => rfl) (sound.wait id' held)
    · exact told

theorem observeService_sound (id : ConnectionId)
    (service : Option ServiceObservation) : Sound profile (a.observeService profile id service).1 := by
  unfold observeService
  split
  · exact sound
  dsimp only
  split
  · exact refreshService_sound (observe_sound sound id _) id service
  · exact observe_sound sound id _

theorem completeNativeSend_sound (valid : profile.isValid) (id : ConnectionId)
    (token bytes observedAt consumedAt completedAt : Nat) :
    Sound profile (a.completeNativeSend profile id token bytes observedAt consumedAt completedAt).1 := by
  unfold completeNativeSend
  split_ifs with refused
  · exact sound
  have pooled : profile.isPooled := by
    cases pooled : profile.isPooled with
    | true => rfl
    | false => exact absurd (.inl pooled) refused
  cases moved : a.advance profile consumedAt with
  | none => exact sound
  | some b =>
    obtain ⟨after,-,-,-,same⟩ := sound.advance valid moved
    have idle : ∀ receipt, b.active ≠ some receipt := by
      intro receipt held
      rw [same] at held
      exact refused (.inr (.inr (.inl (by rw [held]; rfl))))
    dsimp only
    cases found : b.peers.find? id with
    | none => exact after
    | some value =>
      dsimp only
      split_ifs with foreign done exhausted
      · exact after
      · exact after
      · exact after
      have owns : value.ownsNativeCapacity := by simpa using done
      have bytesOwned : value.grantBytes = bytes := by
        by_contra other
        exact foreign (.inr (.inr (.inr other)))
      have holds := after.peers id value found
      obtain ⟨-,owned,sized⟩ := share_le after found
      rw [nativeGrant,if_pos owns] at owned
      rw [nativeBytes,if_pos owns,bytesOwned] at sized
      have less : sub64 b.totals.activeDrainGrants 1 = b.totals.activeDrainGrants - 1 := sub64_eq owned
      have less' : sub64 b.totals.nativeCapacityBytes bytes = b.totals.nativeCapacityBytes - bytes :=
        sub64_eq sized
      have fewer := after.fewGrants
      refine after.change found rfl rfl rfl { holds with native := fun owns => (by cases owns) } rfl ?_ ?_ rfl ?_
        after.pending after.balance after.accepted ?_ after.global rfl after.current ?_
      · change sub64 b.totals.activeDrainGrants 1 + nativeGrant value = b.totals.activeDrainGrants + 0
        rw [nativeGrant,if_pos owns]
        omega
      · change sub64 b.totals.nativeCapacityBytes bytes + nativeBytes value = b.totals.nativeCapacityBytes + 0
        rw [nativeBytes,if_pos owns]
        omega
      · change sub64 b.totals.activeDrainGrants 1 ≤ _
        omega
      · intro receipt held
        exact absurd held (idle receipt)
      · intro id' held
        exact owner_setPeer found (fun free => free) (after.wait id' held)

theorem setOrdinaryUnsent_sound (id : ConnectionId) (bytes : Nat) :
    Sound profile (a.setOrdinaryUnsent profile id bytes).1 := by
  unfold setOrdinaryUnsent
  cases found : a.peers.find? id with
  | none => exact sound
  | some value =>
    have holds := sound.peers id value found
    have told : Sound profile (a.setPeer id { value with exposure := some bytes }) :=
      sound.setPeer found { holds with } ⟨rfl,rfl,rfl,rfl,rfl⟩
    dsimp only
    cases value.exposure with
    | none => exact sound
    | some exposure =>
      dsimp only
      split_ifs
      · exact sound
      · exact sound
      · exact { told with active := fun receipt held => { told.active receipt held with } }

theorem retire_sound (id : ConnectionId) (token bytes : Nat) :
    Sound profile (a.retire profile id token bytes).1 := by
  unfold retire
  cases found : a.peers.find? id with
  | none => exact sound
  | some value =>
    dsimp only
    split_ifs with refused
    · exact sound
    push Not at refused
    obtain ⟨pooled,-,positive,-,owed,-⟩ := refused
    have pooled : profile.isPooled := by simpa using pooled
    have holds := sound.peers id value found
    obtain ⟨share,-,-⟩ := share_le sound found
    rw [owed] at share
    have less : sub64 a.totals.outstandingBytes bytes = a.totals.outstandingBytes - bytes := sub64_eq share
    have pending := sound.pending
    have balance := sound.balance pooled
    refine sound.change found rfl rfl rfl ?_ ?_ rfl rfl rfl sound.fewGrants ?_ ?_ sound.accepted ?_ sound.global rfl
      sound.current ?_
    · exact { holds with token := by simp, granted := fun owed => absurd rfl owed }
    · change sub64 a.totals.outstandingBytes bytes + value.debt = a.totals.outstandingBytes + 0
      omega
    · change sub64 a.totals.outstandingBytes bytes ≤ _
      omega
    · intro _
      change a.totals.acceptedBytes = sub64 a.totals.outstandingBytes bytes +
        (a.totals.verifiedAttributedRetirement + bytes) + a.totals.terminalReleasedBytes
      omega
    · intro receipt held
      have before := sound.active receipt held
      refine { before with owner := owner_setPeer found (fun free => free) before.owner, room := ?_ }
      intro _
      obtain ⟨grants,room,total⟩ := before.room pooled
      refine ⟨grants,?_,total⟩
      change sub64 a.totals.outstandingBytes bytes + receipt.bytes ≤ _
      omega
    · intro id' held
      exact owner_setPeer found (fun free => free) (sound.wait id' held)

end

/-! ### Allowances and reservations -/

/-- Totals that differ in the counts of deferrals only. -/
structure SameTotals (t t' : Metrics) : Prop where
  accepted : t'.acceptedBytes = t.acceptedBytes
  retired : t'.verifiedAttributedRetirement = t.verifiedAttributedRetirement
  released : t'.terminalReleasedBytes = t.terminalReleasedBytes
  outstanding : t'.outstandingBytes = t.outstandingBytes
  grants : t'.activeDrainGrants = t.activeDrainGrants
  native : t'.nativeCapacityBytes = t.nativeCapacityBytes

theorem releaseWait_eq (a : ReliableByteAdmission) (id : ConnectionId) :
    ∃ wait, a.releaseWait id = { a with globalWait := wait } ∧ (wait = a.globalWait ∨ wait = none) ∧ wait ≠ some id := by
  unfold ReliableByteAdmission.releaseWait
  split_ifs with here
  · exact ⟨none,rfl,.inr rfl,by simp⟩
  · exact ⟨a.globalWait,rfl,.inl rfl,here⟩

/-- What asking for an allowance does: the peer's credit and latch, deferral counts, and the funding turn. -/
structure Allowed (profile : ReliableServiceProfile) (a : ReliableByteAdmission) (id : ConnectionId) (value : Peer)
    (b : ReliableByteAdmission) (n : Nat) : Prop where
  same : ∃ backlogged totals globalBacklogged, b = { a with
    peers := a.peers.insert id { value with backlogged }, totals, globalBacklogged, globalWait := b.globalWait }
  totals : SameTotals a.totals b.totals
  wait : b.globalWait = a.globalWait ∨ b.globalWait = none ∨
    (b.globalWait = some id ∧ (profile.isPooled = true → value.ownsGrant = false))
  bound : 0 < n → n ≤ value.credit.bytes ∧ n ≤ a.global.bytes ∧ n ≤ maximumReliableServiceGroupBytes ∧
    (profile.isPooled = true → a.grantRefused profile value = false ∧
      n ≤ profile.pooled.globalPendingCap - a.totals.outstandingBytes)

theorem sameTotals_refl (t : Metrics) : SameTotals t t := ⟨rfl,rfl,rfl,rfl,rfl,rfl⟩

theorem Allowed.deferred {b : ReliableByteAdmission} (same : ∃ backlogged totals globalBacklogged, b = { a with
      peers := a.peers.insert id { value with backlogged }, totals, globalBacklogged } ∧ SameTotals a.totals totals) :
    Allowed profile a id value (b.releaseWait id) 0 := by
  obtain ⟨backlogged,totals,globalBacklogged,rfl,kept⟩ := same
  obtain ⟨wait,freed,which,-⟩ := releaseWait_eq { a with
    peers := a.peers.insert id { value with backlogged }, totals, globalBacklogged } id
  rw [freed]
  refine ⟨⟨backlogged,totals,globalBacklogged,rfl⟩,kept,?_,fun none => absurd none (lt_irrefl 0)⟩
  rcases which with same | gone
  · exact .inl same
  · exact .inr (.inl gone)

theorem decideAllowance_allowed (a : ReliableByteAdmission) (id : ConnectionId) (value : Peer) :
    Allowed profile a id value (a.decideAllowance profile id value).1 (a.decideAllowance profile id value).2 := by
  unfold decideAllowance
  split
  · exact .deferred ⟨value.backlogged,_,a.globalBacklogged,rfl,⟨rfl,rfl,rfl,rfl,rfl,rfl⟩⟩
  split
  · exact .deferred ⟨value.backlogged,_,a.globalBacklogged,rfl,⟨rfl,rfl,rfl,rfl,rfl,rfl⟩⟩
  next granted =>
  have roomed : profile.isPooled = true → (a.rooms profile value).2.2 =
      profile.pooled.globalPendingCap - min a.totals.outstandingBytes profile.pooled.globalPendingCap := by
    intro pooled
    rw [rooms,if_pos pooled]
  generalize a.rooms profile value = rooms at roomed ⊢
  obtain ⟨peerRoom,globalRoom,retainedRoom⟩ := rooms
  dsimp only at roomed ⊢
  split
  · exact .deferred ⟨peerRoom.2,_,globalRoom.2,rfl,⟨rfl,rfl,rfl,rfl,rfl,rfl⟩⟩
  split
  · exact .deferred ⟨peerRoom.2,_,globalRoom.2,rfl,⟨rfl,rfl,rfl,rfl,rfl,rfl⟩⟩
  split
  · exact ⟨⟨peerRoom.2,_,globalRoom.2,rfl⟩,⟨rfl,rfl,rfl,rfl,rfl,rfl⟩,.inl rfl,
      fun none => absurd none (lt_irrefl 0)⟩
  split
  · refine ⟨⟨peerRoom.2,_,globalRoom.2,rfl⟩,⟨rfl,rfl,rfl,rfl,rfl,rfl⟩,.inr (.inr ⟨rfl,?_⟩),
      fun none => absurd none (lt_irrefl 0)⟩
    intro pooled
    by_contra owns
    refine granted ⟨pooled,?_⟩
    rw [grantRefused,eq_true_of_ne_false owns]
    rfl
  · refine ⟨⟨peerRoom.2,_,globalRoom.2,rfl⟩,sameTotals_refl _,.inl rfl,fun _ => ⟨min_le_left _ _,?_,?_,?_⟩⟩
    · exact (min_le_right _ _).trans (min_le_left _ _)
    · exact ((((min_le_right _ _).trans (min_le_right _ _)).trans (min_le_right _ _)).trans
        (min_le_right _ _)).trans (min_le_right _ _)
    · intro pooled
      refine ⟨by simpa [pooled] using granted,?_⟩
      have retained : retainedRoom = profile.pooled.globalPendingCap -
        min a.totals.outstandingBytes profile.pooled.globalPendingCap := roomed pooled
      have small := ((((min_le_right value.credit.bytes (min a.global.bytes (min peerRoom.1 (min globalRoom.1
        (min retainedRoom maximumReliableServiceGroupBytes))))).trans (min_le_right _ _)).trans
          (min_le_right _ _)).trans (min_le_right _ _)).trans (min_le_left _ _)
      refine small.trans ?_
      omega

theorem Allowed.sound {n : Nat} (sound : Sound profile a) (found : a.peers.find? id = some value)
    (holds : PeerSound profile a.now a.step new) (share : SameShare value new)
    (allowed : Allowed profile a id new b n) (idle : a.active = none) : Sound profile b := by
  obtain ⟨⟨backlogged,totals,globalBacklogged,same⟩,kept,wait,-⟩ := allowed
  have set : Sound profile (a.setPeer id { new with backlogged }) :=
    sound.setPeer found { holds with } { share with }
  generalize held : b.globalWait = turn at same wait
  subst same
  refine { set with
    outstanding := kept.outstanding.trans set.outstanding, grants := kept.grants.trans set.grants
    native := kept.native.trans set.native, fewGrants := kept.grants.trans_le set.fewGrants
    pending := kept.outstanding.trans_le set.pending, balance := ?_, accepted := kept.accepted.trans_le set.accepted
    active := ?_, wait := ?_ }
  · intro pooled
    rw [kept.accepted,kept.outstanding,kept.retired,kept.released]
    exact set.balance pooled
  · intro receipt busy
    rw [idle] at busy
    cases busy
  · intro id' named
    rcases wait with before | none | ⟨here,free⟩
    · rw [before] at named
      exact set.wait id' named
    · rw [none] at named
      cases named
    · rw [here] at named
      cases named
      refine ⟨_,find?_insert_self _ _ _,?_⟩
      cases pooled : profile.isPooled with
      | true => exact free pooled
      | false => exact holds.reserved pooled

theorem allowance_cases (a : ReliableByteAdmission) (id : ConnectionId) (time : Nat) :
    (a.allowance profile id time).1 = a ∧ (a.allowance profile id time).2 = 0 ∨
      a.active = none ∧ ∃ b, a.advance profile time = some b ∧
        ((a.allowance profile id time).1 = b ∧ (a.allowance profile id time).2 = 0 ∨
          ∃ value, b.peers.find? id = some value ∧
            Allowed profile b id
              { value with demandStep := b.step, credit := value.credit.refill b.now profile.peerRate profile.peerCap }
              (a.allowance profile id time).1 (a.allowance profile id time).2) := by
  unfold allowance
  split
  · exact .inl ⟨rfl,rfl⟩
  next idle =>
  have idle : a.active = none := Option.not_isSome_iff_eq_none.mp idle
  cases moved : a.advance profile time with
  | none => exact .inl ⟨rfl,rfl⟩
  | some b =>
    refine .inr ⟨idle,b,rfl,?_⟩
    dsimp only
    cases found : b.peers.find? id with
    | none => exact .inl ⟨rfl,rfl⟩
    | some value => exact .inr ⟨value,rfl,decideAllowance_allowed _ _ _⟩

theorem PeerSound.refill (holds : PeerSound profile now step value) (valid : profile.isValid) :
    PeerSound profile now step
      { value with demandStep := step, credit := value.credit.refill now profile.peerRate profile.peerCap } :=
  { holds with
    credit := (refill_spec holds.credit (rates_of_isValid valid).1).1, demand := le_rfl }

section
variable (sound : Sound profile a)
include sound

section
variable (valid : profile.isValid)
include valid

theorem allowance_sound (id : ConnectionId) (time : Nat) :
    Sound profile (a.allowance profile id time).1 := by
  rcases allowance_cases a id time with ⟨same,-⟩ | ⟨idle,b,moved,⟨same,-⟩ | ⟨value,found,allowed⟩⟩
  · rwa [same]
  · rw [same]
    exact (sound.advance valid moved).1
  · obtain ⟨after,-,-,-,same⟩ := sound.advance valid moved
    refine Allowed.sound after found ((after.peers id value found).refill valid) ⟨rfl,rfl,rfl,rfl,rfl⟩ allowed ?_
    rwa [same]

theorem deferSize_sound (id : ConnectionId)
    (completeBytes : Nat) : Sound profile (a.deferSize profile id completeBytes) := by
  unfold deferSize
  cases found : a.peers.find? id with
  | none => exact sound
  | some value =>
    split_ifs
    · exact sound
    have told : Sound profile (a.setPeer id { value with required := completeBytes }) :=
      sound.setPeer found { sound.peers id value found with } ⟨rfl,rfl,rfl,rfl,rfl⟩
    refine allowance_sound ?_ valid id _
    exact { told with active := fun receipt held => { told.active receipt held with } }

/-- A reservation fails, or takes its bytes from the credit of its peer and from the global credit. -/
theorem reserve_cases (id : ConnectionId) (bytes : Nat) :
    ((a.reserve profile id bytes).1 = a ∨ (a.reserve profile id bytes).1 = (a.allowance profile id a.now).1) ∨
      ∃ b value exposure aggregateExposure totals, b = (a.allowance profile id a.now).1 ∧ b.active = none ∧
        b.peers.find? id = some value ∧ value.credit.updated = b.now ∧ 0 < bytes ∧ bytes ≤ value.credit.bytes ∧
        bytes ≤ b.global.bytes ∧
        bytes ≤ maximumReliableServiceGroupBytes ∧ value.ownsGrant = false ∧ SameTotals b.totals totals ∧
        (profile.isPooled → b.totals.activeDrainGrants < profile.pooled.maximumDrainGrants ∧
          b.totals.outstandingBytes + bytes ≤ profile.pooled.globalPendingCap ∧
          b.totals.acceptedBytes + bytes ≤ maximumUInt64) ∧
        (a.reserve profile id bytes).1 =
          { b with
            global := { b.global with bytes := b.global.bytes - bytes }, aggregateExposure, totals
            nextToken := b.nextToken + 1, active := some ⟨b.nextToken + 1,id,bytes⟩
            peers := b.peers.insert id
              { value with credit := { value.credit with bytes := value.credit.bytes - bytes }, exposure } } := by
  unfold reserve
  split
  · exact .inl (.inl rfl)
  next small =>
  dsimp only
  split
  · exact .inl (.inr rfl)
  next refused =>
  push Not at refused
  obtain ⟨enough,-,counted⟩ := refused
  have positive : 0 < bytes := by
    simp only [minimumFrameBytes,not_lt] at small
    omega
  have after := allowance_sound sound valid id a.now
  rcases @allowance_cases profile a id a.now with ⟨-,zero⟩ | ⟨idle,c,moved,⟨-,zero⟩ | ⟨value,found,allowed⟩⟩
  · omega
  · omega
  have idle' : c.active = none := by
    rwa [(sound.advance valid moved).2.2.2.2]
  obtain ⟨⟨backlogged,totals,globalBacklogged,same⟩,kept,-,bound⟩ := allowed
  obtain ⟨credit,global,most,grant⟩ := bound (by omega)
  generalize (a.allowance profile id a.now).1 = b at same kept after counted ⊢
  have there : b.peers.find? id = some { value with
      demandStep := c.step, credit := value.credit.refill c.now profile.peerRate profile.peerCap, backlogged } := by
    rw [same]
    exact find?_insert_self _ _ _
  have theGlobal : b.global = c.global := by rw [same]
  have free : value.ownsGrant = false := by
    cases pooled : profile.isPooled with
    | true =>
      have granted := (grant pooled).1
      simp only [grantRefused,or_eq_false_iff] at granted
      exact granted.1.1.1
    | false => exact (after.peers id _ there).reserved pooled
  rw [there]
  dsimp only
  have current : (value.credit.refill c.now profile.peerRate profile.peerCap).updated = b.now := by
    rw [refill_updated,same]
  refine .inr ⟨b,_,if profile.isPooled then value.exposure else value.exposure.map fun e => addUpTo e bytes,
    if profile.isPooled then b.aggregateExposure else addUpTo b.aggregateExposure bytes,
    { b.totals with reservedBytes := addUpTo b.totals.reservedBytes bytes },rfl,?_,there,current,positive,enough.trans credit,?_,enough.trans most,free,?_,?_,?_⟩
  · rw [same]
    exact idle'
  · rw [theGlobal]
    exact enough.trans global
  · exact ⟨rfl,rfl,rfl,rfl,rfl,rfl⟩
  · intro pooled
    obtain ⟨granted,pending⟩ := grant pooled
    simp only [grantRefused,or_eq_false_iff,decide_eq_false_iff_not,not_le] at granted
    have grants := kept.grants
    have outstanding := kept.outstanding
    have fits := counted pooled
    refine ⟨?_,?_,?_⟩
    · rw [grants]
      exact granted.1.1.2
    · omega
    · omega
  · have less : sub64 b.global.bytes bytes = b.global.bytes - bytes := sub64_eq (by rw [theGlobal]; exact enough.trans global)
    have less' : sub64 (value.credit.refill c.now profile.peerRate profile.peerCap).bytes bytes =
        (value.credit.refill c.now profile.peerRate profile.peerCap).bytes - bytes := sub64_eq (enough.trans credit)
    rw [less,less']
    rfl

theorem reserve_sound (id : ConnectionId) (bytes : Nat) :
    Sound profile (a.reserve profile id bytes).1 := by
  rcases reserve_cases sound valid id bytes with (same | same) |
    ⟨b,value,exposure,aggregateExposure,totals,isAsked,-,found,-,positive,credit,global,most,free,kept,room,same⟩
  · rwa [same]
  · rw [same]
    exact allowance_sound sound valid id _
  · rw [same]
    have after : Sound profile b := by
      rw [isAsked]
      exact allowance_sound sound valid id _
    have holds := after.peers id value found
    refine after.change found rfl rfl rfl ?_ ?_ ?_ ?_ rfl ?_ ?_ ?_ ?_ ?_ ?_ rfl after.current ?_
    · exact { holds with credit := ⟨(sub_le _ _).trans holds.credit.bytes,holds.credit.remainder,holds.credit.updated⟩ }
    · rw [kept.outstanding]
    · rw [kept.grants]
      rfl
    · rw [kept.native]
      rfl
    · rw [kept.grants]
      exact after.fewGrants
    · rw [kept.outstanding]
      exact after.pending
    · rw [kept.accepted,kept.outstanding,kept.retired,kept.released]
      exact after.balance
    · rw [kept.accepted]
      exact after.accepted
    · intro receipt busy
      cases busy
      refine ⟨rfl,⟨succ_pos _,positive⟩,most,⟨_,find?_insert_self _ _ _,free⟩,?_⟩
      rwa [kept.accepted,kept.outstanding,kept.grants]
    · exact ⟨(sub_le _ _).trans after.global.bytes,after.global.remainder,after.global.updated⟩
    · intro id' held
      exact owner_setPeer found (fun free => free) (after.wait id' held)

end

end

theorem PeerSound.freeShare (holds : PeerSound profile now step value)
    (free : value.ownsGrant = false) : value.debt = 0 ∧ nativeGrant value = 0 ∧ nativeBytes value = 0 := by
  have owns : value.ownsNativeCapacity = false := by
    by_contra owns
    have grant := holds.native (eq_true_of_ne_false owns)
    rw [free] at grant
    cases grant
  refine ⟨?_,by rw [nativeGrant,owns]; rfl,by rw [nativeBytes,owns]; rfl⟩
  by_contra owed
  have grant := holds.granted owed
  rw [free] at grant
  cases grant

section
variable (sound : Sound profile a)
include sound

theorem commit_sound (receipt : Reservation) :
    Sound profile (a.commit profile receipt).1 := by
  unfold commit
  by_cases idle : a.active ≠ some receipt
  · rwa [if_pos idle]
  rw [if_neg idle]
  have busy : a.active = some receipt := not_not.mp idle
  obtain ⟨latest,⟨tokenPositive,bytesPositive⟩,small,⟨value,found,free⟩,room⟩ := sound.active receipt busy
  rw [found]
  have holds := sound.peers _ value found
  obtain ⟨debt,grant,native⟩ := holds.freeShare free
  dsimp only
  have counted : addUpTo a.totals.acceptedBytes receipt.bytes ≤ maximumUInt64 := by
    have := sound.accepted
    rw [addUpTo]
    omega
  split
  · next pooled =>
    obtain ⟨few,pending,fits⟩ := room pooled
    have exact := addUpTo_eq fits
    have balance := sound.balance pooled
    obtain ⟨wait,same,which,other⟩ := releaseWait_eq (setPeer _ receipt.connection _) receipt.connection
    rw [same]
    refine sound.change found rfl rfl rfl ?_ ?_ ?_ ?_ rfl few ?_ ?_ counted ?_ sound.global rfl sound.current ?_
    · exact { holds with
        token := ⟨fun _ => tokenPositive.ne',fun _ => bytesPositive.ne'⟩, granted := fun _ => rfl, native := fun _ => rfl
        small := small, reserved := fun reserved => by rw [pooled] at reserved; cases reserved }
    · change a.totals.outstandingBytes + receipt.bytes + value.debt = a.totals.outstandingBytes + receipt.bytes
      rw [debt,add_zero]
    · change a.totals.activeDrainGrants + 1 + nativeGrant value = a.totals.activeDrainGrants + 1
      rw [grant]
    · change a.totals.nativeCapacityBytes + receipt.bytes + nativeBytes value = a.totals.nativeCapacityBytes + receipt.bytes
      rw [native,add_zero]
    · exact pending
    · intro _
      change addUpTo a.totals.acceptedBytes receipt.bytes = a.totals.outstandingBytes + receipt.bytes +
        a.totals.verifiedAttributedRetirement + a.totals.terminalReleasedBytes
      omega
    · intro other busy'
      cases busy'
    · intro id' held
      have there : a.globalWait = some id' := by
        rcases which with before | none
        · exact before.symm.trans held
        · rw [none] at held
          cases held
      have apart : id' ≠ receipt.connection := by
        rintro rfl
        exact other held
      obtain ⟨v,found',free'⟩ := sound.wait id' there
      refine ⟨v,?_,free'⟩
      exact (find?_insert_of_ne _ _ apart).trans found'
  · next reserved =>
    refine .releaseWait ?_ _
    refine sound.change found rfl rfl rfl { holds with } rfl rfl rfl rfl sound.fewGrants sound.pending ?_ counted ?_
      sound.global rfl sound.current ?_
    · intro pooled
      exact absurd pooled reserved
    · intro other busy'
      cases busy'
    · intro id' held
      exact owner_setPeer found (fun free => free) (sound.wait id' held)

theorem rollback_cases (receipt : Reservation) :
    (a.rollback profile receipt).1 = a ∧ a.active ≠ some receipt ∨
      a.active = some receipt ∧ ∃ value exposure aggregateExposure totals,
        a.peers.find? receipt.connection = some value ∧ SameTotals a.totals totals ∧
        (a.rollback profile receipt).1 =
          { a with
            global := { a.global with bytes := a.global.bytes + min receipt.bytes (profile.globalCap - a.global.bytes) }
            aggregateExposure, totals, active := none
            peers := a.peers.insert receipt.connection
              { value with
                credit :=
                  { value.credit with
                    bytes := value.credit.bytes + min receipt.bytes (profile.peerCap - value.credit.bytes) }
                exposure } } := by
  unfold rollback
  split
  · next idle => exact .inl ⟨rfl,idle⟩
  next busy =>
  have busy : a.active = some receipt := not_not.mp busy
  obtain ⟨-,-,-,⟨value,found,free⟩,-⟩ := sound.active receipt busy
  have holds := sound.peers _ value found
  rw [found]
  dsimp only
  refine .inr ⟨busy,value,if profile.isPooled then value.exposure else value.exposure.map fun e => sub64 e receipt.bytes,
    if profile.isPooled then a.aggregateExposure else sub64 a.aggregateExposure receipt.bytes,
    { a.totals with rolledBackBytes := addUpTo a.totals.rolledBackBytes receipt.bytes },
    rfl,⟨rfl,rfl,rfl,rfl,rfl,rfl⟩,?_⟩
  rw [sub64_eq holds.credit.bytes,sub64_eq sound.global.bytes]
  rfl

theorem rollback_sound (receipt : Reservation) :
    Sound profile (a.rollback profile receipt).1 := by
  rcases rollback_cases sound receipt with ⟨same,-⟩ | ⟨-,value,exposure,aggregateExposure,totals,found,kept,same⟩
  · rwa [same]
  · rw [same]
    have holds := sound.peers _ value found
    have peerBytes := holds.credit.bytes
    have globalBytes := sound.global.bytes
    refine sound.change found rfl rfl rfl ?_ ?_ ?_ ?_ rfl ?_ ?_ ?_ ?_ ?_ ?_ rfl sound.current ?_
    · refine { holds with credit := ⟨?_,holds.credit.remainder,holds.credit.updated⟩ }
      change value.credit.bytes + min receipt.bytes (profile.peerCap - value.credit.bytes) ≤ _
      omega
    · rw [kept.outstanding]
    · rw [kept.grants]
      rfl
    · rw [kept.native]
      rfl
    · rw [kept.grants]
      exact sound.fewGrants
    · rw [kept.outstanding]
      exact sound.pending
    · rw [kept.accepted,kept.outstanding,kept.retired,kept.released]
      exact sound.balance
    · rw [kept.accepted]
      exact sound.accepted
    · intro other busy'
      cases busy'
    · refine ⟨?_,sound.global.remainder,sound.global.updated⟩
      change a.global.bytes + min receipt.bytes (profile.globalCap - a.global.bytes) ≤ _
      omega
    · intro id' held
      exact owner_setPeer found (fun free => free) (sound.wait id' held)

theorem noWork_sound (valid : profile.isValid) (id : ConnectionId) (sourceEmpty : Bool)
    (time : Nat) : Sound profile (a.noWork profile id sourceEmpty time).1 := by
  have idle : ∀ b : ReliableByteAdmission, Sound profile b →
      Sound profile (b.becomeIdle id) := by
    intro b after
    unfold becomeIdle
    cases found : b.peers.find? id with
    | none => exact after.releaseWait id
    | some value =>
      refine .releaseWait ?_ id
      exact after.setPeer found { after.peers id value found with demand := zero_le _ } ⟨rfl,rfl,rfl,rfl,rfl⟩
  unfold noWork
  split
  · split
    · exact sound
    · cases moved : a.advance profile time with
      | none => exact sound
      | some b => exact idle b (sound.advance valid moved).1
  · exact idle a sound

theorem erase_sound (found : a.peers.find? id = some value) (free : value.ownsGrant = false)
    (elsewhere : ∀ receipt, a.active = some receipt → receipt.connection ≠ id) (aggregateExposure : Nat) :
    Sound profile ({ a with
      aggregateExposure
      unobserved := if !value.seen && decide (a.unobserved ≠ 0) then a.unobserved - 1 else a.unobserved
      peers := a.peers.erase id }.releaseWait id) := by
  have holds := sound.peers id value found
  obtain ⟨debt,grant,native⟩ := holds.freeShare free
  obtain ⟨wait,same,which,other⟩ := releaseWait_eq { a with
    aggregateExposure
    unobserved := if !value.seen && decide (a.unobserved ≠ 0) then a.unobserved - 1 else a.unobserved
    peers := a.peers.erase id } id
  have stays : ∀ id', id' ≠ id → (∃ v, a.peers.find? id' = some v ∧ v.ownsGrant = false) →
      ∃ v, (a.peers.erase id).find? id' = some v ∧ v.ownsGrant = false := by
    rintro id' apart ⟨v,found',free'⟩
    exact ⟨v,by rw [find?_erase,if_neg apart]; exact found',free'⟩
  rw [same]
  refine { sound with peers := ?_, outstanding := ?_, grants := ?_, native := ?_, unobserved := ?_, active := ?_, wait := ?_ }
  · intro id' v found'
    rw [find?_erase] at found'
    split_ifs at found'
    exact sound.peers id' v found'
  · have := total_erase Peer.debt found
    rw [debt] at this
    exact sound.outstanding.trans this
  · have := total_erase nativeGrant found
    rw [grant] at this
    exact sound.grants.trans this
  · have := total_erase nativeBytes found
    rw [native] at this
    exact sound.native.trans this
  · have total := total_erase unseen found
    have count := sound.unobserved
    change (if (!value.seen && decide (a.unobserved ≠ 0)) = true then a.unobserved - 1 else a.unobserved) =
      (a.peers.erase id).total unseen
    cases seen : value.seen with
    | true =>
      have zero : unseen value = 0 := by rw [unseen,seen]; rfl
      rw [Bool.not_true,Bool.false_and,if_neg nofun]
      omega
    | false =>
      have one : unseen value = 1 := by rw [unseen,seen]; rfl
      have positive : a.unobserved ≠ 0 := by omega
      rw [Bool.not_false,Bool.true_and,if_pos (decide_eq_true positive)]
      omega
  · intro receipt held
    have before := sound.active receipt held
    exact { before with owner := stays _ (elsewhere receipt held) before.owner }
  · intro id' held
    have there : a.globalWait = some id' := by
      rcases which with before | none
      · exact before.symm.trans held
      · rw [none] at held
        cases held
    refine stays id' ?_ (sound.wait id' there)
    rintro rfl
    exact other held

theorem rollbackActive_sound (id : ConnectionId) :
    Sound profile (a.rollbackActive profile id) ∧
      ∀ receipt, (a.rollbackActive profile id).active = some receipt → receipt.connection ≠ id := by
  unfold rollbackActive
  cases busy : a.active with
  | none =>
    refine ⟨sound,?_⟩
    intro receipt held
    rw [busy] at held
    cases held
  | some receipt =>
    dsimp only
    split_ifs with here
    · refine ⟨rollback_sound sound receipt,?_⟩
      intro other held
      rcases rollback_cases sound receipt with ⟨-,idle⟩ | ⟨-,_,_,_,_,-,-,same⟩
      · exact absurd busy idle
      · rw [same] at held
        cases held
    · refine ⟨sound,?_⟩
      intro other held
      rw [busy] at held
      cases held
      exact here

theorem remove_sound (id : ConnectionId) : Sound profile (a.remove profile id) := by
  unfold remove
  obtain ⟨after,elsewhere⟩ := rollbackActive_sound sound id
  generalize a.rollbackActive profile id = b at after elsewhere
  dsimp only
  cases found : b.peers.find? id with
  | none => exact after.releaseWait id
  | some value =>
    dsimp only
    split
    · exact after
    · next free =>
      refine erase_sound after found ?_ elsewhere _
      cases pooled : profile.isPooled with
      | true => exact eq_false_of_ne_true fun owns => free ⟨pooled,owns⟩
      | false => exact (after.peers id value found).reserved pooled

theorem terminalRelease_cases (id : ConnectionId) :
    a.terminalRelease profile id = (a,false) ∨ ∃ value c, a.terminalRelease profile id = (c.remove profile id,true) ∧
      a.peers.find? id = some value ∧ Sound profile c ∧
      c.peers = a.peers.insert id
        { value with ownsGrant := false, ownsNativeCapacity := false, grantBytes := 0, debt := 0, debtToken := 0 } ∧
      c.active = a.active ∧ c.nextToken = a.nextToken ∧ c.now = a.now ∧ c.global = a.global ∧ c.step = a.step ∧
      c.globalWait = a.globalWait := by
  unfold terminalRelease
  cases found : a.peers.find? id with
  | none => exact .inl rfl
  | some value =>
    dsimp only
    split
    · exact .inl rfl
    next granted =>
    push Not at granted
    obtain ⟨pooled,elsewhere,-⟩ := granted
    have pooled : profile.isPooled := by simpa using pooled
    have holds := sound.peers id value found
    obtain ⟨share,owned,sized⟩ := share_le sound found
    have pending := sound.pending
    have fewer := sound.fewGrants
    have balance := sound.balance pooled
    have less : sub64 a.totals.outstandingBytes value.debt = a.totals.outstandingBytes - value.debt := sub64_eq share
    have fewerGrants : (if value.ownsNativeCapacity = true then sub64 a.totals.activeDrainGrants 1
        else a.totals.activeDrainGrants) = a.totals.activeDrainGrants - nativeGrant value := by
      rw [nativeGrant] at owned ⊢
      split_ifs at owned ⊢
      · exact sub64_eq owned
      · rfl
    have lessNative : (if value.ownsNativeCapacity = true then sub64 a.totals.nativeCapacityBytes value.grantBytes
        else a.totals.nativeCapacityBytes) = a.totals.nativeCapacityBytes - nativeBytes value := by
      rw [nativeBytes] at sized ⊢
      split_ifs at sized ⊢
      · exact sub64_eq sized
      · rfl
    refine .inr ⟨value,_,rfl,rfl,?_,rfl,rfl,rfl,rfl,rfl,rfl,rfl⟩
    rw [less,fewerGrants,lessNative]
    refine sound.change found rfl rfl rfl ?_ ?_ ?_ ?_ rfl ?_ ?_ ?_ sound.accepted ?_ sound.global rfl sound.current ?_
    · exact ⟨holds.credit,by simp,absurd rfl,fun owns => (by cases owns),zero_le _,fun _ => rfl,
        holds.demand,holds.begun⟩
    · change a.totals.outstandingBytes - value.debt + value.debt = a.totals.outstandingBytes + 0
      omega
    · change a.totals.activeDrainGrants - nativeGrant value + nativeGrant value = a.totals.activeDrainGrants + 0
      omega
    · change a.totals.nativeCapacityBytes - nativeBytes value + nativeBytes value = a.totals.nativeCapacityBytes + 0
      omega
    · change a.totals.activeDrainGrants - nativeGrant value ≤ _
      omega
    · change a.totals.outstandingBytes - value.debt ≤ _
      omega
    · intro _
      change a.totals.acceptedBytes = a.totals.outstandingBytes - value.debt + a.totals.verifiedAttributedRetirement +
        (a.totals.terminalReleasedBytes + value.debt)
      omega
    · intro receipt held
      have before := sound.active receipt held
      refine { before with owner := owner_setPeer found (fun _ => rfl) before.owner, room := ?_ }
      intro _
      obtain ⟨grants,room,total⟩ := before.room pooled
      refine ⟨?_,?_,total⟩
      · change a.totals.activeDrainGrants - nativeGrant value < _
        omega
      · change a.totals.outstandingBytes - value.debt + receipt.bytes ≤ _
        omega
    · intro id' held
      exact owner_setPeer found (fun _ => rfl) (sound.wait id' held)

theorem terminalRelease_sound (id : ConnectionId) :
    Sound profile (a.terminalRelease profile id).1 := by
  rcases terminalRelease_cases sound id with same | ⟨value,c,same,-,after,-,-,-⟩
  · rwa [same]
  · rw [same]
    exact remove_sound after id

theorem endStep_sound (valid : profile.isValid) : Sound profile (a.endStep profile) := by
  unfold endStep
  generalize a.peers.keys = ids
  induction ids generalizing a with
  | nil => exact sound
  | cons id rest ih =>
    rw [foldl_cons]
    apply ih
    split
    · split_ifs
      · exact noWork_sound sound valid id _ _
      · exact sound
    · exact sound

end

theorem operate_sound {s : Audit} (valid : profile.isValid) (sound : Sound profile s.admission) (o : Operation) :
    Sound profile (operate profile s o).admission := by
  cases o with
  | beginStep time => exact beginStep_sound sound valid time
  | observe id exposure => exact observe_sound sound id exposure
  | observeService id service => exact observeService_sound sound id service
  | refreshService id service => exact refreshService_sound sound id service
  | completeNativeSend id token bytes observedAt consumedAt completedAt =>
    exact completeNativeSend_sound sound valid id token bytes observedAt consumedAt completedAt
  | setOrdinaryFunding bytes => exact { sound with active := fun receipt held => { sound.active receipt held with } }
  | setOrdinaryUnsent id bytes => exact setOrdinaryUnsent_sound sound id bytes
  | retire id token bytes => exact retire_sound sound id token bytes
  | terminalRelease id => exact terminalRelease_sound sound id
  | allowance id time => exact allowance_sound sound valid id time
  | deferSize id completeBytes => exact deferSize_sound sound valid id completeBytes
  | reserve id bytes => exact reserve_sound sound valid id bytes
  | commit receipt => exact commit_sound sound receipt
  | rollback receipt => exact rollback_sound sound receipt
  | noWork id sourceEmpty time => exact noWork_sound sound valid id sourceEmpty time
  | deferSource id => exact sound.releaseWait id
  | remove id => exact remove_sound sound id
  | endStep => exact endStep_sound sound valid

theorem operations_sound {s : Audit} (valid : profile.isValid) (sound : Sound profile s.admission)
    (l : List Operation) : Sound profile (operations profile s l).admission := by
  induction l generalizing s with
  | nil => exact sound
  | cons o rest ih => exact ih (operate_sound valid sound o)

end ReliableByteAdmission
end Gargantuan
