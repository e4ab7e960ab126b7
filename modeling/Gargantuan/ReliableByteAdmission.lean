import Gargantuan.ReliableServiceProfile
import Gargantuan.SortedMap

/-!
Admission of reliable bytes. Each peer and all peers together have a credit that
grows with time; a reservation takes credit from both, and a commit makes it the
debt of the peer, who owns a grant until the debt is retired and the service is
available again. Counters are machine words: a difference wraps, and a sum that
may overflow saturates.

Diagnostic evidence, high-water marks and the times that peers wait are left out;
no decision reads them.
-/
namespace Gargantuan

/-- The difference of two machine words, which wraps below zero. -/
def sub64 (a b : Nat) : Nat := if b ≤ a then a - b else a + 2 ^ 64 - b

/-- A sum that stops at the largest machine word. -/
def addUpTo (a b : Nat) : Nat := a + min b (maximumUInt64 - a)

theorem sub64_eq {a b : Nat} (enough : b ≤ a) : sub64 a b = a - b := if_pos enough

theorem addUpTo_eq {a b : Nat} (fits : a + b ≤ maximumUInt64) : addUpTo a b = a + b := by
  rw [addUpTo,Nat.min_eq_left (by omega)]

/-- A credit in bytes, with the part of a byte that is carried, in millionths. -/
structure Bucket where
  bytes : Nat := 0
  remainder : Nat := 0
  updated : Nat := 0
deriving DecidableEq

/-- The credit at a time. The elapsed whole seconds may fill it at once; the profile's bounds keep the product of the
    rest within a machine word. -/
def Bucket.refill (b : Bucket) (now rate cap : Nat) : Bucket :=
  let elapsed := sub64 now b.updated
  let remaining := sub64 cap b.bytes
  let seconds := elapsed / 1000000
  if remaining / rate < seconds then ⟨cap,0,now⟩
  else
    let fraction := elapsed % 1000000 * rate + b.remainder
    let added := seconds * rate + fraction / 1000000
    let bytes := b.bytes + min remaining added
    ⟨bytes,if bytes = cap then 0 else fraction % 1000000,now⟩

namespace ReliableByteAdmission

def minimumFrameBytes : Nat := 36 + reliableServiceEnvelopeBytes

structure Reservation where
  token : Nat
  connection : ConnectionId
  bytes : Nat
deriving DecidableEq

structure ServiceObservation where
  observedAtMicroseconds : Nat
  qualified : Bool
  available : Bool
deriving DecidableEq

structure Peer where
  credit : Bucket := {}
  exposure : Option Nat := none
  required : Nat := minimumFrameBytes
  demandStep : Nat := 0
  seen : Bool := false
  backlogged : Bool := false
  ownsGrant : Bool := false
  ownsNativeCapacity : Bool := false
  service : Option ServiceObservation := none
  debt : Nat := 0
  debtToken : Nat := 0
  nextQualification : Nat := 0
  grantBytes : Nat := 0
deriving DecidableEq

structure Metrics where
  reservedBytes : Nat := 0
  acceptedBytes : Nat := 0
  rolledBackBytes : Nat := 0
  creditDeferrals : Nat := 0
  backlogDeferrals : Nat := 0
  feedbackDeferrals : Nat := 0
  sizeDeferrals : Nat := 0
  deferredBytes : Nat := 0
  fairnessDeferrals : Nat := 0
  verifiedAttributedRetirement : Nat := 0
  terminalReleasedBytes : Nat := 0
  outstandingBytes : Nat := 0
  activeDrainGrants : Nat := 0
  grantDeferrals : Nat := 0
  fundedDeferrals : Nat := 0
  qualificationGrants : Nat := 0
  nativeCapacityBytes : Nat := 0
  nativeCapacityReturns : Nat := 0
deriving DecidableEq

end ReliableByteAdmission

structure ReliableByteAdmission where
  peers : SortedMap ConnectionId ReliableByteAdmission.Peer := ∅
  global : Bucket := {}
  totals : ReliableByteAdmission.Metrics := {}
  globalWait : Option ConnectionId := none
  active : Option ReliableByteAdmission.Reservation := none
  ordinaryFunding : Option Nat := none
  now : Nat := 0
  step : Nat := 0
  nextToken : Nat := 0
  aggregateExposure : Nat := 0
  unobserved : Nat := 0
  initialized : Bool := false
  feedbackComplete : Bool := false
  globalBacklogged : Bool := false
deriving DecidableEq

namespace ReliableByteAdmission
variable (profile : ReliableServiceProfile)

def setPeer (a : ReliableByteAdmission) (id : ConnectionId) (value : Peer) : ReliableByteAdmission :=
  { a with peers := a.peers.insert id value }

def releaseWait (a : ReliableByteAdmission) (id : ConnectionId) : ReliableByteAdmission :=
  if a.globalWait = some id then { a with globalWait := none } else a

/-- Time moves on and the global credit grows; time never moves back. -/
def advance (a : ReliableByteAdmission) (time : Nat) : Option ReliableByteAdmission :=
  if a.initialized = true ∧ time < a.now then none
  else
    let global := if a.initialized then a.global else { a.global with updated := time }
    some { a with now := time, initialized := true, global := global.refill time profile.globalRate profile.globalCap }

def beginStep (a : ReliableByteAdmission) (time : Nat) : ReliableByteAdmission × Bool :=
  if a.active.isSome ∨ a.step = maximumUInt64 then (a,false)
  else
    match a.advance profile time with
    | none => (a,false)
    | some b =>
      ({ b with
          step := b.step + 1, aggregateExposure := 0, feedbackComplete := true, unobserved := b.peers.size
          ordinaryFunding := none
          peers := b.peers.mapValues fun _ value => { value with seen := false, exposure := none, service := none } },
        true)

def entered (a : ReliableByteAdmission) (id : ConnectionId) : Option (Peer × Nat) :=
  match a.peers.find? id with
  | some value => some (value,a.unobserved)
  | none =>
    if profile.maximumConnections ≤ a.peers.size ∨ (a.peers.keys.any fun other => decide (other.slot = id.slot)) = true then
      none
    else some ({ credit := { updated := a.now } },a.unobserved + 1)

def observe (a : ReliableByteAdmission) (id : ConnectionId) (exposure : Option Nat) : ReliableByteAdmission × Bool :=
  if a.step = 0 ∨ id.isValid = false then (a,false)
  else
    match a.entered profile id with
    | none => (a,false)
    | some (value,unobserved) =>
      if value.seen then (a,false)
      else
        let seen := { a with unobserved := unobserved - 1 }.setPeer id { value with seen := true, exposure }
        match exposure with
        | none => ({ seen with feedbackComplete := false },true)
        | some bytes => ({ seen with aggregateExposure := addUpTo seen.aggregateExposure bytes },true)

/-- A grant without debt goes when the service is available, unless it still owns separate native capacity. -/
def refreshService (a : ReliableByteAdmission) (id : ConnectionId) (service : Option ServiceObservation) :
    ReliableByteAdmission × Bool :=
  match a.peers.find? id with
  | none => (a,false)
  | some value =>
    if profile.isPooled = false ∨ value.seen = false ∨ a.active.isSome then (a,false)
    else
      let told := { value with service }
      if value.ownsGrant = true ∧ value.debt = 0 ∧ service.any ServiceObservation.available = true then
        if profile.pooled.separateNativeCapacity = true ∧ value.ownsNativeCapacity = true then (a.setPeer id told,false)
        else
          let freed := { told with ownsGrant := false, ownsNativeCapacity := false, grantBytes := 0 }
          if value.ownsNativeCapacity then
            let totals :=
              { a.totals with
                activeDrainGrants := sub64 a.totals.activeDrainGrants 1
                nativeCapacityBytes := sub64 a.totals.nativeCapacityBytes value.grantBytes }
            ({ a with totals }.setPeer id freed,true)
          else (a.setPeer id freed,true)
      else (a.setPeer id told,true)

def observeService (a : ReliableByteAdmission) (id : ConnectionId) (service : Option ServiceObservation) :
    ReliableByteAdmission × Bool :=
  if profile.isPooled = false then (a,false)
  else
    let observed := a.observe profile id (service.map fun _ => 0)
    if observed.2 then observed.1.refreshService profile id service else (observed.1,false)

/-- A native send is complete: its execution capacity returns, but neither debt nor credit. -/
def completeNativeSend (a : ReliableByteAdmission) (id : ConnectionId) (token bytes observedAt consumedAt completedAt : Nat) :
    ReliableByteAdmission × Bool :=
  if profile.isPooled = false ∨ profile.pooled.separateNativeCapacity = false ∨ a.active.isSome ∨
      a.peers.contains id = false ∨ token = 0 ∨ bytes = 0 ∨ observedAt < completedAt ∨ consumedAt < observedAt ∨
      profile.pooled.feedbackFreshnessMicroseconds < consumedAt - observedAt then (a,false)
  else
    match a.advance profile consumedAt with
    | none => (a,false)
    | some b =>
      match b.peers.find? id with
      | none => (b,false)
      | some value =>
        if value.ownsGrant = false ∨ value.debtToken ≠ token ∨ value.debt ≠ bytes ∨ value.grantBytes ≠ bytes then (b,false)
        else if value.ownsNativeCapacity = false then (b,true)
        else if b.totals.activeDrainGrants = 0 ∨ b.totals.nativeCapacityBytes < bytes ∨
            b.totals.nativeCapacityReturns = maximumUInt64 then (b,false)
        else
          let totals :=
            { b.totals with
              activeDrainGrants := sub64 b.totals.activeDrainGrants 1
              nativeCapacityBytes := sub64 b.totals.nativeCapacityBytes bytes
              nativeCapacityReturns := b.totals.nativeCapacityReturns + 1 }
          ({ b with totals }.setPeer id { value with ownsNativeCapacity := false },true)

def setOrdinaryFunding (a : ReliableByteAdmission) (bytes : Nat) : ReliableByteAdmission :=
  { a with ordinaryFunding := some bytes }

def setOrdinaryUnsent (a : ReliableByteAdmission) (id : ConnectionId) (bytes : Nat) : ReliableByteAdmission × Bool :=
  match a.peers.find? id with
  | none => (a,false)
  | some value =>
    match value.exposure with
    | none => (a,false)
    | some exposure =>
      if profile.isPooled = false then (a,false)
      else
        let remaining := sub64 a.aggregateExposure exposure
        if maximumUInt64 - remaining < bytes then (a,false)
        else ({ a with aggregateExposure := remaining + bytes }.setPeer id { value with exposure := some bytes },true)

/-- A debt is retired under its own token, as a whole. -/
def retire (a : ReliableByteAdmission) (id : ConnectionId) (token bytes : Nat) : ReliableByteAdmission × Bool :=
  match a.peers.find? id with
  | none => (a,false)
  | some value =>
    if profile.isPooled = false ∨ token = 0 ∨ bytes = 0 ∨ value.debtToken ≠ token ∨ value.debt ≠ bytes ∨
        maximumUInt64 - a.totals.verifiedAttributedRetirement < bytes then (a,false)
    else
      let totals :=
        { a.totals with
          outstandingBytes := sub64 a.totals.outstandingBytes bytes
          verifiedAttributedRetirement := a.totals.verifiedAttributedRetirement + bytes }
      ({ a with totals }.setPeer id { value with debt := 0, debtToken := 0 },true)

/-! ### Allowances -/

def countFeedback (a : ReliableByteAdmission) : ReliableByteAdmission :=
  { a with totals := { a.totals with feedbackDeferrals := addUpTo a.totals.feedbackDeferrals 1 } }
def countGrant (a : ReliableByteAdmission) : ReliableByteAdmission :=
  { a with totals := { a.totals with grantDeferrals := addUpTo a.totals.grantDeferrals 1 } }
def countCredit (a : ReliableByteAdmission) : ReliableByteAdmission :=
  { a with totals := { a.totals with creditDeferrals := addUpTo a.totals.creditDeferrals 1 } }
def countFairness (a : ReliableByteAdmission) : ReliableByteAdmission :=
  { a with totals := { a.totals with fairnessDeferrals := addUpTo a.totals.fairnessDeferrals 1 } }
def countBacklog (a : ReliableByteAdmission) : ReliableByteAdmission :=
  let funded := if profile.isPooled then addUpTo a.totals.fundedDeferrals 1 else a.totals.fundedDeferrals
  { a with
    totals := { a.totals with backlogDeferrals := addUpTo a.totals.backlogDeferrals 1, fundedDeferrals := funded } }

def feedbackMissing (a : ReliableByteAdmission) (value : Peer) : Bool :=
  !a.feedbackComplete || decide (a.unobserved ≠ 0) || !value.seen || value.exposure.isNone

def serviceMissing (now : Nat) (value : Peer) : Bool :=
  value.service.all fun service =>
    !service.available || decide (now < service.observedAtMicroseconds) ||
      decide (profile.pooled.feedbackFreshnessMicroseconds < now - service.observedAtMicroseconds)

def grantRefused (a : ReliableByteAdmission) (value : Peer) : Bool :=
  value.ownsGrant || decide (profile.pooled.maximumDrainGrants ≤ a.totals.activeDrainGrants) ||
    decide (maximumUInt64 - a.now < profile.pooled.requalificationMicroseconds) ||
    (!value.service.any ServiceObservation.qualified && decide (a.now < value.nextQualification))

/-- The room below a bound, closed once the bound is passed until a quarter is free again. -/
def room (exposure high : Nat) (latched : Bool) : Nat × Bool :=
  let latched := latched || decide (high < exposure)
  let latched := latched && !decide (exposure ≤ high - min (high / 4) (maximumReliableServiceGroupBytes / 4))
  (if latched then 0 else high - min high exposure,latched)

def fundedRoom (a : ReliableByteAdmission) : Nat :=
  match a.ordinaryFunding with
  | none => 0
  | some ordinaryFunding =>
    let p := profile.pooled
    let funded := p.backendCap * PooledReliableServiceProfile.queueWindowMicroseconds / 1000000
    let transport := p.requiredTransportReserve * PooledReliableServiceProfile.queueWindowMicroseconds / 1000000
    let ordinary :=
      max ordinaryFunding (PooledReliableServiceProfile.gameplayBurst + PooledReliableServiceProfile.controlBurst)
    let structural := if p.separateNativeCapacity then a.totals.nativeCapacityBytes else a.totals.outstandingBytes
    if funded < ordinary ∨ funded - ordinary < transport ∨ funded - ordinary - transport < structural then 0
    else funded - ordinary - transport - structural

def rooms (a : ReliableByteAdmission) (value : Peer) : (Nat × Bool) × (Nat × Bool) × Nat :=
  let exposure := value.exposure.getD 0
  if profile.isPooled then
    let peer :=
      if exposure ≤ PooledReliableServiceProfile.peerOrdinaryUnsentLimit then maximumReliableServiceGroupBytes else 0
    let pending := profile.pooled.globalPendingCap
    ((peer,value.backlogged),(a.fundedRoom profile,a.globalBacklogged),
      pending - min a.totals.outstandingBytes pending)
  else
    (room exposure (profile.peerBacklog - profile.gameplayBurst) value.backlogged,
      room a.aggregateExposure (profile.globalBacklog - profile.gameplayBurst * profile.maximumConnections)
        a.globalBacklogged,maximumUInt64)

def waitsElsewhere (a : ReliableByteAdmission) (id : ConnectionId) : Bool :=
  a.globalWait.any fun other => decide (other ≠ id)

/-- The bytes that a peer, with its credit grown, may reserve, or the reason why it has to wait. -/
def decideAllowance (a : ReliableByteAdmission) (id : ConnectionId) (value : Peer) : ReliableByteAdmission × Nat :=
  let known := a.setPeer id value
  if a.feedbackMissing value = true ∨ (profile.isPooled = true ∧ serviceMissing profile a.now value = true) then
    (known.countFeedback.releaseWait id,0)
  else if profile.isPooled = true ∧ a.grantRefused profile value = true then (known.countGrant.releaseWait id,0)
  else
    let (peerRoom,globalRoom,retainedRoom) := a.rooms profile value
    let latched := { a with globalBacklogged := globalRoom.2 }.setPeer id { value with backlogged := peerRoom.2 }
    if peerRoom.1 < value.required ∨ globalRoom.1 < value.required ∨ retainedRoom < value.required then
      ((latched.countBacklog profile).releaseWait id,0)
    else if value.credit.bytes < value.required then (latched.countCredit.releaseWait id,0)
    else if a.waitsElsewhere id = true then (latched.countFairness,0)
    else if latched.global.bytes < value.required then ({ latched.countCredit with globalWait := some id },0)
    else
      (latched,min value.credit.bytes (min latched.global.bytes (min peerRoom.1 (min globalRoom.1
        (min retainedRoom maximumReliableServiceGroupBytes)))))

def allowance (a : ReliableByteAdmission) (id : ConnectionId) (time : Nat) : ReliableByteAdmission × Nat :=
  if a.active.isSome then (a,0)
  else
    match a.advance profile time with
    | none => (a,0)
    | some b =>
      match b.peers.find? id with
      | none => (b,0)
      | some value =>
        b.decideAllowance profile id
          { value with demandStep := b.step, credit := value.credit.refill b.now profile.peerRate profile.peerCap }

def deferSize (a : ReliableByteAdmission) (id : ConnectionId) (completeBytes : Nat) : ReliableByteAdmission :=
  match a.peers.find? id with
  | none => a
  | some value =>
    if completeBytes < minimumFrameBytes ∨ maximumReliableServiceGroupBytes < completeBytes then a
    else
      let totals :=
        { a.totals with
          sizeDeferrals := addUpTo a.totals.sizeDeferrals 1
          deferredBytes := addUpTo a.totals.deferredBytes completeBytes }
      (({ a with totals }.setPeer id { value with required := completeBytes }).allowance profile id a.now).1

def reserve (a : ReliableByteAdmission) (id : ConnectionId) (bytes : Nat) : ReliableByteAdmission × Option Reservation :=
  if bytes < minimumFrameBytes then (a,none)
  else
    let asked := a.allowance profile id a.now
    let b := asked.1
    if asked.2 < bytes ∨ b.nextToken = maximumUInt64 ∨
        (profile.isPooled = true ∧ maximumUInt64 - b.totals.acceptedBytes < bytes) then (b,none)
    else
      match b.peers.find? id with
      | none => (b,none)
      | some value =>
        let credit := { value.credit with bytes := sub64 value.credit.bytes bytes }
        let exposure := if profile.isPooled then value.exposure else value.exposure.map fun e => addUpTo e bytes
        let aggregateExposure := if profile.isPooled then b.aggregateExposure else addUpTo b.aggregateExposure bytes
        let receipt : Reservation := ⟨b.nextToken + 1,id,bytes⟩
        let totals := { b.totals with reservedBytes := addUpTo b.totals.reservedBytes bytes }
        let taken :=
          { b with
            global := { b.global with bytes := sub64 b.global.bytes bytes }, aggregateExposure, totals
            nextToken := b.nextToken + 1, active := some receipt }
        (taken.setPeer id { value with credit, exposure },some receipt)

def commit (a : ReliableByteAdmission) (receipt : Reservation) : ReliableByteAdmission × Bool :=
  if a.active ≠ some receipt then (a,false)
  else
    match a.peers.find? receipt.connection with
    | none => (a,false)
    | some value =>
      let accepted := { a.totals with acceptedBytes := addUpTo a.totals.acceptedBytes receipt.bytes }
      let asked := { value with required := minimumFrameBytes }
      let done : ReliableByteAdmission :=
        if profile.isPooled then
          let unqualified := !value.service.any ServiceObservation.qualified
          let totals :=
            { accepted with
              nativeCapacityBytes := accepted.nativeCapacityBytes + receipt.bytes
              outstandingBytes := accepted.outstandingBytes + receipt.bytes
              activeDrainGrants := accepted.activeDrainGrants + 1
              qualificationGrants := if unqualified then addUpTo accepted.qualificationGrants 1 else accepted.qualificationGrants }
          { a with totals, active := none }.setPeer receipt.connection
            { asked with
              debt := receipt.bytes, debtToken := receipt.token, ownsGrant := true, ownsNativeCapacity := true
              grantBytes := receipt.bytes
              nextQualification := (a.now + profile.pooled.requalificationMicroseconds) % 2 ^ 64 }
        else { a with totals := accepted, active := none }.setPeer receipt.connection asked
      (done.releaseWait receipt.connection,true)

/-- A reservation is taken back; credit grown in between may leave less room than it took. -/
def rollback (a : ReliableByteAdmission) (receipt : Reservation) : ReliableByteAdmission × Bool :=
  if a.active ≠ some receipt then (a,false)
  else
    match a.peers.find? receipt.connection with
    | none => (a,false)
    | some value =>
      let credit :=
        { value.credit with
          bytes := value.credit.bytes + min receipt.bytes (sub64 profile.peerCap value.credit.bytes) }
      let global :=
        { a.global with bytes := a.global.bytes + min receipt.bytes (sub64 profile.globalCap a.global.bytes) }
      let exposure := if profile.isPooled then value.exposure else value.exposure.map fun e => sub64 e receipt.bytes
      let aggregateExposure :=
        if profile.isPooled then a.aggregateExposure else sub64 a.aggregateExposure receipt.bytes
      let totals := { a.totals with rolledBackBytes := addUpTo a.totals.rolledBackBytes receipt.bytes }
      ({ a with global, aggregateExposure, totals, active := none }.setPeer receipt.connection
        { value with credit, exposure },true)

/-- A peer has nothing to send, and gives up the turn. -/
def becomeIdle (a : ReliableByteAdmission) (id : ConnectionId) : ReliableByteAdmission :=
  match a.peers.find? id with
  | none => a.releaseWait id
  | some value => (a.setPeer id { value with required := minimumFrameBytes, demandStep := 0 }).releaseWait id

/-- A source that says itself that it has nothing to send gives the time, unless it has none. -/
def noWork (a : ReliableByteAdmission) (id : ConnectionId) (sourceEmpty : Bool) (time : Nat) :
    ReliableByteAdmission × Bool :=
  if sourceEmpty then
    if time = maximumUInt64 ∨ a.peers.contains id = false then (a,false)
    else
      match a.advance profile time with
      | none => (a,false)
      | some b => (b.becomeIdle id,true)
  else (a.becomeIdle id,true)

def deferSource (a : ReliableByteAdmission) (id : ConnectionId) : ReliableByteAdmission := a.releaseWait id

/-- The reservation of a peer that goes is rolled back. -/
def rollbackActive (a : ReliableByteAdmission) (id : ConnectionId) : ReliableByteAdmission :=
  match a.active with
  | none => a
  | some receipt => if receipt.connection = id then (a.rollback profile receipt).1 else a

/-- A peer goes, unless it owns a pooled grant. -/
def remove (a : ReliableByteAdmission) (id : ConnectionId) : ReliableByteAdmission :=
  let b := a.rollbackActive profile id
  match b.peers.find? id with
  | none => b.releaseWait id
  | some value =>
    if profile.isPooled = true ∧ value.ownsGrant = true then b
    else
      let aggregateExposure := b.aggregateExposure - min b.aggregateExposure (value.exposure.getD 0)
      let unobserved := if !value.seen && decide (b.unobserved ≠ 0) then b.unobserved - 1 else b.unobserved
      { b with aggregateExposure, unobserved, peers := b.peers.erase id }.releaseWait id

/-- The end of a connection releases what it owes and owns. -/
def terminalRelease (a : ReliableByteAdmission) (id : ConnectionId) : ReliableByteAdmission × Bool :=
  match a.peers.find? id with
  | none => (a,false)
  | some value =>
    if profile.isPooled = false ∨ (a.active.any fun receipt => decide (receipt.connection = id)) = true ∨
        maximumUInt64 - a.totals.terminalReleasedBytes < value.debt then (a,false)
    else
      let owns := value.ownsNativeCapacity
      let totals :=
        { a.totals with
          terminalReleasedBytes := a.totals.terminalReleasedBytes + value.debt
          outstandingBytes := sub64 a.totals.outstandingBytes value.debt
          activeDrainGrants := if owns then sub64 a.totals.activeDrainGrants 1 else a.totals.activeDrainGrants
          nativeCapacityBytes :=
            if owns then sub64 a.totals.nativeCapacityBytes value.grantBytes else a.totals.nativeCapacityBytes }
      let released :=
        { value with ownsGrant := false, ownsNativeCapacity := false, grantBytes := 0, debt := 0, debtToken := 0 }
      (({ a with totals }.setPeer id released).remove profile id,true)

/-- Every peer that did not ask in the step has nothing to send. -/
def endStep (a : ReliableByteAdmission) : ReliableByteAdmission :=
  a.peers.keys.foldl (fun b id =>
    match b.peers.find? id with
    | some value => if value.demandStep ≠ b.step then (b.noWork profile id false maximumUInt64).1 else b
    | none => b) a

end ReliableByteAdmission

namespace ReliableByteAdmission

structure Audit where
  admission : ReliableByteAdmission := {}
  committed : List Reservation := []
  retired : List Reservation := []
  released : List Reservation := []
  asked : List ConnectionId := []

inductive Operation where
  | beginStep (time : Nat)
  | observe (id : ConnectionId) (exposure : Option Nat)
  | observeService (id : ConnectionId) (service : Option ServiceObservation)
  | refreshService (id : ConnectionId) (service : Option ServiceObservation)
  | completeNativeSend (id : ConnectionId) (token bytes observedAt consumedAt completedAt : Nat)
  | setOrdinaryFunding (bytes : Nat)
  | setOrdinaryUnsent (id : ConnectionId) (bytes : Nat)
  | retire (id : ConnectionId) (token bytes : Nat)
  | terminalRelease (id : ConnectionId)
  | allowance (id : ConnectionId) (time : Nat)
  | deferSize (id : ConnectionId) (completeBytes : Nat)
  | reserve (id : ConnectionId) (bytes : Nat)
  | commit (receipt : Reservation)
  | rollback (receipt : Reservation)
  | noWork (id : ConnectionId) (sourceEmpty : Bool) (time : Nat)
  | deferSource (id : ConnectionId)
  | remove (id : ConnectionId)
  | endStep

def debtOf (e : ConnectionId × Peer) : Option Reservation :=
  if e.2.debt = 0 then none else some ⟨e.2.debtToken,e.1,e.2.debt⟩

def debts (peers : SortedMap ConnectionId Peer) : List Reservation := peers.entries.filterMap debtOf

/-- An operation, with any arguments, and what it adds to the record. -/
def operate (profile : ReliableServiceProfile) (s : Audit) : Operation → Audit
  | .beginStep time =>
    let (admission,done) := s.admission.beginStep profile time
    { s with admission, asked := if done then [] else s.asked }
  | .observe id exposure => { s with admission := (s.admission.observe profile id exposure).1 }
  | .observeService id service => { s with admission := (s.admission.observeService profile id service).1 }
  | .refreshService id service => { s with admission := (s.admission.refreshService profile id service).1 }
  | .completeNativeSend id token bytes observedAt consumedAt completedAt =>
    { s with
      admission := (s.admission.completeNativeSend profile id token bytes observedAt consumedAt completedAt).1 }
  | .setOrdinaryFunding bytes => { s with admission := s.admission.setOrdinaryFunding bytes }
  | .setOrdinaryUnsent id bytes => { s with admission := (s.admission.setOrdinaryUnsent profile id bytes).1 }
  | .retire id token bytes =>
    let (admission,done) := s.admission.retire profile id token bytes
    { s with admission, retired := if done then ⟨token,id,bytes⟩ :: s.retired else s.retired }
  | .terminalRelease id =>
    let (admission,done) := s.admission.terminalRelease profile id
    let debt := ((s.admission.peers.find? id).bind fun value => debtOf (id,value)).toList
    { s with admission, released := if done then debt ++ s.released else s.released }
  | .allowance id time =>
    { s with admission := (s.admission.allowance profile id time).1, asked := id :: s.asked }
  | .deferSize id completeBytes =>
    { s with
      admission := s.admission.deferSize profile id completeBytes
      asked := if s.admission.peers.contains id = false ∨ completeBytes < minimumFrameBytes ∨
          maximumReliableServiceGroupBytes < completeBytes then s.asked
        else id :: s.asked }
  | .reserve id bytes =>
    { s with
      admission := (s.admission.reserve profile id bytes).1
      asked := if bytes < minimumFrameBytes then s.asked else id :: s.asked }
  | .commit receipt =>
    let (admission,done) := s.admission.commit profile receipt
    { s with admission, committed := if done then receipt :: s.committed else s.committed }
  | .rollback receipt => { s with admission := (s.admission.rollback profile receipt).1 }
  | .noWork id sourceEmpty time => { s with admission := (s.admission.noWork profile id sourceEmpty time).1 }
  | .deferSource id => { s with admission := s.admission.deferSource id }
  | .remove id => { s with admission := s.admission.remove profile id }
  | .endStep => { s with admission := s.admission.endStep profile }

/-- The state after operations in order. -/
def operations (profile : ReliableServiceProfile) (s : Audit) (l : List Operation) : Audit := l.foldl (operate profile) s

end ReliableByteAdmission
end Gargantuan
