import Gargantuan.ReliableByteAdmissionAccounts

/-!
What may be committed in a window of time. The bytes that are reserved and committed
between two states of a run are bounded by the cap of the credit and what its rate
gives for the time between them, for each peer and for all peers together
(`spent_within`). Credit is counted in millionths of a byte, so that the part of a
byte that is carried is counted too.
-/
namespace Gargantuan
open SortedMap List Nat Bucket
namespace ReliableByteAdmission
variable {profile : ReliableServiceProfile} {a b c : ReliableByteAdmission}

theorem rate_split (rate : Nat) {first second third : Nat} (h : first ≤ second) (h' : second ≤ third) :
    rate * (third - first) = rate * (third - second) + rate * (second - first) := by
  rw [← mul_add]
  congr 1
  omega

def Grown (profile : ReliableServiceProfile) (a : ReliableByteAdmission) (id : ConnectionId) (credit : Bucket) : Prop :=
  (∃ value, a.peers.find? id = some value ∧ value.credit.updated ≤ credit.updated ∧
    credit.micros ≤ value.credit.micros + profile.peerRate * (credit.updated - value.credit.updated)) ∨
  ∃ start, a.now ≤ start ∧ start ≤ credit.updated ∧ credit.micros ≤ profile.peerRate * (credit.updated - start)

/-- No reservation is made or ended: credits only grow with time, and peers may come and go. -/
structure CreditStep (profile : ReliableServiceProfile) (a b : ReliableByteAdmission) : Prop where
  active : b.active = a.active
  tokens : b.nextToken = a.nextToken
  later : a.now ≤ b.now
  global : b.global.micros ≤ a.global.micros + profile.globalRate * (b.now - a.now)
  peers : ∀ id value, b.peers.find? id = some value → Grown profile a id value.credit

variable {id : ConnectionId}

theorem Grown.same {value : Peer} (found : a.peers.find? id = some value) :
    Grown profile a id value.credit := .inl ⟨value,found,le_rfl,le_add_right _ _⟩

theorem CreditStep.of_peers (active : b.active = a.active) (tokens : b.nextToken = a.nextToken) (now : b.now = a.now)
    (global : b.global = a.global)
    (peers : ∀ id value, b.peers.find? id = some value → Grown profile a id value.credit) : CreditStep profile a b :=
  ⟨active,tokens,now.ge,by rw [global]; exact le_add_right _ _,peers⟩

theorem CreditStep.refl (a : ReliableByteAdmission) : CreditStep profile a a :=
  .of_peers rfl rfl rfl rfl fun _ _ => .same

theorem CreditStep.trans (first : CreditStep profile a b) (second : CreditStep profile b c) : CreditStep profile a c := by
  refine ⟨second.active.trans first.active,second.tokens.trans first.tokens,first.later.trans second.later,?_,?_⟩
  · have split := rate_split profile.globalRate first.later second.later
    have := first.global
    have := second.global
    omega
  · intro id value found
    rcases second.peers id value found with ⟨v,there,later,grown⟩ | ⟨start,after,later,grown⟩
    · rcases first.peers id v there with ⟨v',there',later',grown'⟩ | ⟨start,after,later',grown'⟩
      · refine .inl ⟨v',there',later'.trans later,?_⟩
        have split := rate_split profile.peerRate later' later
        omega
      · refine .inr ⟨start,after,later'.trans later,?_⟩
        have split := rate_split profile.peerRate later' later
        omega
    · exact .inr ⟨start,first.later.trans after,later,grown⟩

theorem CreditStep.change {new : Peer} (active : b.active = a.active)
    (tokens : b.nextToken = a.nextToken) (now : b.now = a.now) (global : b.global = a.global)
    (peers : b.peers = a.peers.insert id new) (grown : Grown profile a id new.credit) : CreditStep profile a b := by
  refine .of_peers active tokens now global ?_
  intro id' value found
  rw [peers,find?_insert] at found
  split_ifs at found with here
  · cases found
    rwa [here]
  · exact .same found

theorem CreditStep.releaseWait (a : ReliableByteAdmission) (id : ConnectionId) :
    CreditStep profile a (a.releaseWait id) := by
  obtain ⟨wait,same,-⟩ := releaseWait_eq a id
  rw [same]
  exact .of_peers rfl rfl rfl rfl fun _ _ => .same

theorem CreditStep.advance (sound : Sound profile a) (valid : profile.isValid) {time : Nat}
    (moved : a.advance profile time = some b) : CreditStep profile a b := by
  obtain ⟨-,later,now,global,same⟩ := sound.advance valid moved
  refine ⟨by rw [same],by rw [same],by rw [now]; exact later,by rw [now]; exact global,?_⟩
  intro id value found
  rw [same] at found
  exact .same found

theorem Upkeep.credit (upkeep : Upkeep profile a b) : CreditStep profile a b := by
  induction upkeep with
  | refl a => exact .refl a
  | trans _ _ first second => exact first.trans second
  | advance sound valid moved => exact .advance sound valid moved
  | releaseWait a id => exact .releaseWait a id
  | peer known peers same _ rest =>
    simp only [Prod.mk.injEq] at same rest
    refine .change rest.1 rest.2.1 rest.2.2.1 rest.2.2.2.1 peers ?_
    rw [same.2.2]
    rcases known with found | ⟨-,rfl⟩
    · exact .same found
    · refine .inr ⟨_,le_rfl,le_rfl,?_⟩
      simp [micros]

theorem beginStep_credit (sound : Sound profile a) (valid : profile.isValid) (time : Nat) :
    CreditStep profile a (a.beginStep profile time).1 := by
  unfold beginStep
  split
  · exact .refl a
  cases moved : a.advance profile time with
  | none => exact .refl a
  | some b =>
    refine (CreditStep.advance sound valid moved).trans (.of_peers rfl rfl rfl rfl ?_)
    intro id value found
    rw [find?_mapValues] at found
    obtain ⟨before,held,rfl⟩ := Option.map_eq_some_iff.mp found
    have grown : Grown profile b id before.credit := .same held
    exact grown

theorem retire_credit (a : ReliableByteAdmission) (id : ConnectionId) (token bytes : Nat) :
    CreditStep profile a (a.retire profile id token bytes).1 := by
  unfold retire
  cases found : a.peers.find? id with
  | none => exact .refl a
  | some value =>
    have grown : Grown profile a id value.credit := .same found
    dsimp only
    split
    · exact .refl a
    · exact .change rfl rfl rfl rfl rfl grown

theorem allowance_credit (sound : Sound profile a) (valid : profile.isValid) (id : ConnectionId) (time : Nat) :
    CreditStep profile a (a.allowance profile id time).1 := by
  rcases @allowance_cases profile a id time with ⟨same,-⟩ | ⟨-,b,moved,⟨same,-⟩ | ⟨value,found,allowed⟩⟩
  · rw [same]
    exact .refl a
  · rw [same]
    exact .advance sound valid moved
  · refine (CreditStep.advance sound valid moved).trans ?_
    have holds := (sound.advance valid moved).1.peers id value found
    obtain ⟨⟨backlogged,totals,globalBacklogged,same⟩,-,-,-⟩ := allowed
    rw [same]
    refine .change rfl rfl rfl rfl rfl (.inl ⟨value,found,?_,?_⟩)
    · rw [refill_updated]
      exact holds.credit.updated
    · rw [refill_updated]
      exact (refill_spec holds.credit (ReliableServiceProfile.rates_of_isValid valid).1).2.2

theorem deferSize_credit (sound : Sound profile a) (valid : profile.isValid) (id : ConnectionId)
    (completeBytes : Nat) : CreditStep profile a (a.deferSize profile id completeBytes) := by
  unfold deferSize
  cases found : a.peers.find? id with
  | none => exact .refl a
  | some value =>
    dsimp only
    split
    · exact .refl a
    have told : Sound profile (a.setPeer id { value with required := completeBytes }) :=
      sound.setPeer found { sound.peers id value found with } ⟨rfl,rfl,rfl,rfl,rfl⟩
    have grown : Grown profile a id value.credit := .same found
    refine .trans ?_ (allowance_credit ?_ valid id _)
    · exact .change rfl rfl rfl rfl rfl grown
    · exact { told with active := fun receipt held => { told.active receipt held with } }

theorem remove_credit (a : ReliableByteAdmission) (id : ConnectionId) :
    CreditStep profile (a.rollbackActive profile id) (a.remove profile id) := by
  unfold remove
  generalize a.rollbackActive profile id = b
  dsimp only
  cases found : b.peers.find? id with
  | none => exact .releaseWait b id
  | some value =>
    dsimp only
    split
    · exact .refl b
    · refine .trans ?_ (.releaseWait _ id)
      refine .of_peers rfl rfl rfl rfl ?_
      intro id' v found'
      rw [find?_erase] at found'
      split_ifs at found'
      exact .same found'

/-! ### Windows -/

def reservedSince (a : ReliableByteAdmission) (token : Nat) (who : ConnectionId → Bool) : Nat :=
  match a.active with
  | none => 0
  | some receipt => if decide (token < receipt.token) && who receipt.connection then receipt.bytes else 0

def committedSince (committed : List Reservation) (token : Nat) (who : ConnectionId → Bool) : Nat :=
  ((committed.filter fun r => decide (token < r.token) && who r.connection).map Reservation.bytes).sum

def spentSince (s : Audit) (token : Nat) (who : ConnectionId → Bool) : Nat :=
  committedSince s.committed token who + reservedSince s.admission token who

/-- What a credit may give in the worst case: its cap, and less than a byte that it carries. -/
@[irreducible] def burst (cap : Nat) : Nat := cap * 1000000 + 999999

theorem micros_le_burst {credit : Bucket} {cap now : Nat} (within : credit.Within cap now) :
    credit.micros ≤ burst cap := by
  rw [burst]
  exact within.micros_le

structure Ordered (s : Audit) : Prop where
  given : ∀ receipt ∈ s.committed, receipt.token ≤ s.admission.nextToken
  waiting : ∀ receipt, s.admission.active = some receipt → ∀ r ∈ s.committed, r.token < receipt.token

def CoveredByAll (profile : ReliableServiceProfile) (token time : Nat) (s : Audit) : Prop :=
  spentSince s token (fun _ => true) * 1000000 + s.admission.global.micros ≤
    burst profile.globalCap + profile.globalRate * (s.admission.now - time)

def CoveredByPeer (profile : ReliableServiceProfile) (token time : Nat) (id : ConnectionId) (s : Audit) : Prop :=
  spentSince s token (fun other => decide (other = id)) = 0 ∨
    (spentSince s token (fun other => decide (other = id)) * 1000000 ≤
      burst profile.peerCap + profile.peerRate * (s.admission.now - time) ∧
    ∀ value, s.admission.peers.find? id = some value → time ≤ value.credit.updated ∧
      spentSince s token (fun other => decide (other = id)) * 1000000 + value.credit.micros ≤
        burst profile.peerCap + profile.peerRate * (value.credit.updated - time))

structure Window (profile : ReliableServiceProfile) (token time : Nat) (s : Audit) : Prop where
  sound : Sound profile s.admission
  ordered : Ordered s
  later : time ≤ s.admission.now
  tokens : token ≤ s.admission.nextToken
  all : CoveredByAll profile token time s
  peer : ∀ id, CoveredByPeer profile token time id s

theorem spentSince_congr {s : Audit} (same : b.active = s.admission.active) (token : Nat) (who : ConnectionId → Bool) :
    spentSince { s with admission := b } token who = spentSince s token who := by
  unfold spentSince reservedSince
  rw [same]

theorem cover_grown {spent before after cap x y z : Nat} (enough : spent * 1000000 + before ≤ cap + x)
    (grown : after ≤ before + y) (split : z = y + x) : spent * 1000000 + after ≤ cap + z := by
  omega

theorem cover_taken {spent before after n cap x : Nat} (enough : spent * 1000000 + before ≤ cap + x)
    (taken : after + n * 1000000 = before) : (spent + n) * 1000000 + after ≤ cap + x := by
  rwa [add_mul,add_assoc,add_comm (n * 1000000),taken]

theorem cover_returned {spent n before after bound : Nat} (enough : spent + n + before ≤ bound)
    (returned : after ≤ before + n) : spent + after ≤ bound := by
  omega

variable {token time : Nat} {s : Audit}

theorem Window.credit (window : Window profile token time s) (sound : Sound profile b)
    (step : CreditStep profile s.admission b) : Window profile token time { s with admission := b } := by
  refine ⟨sound,⟨?_,?_⟩,window.later.trans step.later,window.tokens.trans step.tokens.ge,?_,?_⟩
  · intro receipt member
    exact (window.ordered.given receipt member).trans step.tokens.ge
  · intro receipt held
    exact window.ordered.waiting receipt (step.active ▸ held)
  · have before := window.all
    unfold CoveredByAll at before ⊢
    rw [spentSince_congr step.active]
    exact cover_grown before step.global (rate_split profile.globalRate window.later step.later)
  · intro id
    have split := rate_split profile.peerRate window.later step.later
    unfold CoveredByPeer
    rw [spentSince_congr step.active]
    rcases window.peer id with none | ⟨bound,covered⟩
    · exact .inl none
    refine .inr ⟨?_,?_⟩
    · exact bound.trans (Nat.add_le_add_left (split ▸ Nat.le_add_left _ _) _)
    · intro value found
      rcases step.peers id value found with ⟨v,there,later,grown⟩ | ⟨start,after,later,grown⟩
      · obtain ⟨started,enough⟩ := covered v there
        exact ⟨started.trans later,cover_grown enough grown (rate_split profile.peerRate started later)⟩
      · have early := window.later.trans after
        have more : profile.peerRate * (s.admission.now - time) ≤ profile.peerRate * (start - time) :=
          Nat.mul_le_mul_left _ (Nat.sub_le_sub_right after _)
        have enough := bound.trans (Nat.add_le_add_left more (burst profile.peerCap))
        have growth : value.credit.micros ≤ 0 + profile.peerRate * (value.credit.updated - start) := by
          rwa [Nat.zero_add]
        exact ⟨early.trans later,cover_grown (Nat.add_zero _ ▸ enough) growth (rate_split profile.peerRate early later)⟩

theorem committedSince_eq_zero {l : List Reservation} (old : ∀ r ∈ l, r.token ≤ token) (who : ConnectionId → Bool) :
    committedSince l token who = 0 := by
  unfold committedSince
  rw [filter_eq_nil_iff.mpr]
  · rfl
  · intro r member
    have := old r member
    simp only [Bool.and_eq_true,decide_eq_true_eq,not_and]
    intro less
    omega

theorem Window.start (sound : Sound profile s.admission) (ordered : Ordered s) :
    Window profile s.admission.nextToken s.admission.now s := by
  have nothing : ∀ who, spentSince s s.admission.nextToken who = 0 := by
    intro who
    unfold spentSince reservedSince
    rw [committedSince_eq_zero ordered.given]
    cases busy : s.admission.active with
    | none => rfl
    | some receipt =>
      have latest := (sound.active receipt busy).latest
      dsimp only
      rw [decide_eq_false (by omega),Bool.false_and,if_neg nofun]
  refine ⟨sound,ordered,le_rfl,le_rfl,?_,fun id => .inl (nothing _)⟩
  unfold CoveredByAll
  rw [nothing,Nat.zero_add]
  exact (micros_le_burst sound.global).trans (Nat.le_add_right _ _)

theorem micros_sub {credit : Bucket} {n : Nat} (enough : n ≤ credit.bytes) :
    ({ credit with bytes := credit.bytes - n } : Bucket).micros + n * 1000000 = credit.micros := by
  simp only [micros]
  omega

theorem micros_add_le (credit : Bucket) (n m : Nat) :
    ({ credit with bytes := credit.bytes + min n m } : Bucket).micros ≤ credit.micros + n * 1000000 := by
  simp only [micros]
  omega

theorem Window.reserve (window : Window profile token time s) (valid : profile.isValid) (id : ConnectionId)
    (bytes : Nat) : Window profile token time { s with admission := (s.admission.reserve profile id bytes).1 } := by
  have after := reserve_sound window.sound valid id bytes
  rcases reserve_cases window.sound valid id bytes with (same | same) |
    ⟨b,value,exposure,aggregateExposure,totals,isAsked,idle,found,current,-,credit,global,-,-,-,-,same⟩
  · rwa [same]
  · rw [same]
    exact window.credit (allowance_sound window.sound valid id _) (allowance_credit window.sound valid id _)
  -- The window goes on to the state that was asked, where no reservation is in progress.
  have asked : Window profile token time { s with admission := b } := by
    rw [isAsked]
    exact window.credit (allowance_sound window.sound valid id _) (allowance_credit window.sound valid id _)
  have before : ∀ who, spentSince { s with admission := b } token who = committedSince s.committed token who := by
    intro who
    unfold spentSince reservedSince
    rw [idle]
    rfl
  rw [same] at after ⊢
  have newer : decide (token < b.nextToken + 1) := by
    have := asked.tokens
    exact decide_eq_true (Nat.lt_succ_of_le this)
  refine ⟨after,⟨?_,?_⟩,asked.later,asked.tokens.trans (Nat.le_succ _),?_,?_⟩
  · intro receipt member
    exact (asked.ordered.given receipt member).trans (Nat.le_succ _)
  · intro receipt held r member
    cases held
    exact Nat.lt_succ_of_le (asked.ordered.given r member)
  · have covered := asked.all
    unfold CoveredByAll at covered ⊢
    rw [before] at covered
    unfold spentSince reservedSince
    dsimp only at covered ⊢
    rw [newer,Bool.true_and]
    exact cover_taken covered (micros_sub global)
  · intro id'
    have covered := asked.peer id'
    unfold CoveredByPeer at covered ⊢
    rw [before] at covered
    unfold spentSince reservedSince
    dsimp only at covered ⊢
    rw [newer,Bool.true_and]
    by_cases here : id = id'
    · subst here
      rw [decide_eq_true rfl]
      have most := micros_le_burst (asked.sound.peers id value found).credit
      have enough : committedSince s.committed token (fun other => decide (other = id)) * 1000000 + value.credit.micros ≤
          burst profile.peerCap + profile.peerRate * (value.credit.updated - time) := by
        rcases covered with none | ⟨-,held⟩
        · rw [none,Nat.zero_add]
          exact most.trans (Nat.le_add_right _ _)
        · exact (held value found).2
      have held := cover_taken enough (micros_sub credit)
      refine .inr ⟨current ▸ (Nat.le_add_right _ _).trans held,?_⟩
      intro value' found'
      rw [find?_insert_self] at found'
      cases found'
      exact ⟨current.symm ▸ asked.later,held⟩
    · rw [decide_eq_false here,if_neg nofun]
      rcases covered with none | ⟨bound,held⟩
      · exact .inl none
      · refine .inr ⟨bound,?_⟩
        intro value' found'
        rw [find?_insert_of_ne _ _ (Ne.symm here)] at found'
        exact held value' found'

theorem commit_cases (sound : Sound profile a) (receipt : Reservation) :
    a.commit profile receipt = (a,false) ∨ a.active = some receipt ∧ ∃ c, a.commit profile receipt = (c,true) ∧
      c.active = none ∧ c.nextToken = a.nextToken ∧ c.now = a.now ∧ c.global = a.global ∧
      ∀ id value, c.peers.find? id = some value → ∃ v, a.peers.find? id = some v ∧ value.credit = v.credit := by
  unfold commit
  split
  · exact .inl rfl
  next busy =>
  have busy : a.active = some receipt := not_not.mp busy
  obtain ⟨-,-,-,⟨value,found,-⟩,-⟩ := sound.active receipt busy
  rw [found]
  refine .inr ⟨busy,_,rfl,?_⟩
  have kept : ∀ (c : ReliableByteAdmission) (new : Peer), c.active = none → c.nextToken = a.nextToken → c.now = a.now →
      c.global = a.global → c.peers = a.peers → new.credit = value.credit →
      ((c.setPeer receipt.connection new).releaseWait receipt.connection).active = none ∧
        ((c.setPeer receipt.connection new).releaseWait receipt.connection).nextToken = a.nextToken ∧
        ((c.setPeer receipt.connection new).releaseWait receipt.connection).now = a.now ∧
        ((c.setPeer receipt.connection new).releaseWait receipt.connection).global = a.global ∧
        ∀ id v, ((c.setPeer receipt.connection new).releaseWait receipt.connection).peers.find? id = some v →
          ∃ v', a.peers.find? id = some v' ∧ v.credit = v'.credit := by
    intro c new active tokens now global peers credit
    obtain ⟨wait,same,-⟩ := releaseWait_eq (c.setPeer receipt.connection new) receipt.connection
    rw [same]
    refine ⟨active,tokens,now,global,?_⟩
    intro id v there
    change (c.peers.insert receipt.connection new).find? id = some v at there
    rw [peers,find?_insert] at there
    split_ifs at there with here
    · cases there
      exact ⟨value,here ▸ found,credit⟩
    · exact ⟨v,there,rfl⟩
  split
  · exact kept _ _ rfl rfl rfl rfl rfl rfl
  · exact kept _ _ rfl rfl rfl rfl rfl rfl

theorem committedSince_cons (receipt : Reservation) (l : List Reservation) (token : Nat) (who : ConnectionId → Bool) :
    committedSince (receipt :: l) token who = committedSince l token who +
        if decide (token < receipt.token) && who receipt.connection then receipt.bytes else 0 := by
  unfold committedSince
  rw [filter_cons]
  split_ifs
  · rw [map_cons,sum_cons,add_comm]
  · rfl

section
variable (window : Window profile token time s)
include window

theorem Window.commit (receipt : Reservation) : Window profile token time (operate profile s (.commit receipt)) := by
  have after := commit_sound window.sound receipt
  simp only [operate]
  rcases commit_cases window.sound receipt with same | ⟨busy,c,same,idle,tokens,now,global,credits⟩
  · rwa [same]
  rw [same] at after ⊢
  have spent : ∀ who, spentSince { s with admission := c, committed := receipt :: s.committed } token who =
      spentSince s token who := by
    intro who
    unfold spentSince reservedSince
    rw [idle,busy,committedSince_cons]
    rfl
  refine ⟨after,⟨?_,?_⟩,window.later.trans now.ge,window.tokens.trans tokens.ge,?_,?_⟩
  · intro r member
    rw [tokens]
    rcases mem_cons.mp member with rfl | old
    · exact (window.sound.active _ busy).latest.le
    · exact window.ordered.given r old
  · intro r held
    rw [idle] at held
    cases held
  · have covered := window.all
    unfold CoveredByAll at covered ⊢
    rw [if_pos rfl,spent]
    rwa [global,now]
  · intro id
    have covered := window.peer id
    unfold CoveredByPeer at covered ⊢
    rw [if_pos rfl,spent]
    rw [now]
    refine covered.imp_right ?_
    rintro ⟨bound,held⟩
    refine ⟨bound,?_⟩
    intro value found
    obtain ⟨v,there,credit⟩ := credits id value found
    rw [credit]
    exact held v there

theorem Window.rollback (receipt : Reservation) :
    Window profile token time { s with admission := (s.admission.rollback profile receipt).1 } := by
  have after := rollback_sound window.sound receipt
  rcases rollback_cases window.sound receipt with ⟨same,-⟩ | ⟨busy,value,exposure,aggregateExposure,totals,found,-,same⟩
  · rwa [same]
  rw [same] at after ⊢
  -- What was reserved in the window comes back; before the first reservation of the window nothing was spent.
  have early : ¬ token < receipt.token → ∀ who, committedSince s.committed token who = 0 := by
    intro old who
    apply committedSince_eq_zero
    intro r member
    have := window.ordered.waiting receipt busy r member
    omega
  have spent : ∀ who, spentSince s token who = committedSince s.committed token who +
      if decide (token < receipt.token) && who receipt.connection then receipt.bytes else 0 := by
    intro who
    unfold spentSince reservedSince
    rw [busy]
  have left : ∀ (b : ReliableByteAdmission) who, b.active = none →
      spentSince { s with admission := b } token who = committedSince s.committed token who := by
    intro b who idle
    unfold spentSince reservedSince
    rw [idle]
    rfl
  refine ⟨after,⟨window.ordered.given,?_⟩,window.later,window.tokens,?_,?_⟩
  · intro r held
    cases held
  · have covered := window.all
    unfold CoveredByAll at covered ⊢
    rw [left _ _ rfl]
    rw [spent] at covered
    by_cases inside : token < receipt.token
    · rw [decide_eq_true inside,Bool.true_and,Nat.add_mul] at covered
      exact cover_returned covered
        (micros_add_le s.admission.global receipt.bytes (profile.globalCap - s.admission.global.bytes))
    · rw [early inside,Nat.zero_add]
      exact (micros_le_burst after.global).trans (Nat.le_add_right _ _)
  · intro id
    have covered := window.peer id
    unfold CoveredByPeer at covered ⊢
    rw [left _ _ rfl]
    rw [spent] at covered
    by_cases inside : token < receipt.token
    · rw [decide_eq_true inside,Bool.true_and] at covered
      by_cases here : receipt.connection = id
      · subst here
        rw [decide_eq_true rfl,Nat.add_mul] at covered
        rcases covered with none | ⟨bound,held⟩
        · exact .inl (Nat.eq_zero_of_add_eq_zero_right none)
        · obtain ⟨started,enough⟩ := held value found
          refine .inr ⟨(Nat.mul_le_mul_right _ le_rfl).trans ((Nat.le_add_right _ _).trans bound),?_⟩
          intro value' found'
          rw [find?_insert_self] at found'
          cases found'
          exact ⟨started,cover_returned enough
            (micros_add_le value.credit receipt.bytes (profile.peerCap - value.credit.bytes))⟩
      · rw [decide_eq_false here,if_neg nofun] at covered
        refine covered.imp_right ?_
        rintro ⟨bound,held⟩
        refine ⟨bound,?_⟩
        intro value' found'
        rw [find?_insert_of_ne _ _ (Ne.symm here)] at found'
        exact held value' found'
    · exact .inl (early inside _)

theorem Window.remove (id : ConnectionId) :
    Window profile token time { s with admission := s.admission.remove profile id } := by
  have first : Window profile token time { s with admission := s.admission.rollbackActive profile id } := by
    unfold rollbackActive
    split
    · exact window
    split
    · exact window.rollback _
    · exact window
  exact first.credit (remove_sound window.sound id) (remove_credit s.admission id)

theorem Window.operate (valid : profile.isValid) (o : Operation) : Window profile token time (operate profile s o) := by
  have next := operate_sound valid window.sound o
  have recorded : ∀ {s' : Audit} {l l' l'' : List _}, Window profile token time s' →
      Window profile token time { s' with retired := l, released := l', asked := l'' } := by
    intro s' l l' l'' w
    exact { w with ordered := ⟨w.ordered.given,w.ordered.waiting⟩ }
  cases o with
  | beginStep time' => exact recorded (window.credit next (beginStep_credit window.sound valid time'))
  | observe id exposure => exact window.credit next (observe_upkeep _ id exposure).credit
  | observeService id service => exact window.credit next (observeService_upkeep _ id service).credit
  | refreshService id service => exact window.credit next (refreshService_upkeep _ id service).credit
  | completeNativeSend id token' bytes observedAt consumedAt completedAt =>
    exact window.credit next
      (completeNativeSend_upkeep window.sound valid id token' bytes observedAt consumedAt completedAt).credit
  | setOrdinaryFunding bytes => exact window.credit next (.of_peers rfl rfl rfl rfl fun _ _ => .same)
  | setOrdinaryUnsent id bytes => exact window.credit next (setOrdinaryUnsent_upkeep _ id bytes).credit
  | retire id token' bytes => exact recorded (window.credit next (retire_credit _ id token' bytes))
  | terminalRelease id =>
    simp only [ReliableByteAdmission.operate]
    rcases terminalRelease_cases window.sound id with same | ⟨value,c,same,found,after,peers,active,tokens,now,global,-⟩
    · rw [same]
      exact recorded window
    · rw [same]
      have grown : Grown profile s.admission id value.credit := .same found
      have step : CreditStep profile s.admission c := .change active tokens now global peers grown
      exact recorded ((window.credit after step).remove id)
  | allowance id time' => exact recorded (window.credit next (allowance_credit window.sound valid id time'))
  | deferSize id completeBytes => exact recorded (window.credit next (deferSize_credit window.sound valid id completeBytes))
  | reserve id bytes => exact recorded (window.reserve valid id bytes)
  | commit receipt => exact window.commit receipt
  | rollback receipt => exact window.rollback receipt
  | noWork id sourceEmpty time' => exact window.credit next (noWork_upkeep window.sound valid id sourceEmpty time').credit
  | deferSource id => exact window.credit next (.releaseWait _ id)
  | remove id => exact window.remove id
  | endStep => exact window.credit next (endStep_upkeep window.sound valid).credit

end

theorem ordered_empty : Ordered {} := by
  constructor
  · intro receipt member
    cases member
  · intro receipt held
    cases held

theorem Window.operations (window : Window profile token time s) (valid : profile.isValid) (l : List Operation) :
    Window profile token time (operations profile s l) := by
  induction l generalizing s with
  | nil => exact window
  | cons o rest ih => exact ih (window.operate valid o)

theorem window_reached (valid : profile.isValid) (l : List Operation) :
    Window profile (ReliableByteAdmission.operations profile {} l).admission.nextToken
      (ReliableByteAdmission.operations profile {} l).admission.now (ReliableByteAdmission.operations profile {} l) := by
  have reached : Window profile 0 0 (ReliableByteAdmission.operations profile {} l) :=
    (Window.start sound_empty ordered_empty).operations valid l
  exact .start reached.sound reached.ordered

def creditFor (cap rate elapsed : Nat) : Nat := cap + rate * elapsed / 1000000 + 1

/-- No reservation takes more than there is: both credits are left with the difference. -/
def TakesExactly (profile : ReliableServiceProfile) (a : ReliableByteAdmission) (id : ConnectionId) (bytes : Nat) : Prop :=
  let asked := (a.allowance profile id a.now).1
  let after := (a.reserve profile id bytes).1
  after = a ∨ after = asked ∨ after.global.bytes + bytes = asked.global.bytes ∧
    ∃ before left, asked.peers.find? id = some before ∧ after.peers.find? id = some left ∧
      left.credit.bytes + bytes = before.credit.bytes

theorem reserve_takesExactly (sound : Sound profile a) (valid : profile.isValid) (id : ConnectionId)
    (bytes : Nat) : TakesExactly profile a id bytes := by
  unfold TakesExactly
  rcases reserve_cases sound valid id bytes with (same | same) |
    ⟨b,value,exposure,aggregateExposure,totals,isAsked,-,found,-,-,credit,global,-,-,-,-,same⟩
  · exact .inl same
  · exact .inr (.inl same)
  · rw [← isAsked,same]
    refine .inr (.inr ⟨Nat.sub_add_cancel global,value,_,found,find?_insert_self _ _ _,?_⟩)
    exact Nat.sub_add_cancel credit

def openingOperations : List Operation :=
  [.beginStep 0,.setOrdinaryFunding 0,.observeService firstPeer (some available)]

/-- All that a peer has after 40 milliseconds is reserved and committed. -/
def spendingOperations : List Operation :=
  [.allowance firstPeer 40000,.reserve firstPeer 83886,.commit ⟨1,firstPeer,83886⟩]

end ReliableByteAdmission
end Gargantuan
