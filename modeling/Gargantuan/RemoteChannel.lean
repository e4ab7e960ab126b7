import Gargantuan.RemotePump

/-!
The line of a connection at the manager that sends. Its scheduler takes every message and
keeps those it took in order; a call whose arguments are not materialized waits in
`Deferred`, and later calls may overtake it. While none does, the reliable messages are
submitted in the order in which they were accepted.
-/
namespace Gargantuan.RemoteManager
open List Option PeerState

/-- The world a sender looks at, its clock, and the messages its scheduler took. -/
structure Wire (ω κ : Type) where
  world : ω
  clock : κ
  outbox : List NetworkMessageIntent := []

/-- What the sender asks the world and the clock. -/
structure Surroundings (ω κ : Type) where
  isVisible : ω → ConnectionId → ObjectId → Bool
  resolveObject : ω → ObjectId → Bool
  getTime : κ → Time × κ

section
variable {ω κ : Type} (around : Surroundings ω κ)

/-- The host of a sender whose scheduler never refuses a message. -/
def Surroundings.host : Host (Wire ω κ) where
  isVisible w := around.isVisible w.world
  resolveObject w := around.resolveObject w.world
  getTime w := ((around.getTime w.clock).1,{ w with clock := (around.getTime w.clock).2 })
  submit w intent := ({ status := .accepted },{ w with outbox := w.outbox ++ [intent] })

@[simp] theorem host_isVisible (w : Wire ω κ) (c : ConnectionId) (object : ObjectId) :
    around.host.isVisible w c object = around.isVisible w.world c object := rfl

@[simp] theorem host_resolveObject (w : Wire ω κ) (object : ObjectId) :
    around.host.resolveObject w object = around.resolveObject w.world object := rfl

variable {s t u : State (Wire ω κ)}

/-! ### What sends nothing -/

/-- Nothing was sent between two states; messages that wait may have been given up. -/
structure Silent (s t : State (Wire ω κ)) : Prop where
  world : t.environment.world = s.environment.world
  outbox : t.environment.outbox = s.environment.outbox
  sent : t.history.sent = s.history.sent
  deferred : t.deferred.Sublist s.deferred
  terminals : t.terminalConnections = s.terminalConnections
  remotes : t.remotes = s.remotes
  numbers : ∀ c, (t.peers.find? c).map PeerState.nextRequest = (s.peers.find? c).map PeerState.nextRequest

variable {c : ConnectionId}

namespace Silent

@[refl] theorem refl (s : State (Wire ω κ)) : Silent s s := ⟨rfl,rfl,rfl,.refl _,rfl,rfl,fun _ => rfl⟩

theorem trans (first : Silent s t) (second : Silent t u) : Silent s u where
  world := second.world.trans first.world
  outbox := second.outbox.trans first.outbox
  sent := second.sent.trans first.sent
  deferred := second.deferred.trans first.deferred
  terminals := second.terminals.trans first.terminals
  remotes := second.remotes.trans first.remotes
  numbers c := (second.numbers c).trans (first.numbers c)

theorem of_eq (environment : t.environment = s.environment) (sent : t.history.sent = s.history.sent)
    (deferred : t.deferred = s.deferred) (terminals : t.terminalConnections = s.terminalConnections)
    (remotes : t.remotes = s.remotes) (peers : t.peers = s.peers) : Silent s t :=
  ⟨by rw [environment],by rw [environment],sent,by rw [deferred],terminals,remotes,fun _ => by rw [peers]⟩

variable {f : PeerState → PeerState}

theorem of_modify (peers : t.peers = s.peers.modify c f)
    (keeps : ∀ p, (f p).nextRequest = p.nextRequest) (environment : t.environment = s.environment)
    (sent : t.history.sent = s.history.sent) (deferred : t.deferred = s.deferred)
    (terminals : t.terminalConnections = s.terminalConnections) (remotes : t.remotes = s.remotes) : Silent s t := by
  refine ⟨by rw [environment],by rw [environment],sent,by rw [deferred],terminals,remotes,fun c' => ?_⟩
  rw [peers,SortedMap.find?_modify]
  split_ifs
  · rw [Option.map_map]
    exact Option.map_congr fun p _ => keeps p
  · rfl

theorem modifyPeer (s : State (Wire ω κ)) (c : ConnectionId)
    (keeps : ∀ p, (f p).nextRequest = p.nextRequest) : Silent s { s with peers := s.peers.modify c f } :=
  .of_modify rfl keeps rfl rfl rfl rfl rfl

end Silent

theorem silent_readTime (s : State (Wire ω κ)) : Silent s (readTime around.host s).2 :=
  ⟨rfl,rfl,rfl,.refl _,rfl,rfl,fun _ => rfl⟩

theorem silent_foldl {α : Type} {f : State (Wire ω κ) → α → State (Wire ω κ)} (each : ∀ s x, Silent s (f s x))
    (xs : List α) (s : State (Wire ω κ)) : Silent s (xs.foldl f s) := by
  induction xs generalizing s with
  | nil => exact .refl s
  | cons x rest ih => exact (each s x).trans (ih _)

section
variable (s : State (Wire ω κ))

theorem silent_observeOwnership (c : ConnectionId) : Silent s (observeOwnership s c) := by
  rcases observeOwnership_cases s c with same | same
  · rw [same]
  · rw [same]
    exact .of_eq rfl rfl rfl rfl rfl rfl

theorem silent_admitManagerCall : Silent s (admitManagerCall around.host s).2 := by
  refine (silent_readTime around s).trans ?_
  simp only [admitManagerCall]
  split_ifs <;> exact .of_eq rfl rfl rfl rfl rfl rfl

theorem silent_admitGeneratedReliable (bytes : Nat) : Silent s (admitGeneratedReliable around.host s bytes).2 := by
  refine (silent_readTime around s).trans ?_
  simp only [admitGeneratedReliable]
  split_ifs <;> exact .of_eq rfl rfl rfl rfl rfl rfl

theorem silent_admitPeerCall (c : ConnectionId) (remote : ObjectId) :
    Silent s (admitPeerCall around.host s c remote).2 := by
  have restarts : ∀ p, (restartPeerWindow (readTime around.host s).1 p).nextRequest = p.nextRequest := by
    intro p
    simp only [restartPeerWindow]
    split_ifs <;> rfl
  refine (silent_readTime around s).trans ((Silent.modifyPeer _ c restarts).trans ?_)
  simp only [admitPeerCall]
  split
  · exact .refl _
  · split_ifs
    · exact .refl _
    · exact .modifyPeer _ c fun _ => rfl

theorem silent_admitCall (c : ConnectionId) (remote : ObjectId) : Silent s (admitCall around.host s c remote).2 := by
  have manager := silent_admitManagerCall around s
  simp only [admitCall]
  split
  · rename_i admitted
    rwa [admitted] at manager
  · rename_i admitted
    rw [admitted] at manager
    exact manager.trans (silent_admitPeerCall ..)

theorem silent_releaseDeferred (d : DeferredMessage) : Silent s (releaseDeferred s d) :=
  .of_modify rfl (fun _ => rfl) rfl rfl rfl rfl rfl

section
variable (key : PendingKey)

theorem silent_takePending (result : RemoteRequestResult) : Silent s (takePending s key result).2 := by
  cases found : s.pendingRequests.find? key with
  | none => rw [takePending_absent found]
  | some p =>
    have erased : Silent s { s with deferred := s.deferred.filter fun d => !isRequestOf key d } :=
      ⟨rfl,rfl,rfl,filter_sublist,rfl,rfl,fun _ => rfl⟩
    have dropped : Silent s (dropDeferred s (isRequestOf key)) :=
      erased.trans (silent_foldl silent_releaseDeferred _ _)
    rw [takePending_eq result found]
    exact dropped.trans (.of_modify rfl (fun _ => rfl) rfl rfl rfl rfl rfl)

theorem silent_recordRequest (remote : ObjectId) (completion : RequestCompletion) (deadline : Int) :
    Silent s (recordRequest around.host s key remote completion deadline) := by
  obtain ⟨pending,_,_,same⟩ := recordRequest_eq around.host s key remote completion deadline
  refine (silent_readTime around s).trans (.trans ?_ (silent_observeOwnership _ _))
  exact .of_modify rfl (fun _ => rfl) rfl rfl rfl rfl rfl

theorem silent_closeHandler : Silent s (closeHandler s key) :=
  .of_modify rfl (fun _ => rfl) rfl rfl rfl rfl rfl

end

theorem silent_expireWork (keys : List PendingKey) : Silent s (expireWork s keys) := by
  induction keys generalizing s with
  | nil => exact .refl s
  | cons key rest ih =>
    simp only [expireWork]
    split
    · exact (silent_closeHandler s key).trans (ih _)
    · exact ih s

variable (c : ConnectionId)

theorem silent_takeSequence (remote : ObjectId) : Silent s (takeSequence s c remote).2 := by
  simp only [takeSequence]
  split <;> exact .modifyPeer s c fun _ => rfl

theorem silent_publishRemote (remote : ObjectId) (materialized : Bool) :
    Silent s (publishRemote around.host s c remote materialized).2 := by
  simp only [publishRemote]
  split
  · exact .refl s
  split
  · exact .refl s
  split
  · exact .modifyPeer s c fun p => by split_ifs <;> rfl
  split
  · exact .refl s
  · exact .modifyPeer s c fun p => by split_ifs <;> rfl

theorem silent_markMaterialized (object : ObjectId) : Silent s (markMaterialized around.host s c object).2 := by
  simp only [markMaterialized]
  split
  · exact .refl s
  · exact .modifyPeer s c fun _ => rfl

theorem silent_enqueue (message : RemoteMessage) (bytes : Nat) : Silent s (enqueue around.host s c message bytes) := by
  refine (silent_readTime around s).trans (.trans ?_ (silent_observeOwnership _ c))
  exact .of_modify rfl (fun _ => rfl) rfl rfl rfl rfl rfl

end

def intentFor (c : ConnectionId) (m : RemoteMessage) (bytes : List UInt8) : NetworkMessageIntent :=
  ⟨c,deliveryFor m.kind,trafficFor m.kind,orderFor m,bytes⟩

def withSubmitted (s : State (Wire ω κ)) (intent : NetworkMessageIntent) : State (Wire ω κ) :=
  { s with environment := { s.environment with outbox := s.environment.outbox ++ [intent] } }

def withWaiting (s : State (Wire ω κ)) (d : DeferredMessage) : State (Wire ω κ) :=
  { s with deferred := s.deferred ++ [d] }

def withSent (s : State (Wire ω κ)) (c : ConnectionId) (m : RemoteMessage) : State (Wire ω κ) :=
  { s with history := { s.history with sent := s.history.sent ++ [(c,m)] } }

theorem Silent.withSubmitted (silent : Silent s t) (intent : NetworkMessageIntent) :
    Silent (withSubmitted s intent) (withSubmitted t intent) :=
  { silent with outbox := congrArg (· ++ [intent]) silent.outbox }

theorem Silent.withWaiting (silent : Silent s t) (d : DeferredMessage) : Silent (withWaiting s d) (withWaiting t d) :=
  { silent with deferred := silent.deferred.append (.refl _) }

theorem Silent.withSent (silent : Silent s t) (c : ConnectionId) (m : RemoteMessage) :
    Silent (withSent s c m) (withSent t c m) :=
  { silent with sent := congrArg (· ++ [(c,m)]) silent.sent }

/-- Whether the arguments of a call are all materialized. -/
def argumentsReady (s : State (Wire ω κ)) (c : ConnectionId) (arguments : List WireValue) : Bool :=
  argumentsMissing around.host s c arguments true true == some []

section
variable (world : t.environment.world = s.environment.world)
include world

theorem checkArguments_congr {p q : PeerState}
    (materialized : q.materializedObjects = p.materializedObjects) (required collect : Bool) (arguments : List WireValue) :
    checkArguments around.host t c q required collect arguments =
      checkArguments around.host s c p required collect arguments := by
  induction arguments with
  | nil => rfl
  | cons argument rest ih =>
    simp only [checkArguments,host_isVisible,host_resolveObject,world,materialized,ih]
    congr

theorem argumentsReady_congr (materialized : (t.peers.find? c).map materializedObjects =
      (s.peers.find? c).map materializedObjects) (arguments : List WireValue) :
    argumentsReady around t c arguments = argumentsReady around s c arguments := by
  simp only [argumentsReady,argumentsMissing]
  cases here : s.peers.find? c with
  | none =>
    rw [here] at materialized
    rw [map_eq_none_iff.mp materialized]
  | some p =>
    rw [here] at materialized
    obtain ⟨q,found,same⟩ := map_eq_some_iff.mp materialized
    simp only [found,checkArguments_congr around world same]

end

theorem argumentsReady_quiet (quiet : Quiet s t) (silent : Silent s t) (c : ConnectionId) (arguments : List WireValue) :
    argumentsReady around t c arguments = argumentsReady around s c arguments :=
  argumentsReady_congr around silent.world (map_of_map (quiet.peers c) materializedObjects) arguments

/-- What a call of `SubmitEncoded` leaves, if it does not refuse the message. -/
inductive Submission (s t : State (Wire ω κ)) (c : ConnectionId) (m : RemoteMessage) (bytes : List UInt8) : Prop where
  | submitted (ready : argumentsReady around s c m.arguments = true)
      (silent : Silent (withSubmitted s (intentFor c m bytes)) t)
  | parked (d : DeferredMessage) (connection : d.connection = c) (message : d.message = m) (encoded : d.encoded = bytes)
      (reliable : deliveryFor m.kind = .reliableOrdered) (waits : argumentsReady around s c m.arguments = false)
      (silent : Silent (withWaiting s d) t)

theorem silent_deferMessage (s : State (Wire ω κ)) (c : ConnectionId) (m : RemoteMessage) (bytes : List UInt8)
    (missing : List ObjectId) : ∃ d : DeferredMessage, d.connection = c ∧ d.message = m ∧ d.encoded = bytes ∧
      Silent (withWaiting s d) (deferMessage around.host s c m bytes missing) := by
  simp only [deferMessage]
  generalize parked : (⟨c,m,bytes,missing,_⟩ : DeferredMessage) = d
  refine ⟨d,by rw [← parked],by rw [← parked],by rw [← parked],?_⟩
  refine ((silent_readTime around s).withWaiting d).trans (.trans ?_ (silent_observeOwnership _ c))
  exact .of_modify rfl (fun _ => rfl) rfl rfl rfl rfl rfl

theorem submitEncoded_flow (s : State (Wire ω κ)) (c : ConnectionId) (m : RemoteMessage) (bytes : List UInt8)
    (allow : Bool) : ((submitEncoded around.host s c m bytes allow).1.accepted = false ∧
      (submitEncoded around.host s c m bytes allow).2 = s) ∨
    ((submitEncoded around.host s c m bytes allow).1.accepted ∧ (s.peers.find? c).isSome ∧
      Submission around s (submitEncoded around.host s c m bytes allow).2 c m bytes) := by
  simp only [submitEncoded]
  split
  · exact .inl ⟨rfl,rfl⟩
  rename_i peer found
  split
  · exact .inl ⟨rfl,rfl⟩
  · rename_i ready
    split
    · exact .inl ⟨rfl,rfl⟩
    · rename_i intent made
      obtain ⟨_,rfl⟩ := makeNetworkMessageIntent_eq_some.mp made
      refine .inr ⟨rfl,by rw [found]; rfl,.submitted ?_ (.refl _)⟩
      rw [argumentsReady,ready]
      rfl
  · rename_i missing notEmpty waits
    split
    · exact .inl ⟨rfl,rfl⟩
    rename_i allowed
    split
    · exact .inl ⟨rfl,rfl⟩
    obtain ⟨d,connection,message,encoded,silent⟩ := silent_deferMessage around s c m bytes missing
    simp only [Bool.or_eq_true,Bool.not_eq_true',decide_eq_true_eq,not_or,ne_eq,not_not] at allowed
    refine .inr ⟨rfl,by rw [found]; rfl,.parked d connection message encoded allowed.2 ?_ silent⟩
    rw [argumentsReady,waits,beq_eq_false_iff_ne]
    exact fun same => notEmpty (Option.some.inj same)

inductive Sending (s t : State (Wire ω κ)) (c : ConnectionId) (message : RemoteMessage) : Prop where
  | refused (silent : Silent s t)
  | sent (publication : RemotePublicationId) (bytes : List UInt8) (u : State (Wire ω κ))
      (encoded : encodeRemoteMessage { message with publication } = .ok bytes)
      (found : (s.peers.find? c).isSome = true)
      (submission : Submission around s u c { message with publication } bytes)
      (silent : Silent (withSent u c { message with publication }) t)

variable {message : RemoteMessage} {bytes : List UInt8}

theorem Submission.afterSilent {m : State (Wire ω κ)}
    (silent : Silent s m) (same : argumentsReady around m c message.arguments = argumentsReady around s c message.arguments)
    (submission : Submission around m t c message bytes) : Submission around s t c message bytes := by
  cases submission with
  | submitted ready after => exact .submitted (by rw [← same,ready]) ((silent.withSubmitted _).trans after)
  | parked d connection message encoded reliable waits after =>
    exact .parked d connection message encoded reliable (by rw [← same,waits]) ((silent.withWaiting d).trans after)

theorem sendMessage_flow (s : State (Wire ω κ)) (c : ConnectionId) (message : RemoteMessage) (allow : Bool) :
    Sending around s (sendMessage around.host s c message allow).2 c message := by
  simp only [sendMessage]
  split
  · exact .refused (.refl s)
  split
  · exact .refused (.refl s)
  rename_i publication _
  split
  · exact .refused (.refl s)
  rename_i bytes encoded
  generalize admission : (if isGenerated ({ message with publication := publication } : RemoteMessage).kind = true then
    admitGeneratedReliable around.host s bytes.length else (true,s)) = admitted
  have quiet : Quiet s admitted.2 ∧ Silent s admitted.2 := by
    rw [← admission]
    split_ifs
    · exact ⟨quiet_admitGeneratedReliable ..,silent_admitGeneratedReliable ..⟩
    · exact ⟨.refl s,.refl s⟩
  obtain ⟨quiet,silent⟩ := quiet
  obtain ⟨allowed,m⟩ := admitted
  replace quiet : Quiet s m := quiet
  replace silent : Silent s m := silent
  split
  · exact .refused silent
  rcases submitEncoded_flow around m c { message with publication } bytes allow with ⟨refused,same⟩ | ⟨taken,found,submission⟩
  · refine .refused (silent.trans ?_)
    rw [noteSent,if_neg (by rw [refused]; exact Bool.false_ne_true),same]
  · refine .sent publication bytes _ encoded ?_
      (submission.afterSilent around silent (argumentsReady_quiet around quiet silent c message.arguments)) ?_
    · have peers := congrArg Option.isSome (quiet.peers c)
      rw [isSome_map,isSome_map,found] at peers
      exact peers.symm
    · rw [noteSent,if_pos taken]
      rfl

/-! ### The line of a connection -/

def outgoing (c : ConnectionId) (s : State (Wire ω κ)) : List NetworkMessageIntent :=
  s.environment.outbox.filter fun i => i.destination == c && i.delivery == .reliableOrdered

def waiting (c : ConnectionId) (s : State (Wire ω κ)) : List DeferredMessage :=
  s.deferred.filter fun d => d.connection == c

def accepted (c : ConnectionId) (s : State (Wire ω κ)) : List RemoteMessage :=
  (s.history.sent.filter fun e => e.1 == c && deliveryFor e.2.kind == .reliableOrdered).map Prod.snd

def Encodes (m : RemoteMessage) (bytes : List UInt8) : Prop := encodeRemoteMessage m = .ok bytes ∧ 0 ≤ m.deadline

def Carries (i : NetworkMessageIntent) (m : RemoteMessage) : Prop :=
  ∃ c bytes, Encodes m bytes ∧ i = intentFor c m bytes

def InOrder (m n : RemoteMessage) : Prop :=
  m.kind = .request → n.kind = .request → m.request.toNat < n.request.toNat

structure Lined (past : List NetworkMessageIntent) (c : ConnectionId) (s : State (Wire ω κ)) : Prop where
  order : ∃ submitted, List.Forall₂ Carries (outgoing c s) submitted ∧
    (submitted ++ (waiting c s).map DeferredMessage.message).Sublist (accepted c s)
  encoded : ∀ d ∈ s.deferred, Encodes d.message d.encoded ∧ deliveryFor d.message.kind = .reliableOrdered
  increasing : (accepted c s).Pairwise InOrder
  owner : ∀ m ∈ accepted c s, ∃ p, s.peers.find? c = some p ∧
    (m.kind = .request → m.request.toNat < p.nextRequest.toNat)
  calm : s.terminalConnections.isEmpty = true
  grown : past <+: outgoing c s

variable {past : List NetworkMessageIntent} {c : ConnectionId}

theorem Lined.silent (l : Lined past c s) (silent : Silent s t) : Lined past c t where
  order := by
    obtain ⟨submitted,carried,sub⟩ := l.order
    have waits : (waiting c t).Sublist (waiting c s) := silent.deferred.filter _
    refine ⟨submitted,?_,?_⟩
    · rwa [outgoing,silent.outbox]
    · rw [accepted,silent.sent]
      exact ((waits.map DeferredMessage.message).append_left submitted).trans sub
  encoded d member := l.encoded d (silent.deferred.subset member)
  increasing := by
    rw [accepted,silent.sent]
    exact l.increasing
  owner m member := by
    rw [accepted,silent.sent] at member
    obtain ⟨p,found,below⟩ := l.owner m member
    have number := silent.numbers c
    rw [found] at number
    obtain ⟨q,still,same⟩ := map_eq_some_iff.mp number
    exact ⟨q,still,by rw [same]; exact below⟩
  calm := by rw [silent.terminals,l.calm]
  grown := by
    rw [outgoing,silent.outbox]
    exact l.grown

structure Next (c : ConnectionId) (s : State (Wire ω κ)) (m : RemoteMessage) : Prop where
  larger : ∀ n ∈ accepted c s, InOrder n m
  owner : ∃ p, s.peers.find? c = some p ∧ (m.kind = .request → m.request.toNat < p.nextRequest.toNat)

def toLine (c connection : ConnectionId) (m : RemoteMessage) : Prop :=
  connection = c ∧ deliveryFor m.kind = .reliableOrdered

variable {connection : ConnectionId} {m : RemoteMessage}

theorem accepted_withSent_of_line (line : toLine c connection m) :
    accepted c (withSent s connection m) = accepted c s ++ [m] := by
  obtain ⟨here,reliable⟩ := line
  simp [accepted,withSent,filter_append,here,reliable]

theorem accepted_withSent_of_not (other : ¬ toLine c connection m) :
    accepted c (withSent s connection m) = accepted c s := by
  have refused : (connection == c && deliveryFor m.kind == .reliableOrdered) = false := by
    by_contra taken
    simp only [Bool.not_eq_false,Bool.and_eq_true,beq_iff_eq] at taken
    exact other taken
  simp [accepted,withSent,filter_append,refused]

theorem Lined.withSent (encoded : ∀ d ∈ s.deferred,
      Encodes d.message d.encoded ∧ deliveryFor d.message.kind = .reliableOrdered)
    (increasing : (accepted c s).Pairwise InOrder) (owner : ∀ m ∈ accepted c s, ∃ p, s.peers.find? c = some p ∧
      (m.kind = .request → m.request.toNat < p.nextRequest.toNat)) (calm : s.terminalConnections.isEmpty)
    (grown : past <+: outgoing c s) (next : toLine c connection m → Next c s m)
    (order : ∃ submitted, List.Forall₂ Carries (outgoing c s) submitted ∧
      (submitted ++ (waiting c s).map DeferredMessage.message).Sublist (accepted c (withSent s connection m))) :
    Lined past c (withSent s connection m) := by
  refine ⟨order,encoded,?_,?_,calm,grown⟩
  · by_cases line : toLine c connection m
    · rw [accepted_withSent_of_line line]
      refine pairwise_append.mpr ⟨increasing,pairwise_singleton _ _,fun n member k new => ?_⟩
      rw [mem_singleton.mp new]
      exact (next line).larger n member
    · rwa [accepted_withSent_of_not line]
  · intro n member
    by_cases line : toLine c connection m
    · rw [accepted_withSent_of_line line] at member
      rcases mem_append.mp member with before | new
      · exact owner n before
      · rw [mem_singleton.mp new]
        exact (next line).owner
    · rw [accepted_withSent_of_not line] at member
      exact owner n member

theorem Lined.submitted (l : Lined past c s) (encodes : Encodes m bytes)
    (next : toLine c connection m → Next c s m) (turn : toLine c connection m → waiting c s = []) :
    Lined past c (RemoteManager.withSent (withSubmitted s (intentFor connection m bytes)) connection m) := by
  obtain ⟨submitted,carried,sub⟩ := l.order
  have grown : outgoing c s <+: outgoing c (withSubmitted s (intentFor connection m bytes)) := by
    rw [outgoing,outgoing,withSubmitted,filter_append]
    exact prefix_append _ _
  refine .withSent l.encoded l.increasing l.owner l.calm (l.grown.trans grown)
    (fun line => ⟨(next line).larger,(next line).owner⟩) ?_
  by_cases line : toLine c connection m
  · have out : outgoing c (withSubmitted s (intentFor connection m bytes)) =
        outgoing c s ++ [intentFor connection m bytes] := by
      simp [outgoing,withSubmitted,filter_append,intentFor,line.1,line.2]
    have none : waiting c (withSubmitted s (intentFor connection m bytes)) = [] := turn line
    refine ⟨submitted ++ [m],?_,?_⟩
    · rw [out]
      exact rel_append carried (.cons ⟨connection,bytes,encodes,rfl⟩ .nil)
    · rw [none,map_nil,append_nil,accepted_withSent_of_line line]
      rw [turn line,map_nil,append_nil] at sub
      exact sub.append_right [m]
  · have refused : ((intentFor connection m bytes).destination == c &&
        (intentFor connection m bytes).delivery == .reliableOrdered) = false := by
      by_contra taken
      simp only [Bool.not_eq_false,Bool.and_eq_true,beq_iff_eq] at taken
      exact line taken
    have out : outgoing c (withSubmitted s (intentFor connection m bytes)) = outgoing c s := by
      simp only [outgoing,withSubmitted,filter_append,filter_cons,refused]
      simp
    refine ⟨submitted,by rw [out]; exact carried,?_⟩
    rwa [accepted_withSent_of_not line]

theorem Lined.parked (l : Lined past c s) {d : DeferredMessage} (encodes : Encodes d.message d.encoded)
    (reliable : deliveryFor d.message.kind = .reliableOrdered) (next : toLine c d.connection d.message → Next c s d.message) :
    Lined past c (RemoteManager.withSent (withWaiting s d) d.connection d.message) := by
  obtain ⟨submitted,carried,sub⟩ := l.order
  refine .withSent ?_ l.increasing l.owner l.calm l.grown (fun line => ⟨(next line).larger,(next line).owner⟩)
    ⟨submitted,carried,?_⟩
  · intro e member
    rcases mem_append.mp member with before | new
    · exact l.encoded e before
    · rw [mem_singleton.mp new]
      exact ⟨encodes,reliable⟩
  · by_cases here : d.connection = c
    · have waits : waiting c (withWaiting s d) = waiting c s ++ [d] := by
        simp [waiting,withWaiting,filter_append,here]
      rw [waits,accepted_withSent_of_line ⟨here,reliable⟩,map_append,← append_assoc]
      exact sub.append_right [d.message]
    · have waits : waiting c (withWaiting s d) = waiting c s := by
        simp [waiting,withWaiting,filter_append,here]
      rwa [waits,accepted_withSent_of_not fun line => here line.1]

theorem Lined.sendMessage (l : Lined past c s) (allow : Bool) (nonnegative : 0 ≤ message.deadline)
    (next : toLine c connection message → message.kind = .request → Next c s message)
    (turn : toLine c connection message → waiting c s = [] ∨ argumentsReady around s connection message.arguments = false) :
    Lined past c (sendMessage around.host s connection message allow).2 := by
  cases sendMessage_flow around s connection message allow with
  | refused silent => exact l.silent silent
  | sent publication bytes u encoded found submission silent =>
    refine .silent ?_ silent
    have follows : toLine c connection { message with publication } → Next c s { message with publication } := by
      intro line
      by_cases request : message.kind = .request
      · obtain ⟨larger,owner⟩ := next line request
        exact ⟨larger,owner⟩
      · obtain ⟨p,here⟩ := isSome_iff_exists.mp found
        rw [line.1] at here
        exact ⟨fun _ _ _ same => absurd same request,p,here,fun same => absurd same request⟩
    cases submission with
    | submitted ready after =>
      have now : toLine c connection { message with publication } → waiting c s = [] := by
        intro line
        rcases turn line with none | waits
        · exact none
        · rw [ready] at waits
          cases waits
      exact (l.submitted ⟨encoded,nonnegative⟩ follows now).silent (after.withSent connection _)
    | parked d here same bytesOf reliable waits after =>
      subst here
      rw [← same] at encoded reliable follows ⊢
      exact (l.parked ⟨by rw [bytesOf,encoded],by rw [same]; exact nonnegative⟩ reliable follows).silent
        (after.withSent d.connection _)

def free (s : State (Wire ω κ)) (c connection : ConnectionId) : Bool := connection != c || (waiting c s).isEmpty

theorem waiting_of_free (isFree : free s c connection) (line : toLine c connection m) : waiting c s = [] := by
  simpa [free,line.1] using isFree

theorem Silent.free (silent : Silent s t) (isFree : free s c connection) : free t c connection := by
  simp only [RemoteManager.free,Bool.or_eq_true,bne_iff_ne,List.isEmpty_iff] at isFree ⊢
  refine isFree.imp_right fun none => ?_
  have sub : (waiting c t).Sublist (waiting c s) := silent.deferred.filter _
  rw [none] at sub
  exact List.sublist_nil.mp sub

variable (l : Lined past c s)
include l

theorem Lined.answer (allow : Bool) (kind : message.kind ≠ .request)
    (nonnegative : 0 ≤ message.deadline) (isFree : free s c connection) :
    Lined past c (RemoteManager.sendMessage around.host s connection message allow).2 :=
  l.sendMessage around allow nonnegative (fun _ request => absurd request kind) fun line =>
    .inl (waiting_of_free isFree line)

theorem Lined.rejectRequest (message : RemoteMessage) (code text : String) (isFree : free s c connection) :
    Lined past c (RemoteManager.rejectRequest around.host s connection message code text) := by
  simp only [RemoteManager.rejectRequest]
  split
  · exact l
  · exact l.answer around false (by simp [requestErrorMessage]) (by simp [requestErrorMessage]) isFree

theorem Lined.expireReplies {keys : List PendingKey} (isFree : ∀ key ∈ keys, free s c key.connection) :
    Lined past c (RemoteManager.expireReplies around.host s keys) := by
  induction keys generalizing s with
  | nil => exact l
  | cons key rest ih =>
    obtain ⟨first,others⟩ := forall_mem_cons.mp isFree
    simp only [RemoteManager.expireReplies]
    split
    · exact ih l others
    · rename_i incoming _
      have marked : Silent s { s with
          incomingRequests := s.incomingRequests.modify key fun r => { r with acceptReply := false } } :=
        .of_eq rfl rfl rfl rfl rfl rfl
      have answered : Lined past c (RemoteManager.sendMessage around.host _ key.connection (requestErrorMessage
          incoming.remote key.request "handler_timeout" "Remote handler deadline expired") false).2 :=
        (l.silent marked).answer around false (by simp [requestErrorMessage]) (by simp [requestErrorMessage])
          (marked.free first)
      refine ih answered fun k member => ?_
      have quiet := quiet_sendMessage around.host { s with
        incomingRequests := s.incomingRequests.modify key fun r => { r with acceptReply := false } } key.connection
        (requestErrorMessage incoming.remote key.request "handler_timeout" "Remote handler deadline expired")
      have still := others k member
      rw [RemoteManager.free,waiting] at still ⊢
      rwa [quiet.deferred]

end
end Gargantuan.RemoteManager
