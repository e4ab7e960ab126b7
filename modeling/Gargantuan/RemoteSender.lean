import Gargantuan.RemoteChannel
import Gargantuan.RemoteDispatchOrder

/-!
Every step of a sender keeps the line of a connection, provided it is taken in turn: what
is sent at once finds nothing waiting, and a pump releases waiting messages from the front.
-/
namespace Gargantuan.RemoteManager
open List SortedMap RemoteManager

section
variable {ω κ : Type} (around : Surroundings ω κ) {s t u : State (Wire ω κ)}
  {past : List NetworkMessageIntent} {c : ConnectionId}

inductive Rejects (s t : State (Wire ω κ)) (queued : QueuedMessage) : Prop where
  | silent (silent : Silent s t)
  | rejected {m : State (Wire ω κ)} (silent : Silent s m) (request : queued.message.kind = .request) {code text : String}
      (same : t = rejectRequest around.host m queued.connection queued.message code text)

variable {queued : QueuedMessage} {m : State (Wire ω κ)}

theorem Rejects.afterSilent (silent : Silent s m)
    (rejects : Rejects around m t queued) : Rejects around s t queued := by
  cases rejects with
  | silent after => exact .silent (silent.trans after)
  | rejected after request same => exact .rejected (silent.trans after) request same

theorem Rejects.lined (rejects : Rejects around s t queued) (l : Lined past c s)
    (isFree : queued.message.kind = .request → free s c queued.connection) : Lined past c t := by
  cases rejects with
  | silent silent => exact l.silent silent
  | rejected silent request same =>
    rw [same]
    exact (l.silent silent).rejectRequest around _ _ _ (silent.free (isFree request))

section
variable (s : State (Wire ω κ))

theorem rejects_dispatchRequest (peer : PeerState) (queued : QueuedMessage) (request : queued.message.kind = .request) :
    Rejects around s (dispatchRequest around.host s peer queued).2.1 queued := by
  have noted : Silent s (withLatestRequest s queued.connection queued.message.request) := .modifyPeer s _ fun _ => rfl
  simp only [dispatchRequest]
  split
  · exact .rejected (.refl s) request rfl
  split
  · exact .rejected noted request rfl
  split
  · exact .rejected noted request rfl
  split
  · exact .rejected noted request rfl
  · refine .silent (noted.trans ((silent_readTime around _).trans (.trans ?_ (silent_observeOwnership _ _))))
    exact .of_modify rfl (fun _ => rfl) rfl rfl rfl rfl rfl

theorem silent_dispatchEvent (peer : PeerState) (queued : QueuedMessage) :
    Silent s (dispatchEvent s peer queued).2.1 := by
  simp only [dispatchEvent]
  split
  · exact .refl s
  generalize noted : (if (queued.message.kind == .sequencedEvent) = true then _ else s) = m
  have silent : Silent s m := by
    rw [← noted]
    split
    · exact .modifyPeer s _ fun _ => rfl
    · exact .refl s
  split <;> exact silent

variable (queued : QueuedMessage)

theorem silent_dispatchAnswer : Silent s (dispatchAnswer s queued).2.1 := by
  simp only [dispatchAnswer]
  split
  · exact .refl s
  split
  · exact .refl s
  · exact silent_takePending ..

theorem silent_dispatchCancellation : Silent s (dispatchCancellation s queued) := by
  simp only [dispatchCancellation]
  split
  · exact .refl s
  split
  · exact .refl s
  · exact .of_eq rfl rfl rfl rfl rfl rfl

theorem rejects_dispatch : Rejects around s (dispatch around.host s queued).2.1 queued := by
  obtain ⟨n,silent,cases⟩ := dispatch_cases around.host Silent.refl (silent_admitManagerCall around)
    (fun _ m c remote silent => silent.trans (silent_admitPeerCall around m c remote)) s queued
  refine .afterSilent around silent ?_
  obtain ⟨d,-,same⟩ | ⟨d,code,text,-,same⟩ | ⟨p,-,same⟩ := cases
  · rw [same]
    exact .silent (.refl n)
  · rw [same]
    split
    · rename_i request
      exact .rejected (.refl n) request rfl
    · exact .silent (.refl n)
  · rw [same]
    simp only [dispatchAdmitted]
    split
    · exact .silent (silent_dispatchEvent ..)
    · exact .silent (silent_dispatchEvent ..)
    · exact .silent (silent_dispatchEvent ..)
    · exact .silent (silent_dispatchAnswer ..)
    · exact .silent (silent_dispatchAnswer ..)
    · exact .silent (silent_dispatchCancellation ..)
    · rename_i request
      exact rejects_dispatchRequest around _ _ queued request

end

/-! ### The messages that wait -/

/-- What decides whether a waiting message can be sent. -/
structure SameSight (s t : State (Wire ω κ)) : Prop where
  pending : t.pendingRequests = s.pendingRequests
  remotes : t.remotes = s.remotes
  world : t.environment.world = s.environment.world
  peers : ∀ c, (t.peers.find? c).map (fun p => (p.publishedRemotes,p.materializedObjects)) =
    (s.peers.find? c).map fun p => (p.publishedRemotes,p.materializedObjects)

theorem SameSight.trans (first : SameSight s t) (second : SameSight t u) : SameSight s u where
  pending := second.pending.trans first.pending
  remotes := second.remotes.trans first.remotes
  world := second.world.trans first.world
  peers c := (second.peers c).trans (first.peers c)

theorem SameSight.of_quiet (quiet : Quiet s t) (remotes : t.remotes = s.remotes)
    (world : t.environment.world = s.environment.world) : SameSight s t :=
  ⟨quiet.pending,remotes,world,fun c => map_of_map (quiet.peers c) fun p => (p.publishedRemotes,p.materializedObjects)⟩

theorem SameSight.of_modify {c : ConnectionId} {f : PeerState → PeerState} (peers : t.peers = s.peers.modify c f)
    (keeps : ∀ p, (f p).publishedRemotes = p.publishedRemotes ∧ (f p).materializedObjects = p.materializedObjects)
    (pending : t.pendingRequests = s.pendingRequests) (remotes : t.remotes = s.remotes)
    (world : t.environment.world = s.environment.world) : SameSight s t := by
  refine ⟨pending,remotes,world,fun c' => ?_⟩
  rw [peers,find?_modify]
  split_ifs
  · rw [Option.map_map]
    exact Option.map_congr fun p _ => by rw [Function.comp_apply,(keeps p).1,(keeps p).2]
  · rfl

theorem isLive_congr (sight : SameSight s t) (d : DeferredMessage) : isLive t d = isLive s d := by
  rw [isLive,isLive,sight.pending]

theorem isReady_congr (sight : SameSight s t) (d : DeferredMessage) :
    isReady around.host t d = isReady around.host s d := by
  have peers := sight.peers d.connection
  rw [isReady,isReady,isLive_congr sight,remoteAvailable,remoteAvailable,sight.remotes]
  cases before : s.peers.find? d.connection with
  | none =>
    rw [before] at peers
    rw [Option.map_eq_none_iff.mp peers]
  | some p =>
    rw [before] at peers
    obtain ⟨q,after,same⟩ := Option.map_eq_some_iff.mp peers
    obtain ⟨published,materialized⟩ := Prod.mk.inj same
    simp only [after,host_isVisible,sight.world,materialized,Option.any_some]
    cases s.remotes.find? d.message.remote <;> simp only [published,materialized]

/-- A waiting message that the loop over the deferred messages keeps. -/
def stays (s : State (Wire ω κ)) (now : Time) (d : DeferredMessage) : Bool :=
  isLive s d && !isReady around.host s d && decide (now < d.deadline)

def releasesInTurn (c : ConnectionId) (s : State (Wire ω κ)) (now : Time) : Bool :=
  decide ((waiting c s).Pairwise fun k d => stays around s now k = true → isReady around.host s d = false)

theorem submitEncoded_unparked (s : State (Wire ω κ)) (c : ConnectionId) (m : RemoteMessage) (bytes : List UInt8) :
    (submitEncoded around.host s c m bytes false).2 = s ∨
      (submitEncoded around.host s c m bytes false).2 = withSubmitted s (intentFor c m bytes) := by
  simp only [submitEncoded]
  split
  · exact .inl rfl
  split
  · exact .inl rfl
  · split
    · exact .inl rfl
    · rename_i intent made
      obtain ⟨_,rfl⟩ := makeNetworkMessageIntent_eq_some.mp made
      exact .inr rfl
  · exact .inl rfl

theorem Lined.released (l : Lined past c s) {kept rest : List DeferredMessage} {d : DeferredMessage}
    (held : s.deferred = kept ++ d :: rest) (first : d.connection = c → ∀ k ∈ kept, k.connection ≠ c) :
    Lined past c { withSubmitted s (intentFor d.connection d.message d.encoded) with deferred := kept ++ rest } := by
  obtain ⟨submitted,carried,sub⟩ := l.order
  have member : d ∈ s.deferred := by simp [held]
  obtain ⟨encodes,reliable⟩ := l.encoded d member
  refine ⟨?_,fun e inside => l.encoded e ?_,l.increasing,l.owner,l.calm,l.grown.trans ?_⟩
  · by_cases here : d.connection = c
    · have none : kept.filter (fun k => k.connection == c) = [] := by
        rw [filter_eq_nil_iff]
        intro k inKept
        simpa using first here k inKept
      have out : outgoing c { withSubmitted s (intentFor d.connection d.message d.encoded) with deferred := kept ++ rest } =
          outgoing c s ++ [intentFor d.connection d.message d.encoded] := by
        simp [outgoing,withSubmitted,filter_append,intentFor,here,reliable]
      refine ⟨submitted ++ [d.message],?_,?_⟩
      · rw [out]
        exact rel_append carried (.cons ⟨d.connection,d.encoded,encodes,rfl⟩ .nil)
      · rw [waiting,held,filter_append,none,filter_cons_of_pos (by simpa using here)] at sub
        have waits : waiting c { withSubmitted s (intentFor d.connection d.message d.encoded) with
            deferred := kept ++ rest } = rest.filter fun k => k.connection == c := by
          rw [waiting,filter_append,none,nil_append]
        rwa [waits,append_assoc]
    · have out : outgoing c { withSubmitted s (intentFor d.connection d.message d.encoded) with deferred := kept ++ rest } =
          outgoing c s := by
        simp [outgoing,withSubmitted,filter_append,intentFor,here]
      refine ⟨submitted,by rw [out]; exact carried,?_⟩
      rwa [waiting,held,filter_append,filter_cons_of_neg (by simpa using here),← filter_append] at sub
  · rw [held]
    rcases mem_append.mp inside with left | right
    · exact mem_append_left _ left
    · exact mem_append_right _ (.tail _ right)
  · rw [outgoing,outgoing,withSubmitted,filter_append]
    exact prefix_append _ _

variable {now : Time}

theorem Lined.releaseDeferredLoop (rest : List DeferredMessage)
    {kept : List DeferredMessage} (l : Lined past c m) (sight : SameSight s m) (held : m.deferred = kept ++ rest)
    (keptStay : ∀ k ∈ kept, stays around s now k)
    (turn : (kept ++ rest).Pairwise fun k d => k.connection = c → d.connection = c → stays around s now k →
      isReady around.host s d = false) :
    Lined past c (releaseDeferredLoop around.host now m kept rest) := by
  induction rest generalizing m kept with
  | nil => exact l
  | cons d rest ih =>
    have ready := isReady_congr around sight d
    have live := isLive_congr sight d
    simp only [releaseDeferredLoop]
    rw [ready,live]
    split
    · rename_i staying
      refine ih l sight (by rw [held,append_assoc,singleton_append]) (fun k member => ?_) (by simpa using turn)
      rcases mem_append.mp member with before | new
      · exact keptStay k before
      · rwa [mem_singleton.mp new]
    · have later : (kept ++ rest).Pairwise fun k d => k.connection = c → d.connection = c → stays around s now k = true →
          isReady around.host s d = false := turn.sublist (.append_left (sublist_cons_self d rest) kept)
      generalize submission : (if isReady around.host s d = true then
        (submitEncoded around.host m d.connection d.message d.encoded false).2 else m) = n
      have gone : List.Sublist (kept ++ rest) m.deferred := by
        rw [held]
        exact .append_left (sublist_cons_self d rest) kept
      have released : Lined past c { n with deferred := kept ++ rest } ∧ SameSight s n := by
        have dropped : Lined past c { m with deferred := kept ++ rest } :=
          l.silent ⟨rfl,rfl,rfl,gone,rfl,rfl,fun _ => rfl⟩
        rw [← submission]
        split
        · rename_i isReady
          rcases submitEncoded_unparked around m d.connection d.message d.encoded with same | same
          · rw [same]
            exact ⟨dropped,sight⟩
          · rw [same]
            refine ⟨l.released held fun here k member elsewhere => ?_,sight.trans ⟨rfl,rfl,rfl,fun _ => rfl⟩⟩
            have ahead := (pairwise_append.mp turn).2.2 k member d (.head _) elsewhere here
              (keptStay k member)
            rw [isReady] at ahead
            cases ahead
        · exact ⟨dropped,sight⟩
      obtain ⟨lined,seen⟩ := released
      refine ih ?_ ?_ rfl keptStay later
      · exact lined.silent (.of_modify rfl
          (fun _ => rfl) rfl rfl rfl rfl rfl)
      · exact seen.trans (.of_modify rfl
          (fun _ => ⟨rfl,rfl⟩) rfl rfl rfl)

theorem releasesInTurn_pairwise (turn : releasesInTurn around c s now) :
    s.deferred.Pairwise fun k d => k.connection = c → d.connection = c → stays around s now k →
      isReady around.host s d = false := by
  have ordered := of_decide_eq_true turn
  rw [waiting,pairwise_filter] at ordered
  refine ordered.imp fun pair k d stay => ?_
  exact pair (by simpa using k) (by simpa using d) stay

theorem sight_expireReplies (s : State (Wire ω κ)) (keys : List PendingKey) :
    SameSight s (expireReplies around.host s keys) := by
  have quiet := quiet_expireReplies around.host s keys
  suffices same : (expireReplies around.host s keys).remotes = s.remotes ∧
      (expireReplies around.host s keys).environment.world = s.environment.world from
    .of_quiet quiet same.1 same.2
  clear quiet
  induction keys generalizing s with
  | nil => exact ⟨rfl,rfl⟩
  | cons key rest ih =>
    simp only [expireReplies]
    split
    · exact ih s
    · rename_i incoming _
      generalize marked : ({ s with incomingRequests := s.incomingRequests.modify key _ } : State (Wire ω κ)) = m
      have before : m.remotes = s.remotes ∧ m.environment.world = s.environment.world := by
        rw [← marked]
        exact ⟨rfl,rfl⟩
      obtain ⟨remotes,world⟩ := ih (sendMessage around.host m key.connection (requestErrorMessage incoming.remote
        key.request "handler_timeout" "Remote handler deadline expired") false).2
      rw [remotes,world,← before.1,← before.2]
      cases sendMessage_flow around m key.connection (requestErrorMessage incoming.remote key.request "handler_timeout"
        "Remote handler deadline expired") false with
      | refused silent => exact ⟨silent.remotes,silent.world⟩
      | sent publication bytes u encoded found submission silent =>
        cases submission with
        | submitted ready after => exact ⟨silent.remotes.trans after.remotes,silent.world.trans after.world⟩
        | parked d here same bytesOf reliable waits after =>
          exact ⟨silent.remotes.trans after.remotes,silent.world.trans after.world⟩

theorem sight_expireWork (s : State (Wire ω κ)) (keys : List PendingKey) : SameSight s (expireWork s keys) ∧
    (expireWork s keys).deferred = s.deferred := by
  induction keys generalizing s with
  | nil => exact ⟨⟨rfl,rfl,rfl,fun _ => rfl⟩,rfl⟩
  | cons key rest ih =>
    simp only [expireWork]
    split
    · have closed : SameSight s (closeHandler s key) :=
        .of_modify rfl (fun _ => ⟨rfl,rfl⟩) rfl rfl rfl
      obtain ⟨sight,deferred⟩ := ih (closeHandler s key)
      exact ⟨closed.trans sight,deferred⟩
    · exact ih s

def expiredReplies (s : State (Wire ω κ)) (now : Time) : List PendingKey :=
  (s.incomingRequests.filter fun _ r => r.acceptReply && decide (now ≥ r.replyDeadline)).keys

theorem Lined.pumpIncoming (l : Lined past c s) (maximumMessages : Nat)
    (isFree : ∀ key ∈ expiredReplies s now, free s c key.connection) (turn : releasesInTurn around c s now) :
    Lined past c (RemoteManager.pumpIncoming around.host s now maximumMessages).1 := by
  have answered := l.expireReplies around isFree
  simp only [expiredReplies] at answered
  simp only [RemoteManager.pumpIncoming]
  generalize (s.incomingRequests.filter fun _ r => r.acceptReply && decide (now ≥ r.replyDeadline)).keys = replies
    at answered
  generalize (s.incomingRequests.filter fun _ r => decide (now ≥ r.workDeadline)).keys = work
  have deferred := (sight_expireWork (RemoteManager.expireReplies around.host s replies) work).2.trans
    (quiet_expireReplies around.host s replies).deferred
  have sight := (sight_expireReplies around s replies).trans (sight_expireWork _ work).1
  have worked := answered.silent (silent_expireWork _ work)
  have inTurn := releasesInTurn_pairwise around turn
  rw [← deferred] at inTurn
  have looped := worked.releaseDeferredLoop around _ sight (nil_append _).symm (forall_mem_nil _) inTurn
  exact looped.silent (.of_eq rfl rfl rfl rfl rfl rfl)

/-- A call to a connection does not overtake one that waits: none does, or it waits itself. -/
def callInTurn (c : ConnectionId) (s : State (Wire ω κ)) (connection : ConnectionId) (arguments : List WireValue) : Bool :=
  free s c connection || !argumentsReady around s connection arguments

variable {arguments : List WireValue}

theorem turn_of_callInTurn {connection : ConnectionId} {m : RemoteMessage}
    (turn : callInTurn around c s connection arguments) (line : toLine c connection m) :
    waiting c s = [] ∨ argumentsReady around s connection arguments = false := by
  rw [callInTurn,Bool.or_eq_true,Bool.not_eq_true'] at turn
  exact turn.imp_left fun isFree => waiting_of_free isFree line

section
variable (l : Lined past c s)
include l

variable (connection : ConnectionId)

theorem Lined.startRequest (remote : ObjectId)
    (completion : RequestCompletion) (deadline : Int) (turn : callInTurn around c s connection arguments) :
    Lined past c (RemoteManager.startRequest around.host s connection remote arguments completion deadline).1 := by
  simp only [RemoteManager.startRequest]
  split
  · exact l
  split
  · exact l
  · exact l
  rename_i peer kind found _
  split
  · exact l
  split
  · exact l
  split
  · exact l
  rename_i inRange
  split
  · exact l
  have admitted := silent_admitCall around s connection remote
  have quiet := quiet_admitCall around.host s connection remote
  split
  · rename_i m refused
    rw [refused] at admitted
    exact l.silent admitted
  rename_i m granted
  rw [granted] at admitted quiet
  replace admitted : Silent s m := admitted
  replace quiet : Quiet s m := quiet
  have lined : Lined past c m := l.silent admitted
  split
  · exact lined
  rename_i next following
  have larger := (MonotonicSequence.tryNext_toNat following).2
  obtain ⟨p,here,books⟩ := quiet.peer found
  have number := congrArg PeerState.nextRequest books
  change p.nextRequest = peer.nextRequest at number
  have stepped : ∀ c', c' = connection → (numbered m connection next).peers.find? c' = some { p with nextRequest := next } := by
    rintro c' rfl
    rw [numbered,find?_modify,if_pos rfl,here]
    rfl
  have numberedLine : Lined past c (numbered m connection next) := by
    refine { lined with owner := fun n member => ?_ }
    obtain ⟨q,before,below⟩ := lined.owner n member
    by_cases same : c = connection
    · rw [same,here] at before
      cases before
      refine ⟨_,stepped c same,fun request => (below request).trans ?_⟩
      change p.nextRequest.toNat < next.toNat
      rw [number]
      omega
    · exact ⟨q,by rw [numbered,find?_modify,if_neg same,before],below⟩
  split
  · exact numberedLine
  have sent : Lined past c (RemoteManager.sendMessage around.host (numbered m connection next) connection
      { kind := .request, remote, request := peer.nextRequest, deadline, arguments } true).2 := by
    refine numberedLine.sendMessage around true ?_ ?_ ?_
    · simp only [Bool.or_eq_true,decide_eq_true_eq,not_or,not_le] at inRange
      exact inRange.1.le
    · rintro ⟨same,_⟩ _
      refine ⟨fun n member request _ => ?_,_,stepped c same.symm,fun _ => ?_⟩
      rotate_left
      · change peer.nextRequest.toNat < next.toNat
        omega
      obtain ⟨q,before,below⟩ := lined.owner n member
      rw [← same,here] at before
      cases before
      rw [← number]
      exact below request
    · intro line
      have same : argumentsReady around (numbered m connection next) connection arguments =
          argumentsReady around s connection arguments := by
        rw [← argumentsReady_quiet around quiet admitted connection arguments]
        refine argumentsReady_congr around (s := m) (t := numbered m connection next) rfl ?_ arguments
        rw [stepped connection rfl,here]
        rfl
      have waits : waiting c (numbered m connection next) = waiting c s := by
        exact congrArg (List.filter _) quiet.deferred
      rw [same,waits]
      exact turn_of_callInTurn around turn line
  split
  · exact sent
  · exact sent.silent (silent_recordRequest ..)

theorem Lined.sendEventMessage {message : RemoteMessage}
    (event : message.kind ≠ .request) (nonnegative : 0 ≤ message.deadline)
    (turn : deliveryFor message.kind = .reliableOrdered → callInTurn around c s connection message.arguments) :
    Lined past c (RemoteManager.sendEventMessage around.host s connection message).2.1 := by
  simp only [RemoteManager.sendEventMessage]
  split
  · exact l
  have admitted := silent_admitCall around s connection message.remote
  have quiet := quiet_admitCall around.host s connection message.remote
  split
  · rename_i m refused
    rw [refused] at admitted
    exact l.silent admitted
  · rename_i m granted
    rw [granted] at admitted quiet
    refine (l.silent admitted).sendMessage around true nonnegative (fun _ request => absurd request event) fun line => ?_
    have waits : waiting c m = waiting c s := congrArg (List.filter _) quiet.deferred
    rw [argumentsReady_quiet around quiet admitted,waits]
    exact turn_of_callInTurn around (turn line.2) line

theorem Lined.sendEvent (remote : ObjectId)
    (turn : s.remotes.find? remote = some .reliableEvent → callInTurn around c s connection arguments) :
    Lined past c (RemoteManager.sendEvent around.host s connection remote arguments).2.1 := by
  simp only [RemoteManager.sendEvent]
  split
  · exact l
  split
  · exact l
  · exact l
  rename_i kind _ registered
  split
  · exact l
  cases kind with
  | reliableEvent =>
    exact l.sendEventMessage around connection (by simp) (by simp) fun _ => turn registered
  | unreliableEvent =>
    exact l.sendEventMessage around connection (by simp) (by simp) fun reliable => by simp [deliveryFor] at reliable
  | unreliableSequencedEvent =>
    have taken := silent_takeSequence s connection remote
    simp only [eventKind]
    split
    · rename_i m same
      rw [same] at taken
      exact l.silent taken
    · rename_i m sequence same
      rw [same] at taken
      exact (l.silent taken).sendEventMessage around connection (by simp) (by simp) fun reliable => by
        simp [deliveryFor] at reliable
  | function => exact l

theorem Lined.addPeer (epoch : ReplicationEpoch) (limits : NetworkLimits) :
    Lined past c (addPeer s connection epoch limits).2 := by
  rcases addPeer_cases s connection epoch limits with same | ⟨_,absent,same⟩
  · rwa [same]
  · rw [same]
    refine { l with owner := fun m member => ?_ }
    obtain ⟨p,found,below⟩ := l.owner m member
    refine ⟨p,?_,below⟩
    rw [find?_insert_of_ne _ _ ?_,found]
    rintro rfl
    rw [absent] at found
    cases found

end

def isSender (config : Config (Wire ω κ)) : Event (Wire ω κ) → Bool
  | .call operation =>
    match operation with
    | .addPeer .. | .registerRemote .. | .publishRemote .. | .markMaterialized .. | .setEventHandler ..
    | .setRequestHandler .. | .setTerminalHandler .. | .sendEvent .. | .startRequest .. | .pump .. => true
    | .handleTransportEvent (.received ..) => true
    | _ => false
  | .return => true
  | .throw => false
  | .advance =>
    match config.stack with
    | .removeTerminals (_ :: _) :: _ | .broadcast (_ :: _) .. :: _ => false
    | _ => true
  | .environment value => value.outbox == config.state.environment.outbox

/-- The step overtakes no message of the connection that waits. -/
def inTurn (c : ConnectionId) (config : Config (Wire ω κ)) : Event (Wire ω κ) → Bool
  | .call (.startRequest connection _ arguments _ _) => callInTurn around c config.state connection arguments
  | .call (.sendEvent connection remote arguments) =>
    config.state.remotes.find? remote != some .reliableEvent || callInTurn around c config.state connection arguments
  | .advance =>
    match config.stack with
    | .sendCancellation key _ :: _ => free config.state c key.connection
    | .pumpIncoming now _ :: _ => releasesInTurn around c config.state now &&
        (expiredReplies config.state now).all fun key => free config.state c key.connection
    | .pumpDispatch _ :: _ => config.state.dispatchQueue.head?.all fun queued =>
        queued.message.kind != .request || free config.state c queued.connection
    | _ => true
  | _ => true

variable {stack : List Frame}

theorem Lined.begin (l : Lined past c s) {operation : Operation}
    (sender : isSender ⟨s,stack⟩ (.call operation)) (turn : inTurn around c ⟨s,stack⟩ (.call operation)) :
    Lined past c (RemoteManager.begin around.host s operation).1 := by
  cases operation with
  | addPeer connection epoch limits => exact l.addPeer connection epoch limits
  | registerRemote remote kind =>
    simp only [RemoteManager.begin,registerRemote]
    split
    · exact { l with }
    · exact l
  | publishRemote connection remote materialized => exact l.silent (silent_publishRemote ..)
  | markMaterialized connection object => exact l.silent (silent_markMaterialized ..)
  | setEventHandler remote handler =>
    simp only [RemoteManager.begin,setEventHandler]
    split <;> exact { l with }
  | setRequestHandler remote handler =>
    simp only [RemoteManager.begin,setRequestHandler]
    split <;> exact { l with }
  | setTerminalHandler handler => exact { l with }
  | sendEvent connection remote arguments =>
    refine l.sendEvent around connection remote fun reliable => ?_
    simpa [inTurn,reliable] using turn
  | startRequest connection remote arguments callable deadline =>
    have issued : Silent s (issuing s) := .of_eq rfl rfl rfl rfl rfl rfl
    refine (l.silent issued).startRequest around connection remote _ deadline ?_
    have same : argumentsReady around (issuing s) connection arguments = argumentsReady around s connection arguments :=
      argumentsReady_congr around (s := s) (t := issuing s) rfl rfl arguments
    rwa [callInTurn,same]
  | pump maximumMessages =>
    simp only [RemoteManager.begin,pump]
    split
    · exact l
    · exact l.silent (silent_readTime around s)
  | handleTransportEvent event =>
    cases event with
    | received connection delivery traffic order payload =>
      simp only [RemoteManager.begin,handleTransportEvent]
      split
      · exact l
      rcases receive_cases around.host s connection delivery traffic order payload with
        same | ⟨peer,message,_,_,_,_,same⟩
      · rwa [same]
      · rw [same]
        exact l.silent (silent_enqueue ..)
    | _ => simp [isSender] at sender
  | _ => simp [isSender] at sender

theorem Lined.pumpDispatch (l : Lined past c s) (loop : DispatchLoop)
    (isFree : ∀ queued, s.dispatchQueue.head? = some queued → queued.message.kind = .request →
      free s c queued.connection) : Lined past c (pumpDispatch around.host s loop).1 := by
  rcases pumpDispatch_cases around.host s loop with ended | ⟨queued,rest,front,moved | ⟨_,taken⟩⟩
  · rw [ended]
    exact l.silent (.of_eq rfl rfl rfl rfl rfl rfl)
  · rw [moved]
    exact l.silent (.of_eq rfl rfl rfl rfl rfl rfl)
  · have popped : Silent s (popFront s queued rest) := .of_modify
      rfl (fun _ => rfl) rfl rfl rfl rfl rfl
    rw [taken]
    refine .silent (s := (dispatch around.host (popFront s queued rest) queued).2.1) ?_
      (.of_eq rfl rfl rfl rfl rfl rfl)
    refine (rejects_dispatch around (popFront s queued rest) queued).lined around (l.silent popped) fun request => ?_
    exact popped.free (isFree queued (by rw [front]; rfl) request)

theorem Lined.advance (l : Lined past c s) {frame : Frame}
    (sender : isSender ⟨s,frame :: stack⟩ .advance) (turn : inTurn around c ⟨s,frame :: stack⟩ .advance) :
    Lined past c (RemoteManager.advance around.host s frame).1 := by
  cases frame with
  | callback callback => exact l
  | completions rest =>
    cases rest with
    | nil => exact l
    | cons pending rest =>
      simp only [RemoteManager.advance]
      split
      · exact l
      · exact l.silent (.of_eq rfl rfl rfl rfl rfl rfl)
  | drainTerminals =>
    simp only [RemoteManager.advance,l.calm,if_true]
    exact l
  | removeTerminals rest =>
    cases rest with
    | nil => exact l
    | cons connection rest => simp [isSender] at sender
  | notifyTerminals rest =>
    cases rest with
    | nil => exact l
    | cons terminal rest =>
      simp only [RemoteManager.advance]
      split <;> exact l
  | sendCancellation key remote => exact l.answer around false (by simp) (by simp) turn
  | pumpTimeouts now rest =>
    cases rest with
    | nil => exact l
    | cons key rest =>
      simp only [RemoteManager.advance]
      split
      · exact l
      · exact l.silent (silent_takePending ..)
  | pumpIncoming now maximumMessages =>
    simp only [inTurn,Bool.and_eq_true,all_eq_true] at turn
    exact l.pumpIncoming around maximumMessages turn.2 turn.1
  | pumpDispatch loop =>
    refine l.pumpDispatch around loop fun queued front request => ?_
    simpa [inTurn,front,request] using turn
  | broadcast rest remote arguments results =>
    cases rest with
    | nil => exact l
    | cons connection rest => simp [isSender] at sender
  | finish result => exact l

theorem lined_step {config d : Config (Wire ω κ)} {event : Event (Wire ω κ)} (sender : isSender config event)
    (turn : inTurn around c config event) (l : Lined past c config.state)
    (stepped : step around.host config event = some d) : Lined past c d.state := by
  obtain ⟨s,stack⟩ := config
  cases event with
  | call operation =>
    simp only [step] at stepped
    split at stepped
    · cases stepped
      exact l.begin around sender turn
    · cases stepped
  | «return» =>
    simp only [step] at stepped
    split at stepped
    · cases stepped
      exact l
    · cases stepped
  | throw => simp [isSender] at sender
  | advance =>
    simp only [step] at stepped
    split at stepped
    · cases stepped
    · cases stepped
    · rename_i _ frame rest _
      cases stepped
      exact l.advance around sender turn
  | environment value =>
    simp only [step] at stepped
    split at stepped
    · cases stepped
      simp only [isSender,beq_iff_eq] at sender
      have same : outgoing c { s with environment := value } = outgoing c s := by
        exact congrArg (List.filter _) sender
      obtain ⟨submitted,carried,sub⟩ := l.order
      exact { l with order := ⟨submitted,by rw [same]; exact carried,sub⟩, grown := by rw [same]; exact l.grown }
    · cases stepped

end
end Gargantuan.RemoteManager
