import Gargantuan.RemoteOperations

/-!
Receiving, dispatching and pumping keep the books. The only metric they let lag is that
of the queue length, which a pump refreshes when its dispatch loop is over.
-/
namespace Gargantuan.RemoteManager
open SortedMap List PeerState Frame

def Disposition.refuses : Disposition → Bool
  | .managerRateLimited | .peerRateLimited | .requestLimit | .unavailable | .publicationMismatch
  | .argumentsRejected | .noRequestHandler => true
  | _ => false

section
variable {ε : Type} {s t : State ε} (host : Host ε)

/-- The state after a handler was started, before the bounds are observed. -/
def handling (s : State ε) (key : PendingKey) (incoming : IncomingRequest) : State ε :=
  { s with
    incomingRequests := s.incomingRequests.insert key incoming
    peers := s.peers.modify key.connection PeerState.startHandler }

variable {peer : PeerState} {queued : QueuedMessage}

theorem books_handling (key : PendingKey) (incoming : IncomingRequest)
    (found : s.peers.find? key.connection = some peer) (absent : s.incomingRequests.find? key = none)
    (size : s.incomingRequests.size < maximumConcurrentRemoteHandlersPerManager)
    (room : peer.concurrentHandlers < maximumConcurrentRemoteHandlersPerPeer)
    (negotiated : peer.concurrentHandlers < peer.limits.maximumInFlightRemoteRequests) :
    Books s (handling s key incoming) [] := by
  refine books_sameStory (fun b => ⟨?_,b.deferredMetric,b.inFlight⟩)
    (.of_modify rfl (fun _ => rfl) rfl rfl rfl rfl) rfl rfl
  have length : s.incomingRequests.keys.length < maximumConcurrentRemoteHandlersPerManager := by
    rw [length_keys]; exact size
  have added := b.accounts.addHandler found room negotiated length
  exact (added.perm (.refl _) (.refl _) (.refl _) (keys_insert_perm incoming absent).symm).congr
    (.of_eq rfl rfl rfl rfl rfl rfl)

def withLatestRequest (s : State ε) (c : ConnectionId) (request : RemoteRequestId) : State ε :=
  { s with peers := s.peers.modify c fun peer => { peer with latestIncomingRequest := request } }

theorem find?_withLatestRequest {c : ConnectionId} (request : RemoteRequestId) (found : s.peers.find? c = some peer) :
    (withLatestRequest s c request).peers.find? c = some { peer with latestIncomingRequest := request } := by
  rw [withLatestRequest,find?_modify,if_pos rfl,found]
  rfl

structure Consumes (s t : State ε) (queued : QueuedMessage) : Prop extends Thinned s t where
  request : queued.message.kind = .request
  dispositions : t.history.dispositions = s.history.dispositions
  incoming : ∀ key ∈ t.incomingRequests.keys, key ∈ s.incomingRequests.keys ∨
    key = ⟨queued.connection,queued.message.request⟩
  latest : ∀ c q, t.peers.find? c = some q → ∃ p, s.peers.find? c = some p ∧
    q.latestIncomingRequest = if c = queued.connection then queued.message.request else p.latestIncomingRequest

theorem consumes_withLatestRequest (s : State ε) (request : queued.message.kind = .request) :
    Consumes s (withLatestRequest s queued.connection queued.message.request) queued where
  toThinned := .of_eq rfl rfl rfl rfl
  request := request
  dispositions := rfl
  incoming _ member := .inl member
  latest c q found := by
    rw [withLatestRequest,find?_modify] at found
    split_ifs at found with here
    · obtain ⟨p,before,rfl⟩ := Option.map_eq_some_iff.mp found
      exact ⟨p,before,by rw [if_pos here]⟩
    · exact ⟨q,found,by rw [if_neg here]⟩

variable {u : State ε}

section
variable (consumes : Consumes s t queued)
include consumes

theorem Consumes.andThen (thinned : Thinned t u) (dispositions : u.history.dispositions = t.history.dispositions)
    (incoming : ∀ key ∈ u.incomingRequests.keys, key ∈ t.incomingRequests.keys ∨
      key = ⟨queued.connection,queued.message.request⟩)
    (latest : ∀ c, (u.peers.find? c).map latestIncomingRequest =
      (t.peers.find? c).map latestIncomingRequest) : Consumes s u queued where
  toThinned := consumes.toThinned.trans thinned
  request := consumes.request
  dispositions := dispositions.trans consumes.dispositions
  incoming key member := by
    rcases incoming key member with before | new
    · exact consumes.incoming key before
    · exact .inr new
  latest c q found := by
    have here := latest c
    rw [found] at here
    obtain ⟨p,middle,same⟩ := Option.map_eq_some_iff.mp here.symm
    obtain ⟨o,before,equal⟩ := consumes.latest c p middle
    exact ⟨o,before,same.symm.trans equal⟩

theorem Consumes.quiet (quiet : Quiet t u) : Consumes s u queued :=
  consumes.andThen quiet.passive.toThinned quiet.passive.dispositions (fun _ member => .inl (quiet.incoming ▸ member))
    fun c => map_of_map (quiet.peers c) latestIncomingRequest

theorem consumes_handling (incoming : IncomingRequest)
    (absent : t.incomingRequests.find? ⟨queued.connection,queued.message.request⟩ = none) :
    Consumes s (handling t ⟨queued.connection,queued.message.request⟩ incoming) queued := by
  refine consumes.andThen (.of_eq rfl rfl rfl rfl) rfl (fun key member => ?_)
    (latest_modify t queued.connection startHandler fun _ => rfl)
  rcases mem_cons.mp ((keys_insert_perm incoming absent).mem_iff.mp member) with new | before
  · exact .inr new
  · exact .inl before

theorem Consumes.observe (c : ConnectionId) : Consumes s (observeOwnership t c) queued := by
  obtain ⟨story,_,_,same⟩ := sameStory_observeOwnership t c
  have observed := story.passive fun _ member => same ▸ member
  exact consumes.andThen observed.toThinned observed.dispositions (fun _ member => .inl (same ▸ member)) fun c' =>
    map_of_map (story.peers c') latestIncomingRequest

end

section
variable (s : State ε)

theorem dispatchRequest_flow (found : s.peers.find? queued.connection = some peer)
    (request : queued.message.kind = .request) :
    Books s (dispatchRequest host s peer queued).2.1 (dispatchRequest host s peer queued).2.2 ∧
      (Passive s (dispatchRequest host s peer queued).2.1 ∨
        Consumes s (dispatchRequest host s peer queued).2.1 queued) := by
  have marked : Books s (withLatestRequest s queued.connection queued.message.request) [] :=
    books_modifyPeer s _ (fun _ => rfl) (fun _ => rfl) (fun _ => rfl) fun _ => rfl
  have consumes := consumes_withLatestRequest s request
  have rejected : ∀ code text, Books s (rejectRequest host
      (withLatestRequest s queued.connection queued.message.request) queued.connection queued.message code text) [] ∧
      Consumes s (rejectRequest host (withLatestRequest s queued.connection queued.message.request) queued.connection
        queued.message code text) queued := fun code text =>
    ⟨marked.trans (keeps_quiet (quiet_rejectRequest ..)).toBooks,consumes.quiet (quiet_rejectRequest ..)⟩
  simp only [dispatchRequest]
  split
  · have quiet := quiet_rejectRequest host s queued.connection queued.message "replayed_request"
      "Request ID was already consumed"
    exact ⟨(keeps_quiet quiet).toBooks,.inl quiet.passive⟩
  split
  · exact ⟨(rejected _ _).1,.inr (rejected _ _).2⟩
  rename_i unseen
  split
  · exact ⟨(rejected _ _).1,.inr (rejected _ _).2⟩
  rename_i room
  simp only [Bool.or_eq_true,decide_eq_true_eq,not_or,ge_iff_le,not_le] at room
  obtain ⟨⟨size,perPeer⟩,negotiated⟩ := room
  split
  · exact ⟨(rejected _ _).1,.inr (rejected _ _).2⟩
  have read := quiet_readTime host (withLatestRequest s queued.connection queued.message.request)
  obtain ⟨q,still,books⟩ := read.peer (find?_withLatestRequest queued.message.request found)
  obtain ⟨_,_,limits,_,handlers⟩ := books_parts books
  have absent : s.incomingRequests.find? ⟨queued.connection,queued.message.request⟩ = none := by
    simpa [SortedMap.contains] using unseen
  have handled := fun incoming => books_handling ⟨queued.connection,queued.message.request⟩ incoming still
    absent size (by rwa [handlers]) (by rwa [handlers,limits])
  have consumed := fun incoming => consumes_handling (consumes.quiet read) incoming absent
  exact ⟨.frames ((marked.trans ((keeps_quiet read).toBooks.trans (handled _))).trans
    (keeps_observeOwnership _ _).toBooks) rfl,.inr ((consumed _).observe _)⟩

theorem keeps_dispatchEvent (peer : PeerState) (queued : QueuedMessage) :
    Keeps s (dispatchEvent s peer queued).2.1 (dispatchEvent s peer queued).2.2 := by
  simp only [dispatchEvent]
  split
  · exact .refl s
  generalize noted : (if (queued.message.kind == .sequencedEvent) = true then _ else s) = m
  have kept : Keeps s m [] := by
    rw [← noted]
    split
    · exact ⟨books_modifyPeer s _ (fun _ => rfl) (fun _ => rfl) (fun _ => rfl) fun _ => rfl,
        passive_modifyPeer s _ fun _ => rfl⟩
    · exact .refl s
  split
  · exact kept
  · exact .frames kept rfl

variable (queued : QueuedMessage)

theorem keeps_dispatchAnswer : Keeps s (dispatchAnswer s queued).2.1 (dispatchAnswer s queued).2.2 := by
  simp only [dispatchAnswer]
  split
  · exact .refl s
  split
  · exact .refl s
  · exact keeps_takePending ..

theorem quiet_dispatchCancellation : Quiet s (dispatchCancellation s queued) := by
  simp only [dispatchCancellation]
  split
  · exact .refl s
  split
  · exact .refl s
  · exact .modifyIncoming ..

end

structure Dispatches (s t : State ε) (frames : List Frame) (queued : QueuedMessage) : Prop where
  books : Books s t frames
  flow : Passive s t ∨ Consumes s t queued

variable {frames : List Frame}

theorem Keeps.dispatches (kept : Keeps s t frames) (queued : QueuedMessage) : Dispatches s t frames queued :=
  ⟨kept.toBooks,.inl kept.toPassive⟩

theorem Dispatches.afterQuiet {m : State ε} (quiet : Quiet s m)
    (dispatches : Dispatches m t frames queued) : Dispatches s t frames queued := by
  refine ⟨(keeps_quiet quiet).toBooks.trans dispatches.books,?_⟩
  rcases dispatches.flow with passive | consumes
  · exact .inl (quiet.passive.trans passive)
  · refine .inr ⟨quiet.passive.toThinned.trans consumes.toThinned,consumes.request,
      consumes.dispositions.trans quiet.passive.dispositions,fun key member => ?_,fun c q found => ?_⟩
    · rw [← quiet.incoming]
      exact consumes.incoming key member
    · obtain ⟨p,middle,same⟩ := consumes.latest c q found
      obtain ⟨o,before,books⟩ := quiet.peer_of middle
      have latest := congrArg latestIncomingRequest books
      change p.latestIncomingRequest = o.latestIncomingRequest at latest
      exact ⟨o,before,by rw [same,latest]⟩

theorem dispatches_dispatchAdmitted (s : State ε) (queued : QueuedMessage)
    (found : s.peers.find? queued.connection = some peer) :
    Dispatches s (dispatchAdmitted host s peer queued).2.1 (dispatchAdmitted host s peer queued).2.2 queued := by
  simp only [dispatchAdmitted]
  split
  · exact (keeps_dispatchEvent ..).dispatches queued
  · exact (keeps_dispatchEvent ..).dispatches queued
  · exact (keeps_dispatchEvent ..).dispatches queued
  · exact (keeps_dispatchAnswer ..).dispatches queued
  · exact (keeps_dispatchAnswer ..).dispatches queued
  · exact (keeps_quiet (quiet_dispatchCancellation ..)).dispatches queued
  · rename_i request
    obtain ⟨books,flow⟩ := dispatchRequest_flow host s found request
    exact ⟨books,flow⟩

theorem dispatch_cases {little : State ε → State ε → Prop} (refl : ∀ s, little s s)
    (manager : ∀ s, little s (admitManagerCall host s).2)
    (both : ∀ s m c remote, little s m → little s (admitPeerCall host m c remote).2) (s : State ε)
    (queued : QueuedMessage) : ∃ m, little s m ∧ ((∃ d, d.refuses ∧ dispatch host s queued = (d,m,[])) ∨
        (∃ d code text, d.refuses = true ∧ dispatch host s queued = (d,if queued.message.kind = .request then
          rejectRequest host m queued.connection queued.message code text else m,[])) ∨
        ∃ peer, m.peers.find? queued.connection = some peer ∧
          dispatch host s queued = dispatchAdmitted host m peer queued) := by
  simp only [dispatch]
  generalize admission : (if ((s.peers.find? queued.connection).isSome && isCall queued.message.kind) = true then
    admitManagerCall host s else (true,s)) = admitted
  have first : little s admitted.2 := by
    rw [← admission]
    split
    · exact manager s
    · exact refl s
  obtain ⟨allowed,m⟩ := admitted
  split
  · exact ⟨m,first,.inl ⟨_,rfl,rfl⟩⟩
  split
  · split
    · exact ⟨m,first,.inr (.inl ⟨_,_,_,rfl,rfl⟩)⟩
    split
    · exact ⟨m,first,.inl ⟨_,rfl,rfl⟩⟩
    split
    · exact ⟨m,first,.inr (.inl ⟨_,_,_,rfl,rfl⟩)⟩
    generalize peerAdmission : (if isCall queued.message.kind = true then
      admitPeerCall host m queued.connection queued.message.remote else (true,m)) = admittedPeer
    have second : little s admittedPeer.2 := by
      rw [← peerAdmission]
      split
      · exact both s m _ _ first
      · exact first
    split
    · rename_i found
      exact ⟨_,second,.inr (.inr ⟨_,found,rfl⟩)⟩
    · exact ⟨_,second,.inl ⟨_,rfl,rfl⟩⟩
  · exact ⟨m,first,.inr (.inl ⟨_,_,_,rfl,rfl⟩)⟩

theorem dispatches_dispatch (s : State ε) (queued : QueuedMessage) :
    Dispatches s (dispatch host s queued).2.1 (dispatch host s queued).2.2 queued := by
  obtain ⟨n,quiet,cases⟩ := dispatch_cases host Quiet.refl (quiet_admitManagerCall host)
    (fun _ m c remote quiet => quiet.trans (quiet_admitPeerCall host m c remote)) s queued
  refine .afterQuiet quiet ?_
  obtain ⟨d,-,same⟩ | ⟨d,code,text,-,same⟩ | ⟨p,found,same⟩ := cases
  · rw [same]
    exact (Keeps.refl n).dispatches queued
  · rw [same]
    split
    · exact (keeps_quiet (quiet_rejectRequest ..)).dispatches queued
    · exact (Keeps.refl n).dispatches queued
  · rw [same]
    exact dispatches_dispatchAdmitted host n queued found

/-! ### Pump -/

theorem keeps_expireWork (s : State ε) (keys : List PendingKey) : Keeps s (expireWork s keys) [] := by
  induction keys generalizing s with
  | nil => exact .refl s
  | cons key rest ih =>
    simp only [expireWork]
    split
    · rename_i present
      obtain ⟨r,found⟩ := contains_iff.mp present
      exact (keeps_closeHandler found).trans (ih _)
    · exact ih s

/-- What the loop over the deferred messages keeps; the metric of their number lags behind it. -/
structure Released (s t : State ε) : Prop where
  story : SameStory s t
  pending : t.pendingRequests = s.pendingRequests
  incoming : t.incomingRequests.keys = s.incomingRequests.keys
  queueMetric : t.metrics.queuedDispatchMessages = s.metrics.queuedDispatchMessages
  inFlight : t.metrics.inFlightRequests = s.metrics.inFlightRequests
  accounts : Accounts s s.dispatchQueue s.deferred s.pendingRequests.keys s.incomingRequests.keys →
    Accounts t t.dispatchQueue t.deferred t.pendingRequests.keys t.incomingRequests.keys

theorem Released.trans (first : Released s t) (second : Released t u) : Released s u where
  story := first.story.trans second.story
  pending := second.pending.trans first.pending
  incoming := second.incoming.trans first.incoming
  queueMetric := second.queueMetric.trans first.queueMetric
  inFlight := second.inFlight.trans first.inFlight
  accounts a := second.accounts (first.accounts a)

theorem Quiet.released (quiet : Quiet s t) : Released s t where
  story := quiet.sameStory
  pending := quiet.pending
  incoming := quiet.incoming
  queueMetric := by rw [quiet.metrics]
  inFlight := by rw [quiet.metrics]
  accounts a := by
    rw [quiet.queue,quiet.deferred,quiet.pending,quiet.incoming]
    exact a.congr quiet.sameBooks

theorem released_releaseDeferred {kept rest : List DeferredMessage} {d : DeferredMessage}
    (held : s.deferred = kept ++ d :: rest) : Released s { releaseDeferred s d with deferred := kept ++ rest } where
  story := .of_modify rfl (fun _ => rfl) rfl rfl rfl rfl
  pending := rfl
  incoming := rfl
  queueMetric := rfl
  inFlight := rfl
  accounts a := by
    rw [held] at a
    have front := a.perm (.refl _) perm_middle (.refl _) (.refl _)
    exact front.releaseDeferred.congr (.of_eq rfl rfl rfl rfl rfl rfl)

theorem released_releaseDeferredLoop (now : Time) (waiting : List DeferredMessage) (s : State ε)
    (kept : List DeferredMessage) (held : s.deferred = kept ++ waiting) :
    Released s (releaseDeferredLoop host now s kept waiting) := by
  induction waiting generalizing s kept with
  | nil => exact (Quiet.refl s).released
  | cons d rest ih =>
    simp only [releaseDeferredLoop]
    split
    · exact ih s (kept ++ [d]) (by rw [held,append_assoc,singleton_append])
    · generalize submission : (if isReady host s d = true then
        (submitEncoded host s d.connection d.message d.encoded false).2 else s) = m
      have quiet : Quiet s m := by
        rw [← submission]
        split
        · exact quiet_submitEncoded ..
        · exact .refl s
      exact quiet.released.trans ((released_releaseDeferred (by rw [quiet.deferred,held])).trans (ih _ kept rfl))

theorem Released.keeps (released : Released s t) : Keeps s (refreshDeferredMetric t) [] where
  balanced b := ⟨(released.accounts b.accounts).congr (.of_eq rfl rfl rfl rfl rfl rfl),fun _ => rfl,by
    change t.metrics.inFlightRequests = t.pendingRequests.size
    rw [released.inFlight,released.pending,b.inFlight]⟩
  requests _ _ r := (r.sameStory released.story released.pending).sameStory (.of_eq rfl rfl rfl rfl rfl) rfl
  queueMetric m on := by
    change t.metrics.queuedDispatchMessages = t.dispatchQueue.length
    rw [released.queueMetric,released.story.queue,m (released.story.active ▸ on)]
  toPassive := (released.story.passive fun _ member => released.incoming ▸ member).trans
    (.of_latest (.of_eq rfl rfl rfl rfl) rfl (fun _ member => member) fun _ => rfl)

theorem keeps_pumpIncoming (s : State ε) (now : Time) (maximumMessages : Nat) :
    Keeps s (pumpIncoming host s now maximumMessages).1 (pumpIncoming host s now maximumMessages).2 := by
  simp only [pumpIncoming]
  generalize (s.incomingRequests.filter fun _ r => r.acceptReply && decide (now ≥ r.replyDeadline)).keys = replies
  generalize (s.incomingRequests.filter fun _ r => decide (now ≥ r.workDeadline)).keys = work
  have expired := (keeps_quiet (quiet_expireReplies host s replies)).trans (keeps_expireWork _ work)
  have released := released_releaseDeferredLoop host now (expireWork (expireReplies host s replies) work).deferred
    (expireWork (expireReplies host s replies) work) [] rfl
  exact .frames (expired.trans released.keeps) rfl

theorem keeps_pump (s : State ε) (maximumMessages : Nat) :
    Keeps s (pump host s maximumMessages).1 (pump host s maximumMessages).2 := by
  simp only [pump]
  split
  · exact .frames (.refl s) rfl
  · exact .frames (keeps_quiet (quiet_readTime host s)) rfl

variable {rest : List QueuedMessage}

theorem sound_popFront (front : s.dispatchQueue = queued :: rest) (owed : List Nat)
    (b : Balanced s) (r : Requests s owed) :
    Balanced (popFront s queued rest) ∧ Requests (popFront s queued rest) owed := by
  have a := b.accounts
  rw [front] at a
  have out : Accounts { s with dispatchQueue := rest } (queued :: rest) s.deferred s.pendingRequests.keys
      s.incomingRequests.keys := a.congr (.of_eq rfl rfl rfl rfl rfl rfl)
  refine ⟨⟨out.releaseQueued.congr (.of_eq rfl rfl rfl rfl rfl rfl),b.deferredMetric,b.inFlight⟩,?_⟩
  have story := (recounted_releaseQueued { s with dispatchQueue := rest } queued).toSameStory
  exact r.step story.accepted story.issued.ge story.invoked (.refl _) fun key p found =>
    ⟨found,fun _ owner => owner.of_identity story.peers⟩

theorem sound_rotateFront (front : s.dispatchQueue = queued :: rest) (owed : List Nat)
    (b : Balanced s) (r : Requests s owed) :
    Balanced (rotateFront s queued rest) ∧ Requests (rotateFront s queued rest) owed := by
  have a := b.accounts
  rw [front] at a
  have moved : Accounts s ({ queued with moves := queued.moves + 1 } :: rest) s.deferred s.pendingRequests.keys
      s.incomingRequests.keys := a.replaceQueued rfl rfl
  exact ⟨⟨(moved.perm (perm_append_singleton _ rest).symm (.refl _) (.refl _) (.refl _)).congr
    (.of_eq rfl rfl rfl rfl rfl rfl),b.deferredMetric,b.inFlight⟩,
    r.step rfl le_rfl rfl (.refl _) fun _ _ found => ⟨found,fun _ owner => owner⟩⟩

theorem sound_noteDisposition {owed : List Nat} (queued : QueuedMessage) (disposition : Disposition) (b : Balanced s)
    (r : Requests s owed) :
    Balanced (noteDisposition s queued disposition) ∧ Requests (noteDisposition s queued disposition) owed :=
  ⟨⟨b.accounts.congr (.of_eq rfl rfl rfl rfl rfl rfl),b.deferredMetric,b.inFlight⟩,
    r.step rfl le_rfl rfl (.refl _) fun _ _ found => ⟨found,fun _ owner => owner⟩⟩

/-- The frame of a dispatch loop is the one that lets the metric of the queue length lag. -/
def Frame.dispatching : Frame → Bool
  | .pumpDispatch _ => true
  | _ => false

theorem sound_pumpDispatch (s : State ε) (loop : DispatchLoop) (owed : List Nat) (b : Balanced s) (r : Requests s owed) :
    Balanced (pumpDispatch host s loop).1 ∧
      Requests (pumpDispatch host s loop).1 (owedOn (pumpDispatch host s loop).2 ++ owed) := by
  have ended : Balanced (refreshQueueMetric s) ∧ Requests (refreshQueueMetric s) owed :=
    ⟨⟨b.accounts.congr (.of_eq rfl rfl rfl rfl rfl rfl),b.deferredMetric,b.inFlight⟩,
      r.sameStory (.of_eq rfl rfl rfl rfl rfl) rfl⟩
  simp only [pumpDispatch]
  split
  · rename_i queued rest front
    split
    · split
      · exact sound_rotateFront front owed b r
      · have dispatched := (dispatches_dispatch host (popFront s queued rest) queued).books
        obtain ⟨balanced,requests⟩ := sound_popFront front owed b r
        have done := sound_noteDisposition queued (dispatch host (popFront s queued rest) queued).1
          (dispatched.balanced balanced) (dispatched.requests owed balanced requests)
        simpa only [owedOn_append,owedOn_cons,owedOn_nil,Frame.owed,append_nil] using done
    · exact ended
  · exact ended

theorem dispatching_pumpDispatch (s : State ε) (loop : DispatchLoop) :
    (pumpDispatch host s loop).2.any dispatching ∨ (pumpDispatch host s loop).1 = refreshQueueMetric s := by
  simp only [pumpDispatch]
  split
  · split
    · split
      · exact .inl rfl
      · exact .inl (by simp [dispatching])
    · exact .inr rfl
  · exact .inr rfl

section
variable (s : State ε)

theorem books_enqueue {c : ConnectionId} (message : RemoteMessage) {bytes : Nat}
    (found : s.peers.find? c = some peer) (fits : receiveFits s peer bytes) :
    Books s (enqueue host s c message bytes) [] := by
  simp only [receiveFits,Bool.and_eq_true,decide_eq_true_eq] at fits
  obtain ⟨⟨⟨⟨⟨⟨_,messages⟩,small⟩,within⟩,length⟩,fit⟩,total⟩ := fits
  simp only [enqueue]
  generalize arrived : (⟨c,message,bytes,_,_⟩ : QueuedMessage) = x
  have connection : x.connection = c := by rw [← arrived]
  have size : x.encodedBytes = bytes := by rw [← arrived]
  refine (keeps_quiet (quiet_readTime host s)).toBooks.trans (.trans ?_ (keeps_observeOwnership _ c).toBooks)
  constructor
  · intro b
    have owner : (readTime host s).2.peers.find? x.connection = some peer := by rw [connection]; exact found
    have sum : s.metrics.queuedDispatchBytes + x.encodedBytes ≤ maximumQueuedRemoteDispatchBytes := by omega
    have added := b.accounts.addQueued owner messages (by omega) length sum
    rw [connection,size] at added
    exact ⟨(added.perm (perm_append_singleton x s.dispatchQueue).symm (.refl _) (.refl _) (.refl _)).congr
      (.of_eq rfl rfl rfl rfl rfl rfl),b.deferredMetric,b.inFlight⟩
  · intro owed _ r
    refine r.step rfl le_rfl rfl (.refl _) fun key p pending => ⟨pending,fun _ owner => ?_⟩
    exact owner.modify fun _ _ published => ⟨published,rfl,le_rfl⟩
  · exact fun _ _ => rfl

theorem receive_cases (c : ConnectionId) (delivery : DeliveryMode) (traffic : TrafficClass)
    (order : MessageOrder) (payload : List UInt8) : receive host s c delivery traffic order payload = (false,s) ∨
      ∃ peer message, s.peers.find? c = some peer ∧ receiveFits s peer payload.length ∧
        decodeRemoteMessage payload = .ok message ∧ metadataMatches message delivery traffic order ∧
        receive host s c delivery traffic order payload = (true,enqueue host s c message payload.length) := by
  simp only [receive]
  split
  · exact .inl rfl
  rename_i peer found
  split
  · exact .inl rfl
  rename_i fits
  split
  · exact .inl rfl
  rename_i message decoded
  split
  · exact .inl rfl
  · rename_i matching
    exact .inr ⟨peer,message,found,by simpa using fits,decoded,by simpa using matching,rfl⟩

theorem keeps_removePeer (c : ConnectionId) : Keeps s (removePeer s c).1 (removePeer s c).2 := by
  simp only [removePeer]
  exact .frames (keeps_removePeerState s c) (by simp [owed])

theorem books_handleTransportEvent (event : TransportEvent) :
    Books s (handleTransportEvent host s event).1 (handleTransportEvent host s event).2 := by
  have unchanged : ∀ result, Books s s [.finish result] := fun _ => .frames (Keeps.refl s).toBooks rfl
  simp only [handleTransportEvent]
  split
  · exact unchanged _
  split
  · exact (keeps_removePeer s _).toBooks
  · exact (keeps_removePeer s _).toBooks
  · exact unchanged _
  · exact unchanged _
  · rename_i c delivery traffic order payload
    rcases receive_cases host s c delivery traffic order payload with same | ⟨peer,message,found,fits,_,_,queued⟩
    · rw [same]
      exact unchanged _
    · rw [queued]
      exact .frames (books_enqueue host s message found fits) rfl

end

theorem keeps_cancelRequest (s : State ε) (key : PendingKey) :
    Keeps s (cancelRequest s key).1 (cancelRequest s key).2 := by
  simp only [cancelRequest]
  split
  · exact .frames (.refl s) rfl
  split
  · exact .frames (.refl s) rfl
  · exact .frames (keeps_takePending key _) (by simp [owed])

def stopped (s : State ε) : State ε := { s with active := false }

theorem dropDeferred_stopped (s : State ε) (gone : DeferredMessage → Bool) :
    dropDeferred (stopped s) gone = stopped (dropDeferred s gone) := by
  have each : ∀ (released : List DeferredMessage) (m : State ε),
      released.foldl releaseDeferred (stopped m) = stopped (released.foldl releaseDeferred m) := by
    intro released
    induction released with
    | nil => exact fun _ => rfl
    | cons d rest ih => exact fun m => ih (releaseDeferred m d)
  exact each (s.deferred.filter gone) { s with deferred := s.deferred.filter fun d => !gone d }

theorem takePending_stopped (s : State ε) (key : PendingKey) (result : RemoteRequestResult) :
    takePending (stopped s) key result = ((takePending s key result).1,stopped (takePending s key result).2) := by
  cases found : s.pendingRequests.find? key with
  | none => rw [takePending_absent found,takePending_absent (s := stopped s) found]
  | some p =>
    rw [takePending_eq result found,takePending_eq (s := stopped s) result found]
    simp only [takenState]
    rw [dropDeferred_stopped]
    rfl

theorem takeAll_stopped (status : RemoteRequestTerminalStatus) (keys : List PendingKey) (s : State ε) :
    takeAll status (stopped s) keys = ((takeAll status s keys).1,stopped (takeAll status s keys).2) := by
  induction keys generalizing s with
  | nil => rfl
  | cons key rest ih => simp only [takeAll,takePending_stopped,ih]

theorem keeps_destroy (s : State ε) : Keeps s (destroy s).1 (destroy s).2 := by
  have taken := taken_takeAll (s := s) .disconnected s.pendingRequests.keys
  have none : (takeAll .disconnected s s.pendingRequests.keys).2.pendingRequests = ∅ := by
    refine ext_find? fun key => ?_
    rw [taken.pending]
    split_ifs with member
    · rfl
    · cases found : s.pendingRequests.find? key with
      | none => rfl
      | some p => exact absurd (mem_keys.mpr ⟨p,found⟩) member
  have ends : takeAll .disconnected { s with active := false } s.pendingRequests.keys = _ :=
    takeAll_stopped .disconnected s.pendingRequests.keys s
  simp only [destroy,ends]
  generalize takeAll .disconnected s s.pendingRequests.keys = ended at taken none
  have kept := taken.keeps
  refine ⟨⟨?_,?_,?_⟩,?_⟩
  · intro b
    have a := (kept.balanced b).accounts
    have inFlight := (kept.balanced b).inFlight
    have outgoing : ended.2.pendingRequests.keys = [] := by rw [none]; rfl
    have empty := Accounts.nothing (s := { ended.2 with
        active := false, peers := ∅, incomingRequests := ∅, dispatchQueue := [], deferred := []
        history := { ended.2.history with dropped := ended.2.history.dropped ++ ended.2.dispatchQueue } })
      rfl nofun nofun a.noUnderflow a.noViolation
    refine ⟨?_,nofun,inFlight⟩
    change Accounts _ [] [] ended.2.pendingRequests.keys []
    rwa [outgoing]
  · intro owed b r
    refine (kept.toBooks.requests owed b r).step rfl le_rfl rfl (.refl _) fun key p found => ?_
    change ended.2.pendingRequests.find? key = some p at found
    rw [none] at found
    cases found
  · exact fun _ => nofun
  · refine kept.toPassive.trans ⟨.of_filter (fun _ => true) rfl rfl (by simp) (by simp [stopped]),rfl,nofun,?_⟩
    exact fun _ _ found => nomatch found

end
end Gargantuan.RemoteManager
