import Gargantuan.RemoteManager

/-!
What the sending and admission functions leave alone. `Quiet` relates two states that
differ at most in the environment, the rate windows, the condemned connections, the
Remotes and the handlers. All of `SendMessage` is quiet unless it parks its message.
-/
namespace Gargantuan.RemoteManager
open Option SortedMap History PeerState

def PeerState.books (p : PeerState) : PeerState :=
  { p with rateWindow := {}, totalCalls := 0, callsByRemote := ∅ }

def PeerState.identity (p : PeerState) : PeerState :=
  { p.books with concurrentHandlers := 0, pendingOutgoingRequests := 0, queuedDispatchMessages := 0
                 queuedDispatchBytes := 0, deferredReliableBytes := 0 }

variable {p : PeerState}

theorem identity_parts {q : PeerState} (same : q.identity = p.identity) :
    q.publishedRemotes = p.publishedRemotes ∧ q.publications = p.publications ∧ q.nextRequest = p.nextRequest := by
  have published := congrArg publishedRemotes same
  have publications := congrArg publications same
  have next := congrArg nextRequest same
  exact ⟨published,publications,next⟩

def History.core (h : History) : History := { h with sent := [] }

def History.story (h : History) : History := { h with sent := [], underflowed := false }

section
variable {ε : Type}

structure Quiet (s t : State ε) : Prop where
  active : t.active = s.active
  pending : t.pendingRequests = s.pendingRequests
  incoming : t.incomingRequests.keys = s.incomingRequests.keys
  queue : t.dispatchQueue = s.dispatchQueue
  deferred : t.deferred = s.deferred
  metrics : t.metrics = s.metrics
  history : t.history.core = s.history.core
  generations : t.highestPeerGeneration = s.highestPeerGeneration
  peers : ∀ c, (t.peers.find? c).map PeerState.books = (s.peers.find? c).map PeerState.books

variable {c : ConnectionId} {f : PeerState → PeerState}

namespace Quiet
variable {s t u : State ε}

@[refl] theorem refl (s : State ε) : Quiet s s := ⟨rfl,rfl,rfl,rfl,rfl,rfl,rfl,rfl,fun _ => rfl⟩

theorem trans (first : Quiet s t) (second : Quiet t u) : Quiet s u where
  active := second.active.trans first.active
  pending := second.pending.trans first.pending
  incoming := second.incoming.trans first.incoming
  queue := second.queue.trans first.queue
  deferred := second.deferred.trans first.deferred
  metrics := second.metrics.trans first.metrics
  history := second.history.trans first.history
  generations := second.generations.trans first.generations
  peers c := (second.peers c).trans (first.peers c)

theorem of_samePeers (peers : t.peers = s.peers) (active : t.active = s.active)
    (pending : t.pendingRequests = s.pendingRequests) (incoming : t.incomingRequests = s.incomingRequests)
    (queue : t.dispatchQueue = s.dispatchQueue) (deferred : t.deferred = s.deferred) (metrics : t.metrics = s.metrics)
    (history : t.history.core = s.history.core) (generations : t.highestPeerGeneration = s.highestPeerGeneration) :
    Quiet s t :=
  ⟨active,pending,by rw [incoming],queue,deferred,metrics,history,generations,fun c => by rw [peers]⟩

theorem modifyPeer (s : State ε) (c : ConnectionId)
    (keeps : ∀ p, (f p).books = p.books) : Quiet s { s with peers := s.peers.modify c f } := by
  refine ⟨rfl,rfl,rfl,rfl,rfl,rfl,rfl,rfl,fun c' => ?_⟩
  rw [find?_modify]
  split_ifs
  · rw [map_map]
    exact map_congr fun p _ => keeps p
  · rfl

theorem modifyIncoming (s : State ε) (key : PendingKey) (f : IncomingRequest → IncomingRequest) :
    Quiet s { s with incomingRequests := s.incomingRequests.modify key f } := by
  exact ⟨rfl,rfl,keys_modify ..,rfl,rfl,rfl,rfl,rfl,fun _ => rfl⟩

theorem peer (quiet : Quiet s t) (found : s.peers.find? c = some p) :
    ∃ q, t.peers.find? c = some q ∧ q.books = p.books := by
  have here := quiet.peers c
  rw [found] at here
  exact map_eq_some_iff.mp here

theorem peer_of (quiet : Quiet s t) {q : PeerState} (found : t.peers.find? c = some q) :
    ∃ p, s.peers.find? c = some p ∧ q.books = p.books := by
  have here := quiet.peers c
  rw [found] at here
  obtain ⟨p,before,same⟩ := map_eq_some_iff.mp here.symm
  exact ⟨p,before,same.symm⟩

end Quiet

structure SameStory (s t : State ε) : Prop where
  active : t.active = s.active
  queue : t.dispatchQueue = s.dispatchQueue
  history : t.history.story = s.history.story
  generations : t.highestPeerGeneration = s.highestPeerGeneration
  peers : ∀ c, (t.peers.find? c).map PeerState.identity = (s.peers.find? c).map PeerState.identity

theorem map_of_map {α β : Type} {project : PeerState → α} {p q : Option PeerState}
    (same : p.map project = q.map project) (g : α → β) :
    p.map (fun x => g (project x)) = q.map fun x => g (project x) := by
  simpa only [map_map,Function.comp_def] using congrArg (Option.map g) same

namespace SameStory
variable {s t u : State ε}

@[refl] theorem refl (s : State ε) : SameStory s s := ⟨rfl,rfl,rfl,rfl,fun _ => rfl⟩

theorem trans (first : SameStory s t) (second : SameStory t u) : SameStory s u where
  active := second.active.trans first.active
  queue := second.queue.trans first.queue
  history := second.history.trans first.history
  generations := second.generations.trans first.generations
  peers c := (second.peers c).trans (first.peers c)

theorem of_eq (peers : t.peers = s.peers) (active : t.active = s.active) (queue : t.dispatchQueue = s.dispatchQueue)
    (history : t.history.story = s.history.story) (generations : t.highestPeerGeneration = s.highestPeerGeneration) :
    SameStory s t :=
  ⟨active,queue,history,generations,fun c => by rw [peers]⟩

theorem of_modify (peers : t.peers = s.peers.modify c f)
    (keeps : ∀ p, (f p).identity = p.identity) (active : t.active = s.active)
    (queue : t.dispatchQueue = s.dispatchQueue) (history : t.history.story = s.history.story)
    (generations : t.highestPeerGeneration = s.highestPeerGeneration) : SameStory s t := by
  refine ⟨active,queue,history,generations,fun c' => ?_⟩
  rw [peers,find?_modify]
  split_ifs
  · rw [map_map]
    exact map_congr fun p _ => keeps p
  · rfl

variable (same : SameStory s t)
include same

theorem issued : t.history.issued = s.history.issued := by
  have h := congrArg History.issued same.history
  exact h

theorem accepted : t.history.accepted = s.history.accepted := by
  have h := congrArg History.accepted same.history
  exact h

theorem invoked : t.history.invoked = s.history.invoked := by
  have h := congrArg History.invoked same.history
  exact h

theorem peer (found : s.peers.find? c = some p) :
    ∃ q, t.peers.find? c = some q ∧ q.identity = p.identity := by
  have here := same.peers c
  rw [found] at here
  exact map_eq_some_iff.mp here

end SameStory

theorem Quiet.sameStory {s t : State ε} (quiet : Quiet s t) : SameStory s t where
  active := quiet.active
  queue := quiet.queue
  history := congrArg (fun h : History => { h with underflowed := false }) quiet.history
  generations := quiet.generations
  peers c := map_of_map (quiet.peers c) fun p => ({ p with
    concurrentHandlers := 0, pendingOutgoingRequests := 0, queuedDispatchMessages := 0, queuedDispatchBytes := 0
    deferredReliableBytes := 0 } : PeerState)

structure Thinned (s t : State ε) : Prop where
  received : t.history.received = s.history.received
  dispatched : t.history.dispatched = s.history.dispatched
  queue : ∃ gone, s.dispatchQueue.Perm (gone ++ t.dispatchQueue) ∧ t.dispatchQueue.Sublist s.dispatchQueue ∧
    t.history.dropped = s.history.dropped ++ gone

structure Passive (s t : State ε) : Prop extends Thinned s t where
  dispositions : t.history.dispositions = s.history.dispositions
  incoming : ∀ key ∈ t.incomingRequests.keys, key ∈ s.incomingRequests.keys
  latest : ∀ c q, t.peers.find? c = some q →
    (∃ p, s.peers.find? c = some p ∧ q.latestIncomingRequest = p.latestIncomingRequest) ∨
      (q.latestIncomingRequest = {} ∧ ∀ key ∈ t.incomingRequests.keys, key.connection ≠ c)

namespace Thinned
variable {s t u : State ε}

theorem of_eq (received : t.history.received = s.history.received)
    (dispatched : t.history.dispatched = s.history.dispatched) (queue : t.dispatchQueue = s.dispatchQueue)
    (dropped : t.history.dropped = s.history.dropped) : Thinned s t :=
  ⟨received,dispatched,[],by rw [queue]; exact .refl _,by rw [queue],by rw [dropped,List.append_nil]⟩

theorem trans (first : Thinned s t) (second : Thinned t u) : Thinned s u where
  received := second.received.trans first.received
  dispatched := second.dispatched.trans first.dispatched
  queue := by
    obtain ⟨gone,split,sub,dropped⟩ := first.queue
    obtain ⟨later,split',sub',dropped'⟩ := second.queue
    refine ⟨gone ++ later,?_,sub'.trans sub,by rw [dropped',dropped,List.append_assoc]⟩
    rw [List.append_assoc]
    exact split.trans (split'.append_left gone)

theorem of_filter (gone : QueuedMessage → Bool) (received : t.history.received = s.history.received)
    (dispatched : t.history.dispatched = s.history.dispatched)
    (queue : t.dispatchQueue = s.dispatchQueue.filter fun q => !gone q)
    (dropped : t.history.dropped = s.history.dropped ++ s.dispatchQueue.filter gone) : Thinned s t :=
  ⟨received,dispatched,s.dispatchQueue.filter gone,by rw [queue]; exact (List.filter_append_perm gone _).symm,
    by rw [queue]; exact List.filter_sublist,dropped⟩

end Thinned

namespace Passive
variable {s t u : State ε}

theorem of_latest (thinned : Thinned s t) (dispositions : t.history.dispositions = s.history.dispositions)
    (incoming : ∀ key ∈ t.incomingRequests.keys, key ∈ s.incomingRequests.keys)
    (latest : ∀ c, (t.peers.find? c).map latestIncomingRequest =
      (s.peers.find? c).map latestIncomingRequest) : Passive s t where
  toThinned := thinned
  dispositions := dispositions
  incoming := incoming
  latest c q found := by
    have here := latest c
    rw [found] at here
    obtain ⟨p,before,same⟩ := map_eq_some_iff.mp here.symm
    exact .inl ⟨p,before,same.symm⟩

@[refl] theorem refl (s : State ε) : Passive s s :=
  of_latest (.of_eq rfl rfl rfl rfl) rfl (fun _ member => member) fun _ => rfl

theorem trans (first : Passive s t) (second : Passive t u) : Passive s u where
  toThinned := first.toThinned.trans second.toThinned
  dispositions := second.dispositions.trans first.dispositions
  incoming key member := first.incoming key (second.incoming key member)
  latest c q found := by
    rcases second.latest c q found with ⟨p,middle,same⟩ | fresh
    · rcases first.latest c p middle with ⟨o,before,equal⟩ | ⟨none,foreign⟩
      · exact .inl ⟨o,before,same.trans equal⟩
      · exact .inr ⟨same.trans none,fun key member => foreign key (second.incoming key member)⟩
    · exact .inr fresh

end Passive

theorem Quiet.passive {s t : State ε} (quiet : Quiet s t) : Passive s t := by
  have received := congrArg received quiet.history
  have dispatched := congrArg dispatched quiet.history
  have dropped := congrArg dropped quiet.history
  have dispositions := congrArg dispositions quiet.history
  exact .of_latest (.of_eq received dispatched quiet.queue dropped) dispositions
    (fun _ member => quiet.incoming ▸ member) fun c => map_of_map (quiet.peers c) latestIncomingRequest

theorem SameStory.passive {s t : State ε} (same : SameStory s t)
    (incoming : ∀ key ∈ t.incomingRequests.keys, key ∈ s.incomingRequests.keys) : Passive s t := by
  have received := congrArg received same.history
  have dispatched := congrArg dispatched same.history
  have dropped := congrArg dropped same.history
  have dispositions := congrArg dispositions same.history
  exact .of_latest (.of_eq received dispatched same.queue dropped) dispositions incoming fun c =>
    map_of_map (same.peers c) latestIncomingRequest

/-- Only counters, totals and the underflow flag may differ. -/
structure Recounted (s t : State ε) : Prop extends SameStory s t where
  pending : t.pendingRequests = s.pendingRequests
  incoming : t.incomingRequests = s.incomingRequests
  deferred : t.deferred = s.deferred
  queueMetric : t.metrics.queuedDispatchMessages = s.metrics.queuedDispatchMessages
  deferredMetric : t.metrics.deferredReliableMessages = s.metrics.deferredReliableMessages
  inFlight : t.metrics.inFlightRequests = s.metrics.inFlightRequests

namespace Recounted
variable {s t u : State ε}

@[refl] theorem refl (s : State ε) : Recounted s s := ⟨.refl s,rfl,rfl,rfl,rfl,rfl,rfl⟩

theorem trans (first : Recounted s t) (second : Recounted t u) : Recounted s u where
  toSameStory := first.toSameStory.trans second.toSameStory
  pending := second.pending.trans first.pending
  incoming := second.incoming.trans first.incoming
  deferred := second.deferred.trans first.deferred
  queueMetric := second.queueMetric.trans first.queueMetric
  deferredMetric := second.deferredMetric.trans first.deferredMetric
  inFlight := second.inFlight.trans first.inFlight

end Recounted

theorem recounted_releaseQueued (s : State ε) (q : QueuedMessage) : Recounted s (releaseQueued s q) :=
  ⟨.of_modify rfl (fun _ => rfl) rfl rfl rfl rfl,rfl,rfl,rfl,rfl,rfl,rfl⟩

theorem recounted_releaseDeferred (s : State ε) (d : DeferredMessage) : Recounted s (releaseDeferred s d) :=
  ⟨.of_modify rfl (fun _ => rfl) rfl rfl rfl rfl,rfl,rfl,rfl,rfl,rfl,rfl⟩

theorem recounted_foldl {α : Type} {f : State ε → α → State ε} (each : ∀ s x, Recounted s (f s x)) (xs : List α)
    (s : State ε) : Recounted s (xs.foldl f s) := by
  induction xs generalizing s with
  | nil => exact .refl s
  | cons x rest ih => exact (each s x).trans (ih _)

variable (host : Host ε) (s : State ε)

theorem quiet_readTime : Quiet s (readTime host s).2 :=
  .of_samePeers rfl rfl rfl rfl rfl rfl rfl rfl rfl

theorem quiet_admitManagerCall : Quiet s (admitManagerCall host s).2 := by
  refine (quiet_readTime host s).trans ?_
  simp only [admitManagerCall]
  split_ifs <;> exact .of_samePeers rfl rfl rfl rfl rfl rfl rfl rfl rfl

theorem quiet_admitGeneratedReliable (bytes : Nat) : Quiet s (admitGeneratedReliable host s bytes).2 := by
  refine (quiet_readTime host s).trans ?_
  simp only [admitGeneratedReliable]
  split_ifs <;> exact .of_samePeers rfl rfl rfl rfl rfl rfl rfl rfl rfl

theorem books_restartPeerWindow (now : Time) (p : PeerState) : (restartPeerWindow now p).books = p.books := by
  simp only [restartPeerWindow]
  split_ifs <;> rfl

variable (c : ConnectionId)

theorem quiet_admitPeerCall (remote : ObjectId) : Quiet s (admitPeerCall host s c remote).2 := by
  refine (quiet_readTime host s).trans ((Quiet.modifyPeer _ c (books_restartPeerWindow (readTime host s).1)).trans ?_)
  simp only [admitPeerCall]
  split
  · exact .refl _
  · split_ifs
    · exact .refl _
    · exact .modifyPeer _ c fun p => rfl

theorem quiet_admitCall (remote : ObjectId) : Quiet s (admitCall host s c remote).2 := by
  have manager := quiet_admitManagerCall host s
  simp only [admitCall]
  split
  · rename_i admitted
    rwa [admitted] at manager
  · rename_i admitted
    rw [admitted] at manager
    exact manager.trans (quiet_admitPeerCall ..)

theorem quiet_condemn (terminal : Option DisconnectInfo) : Quiet s (condemn s c terminal) := by
  cases terminal with
  | none => exact .refl _
  | some info =>
    simp only [condemn]
    split_ifs <;> exact .of_samePeers rfl rfl rfl rfl rfl rfl rfl rfl rfl

theorem quiet_submitIntent (delivery : DeliveryMode) (intent : NetworkMessageIntent) :
    Quiet s (submitIntent host s c delivery intent).2 := by
  have submitted : Quiet s { s with environment := (host.submit s.environment intent).2 } :=
    .of_samePeers rfl rfl rfl rfl rfl rfl rfl rfl rfl
  simp only [submitIntent]
  split_ifs
  · exact submitted
  · exact submitted.trans (quiet_condemn ..)
  · exact submitted

section
variable (message : RemoteMessage)

theorem quiet_noteSent (result : RemoteSendResult) : Quiet s (noteSent s c message result) := by
  simp only [noteSent]
  split_ifs <;> exact .of_samePeers rfl rfl rfl rfl rfl rfl rfl rfl rfl

theorem submitEncoded_cases (encoded : List UInt8) (allow : Bool) :
    Quiet s (submitEncoded host s c message encoded allow).2 ∨
      ∃ peer missing, allow ∧ s.peers.find? c = some peer ∧ deferralFits s peer encoded.length ∧
        submitEncoded host s c message encoded allow =
          ({ status := .deferredForMaterialization },deferMessage host s c message encoded missing) := by
  simp only [submitEncoded]
  split
  · exact .inl (.refl _)
  · rename_i peer found
    split
    · exact .inl (.refl _)
    · split
      · exact .inl (.refl _)
      · exact .inl (quiet_submitIntent ..)
    · rename_i missing _ _
      split_ifs with refused full
      · exact .inl (.refl _)
      · exact .inl (.refl _)
      · refine .inr ⟨peer,missing,?_,found,by simpa using full,rfl⟩
        simp only [Bool.or_eq_true,Bool.not_eq_true',not_or,Bool.not_eq_false] at refused
        exact refused.1

theorem quiet_submitEncoded (encoded : List UInt8) : Quiet s (submitEncoded host s c message encoded false).2 := by
  rcases submitEncoded_cases host s c message encoded false with quiet | ⟨_,_,allowed,_⟩
  · exact quiet
  · cases allowed

theorem sendMessage_cases (allow : Bool) : Quiet s (sendMessage host s c message allow).2 ∨
      ∃ m peer message' encoded missing, allow ∧ Quiet s m ∧ m.peers.find? c = some peer ∧
        deferralFits m peer encoded.length ∧
        Quiet (deferMessage host m c message' encoded missing) (sendMessage host s c message allow).2 := by
  simp only [sendMessage]
  split
  · exact .inl (.refl _)
  split
  · exact .inl (.refl _)
  rename_i publication _
  split
  · exact .inl (.refl _)
  rename_i encoded _
  generalize admission : (if isGenerated ({ message with publication := publication } : RemoteMessage).kind = true then
    admitGeneratedReliable host s encoded.length else (true,s)) = admitted
  have quiet : Quiet s admitted.2 := by
    rw [← admission]
    split_ifs
    · exact quiet_admitGeneratedReliable ..
    · exact .refl _
  split_ifs
  · exact .inl quiet
  · rcases submitEncoded_cases host admitted.2 c { message with publication } encoded allow with
      submitted | ⟨peer,missing,allowed,found,fits,parked⟩
    · exact .inl (quiet.trans (submitted.trans (quiet_noteSent ..)))
    · refine .inr ⟨admitted.2,peer,{ message with publication },encoded,missing,allowed,quiet,found,fits,?_⟩
      rw [parked]
      dsimp only
      exact quiet_noteSent ..

theorem quiet_sendMessage : Quiet s (sendMessage host s c message false).2 := by
  rcases sendMessage_cases host s c message false with quiet | ⟨_,_,_,_,_,allowed,_⟩
  · exact quiet
  · cases allowed

theorem quiet_rejectRequest (code text : String) : Quiet s (rejectRequest host s c message code text) := by
  simp only [rejectRequest]
  split_ifs
  · exact .refl _
  · exact quiet_sendMessage ..

end

theorem quiet_replyInTime (incoming : IncomingRequest) : Quiet s (replyInTime host s incoming).2 ∧
      (replyInTime host s incoming).2.incomingRequests = s.incomingRequests := by
  simp only [replyInTime]
  split_ifs
  · exact ⟨quiet_readTime host s,rfl⟩
  · exact ⟨.refl _,rfl⟩

theorem quiet_answerUnavailable (key : PendingKey) (incoming : IncomingRequest) :
    Quiet s (answerUnavailable host s key incoming) := by
  simp only [answerUnavailable]
  split_ifs
  · exact quiet_sendMessage ..
  · exact .refl _

theorem quiet_expireReplies (keys : List PendingKey) : Quiet s (expireReplies host s keys) := by
  induction keys generalizing s with
  | nil => exact .refl _
  | cons key rest ih =>
    simp only [expireReplies]
    split
    · exact ih _
    · exact (Quiet.modifyIncoming s key _).trans ((quiet_sendMessage ..).trans (ih _))

end
end Gargantuan.RemoteManager
