import Gargantuan.RemoteBalance

/-!
The operations that add and remove peers, Remotes and publications keep the books, and
hand the completions of the requests they end to the frames that run them.
-/
namespace Gargantuan.RemoteManager
open SortedMap Option PeerState Nat Keeps MonotonicSequence AcceptedRequest QueuedMessage

variable {α : Type}

theorem sum_filter_split (weight : α → Nat) (p : α → Bool) (items : List α) :
    ((items.filter p).map weight).sum + ((items.filter fun x => !p x).map weight).sum = (items.map weight).sum := by
  rw [← List.sum_append,← List.map_append,((List.filter_append_perm p items).map weight).sum_nat]

variable {next : RemoteRequestId}

section
variable {ε : Type} {s t : State ε}

private theorem filter_ne (owner : α → ConnectionId) (c : ConnectionId) (items : List α) :
    (items.filter fun x => decide (owner x ≠ c)) = items.filter fun x => owner x != c :=
  List.filter_congr fun x _ => by simp [bne,Bool.beq_eq_decide_eq]

theorem Accounts.forgetPeer {queue : List QueuedMessage} {deferred : List DeferredMessage}
    {outgoing handlers : List PendingKey} (a : Accounts s queue deferred outgoing handlers) (c : ConnectionId)
    (peers : t.peers = s.peers.erase c) (active : t.active = s.active)
    (queueTotal : s.active → t.metrics.queuedDispatchBytes =
      ((queue.filter fun q => q.connection != c).map encodedBytes).sum)
    (deferredTotal : s.active → t.metrics.deferredReliableBytes =
      ((deferred.filter fun d => d.connection != c).map fun d => d.encoded.length).sum)
    (violations : t.metrics.boundViolations = s.metrics.boundViolations) (noUnderflow : t.history.underflowed = false) :
    Accounts t (queue.filter fun q => q.connection != c) (deferred.filter fun d => d.connection != c)
      (outgoing.filter fun key => key.connection != c) (handlers.filter fun key => key.connection != c) where
  live c' p found := by
    rw [peers,find?_erase] at found
    split_ifs at found
    rw [active,a.live c' p found]
  queueMessages := by rw [peers,← filter_ne]; exact a.queueMessages.erase c
  queueBytes := by rw [peers,← filter_ne]; exact a.queueBytes.erase c
  deferredBytes := by rw [peers,← filter_ne]; exact a.deferredBytes.erase c
  requests := by rw [peers,← filter_ne]; exact a.requests.erase c
  running := by rw [peers,← filter_ne]; exact a.running.erase c
  queueTotal on := queueTotal (active ▸ on)
  deferredTotal on := deferredTotal (active ▸ on)
  noUnderflow := noUnderflow
  noViolation := violations.trans a.noViolation
  limits c' p found := by
    rw [peers,find?_erase] at found
    split_ifs at found
    exact a.limits c' p found
  queueLength := (List.length_filter_le ..).trans a.queueLength
  queueSum := (le_of_add_right_le (sum_filter_split _ _ queue).le).trans a.queueSum
  deferredLength := (List.length_filter_le ..).trans a.deferredLength
  deferredSum := (le_of_add_right_le (sum_filter_split _ _ deferred).le).trans a.deferredSum
  outgoingLength := (List.length_filter_le ..).trans a.outgoingLength
  handlersLength := (List.length_filter_le ..).trans a.handlersLength

def forgotten (s : State ε) (c : ConnectionId) : State ε :=
  let s := { s with incomingRequests := s.incomingRequests.filter fun key _ => key.connection != c }
  let s := refreshQueueMetric (refreshDeferredMetric (forgetDeferred (forgetQueued s c) c))
  { s with peers := s.peers.erase c }

private theorem sizeSub_filter (weight : α → Nat) (p : α → Bool) {items : List α} {total : Nat}
    (all : total = (items.map weight).sum) :
    ((items.filter p).map weight).foldl sizeSub total = ((items.filter fun x => !p x).map weight).sum ∧
      ((items.filter p).map weight).sum ≤ total := by
  have split := sum_filter_split weight p items
  have covered : ((items.filter p).map weight).sum ≤ total := by omega
  exact ⟨by rw [foldl_sizeSub covered]; omega,covered⟩

variable {c : ConnectionId} {peer : PeerState} {peers : SortedMap ConnectionId PeerState} {remote : ObjectId}
  {f : PeerState → PeerState}

theorem balanced_forgotten (b : Balanced s) (found : s.peers.find? c = some peer)
    (noRequests : ∀ key ∈ s.pendingRequests.keys, key.connection ≠ c) : Balanced (forgotten s c) := by
  have on := b.accounts.live c peer found
  obtain ⟨queueBytes,queueCovered⟩ :=
    sizeSub_filter encodedBytes (fun q => q.connection == c) (b.accounts.queueTotal on)
  obtain ⟨deferredBytes,deferredCovered⟩ :=
    sizeSub_filter (fun d : DeferredMessage => d.encoded.length) (fun d => d.connection == c) (b.accounts.deferredTotal on)
  have underflowed : (forgotten s c).history.underflowed = false := by
    simp only [forgotten,refreshQueueMetric,refreshDeferredMetric,forgetDeferred,forgetQueued,
      b.accounts.noUnderflow,Bool.false_or,Bool.or_eq_false_iff,decide_eq_false_iff_not,not_lt]
    exact ⟨queueCovered,deferredCovered⟩
  have forgot := b.accounts.forgetPeer (t := forgotten s c) c rfl rfl (fun _ => queueBytes) (fun _ => deferredBytes) rfl
    underflowed
  have outgoing : (s.pendingRequests.keys.filter fun key => key.connection != c) = s.pendingRequests.keys :=
    List.filter_eq_self.mpr fun key member => by simpa using noRequests key member
  rw [outgoing] at forgot
  exact ⟨forgot.perm (.refl _) (.refl _) (.refl _) (.of_eq (keys_filter ..).symm),fun _ => rfl,b.inFlight⟩

theorem removePeerState_eq (found : s.peers.find? c = some peer) : removePeerState s c =
      (true,(takeAll .disconnected s (pendingKeys s fun key _ => key.connection == c)).1,
        forgotten (takeAll .disconnected s (pendingKeys s fun key _ => key.connection == c)).2 c) := by
  simp only [removePeerState,found,forgotten]

variable {key : PendingKey}

theorem mem_pendingKeys {selected : PendingKey → PendingRequest → Bool} :
    key ∈ pendingKeys s selected ↔ ∃ p, s.pendingRequests.find? key = some p ∧ selected key p := by
  rw [pendingKeys,mem_keys,find?_filter]
  simp [filter_eq_some_iff]

theorem keeps_forgotten (found : s.peers.find? c = some peer)
    (noRequests : ∀ key ∈ s.pendingRequests.keys, key.connection ≠ c) : Keeps s (forgotten s c) [] where
  balanced b := balanced_forgotten b found noRequests
  requests owed _ r := by
    refine r.step rfl le_rfl rfl (.refl _) fun key p pending => ⟨pending,fun publication owner => ?_⟩
    have other : key.connection ≠ c := noRequests key (mem_keys.mpr ⟨p,pending⟩)
    refine ⟨?_⟩
    change ∃ q, (s.peers.erase c).find? key.connection = some q ∧ _
    rw [find?_erase,if_neg other]
    exact owner.exists_peer
  queueMetric _ _ := rfl
  toThinned := .of_filter (fun q => q.connection == c) rfl rfl rfl rfl
  dispositions := rfl
  incoming key member := by
    change key ∈ (s.incomingRequests.filter fun key _ => key.connection != c).keys at member
    rw [keys_filter] at member
    exact (List.mem_filter.mp member).1
  latest c' q here := by
    change (s.peers.erase c).find? c' = some q at here
    rw [find?_erase] at here
    split_ifs at here
    exact .inl ⟨q,here,rfl⟩

theorem keeps_removePeerState (s : State ε) (c : ConnectionId) :
    Keeps s (removePeerState s c).2.2 [.completions (removePeerState s c).2.1] := by
  cases found : s.peers.find? c with
  | none =>
    simp only [removePeerState,found]
    exact (refl s).frames rfl
  | some peer =>
    rw [removePeerState_eq found]
    have taken := taken_takeAll (s := s) .disconnected (pendingKeys s fun key _ => key.connection == c)
    obtain ⟨q,still,_⟩ := taken.story.peer found
    refine taken.keeps.andThen (keeps_forgotten still fun key member here => ?_)
    obtain ⟨p,pending⟩ := mem_keys.mp member
    rw [taken.pending] at pending
    split_ifs at pending with gone
    exact gone (mem_pendingKeys.mpr ⟨p,pending,by simpa using here⟩)

theorem keeps_dropMessages (s : State ε) (goneQueued : QueuedMessage → Bool) (goneDeferred : DeferredMessage → Bool) :
    Keeps s (dropMessages s goneQueued goneDeferred) [] := by
  have queued := recounted_dropQueued s goneQueued
  have deferred := recounted_dropDeferred (dropQueued s goneQueued) goneDeferred
  have pending : (dropMessages s goneQueued goneDeferred).pendingRequests = s.pendingRequests :=
    deferred.pending.trans queued.pending
  have incoming : (dropMessages s goneQueued goneDeferred).incomingRequests = s.incomingRequests :=
    deferred.incoming.trans queued.incoming
  refine ⟨⟨?_,?_,?_⟩,?_⟩
  · intro b
    have released := accounts_dropQueued b.accounts goneQueued
    have untouched : (dropQueued s goneQueued).deferred = s.deferred := queued.deferred
    rw [← untouched] at released
    have dropped := accounts_dropDeferred released goneDeferred
    refine ⟨dropped.whole (.of_eq rfl rfl rfl rfl rfl rfl) (deferred.queue.trans queued.queue) rfl ?_ ?_,fun _ => rfl,?_⟩
    · rw [pending]
    · rw [incoming]
    · exact (deferred.inFlight.trans queued.inFlight).trans (b.inFlight.trans (congrArg SortedMap.size pending.symm))
  · intro owed _ r
    refine r.step (deferred.accepted.trans queued.accepted) (deferred.issued.trans queued.issued).ge
      (deferred.invoked.trans queued.invoked) (by rw [pending]; rfl) fun key p found => ⟨pending ▸ found,fun _ owner => ?_⟩
    exact (owner.of_identity queued.peers).of_identity deferred.peers
  · exact fun _ _ => rfl
  · have gone : Passive s (withoutGone s goneQueued) :=
      .of_latest (.of_filter goneQueued rfl rfl rfl rfl) rfl (fun _ member => member) fun _ => rfl
    have after := (queued.toSameStory.passive fun _ member => queued.incoming ▸ member).trans
      ((sameStory_dropDeferred (dropQueued s goneQueued) goneDeferred).passive fun _ member => deferred.incoming ▸ member)
    exact gone.trans (after.trans (.of_latest (.of_eq rfl rfl rfl rfl) rfl (fun _ member => member) fun _ => rfl))

theorem keeps_withdrawn {m : State ε} (selected : PendingKey → PendingRequest → Bool)
    {completions : List PendingCompletion} (books : SameBooks s m) (pending : m.pendingRequests = s.pendingRequests)
    (incoming : m.incomingRequests = s.incomingRequests) (queue : m.dispatchQueue = s.dispatchQueue)
    (deferred : m.deferred = s.deferred) (metrics : m.metrics = s.metrics) (history : m.history = s.history)
    (owners : ∀ key p, selected key p = false → ∀ publication, Owner s.peers key p.remote publication →
      Owner m.peers key p.remote publication) (latest : ∀ c, (m.peers.find? c).map latestIncomingRequest =
      (s.peers.find? c).map latestIncomingRequest)
    (taken : Taken m t (pendingKeys m selected) completions) : Keeps s t [.completions completions] := by
  refine ⟨⟨?_,?_,?_⟩,?_⟩
  · intro b
    refine taken.balanced ⟨?_,fun on => ?_,?_⟩
    · rw [queue,deferred,pending,incoming]
      exact b.accounts.congr books
    · rw [metrics,deferred,b.deferredMetric (books.active ▸ on)]
    · rw [metrics,pending,b.inFlight]
  · intro owed _ r
    refine r.step (by rw [taken.story.accepted,history]) (by rw [taken.story.issued,history])
      (by rw [taken.story.invoked,history]) ?_ ?_
    · have moved := (taken.owed.append_left owed).trans (List.perm_append_comm_assoc owed (owedBy completions) _)
      rw [pending] at moved
      simpa [Frame.owed,List.append_assoc] using moved
    · intro key p found
      rw [taken.pending] at found
      split_ifs at found with other
      have unselected : selected key p = false := by
        by_contra chosen
        exact other (mem_pendingKeys.mpr ⟨p,found,by simpa using chosen⟩)
      exact ⟨pending ▸ found,fun _ owner => (owners key p unselected _ owner).sameStory taken.story⟩
  · intro metric on
    rw [taken.queueMetric,taken.story.queue,metrics,queue]
    exact metric (books.active ▸ taken.story.active ▸ on)
  · have kept : Passive s m := .of_latest (.of_eq (by rw [history]) (by rw [history]) queue (by rw [history]))
      (by rw [history]) (fun _ member => incoming ▸ member) latest
    exact kept.trans taken.keeps.toPassive

theorem latest_modify (s : State ε) (c : ConnectionId) (f : PeerState → PeerState)
    (same : ∀ p, (f p).latestIncomingRequest = p.latestIncomingRequest) (c' : ConnectionId) :
    ((s.peers.modify c f).find? c').map latestIncomingRequest =
      (s.peers.find? c').map latestIncomingRequest := by
  rw [find?_modify]
  split_ifs
  · rw [map_map]
    exact map_congr fun p _ => same p
  · rfl

theorem withdraw_counters (remote : ObjectId) (p : PeerState) : (p.withdraw remote).counters = p.counters := rfl

variable {publication : Option RemotePublicationId}

theorem Owner.withdraw {peers' : SortedMap ConnectionId PeerState} {gone : ObjectId}
    (owner : Owner peers key remote publication) (other : remote ≠ gone)
    (after : peers'.find? key.connection = (peers.find? key.connection).map (withdraw gone)) :
    Owner peers' key remote publication := by
  obtain ⟨peer,found,published,current,below⟩ := owner.exists_peer
  exact ⟨peer.withdraw gone,by rw [after,found]; rfl,Finset.mem_erase.mpr ⟨other,published⟩,current,below⟩

variable (host : Host ε)

theorem keeps_closeSelected (s : State ε) (selected : PendingKey → IncomingRequest → Bool) :
    Keeps s (closeIncoming host s (s.incomingRequests.filter selected).entries) [] := by
  refine keeps_closeIncoming host s _ (fun e member => ?_) (nodup_keys _)
  have found := find?_eq_some.mpr member
  rw [find?_filter] at found
  exact contains_iff.mpr ⟨e.2,(filter_eq_some_iff.mp found).1⟩

theorem sameBooks_peers
    (same : ∀ c, (peers.find? c).map counters = (s.peers.find? c).map counters) :
    SameBooks s { s with peers } :=
  ⟨rfl,rfl,rfl,rfl,rfl,same⟩

theorem pending_closeIncoming (s : State ε) (closing : List (PendingKey × IncomingRequest)) :
    (closeIncoming host s closing).pendingRequests = s.pendingRequests := by
  induction closing generalizing s with
  | nil => rfl
  | cons e rest ih => exact (ih _).trans (quiet_answerUnavailable host s e.1 e.2).pending

theorem keeps_unpublishRemote (s : State ε) (c : ConnectionId) (remote : ObjectId) :
    Keeps s (unpublishRemote host s c remote).1 (unpublishRemote host s c remote).2 := by
  simp only [unpublishRemote]
  split_ifs
  · exact (refl s).frames rfl
  have withdrawn := keeps_withdrawn (s := s) (m := { s with peers := s.peers.modify c (.withdraw remote) })
    (fun key p => key.connection == c && p.remote == remote) ?_ rfl rfl rfl rfl rfl rfl ?_
    (latest_modify s c (.withdraw remote) fun _ => rfl) (taken_takeAll .protocolRejected _)
  · exact (withdrawn.andThen ((keeps_closeSelected host _ _).trans (keeps_dropMessages _ _ _))).frames (by simp [Frame.owed])
  · refine sameBooks_peers fun c' => ?_
    rw [find?_modify]
    split_ifs
    · rw [map_map]
      exact map_congr fun p _ => withdraw_counters remote p
    · rfl
  · intro key p unselected publication owner
    by_cases here : key.connection = c
    · have other : p.remote ≠ remote := by simpa [here] using unselected
      exact owner.withdraw other (by rw [find?_modify,if_pos here])
    · refine ⟨?_⟩
      change ∃ q, (s.peers.modify c _).find? key.connection = some q ∧ _
      rw [find?_modify,if_neg here]
      exact owner.exists_peer

theorem keeps_erasePublications (remote : ObjectId)
    (noRequests : ∀ key p, s.pendingRequests.find? key = some p → p.remote ≠ remote) :
    Keeps s { s with peers := s.peers.mapValues fun _ peer =>
      { peer with publications := peer.publications.erase remote } } [] where
  balanced b := by
    refine ⟨b.accounts.congr (sameBooks_peers fun c => ?_),b.deferredMetric,b.inFlight⟩
    rw [find?_mapValues,map_map]
    rfl
  requests _ _ r := by
    refine r.step rfl le_rfl rfl (.refl _) fun key p pending => ⟨pending,fun publication owner => ?_⟩
    obtain ⟨peer,found,published,current,below⟩ := owner.exists_peer
    refine ⟨{ peer with publications := peer.publications.erase remote },
      by rw [find?_mapValues,found]; rfl,published,?_,below⟩
    change (peer.publications.erase remote).find? p.remote = publication
    rwa [find?_erase,if_neg (noRequests key p pending)]
  queueMetric m := m
  toPassive := .of_latest (.of_eq rfl rfl rfl rfl) rfl (fun _ member => member) fun c => by
    rw [find?_mapValues,map_map]
    rfl

def withoutRemote (s : State ε) (remote : ObjectId) : State ε :=
  { s with
    remotes := s.remotes.erase remote
    eventHandlers := s.eventHandlers.erase remote
    requestHandlers := s.requestHandlers.erase remote
    peers := s.peers.mapValues fun _ peer => peer.withdraw remote }

theorem keeps_unregisterRemote (s : State ε) (remote : ObjectId) :
    Keeps s (unregisterRemote host s remote).1 (unregisterRemote host s remote).2 := by
  have taken := taken_takeAll (s := withoutRemote s remote) .protocolRejected
    (pendingKeys (withoutRemote s remote) fun _ p => p.remote == remote)
  have withdrawn := keeps_withdrawn (s := s) (m := withoutRemote s remote) _ ?_ rfl rfl rfl rfl rfl rfl ?_ ?_ taken
  · have closed := withdrawn.andThen (keeps_closeSelected host _ fun _ r => r.remote == remote)
    have erased := closed.andThen (keeps_erasePublications remote ?_)
    · rw [unregisterRemote]
      split_ifs
      · exact (refl s).frames rfl
      · exact (erased.andThen (keeps_dropMessages _ _ _)).frames (by simp [Frame.owed,withoutRemote])
    · intro key p found here
      rw [pending_closeIncoming,taken.pending] at found
      split_ifs at found with gone
      exact gone (mem_pendingKeys.mpr ⟨p,found,by simpa using here⟩)
  · refine ⟨rfl,rfl,rfl,rfl,rfl,fun c => ?_⟩
    rw [withoutRemote,find?_mapValues,map_map]
    exact map_congr fun p _ => withdraw_counters remote p
  · intro key p unselected publication owner
    exact owner.withdraw (by simpa using unselected) (find?_mapValues ..)
  · intro c
    rw [withoutRemote,find?_mapValues,map_map]
    rfl

theorem books_peers (same : ∀ c, (peers.find? c).map counters = (s.peers.find? c).map counters)
    (owners : ∀ key remote publication, Owner s.peers key remote publication → Owner peers key remote publication) :
    Books s { s with peers } [] where
  balanced b := ⟨b.accounts.congr (sameBooks_peers same),b.deferredMetric,b.inFlight⟩
  requests _ _ r := r.step rfl le_rfl rfl (.refl _) fun _ _ pending => ⟨pending,fun _ owner => owners _ _ _ owner⟩
  queueMetric m := m

theorem counters_modify (same : ∀ p, (f p).counters = p.counters) (c' : ConnectionId) :
    ((s.peers.modify c f).find? c').map counters = (s.peers.find? c').map counters := by
  rw [find?_modify]
  split_ifs
  · rw [map_map]
    exact map_congr fun p _ => same p
  · rfl

theorem Owner.modify (owner : Owner peers key remote publication)
    (keeps : ∀ peer, peers.find? c = some peer → remote ∈ peer.publishedRemotes → remote ∈ (f peer).publishedRemotes ∧
      (f peer).publications.find? remote = peer.publications.find? remote ∧
      peer.nextRequest.toNat ≤ (f peer).nextRequest.toNat) : Owner (peers.modify c f) key remote publication := by
  obtain ⟨peer,found,published,current,below⟩ := owner.exists_peer
  by_cases here : key.connection = c
  · obtain ⟨published',current',below'⟩ := keeps peer (here ▸ found) published
    exact ⟨f peer,by rw [find?_modify,if_pos here,found]; rfl,published',current'.trans current,by omega⟩
  · exact ⟨peer,by rw [find?_modify,if_neg here,found],published,current,below⟩

section
variable (s : State ε)

variable (c : ConnectionId)

theorem books_modifyPeer (counters : ∀ p, (f p).counters = p.counters)
    (remotes : ∀ p, (f p).publishedRemotes = p.publishedRemotes)
    (publications : ∀ p, (f p).publications = p.publications) (next : ∀ p, (f p).nextRequest = p.nextRequest) :
    Books s { s with peers := s.peers.modify c f } [] := by
  refine books_peers (counters_modify counters) fun key remote publication owner => owner.modify ?_
  intro p _ published
  rw [remotes,publications,next]
  exact ⟨published,rfl,le_rfl⟩

theorem passive_modifyPeer
    (latest : ∀ p, (f p).latestIncomingRequest = p.latestIncomingRequest) :
    Passive s { s with peers := s.peers.modify c f } :=
  .of_latest (.of_eq rfl rfl rfl rfl) rfl (fun _ member => member) (latest_modify s c f latest)

theorem keeps_markMaterialized (object : ObjectId) : Keeps s (markMaterialized host s c object).2 [] := by
  simp only [markMaterialized]
  split_ifs
  · exact .refl s
  · exact ⟨books_modifyPeer s c (fun _ => rfl) (fun _ => rfl) (fun _ => rfl) fun _ => rfl,
      passive_modifyPeer s c fun _ => rfl⟩

theorem keeps_takeSequence (remote : ObjectId) : Keeps s (takeSequence s c remote).2 [] := by
  simp only [takeSequence]
  split <;> exact ⟨books_modifyPeer s c (fun _ => rfl) (fun _ => rfl) (fun _ => rfl) fun _ => rfl,
    passive_modifyPeer s c fun _ => rfl⟩

theorem keeps_publishRemote (remote : ObjectId) (materialized : Bool) :
    Keeps s (publishRemote host s c remote materialized).2 [] := by
  simp only [publishRemote]
  split
  · exact .refl s
  rename_i peer found
  split
  · exact .refl s
  split
  · refine ⟨books_modifyPeer s c (fun p => ?_) (fun p => ?_) (fun p => ?_) fun p => ?_,
      passive_modifyPeer s c fun p => ?_⟩ <;> split <;> rfl
  · rename_i unpublished
    split
    · exact .refl s
    · refine ⟨books_peers (counters_modify fun p => ?_) fun key other publication owner => owner.modify ?_,
        passive_modifyPeer s c fun p => ?_⟩
      · split <;> rfl
      · intro p here published
        rw [found] at here
        cases here
        have different : other ≠ remote := fun same => unpublished (same ▸ published)
        split <;> exact ⟨Finset.mem_insert_of_mem published,find?_insert_of_ne _ _ different,le_rfl⟩
      · split <;> rfl

end

theorem books_insertPeer (on : s.active) (absent : s.peers.find? c = none) (epoch : ReplicationEpoch)
    (limits : NetworkLimits) (generations : SortedMap Nat UInt32) :
    Books s { s with peers := s.peers.insert c { epoch, limits }, highestPeerGeneration := generations } [] where
  balanced b := by
    have a := b.accounts
    refine ⟨{ a with
      live := fun _ _ _ => on
      queueMessages := a.queueMessages.insert absent rfl
      queueBytes := a.queueBytes.insert absent rfl
      deferredBytes := a.deferredBytes.insert absent rfl
      requests := a.requests.insert absent rfl
      running := a.running.insert absent rfl
      limits := fun c' p found => ?_ },b.deferredMetric,b.inFlight⟩
    rw [find?_insert] at found
    split_ifs at found
    · cases found
      exact ⟨zero_le _,zero_le _,zero_le _,zero_le _,zero_le _,zero_le _⟩
    · exact a.limits c' p found
  requests _ _ r := by
    refine r.step rfl le_rfl rfl (.refl _) fun key p pending => ⟨pending,fun publication owner => ?_⟩
    obtain ⟨peer,found,rest⟩ := owner.exists_peer
    have other : key.connection ≠ c := by
      intro here
      rw [here,absent] at found
      cases found
    exact ⟨peer,by rw [find?_insert_of_ne _ _ other]; exact found,rest⟩
  queueMetric := id

theorem passive_insertPeer (b : Balanced s) (absent : s.peers.find? c = none) (epoch : ReplicationEpoch)
    (limits : NetworkLimits) (generations : SortedMap Nat UInt32) :
    Passive s { s with peers := s.peers.insert c { epoch, limits }, highestPeerGeneration := generations } where
  toThinned := .of_eq rfl rfl rfl rfl
  dispositions := rfl
  incoming _ member := member
  latest c' q found := by
    rw [find?_insert] at found
    split_ifs at found with here
    · cases found
      subst here
      refine .inr ⟨rfl,fun key member foreign => ?_⟩
      obtain ⟨p,owner⟩ := contains_iff.mp (b.accounts.running.owned key member)
      have same : s.peers.find? key.connection = some p := owner
      rw [foreign,absent] at same
      cases same
    · exact .inl ⟨q,found,rfl⟩

theorem addPeer_cases (s : State ε) (c : ConnectionId) (epoch : ReplicationEpoch) (limits : NetworkLimits) :
    (addPeer s c epoch limits).2 = s ∨ s.active ∧ s.peers.find? c = none ∧ (addPeer s c epoch limits).2 =
      { s with peers := s.peers.insert c { epoch, limits }
               highestPeerGeneration := s.highestPeerGeneration.insert c.slot.toNat c.generation } := by
  simp only [addPeer]
  split_ifs with invalid taken
  · exact .inl rfl
  · exact .inl rfl
  · have on : s.active := by simp at invalid; exact invalid.1.1.1.1
    refine .inr ⟨on,?_,rfl⟩
    cases found : s.peers.find? c with
    | none => rfl
    | some p =>
      exfalso
      apply taken
      rw [Bool.or_eq_true,List.any_eq_true]
      exact .inr ⟨c,mem_keys.mpr ⟨p,found⟩,by simp⟩

theorem books_addPeer (s : State ε) (c : ConnectionId) (epoch : ReplicationEpoch) (limits : NetworkLimits) :
    Books s (addPeer s c epoch limits).2 [] := by
  rcases addPeer_cases s c epoch limits with same | ⟨on,absent,added⟩
  · rw [same]
    exact (refl s).toBooks
  · rw [added]
    exact books_insertPeer on absent epoch limits _

theorem passive_addPeer (b : Balanced s) (c : ConnectionId) (epoch : ReplicationEpoch) (limits : NetworkLimits) :
    Passive s (addPeer s c epoch limits).2 := by
  rcases addPeer_cases s c epoch limits with same | ⟨_,absent,added⟩
  · rw [same]
  · rw [added]
    exact passive_insertPeer b absent epoch limits _

section
variable (s : State ε)

section
variable (remote : ObjectId)

theorem quiet_registerRemote (kind : RemoteInstanceKind) : Quiet s (registerRemote s remote kind).2 := by
  simp only [registerRemote]
  split_ifs <;> exact .of_samePeers rfl rfl rfl rfl rfl rfl rfl rfl rfl

theorem quiet_setEventHandler (handler : Option Nat) : Quiet s (setEventHandler s remote handler).2 := by
  simp only [setEventHandler]
  split <;> exact .of_samePeers rfl rfl rfl rfl rfl rfl rfl rfl rfl

theorem quiet_setRequestHandler (handler : Option Nat) : Quiet s (setRequestHandler s remote handler).2 := by
  simp only [setRequestHandler]
  split <;> exact .of_samePeers rfl rfl rfl rfl rfl rfl rfl rfl rfl

end

theorem keeps_markUnmaterialized (c : ConnectionId) (object : ObjectId) :
    Keeps s (markUnmaterialized host s c object).1 (markUnmaterialized host s c object).2 := by
  simp only [markUnmaterialized]
  split_ifs
  · exact keeps_unpublishRemote ..
  · exact ⟨.frames (books_modifyPeer s c (fun _ => rfl) (fun _ => rfl) (fun _ => rfl) fun _ => rfl) rfl,
      passive_modifyPeer s c fun _ => rfl⟩

end

/-! ### Messages and requests that start -/

section
variable (s : State ε)

theorem keeps_sendEventMessage (c : ConnectionId) (message : RemoteMessage) :
    Keeps s (sendEventMessage host s c message).2.1 (sendEventMessage host s c message).2.2 := by
  have admission := quiet_admitCall host s c message.remote
  simp only [sendEventMessage]
  split
  · exact .refl s
  split <;> rename_i admitted <;> rw [admitted] at admission
  · exact keeps_quiet admission
  · exact ((keeps_quiet admission).trans (keeps_sendMessage ..)).frames rfl

theorem keeps_sendEvent (c : ConnectionId) (remote : ObjectId) (arguments : List WireValue) :
    Keeps s (sendEvent host s c remote arguments).2.1 (sendEvent host s c remote arguments).2.2 := by
  have numbered := keeps_takeSequence s c remote
  simp only [sendEvent]
  split
  · exact .refl s
  split
  · exact .refl s
  · exact .refl s
  split
  · exact .refl s
  split
  · exact .refl s
  · split <;> rename_i taken <;> rw [taken] at numbered
    · exact numbered
    · exact numbered.trans (keeps_sendEventMessage ..)
  · exact keeps_sendEventMessage ..

theorem quiet_admitBroadcast (fanout bytes : Nat) : Quiet s (admitBroadcast host s fanout bytes).2 := by
  refine (quiet_readTime host s).trans ?_
  simp only [admitBroadcast]
  split_ifs <;> exact .of_samePeers rfl rfl rfl rfl rfl rfl rfl rfl rfl

theorem keeps_startBroadcast (remote : ObjectId) (arguments : List WireValue) :
    Keeps s (startBroadcast host s remote arguments).1 (startBroadcast host s remote arguments).2 := by
  have nothing : ∀ result, Keeps s s [.finish result] := fun _ => (refl s).frames rfl
  simp only [startBroadcast]
  split
  · exact nothing _
  split
  · exact nothing _
  split
  · exact nothing _
  split
  · exact nothing _
  rename_i encoded _
  have admission := quiet_admitBroadcast host s s.peers.keys.length encoded.length
  split <;> rename_i admitted <;> rw [admitted] at admission <;> exact (keeps_quiet admission).frames rfl

end

def PeerState.unparked (p : PeerState) : PeerState := { p.books with deferredReliableBytes := 0 }

structure Sends (s t : State ε) : Prop where
  story : SameStory s t
  pending : t.pendingRequests = s.pendingRequests
  peers : ∀ c, (t.peers.find? c).map PeerState.unparked = (s.peers.find? c).map PeerState.unparked

theorem Sends.trans {u : State ε} (first : Sends s t) (second : Sends t u) : Sends s u where
  story := first.story.trans second.story
  pending := second.pending.trans first.pending
  peers c := (second.peers c).trans (first.peers c)

theorem Quiet.sends (quiet : Quiet s t) : Sends s t where
  story := quiet.sameStory
  pending := quiet.pending
  peers c := map_of_map (quiet.peers c) fun p => ({ p with deferredReliableBytes := 0 } : PeerState)

theorem sends_deferMessage (s : State ε) (c : ConnectionId) (message : RemoteMessage)
    (encoded : List UInt8) (missing : List ObjectId) : Sends s (deferMessage host s c message encoded missing) := by
  refine (quiet_readTime host s).sends.trans ?_
  simp only [deferMessage]
  generalize waiting : (⟨c,message,encoded,missing,_⟩ : DeferredMessage) = x
  have parked : Sends (readTime host s).2 { (readTime host s).2 with
      deferred := (readTime host s).2.deferred ++ [x]
      peers := (readTime host s).2.peers.modify c (.withDeferred encoded.length)
      metrics := { (readTime host s).2.metrics with
        deferredReliableMessages := ((readTime host s).2.deferred ++ [x]).length
        deferredReliableBytes := (readTime host s).2.metrics.deferredReliableBytes + encoded.length } } := by
    refine ⟨.of_modify rfl (fun _ => rfl) rfl rfl rfl rfl,rfl,fun c' => ?_⟩
    rw [find?_modify]
    split_ifs
    · rw [map_map]; rfl
    · rfl
  refine parked.trans ?_
  obtain ⟨story,pending,_⟩ := sameStory_observeOwnership _ c
  refine ⟨story,pending,fun c' => ?_⟩
  rcases observeOwnership_cases _ c with same | same <;> rw [same]

theorem sends_sendMessage (s : State ε) (c : ConnectionId) (message : RemoteMessage) (allow : Bool) :
    Sends s (sendMessage host s c message allow).2 := by
  rcases sendMessage_cases host s c message allow with quiet | ⟨m,_,message',encoded,missing,_,quiet,_,_,parked⟩
  · exact quiet.sends
  · exact quiet.sends.trans ((sends_deferMessage host m c message' encoded missing).trans parked.sends)

theorem keeps_nextRequest (found : s.peers.find? c = some peer)
    (following : peer.nextRequest.tryNext = some next) :
    Keeps s { s with peers := s.peers.modify c fun peer => { peer with nextRequest := next } } [] := by
  refine ⟨books_peers (counters_modify fun _ => rfl) fun key remote publication owner => owner.modify ?_,
    passive_modifyPeer s c fun _ => rfl⟩
  intro p here published
  rw [found] at here
  cases here
  have larger := tryNext_toNat following
  exact ⟨published,rfl,by change peer.nextRequest.toNat ≤ next.toNat; omega⟩

def FreshFor (s : State ε) (completion : RequestCompletion) : Prop :=
  ∀ id, completion = some id → id < s.history.issued ∧ ∀ a ∈ s.history.accepted, a.completion ≠ id

structure Recordable (s : State ε) (key : PendingKey) (remote : ObjectId) (completion : RequestCompletion) : Prop where
  exists_peer : ∃ peer, s.peers.find? key.connection = some peer ∧ remote ∈ peer.publishedRemotes ∧
    key.request.toNat < peer.nextRequest.toNat ∧
    peer.pendingOutgoingRequests < peer.limits.maximumInFlightRemoteRequests
  absent : s.pendingRequests.find? key = none
  room : s.pendingRequests.size < maximumRemoteInFlightRequestsPerManager
  fresh : FreshFor s completion

def recorded (s : State ε) (key : PendingKey) (pending : PendingRequest) : State ε :=
  { s with
    pendingRequests := s.pendingRequests.insert key pending
    peers := s.peers.modify key.connection PeerState.startOutgoing
    metrics := { s.metrics with inFlightRequests := (s.pendingRequests.insert key pending).size }
    history := { s.history with accepted := s.history.accepted ++ pending.completion.toList.map fun id =>
      ⟨id,key,pending.remote,storedPublication s key.connection pending.remote⟩ } }

theorem recordRequest_eq (s : State ε) (key : PendingKey) (remote : ObjectId)
    (completion : RequestCompletion) (deadline : Int) : ∃ pending : PendingRequest, pending.remote = remote ∧
      pending.completion = completion ∧ recordRequest host s key remote completion deadline =
        observeOwnership (recorded (readTime host s).2 key pending) key.connection :=
  ⟨{ remote, deadline := (readTime host s).1 + milliseconds deadline, completion },rfl,rfl,rfl⟩

section Recording
variable {key : PendingKey} {pending : PendingRequest}

theorem balanced_recorded (b : Balanced s) (r : Recordable s key pending.remote pending.completion) :
    Balanced (recorded s key pending) := by
  obtain ⟨peer,found,_,_,room⟩ := r.exists_peer
  have length : s.pendingRequests.keys.length < maximumRemoteInFlightRequestsPerManager := by
    rw [length_keys]; exact r.room
  have added := b.accounts.addOutgoing found room length
  have keys := keys_insert_perm pending r.absent
  exact ⟨(added.perm (.refl _) (.refl _) keys.symm (.refl _)).congr (.of_eq rfl rfl rfl rfl rfl rfl),b.deferredMetric,
    rfl⟩

theorem requests_recorded {owed : List Nat} (q : Requests s owed)
    (r : Recordable s key pending.remote pending.completion) : Requests (recorded s key pending) owed := by
  obtain ⟨peer,found,published,below,_⟩ := r.exists_peer
  have completions : (recorded s key pending).history.accepted.map completion =
      s.history.accepted.map completion ++ pending.completion.toList := by
    simp [recorded,Function.comp_def]
  have keepsOwner : ∀ key' remote publication, Owner s.peers key' remote publication →
      Owner (recorded s key pending).peers key' remote publication :=
    fun _ _ _ owner => owner.modify fun _ _ published => ⟨published,rfl,le_rfl⟩
  constructor
  · intro a member
    simp only [recorded,List.mem_append,List.mem_map,mem_toList] at member
    rcases member with before | ⟨id,is,rfl⟩
    · exact q.fresh a before
    · exact (r.fresh id is).1
  · rw [completions,List.nodup_append]
    refine ⟨q.distinct,by cases pending.completion <;> simp,?_⟩
    intro a before b is same
    obtain ⟨accepted,member,rfl⟩ := List.mem_map.mp before
    exact (r.fresh b (mem_toList.mp is)).2 accepted member same
  · rw [completions]
    have entries := (insert_perm pending r.absent).filterMap (·.2.completion)
    have inserted : (pendingCompletions (s.pendingRequests.insert key pending)).Perm
        (pending.completion.toList ++ pendingCompletions s.pendingRequests) := by
      rw [List.filterMap_cons] at entries
      cases here : pending.completion <;> simpa [pendingCompletions,here] using entries
    have moved := (inserted.append_left (s.history.invoked ++ owed)).symm
    have ledger := q.ledger.append_right pending.completion.toList
    refine ledger.trans (.trans ?_ (moved.trans (by rw [List.append_assoc]; rfl)))
    simp only [List.append_assoc]
    exact ((List.perm_append_comm).append_left owed).append_left s.history.invoked
  · intro key' p here
    change (s.pendingRequests.insert key pending).find? key' = some p at here
    rw [find?_insert] at here
    split_ifs at here with same
    · cases here
      subst same
      refine ⟨storedPublication s key'.connection pending.remote,keepsOwner _ _ _ ⟨peer,found,published,?_,below⟩,
        fun id is => ?_⟩
      · rw [storedPublication,found]; rfl
      · exact List.mem_append_right _ (List.mem_map.mpr ⟨id,by simp [is],rfl⟩)
    · obtain ⟨publication,owner,recorded⟩ := q.owners key' p here
      exact ⟨publication,keepsOwner _ _ _ owner,fun id is => List.mem_append_left _ (recorded id is)⟩

end Recording

structure Preserves (s t : State ε) (frames : List Frame) : Prop where
  sound : ∀ owed, Balanced s → Requests s owed → Balanced t ∧ Requests t (owedOn frames ++ owed)
  queueMetric : QueueMetric s → QueueMetric t

theorem Books.preserves {frames : List Frame} (k : Books s t frames) : Preserves s t frames :=
  ⟨fun owed b r => ⟨k.balanced b,k.requests owed b r⟩,k.queueMetric⟩

variable {completion : RequestCompletion} {owed : List Nat}

theorem Sends.recordable (sends : Sends s t) (r : Recordable s key remote completion) :
    Recordable t key remote completion := by
  obtain ⟨peer,found,published,below,room⟩ := r.exists_peer
  have here := sends.peers key.connection
  rw [found] at here
  obtain ⟨q,after,same⟩ := map_eq_some_iff.mp here
  have remotes := congrArg publishedRemotes same
  have next := congrArg nextRequest same
  have limits := congrArg limits same
  have outgoing := congrArg pendingOutgoingRequests same
  change q.publishedRemotes = peer.publishedRemotes at remotes
  change q.nextRequest = peer.nextRequest at next
  change q.limits = peer.limits at limits
  change q.pendingOutgoingRequests = peer.pendingOutgoingRequests at outgoing
  refine ⟨⟨q,after,by rwa [remotes],by rwa [next],by rwa [limits,outgoing]⟩,?_,?_,?_⟩
  · rw [sends.pending,r.absent]
  · rw [sends.pending]; exact r.room
  · rw [FreshFor,sends.story.issued,sends.story.accepted]; exact r.fresh

variable (host : Host ε)

theorem sound_recordRequest (deadline : Int) (r : Recordable s key remote completion)
    (owed : List Nat) (b : Balanced s) (q : Requests s owed) :
    Balanced (recordRequest host s key remote completion deadline) ∧
      Requests (recordRequest host s key remote completion deadline) owed := by
  obtain ⟨pending,rfl,rfl,stored⟩ := recordRequest_eq host s key remote completion deadline
  rw [stored]
  have read := keeps_quiet (quiet_readTime host s)
  have ready := (quiet_readTime host s).sends.recordable r
  have observed := keeps_observeOwnership (recorded (readTime host s).2 key pending) key.connection
  have balanced := balanced_recorded (read.balanced b) ready
  exact ⟨observed.balanced balanced,observed.requests owed balanced (requests_recorded (read.requests owed b q) ready)⟩

theorem passive_recordRequest (s : State ε) (key : PendingKey) (remote : ObjectId)
    (completion : RequestCompletion) (deadline : Int) :
    Passive s (recordRequest host s key remote completion deadline) := by
  obtain ⟨pending,_,_,stored⟩ := recordRequest_eq host s key remote completion deadline
  rw [stored]
  have started : Passive (readTime host s).2 (recorded (readTime host s).2 key pending) :=
    .of_latest (.of_eq rfl rfl rfl rfl) rfl (fun _ member => member)
      (latest_modify _ key.connection startOutgoing fun _ => rfl)
  exact (quiet_readTime host s).passive.trans (started.trans (keeps_observeOwnership _ key.connection).toPassive)

theorem queueMetric_recordRequest (key : PendingKey) (remote : ObjectId) (completion : RequestCompletion)
    (deadline : Int) (metric : QueueMetric s) : QueueMetric (recordRequest host s key remote completion deadline) := by
  obtain ⟨pending,_,_,stored⟩ := recordRequest_eq host s key remote completion deadline
  rw [stored]
  exact (keeps_observeOwnership (recorded (readTime host s).2 key pending) key.connection).queueMetric metric

theorem Requests.nextRequest_absent (r : Requests s owed) (found : s.peers.find? c = some peer) :
    s.pendingRequests.find? ⟨c,peer.nextRequest⟩ = none := by
  cases here : s.pendingRequests.find? ⟨c,peer.nextRequest⟩ with
  | none => rfl
  | some p =>
    obtain ⟨_,owner,_⟩ := r.owners _ p here
    obtain ⟨q,same,_,_,below⟩ := owner.exists_peer
    rw [found] at same
    cases same
    exact absurd below (lt_irrefl _)

theorem remoteAvailable_published {host : Host ε} (available : remoteAvailable host s c remote)
    (found : s.peers.find? c = some peer) : remote ∈ peer.publishedRemotes := by
  simp only [remoteAvailable,found] at available
  split at available
  · rename_i same _
    cases same
    simp only [Bool.and_eq_true,decide_eq_true_eq] at available
    exact available.1.1
  · cases available

def numbered (s : State ε) (c : ConnectionId) (next : RemoteRequestId) : State ε :=
  { s with peers := s.peers.modify c fun peer => { peer with nextRequest := next } }

theorem books_parts {p q : PeerState} (same : q.books = p.books) :
    q.nextRequest = p.nextRequest ∧ q.publishedRemotes = p.publishedRemotes ∧ q.limits = p.limits ∧
      q.pendingOutgoingRequests = p.pendingOutgoingRequests ∧ q.concurrentHandlers = p.concurrentHandlers := by
  have next := congrArg nextRequest same
  have remotes := congrArg publishedRemotes same
  have limits := congrArg limits same
  have outgoing := congrArg pendingOutgoingRequests same
  have handlers := congrArg concurrentHandlers same
  exact ⟨next,remotes,limits,outgoing,handlers⟩

theorem recordable_numbered {m : State ε} (quiet : Quiet s m) (r : Requests s owed)
    (found : s.peers.find? c = some peer) (published : remote ∈ peer.publishedRemotes)
    (following : peer.nextRequest.tryNext = some next)
    (room : s.pendingRequests.size < maximumRemoteInFlightRequestsPerManager)
    (allowed : peer.pendingOutgoingRequests < peer.limits.maximumInFlightRemoteRequests)
    (fresh : FreshFor s completion) : Recordable (numbered m c next) ⟨c,peer.nextRequest⟩ remote completion := by
  obtain ⟨q,still,books⟩ := quiet.peer found
  obtain ⟨_,remotes,limits,outgoing,_⟩ := books_parts books
  have above := tryNext_toNat following
  refine ⟨⟨{ q with nextRequest := next },?_,by rwa [← remotes] at published,?_,?_⟩,?_,?_,?_⟩
  · rw [numbered,find?_modify,if_pos rfl,still]
    rfl
  · change peer.nextRequest.toNat < next.toNat
    omega
  · change q.pendingOutgoingRequests < q.limits.maximumInFlightRemoteRequests
    rwa [outgoing,limits]
  · exact quiet.pending ▸ r.nextRequest_absent found
  · exact quiet.pending ▸ room
  · change FreshFor m completion
    rwa [FreshFor,quiet.sameStory.issued,quiet.sameStory.accepted]

/-- The state after a call of `StartRequest` was given its number. -/
def issuing (s : State ε) : State ε := { s with history := { s.history with issued := s.history.issued + 1 } }

theorem keeps_issuing (s : State ε) : Keeps s (issuing s) [] where
  balanced b := ⟨b.accounts.congr (.of_eq rfl rfl rfl rfl rfl rfl),b.deferredMetric,b.inFlight⟩
  requests _ _ r := r.step rfl (le_succ _) rfl (.refl _) fun _ _ found => ⟨found,fun _ owner => owner⟩
  queueMetric m := m
  toPassive := .of_latest (.of_eq rfl rfl rfl rfl) rfl (fun _ member => member) fun _ => rfl

theorem freshFor_issuing (r : Requests s owed) (callable : Bool) :
    FreshFor (issuing s) (if callable then some s.history.issued else none) := by
  intro id is
  split_ifs at is
  cases is
  exact ⟨lt_succ_self _,fun a member => (r.fresh a member).ne⟩

theorem preserves_startRequest (s : State ε) (c : ConnectionId) (remote : ObjectId)
    (arguments : List WireValue) (completion : RequestCompletion) (deadline : Int)
    (fresh : ∀ owed, Requests s owed → FreshFor (issuing s) completion) :
    Preserves s (startRequest host (issuing s) c remote arguments completion deadline).1
      (startRequest host (issuing s) c remote arguments completion deadline).2 ∧
      Passive s (startRequest host (issuing s) c remote arguments completion deadline).1 := by
  have issue := keeps_issuing s
  have kept : ∀ {t frames}, Keeps s t [] → owedOn frames = [] → Preserves s t frames ∧ Passive s t := fun k owes =>
    ⟨Books.preserves (.frames k.toBooks owes),k.toPassive⟩
  have refused : ∀ t status, Quiet (issuing s) t → Preserves s t [.finish (.send status)] ∧ Passive s t :=
    fun _ _ quiet => kept (issue.trans (keeps_quiet quiet)) rfl
  simp only [startRequest]
  split
  · exact refused _ _ (.refl _)
  split
  · exact refused _ _ (.refl _)
  · exact refused _ _ (.refl _)
  rename_i peer kind found _
  split
  · exact refused _ _ (.refl _)
  split
  · exact refused _ _ (.refl _)
  rename_i available
  split
  · exact refused _ _ (.refl _)
  split
  · exact refused _ _ (.refl _)
  rename_i room
  simp only [Bool.or_eq_true,decide_eq_true_eq,not_or,ge_iff_le,not_le] at room
  have admission := quiet_admitCall host (issuing s) c remote
  split <;> rename_i m admitted <;> rw [admitted] at admission
  · exact refused _ _ admission
  change Quiet (issuing s) m at admission
  split
  · exact refused _ _ admission
  rename_i next following
  obtain ⟨q,still,books⟩ := admission.peer found
  have taken : Keeps s (numbered m c next) [] := issue.trans ((keeps_quiet admission).trans
    (keeps_nextRequest still (by rw [(books_parts books).1]; exact following)))
  split
  · exact kept taken rfl
  have sent := keeps_sendMessage host (numbered m c next) c
    { kind := .request, remote, request := peer.nextRequest, deadline, arguments } true
  have sends := sends_sendMessage host (numbered m c next) c
    { kind := .request, remote, request := peer.nextRequest, deadline, arguments } true
  split
  · exact kept (taken.trans sent) rfl
  have both := taken.trans sent
  refine ⟨⟨fun owed b r => ?_,fun metric => queueMetric_recordRequest host _ remote completion deadline
    (both.queueMetric metric)⟩,both.toPassive.trans (passive_recordRequest ..)⟩
  have ready := recordable_numbered admission (issue.toBooks.requests owed b r) found (remoteAvailable_published (by simpa using available) found)
    following room.1 room.2 (fresh owed r)
  exact sound_recordRequest host deadline (sends.recordable ready) owed (both.balanced b) (both.toBooks.requests owed b r)

end
end Gargantuan.RemoteManager
