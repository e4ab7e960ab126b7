import Gargantuan.RemoteAccounting

/-!
Every function of the manager keeps the books balanced. The loops that take items out
of a container one by one are followed through the list of items still to be taken.
-/
namespace Gargantuan.RemoteManager
open SortedMap List

section
variable {ε : Type} {s t : State ε}

variable {handlers outgoing : List PendingKey} {key : PendingKey}
variable {deferred : List DeferredMessage} {queue : List QueuedMessage} {u : State ε}

theorem accounts_foldl_releaseQueued {gone : List QueuedMessage}
    (a : Accounts s (gone ++ queue) deferred outgoing handlers) :
    Accounts (gone.foldl releaseQueued s) queue deferred outgoing handlers := by
  induction gone generalizing s with
  | nil => exact a
  | cons x rest ih => exact ih a.releaseQueued

theorem accounts_foldl_releaseDeferred {gone : List DeferredMessage}
    (a : Accounts s queue (gone ++ deferred) outgoing handlers) :
    Accounts (gone.foldl releaseDeferred s) queue deferred outgoing handlers := by
  induction gone generalizing s with
  | nil => exact a
  | cons x rest ih => exact ih a.releaseDeferred

def withoutGone (s : State ε) (gone : QueuedMessage → Bool) : State ε :=
  { s with dispatchQueue := s.dispatchQueue.filter fun q => !gone q
           history := { s.history with dropped := s.history.dropped ++ s.dispatchQueue.filter gone } }

theorem recounted_dropQueued (s : State ε) (gone : QueuedMessage → Bool) :
    Recounted (withoutGone s gone) (dropQueued s gone) := by
  have counted := recounted_foldl recounted_releaseQueued (s.dispatchQueue.filter gone)
    { s with dispatchQueue := s.dispatchQueue.filter fun q => !gone q }
  exact ⟨{ counted with
      history := congrArg (fun h : History => { h with dropped := h.dropped ++ s.dispatchQueue.filter gone }) counted.history },
    counted.pending,counted.incoming,counted.deferred,counted.queueMetric,counted.deferredMetric,
    counted.inFlight⟩

theorem accounts_dropQueued (a : Accounts s s.dispatchQueue deferred outgoing handlers) (gone : QueuedMessage → Bool) :
    Accounts (dropQueued s gone) (s.dispatchQueue.filter fun q => !gone q) deferred outgoing handlers := by
  have split : s.dispatchQueue.Perm (s.dispatchQueue.filter gone ++ s.dispatchQueue.filter fun q => !gone q) :=
    (filter_append_perm gone s.dispatchQueue).symm
  have out : Accounts { s with dispatchQueue := s.dispatchQueue.filter fun q => !gone q }
      (s.dispatchQueue.filter gone ++ s.dispatchQueue.filter fun q => !gone q) deferred outgoing handlers :=
    (a.perm split (.refl _) (.refl _) (.refl _)).congr (.of_eq rfl rfl rfl rfl rfl rfl)
  exact (accounts_foldl_releaseQueued out).congr (.of_eq rfl rfl rfl rfl rfl rfl)

theorem recounted_dropDeferred (s : State ε) (gone : DeferredMessage → Bool) :
    Recounted { s with deferred := s.deferred.filter fun d => !gone d } (dropDeferred s gone) :=
  recounted_foldl recounted_releaseDeferred _ _

theorem accounts_dropDeferred (a : Accounts s queue s.deferred outgoing handlers) (gone : DeferredMessage → Bool) :
    Accounts (dropDeferred s gone) queue (dropDeferred s gone).deferred outgoing handlers := by
  rw [(recounted_dropDeferred s gone).deferred]
  have split : s.deferred.Perm (s.deferred.filter gone ++ s.deferred.filter fun d => !gone d) :=
    (filter_append_perm gone s.deferred).symm
  have out : Accounts { s with deferred := s.deferred.filter fun d => !gone d } queue
      (s.deferred.filter gone ++ s.deferred.filter fun d => !gone d) outgoing handlers :=
    (a.perm (.refl _) split (.refl _) (.refl _)).congr (.of_eq rfl rfl rfl rfl rfl rfl)
  exact accounts_foldl_releaseDeferred out

theorem sameStory_dropDeferred (s : State ε) (gone : DeferredMessage → Bool) : SameStory s (dropDeferred s gone) :=
  (.of_eq rfl rfl rfl rfl rfl : SameStory s { s with deferred := s.deferred.filter fun d => !gone d }).trans
    (recounted_dropDeferred s gone).toSameStory

theorem takePending_absent {result : RemoteRequestResult} (absent : s.pendingRequests.find? key = none) :
    takePending s key result = (none,s) := by
  simp only [takePending,absent]

def takenState (s : State ε) (key : PendingKey) : State ε :=
  let s := refreshDeferredMetric (dropDeferred s (isRequestOf key))
  { s with
    peers := s.peers.modify key.connection PeerState.endOutgoing
    pendingRequests := s.pendingRequests.erase key
    metrics := { s.metrics with inFlightRequests := (s.pendingRequests.erase key).size } }

variable {p : PendingRequest}

theorem takePending_eq (result : RemoteRequestResult) (found : s.pendingRequests.find? key = some p) :
    takePending s key result = (some ⟨p.completion,result⟩,takenState s key) := by
  simp only [takePending,found,takenState]

theorem takePending_present (result : RemoteRequestResult) (found : s.pendingRequests.find? key = some p) :
    (takePending s key result).1 = some ⟨p.completion,result⟩ ∧
      (takePending s key result).2.pendingRequests = s.pendingRequests.erase key ∧
      (takePending s key result).2.incomingRequests = s.incomingRequests ∧
      SameStory s (takePending s key result).2 := by
  have counted := recounted_dropDeferred s (isRequestOf key)
  rw [takePending_eq result found]
  exact ⟨rfl,congrArg (SortedMap.erase · key) counted.pending,counted.incoming,
    (sameStory_dropDeferred s (isRequestOf key)).trans (.of_modify rfl (fun _ => rfl) rfl rfl rfl rfl)⟩

theorem balanced_takePending (b : Balanced s) (key : PendingKey) (result : RemoteRequestResult) :
    Balanced (takePending s key result).2 := by
  cases found : s.pendingRequests.find? key with
  | none => rw [takePending_absent found]; exact b
  | some p =>
    have counted := recounted_dropDeferred s (isRequestOf key)
    have released := accounts_dropDeferred b.accounts (isRequestOf key)
    have keys := keys_erase_perm found
    have ended := (released.perm (.refl _) (.refl _) keys (.refl _)).endOutgoing
    rw [takePending_eq result found]
    refine ⟨ended.whole (.of_eq rfl rfl rfl rfl rfl rfl) counted.queue rfl ?_ ?_,fun _ => rfl,rfl⟩
    · exact congrArg (fun m => (SortedMap.erase m key).keys) counted.pending
    · exact congrArg SortedMap.keys counted.incoming

def pendingCompletions (pending : SortedMap PendingKey PendingRequest) : List Nat :=
  pending.entries.filterMap fun e => e.2.completion

def owedBy (completions : List PendingCompletion) : List Nat := completions.filterMap PendingCompletion.completion

structure Taken (s t : State ε) (keys : List PendingKey) (completions : List PendingCompletion) : Prop where
  balanced : Balanced s → Balanced t
  story : SameStory s t
  incoming : t.incomingRequests = s.incomingRequests
  queueMetric : t.metrics.queuedDispatchMessages = s.metrics.queuedDispatchMessages
  pending : ∀ key, t.pendingRequests.find? key = if key ∈ keys then none else s.pendingRequests.find? key
  owed : (pendingCompletions s.pendingRequests).Perm (owedBy completions ++ pendingCompletions t.pendingRequests)

theorem taken_takePending (key : PendingKey) (result : RemoteRequestResult) :
    Taken s (takePending s key result).2 [key] (takePending s key result).1.toList := by
  cases found : s.pendingRequests.find? key with
  | none =>
    rw [takePending_absent found]
    refine ⟨id,.refl s,rfl,rfl,fun k => ?_,.refl _⟩
    split_ifs with here
    · rw [mem_singleton.mp here,found]
    · rfl
  | some p =>
    obtain ⟨completion,pending,incoming,story⟩ := takePending_present result found
    have metric : (takePending s key result).2.metrics.queuedDispatchMessages = s.metrics.queuedDispatchMessages := by
      rw [takePending_eq result found]
      exact (recounted_dropDeferred s (isRequestOf key)).queueMetric
    refine ⟨fun b => balanced_takePending b key result,story,incoming,metric,fun k => ?_,?_⟩
    · rw [pending,find?_erase]
      by_cases here : k = key <;> simp [here]
    · rw [completion,pending]
      have entries := (erase_perm found).filterMap (·.2.completion)
      cases here : p.completion <;> simpa [owedBy,pendingCompletions,here] using entries

theorem taken_takeAll (status : RemoteRequestTerminalStatus) (keys : List PendingKey) :
    Taken s (takeAll status s keys).2 keys (takeAll status s keys).1 := by
  induction keys generalizing s with
  | nil => exact ⟨id,.refl s,rfl,rfl,fun k => by simp [takeAll],.refl _⟩
  | cons key rest ih =>
    have first := taken_takePending (s := s) key (terminalResult key.request status)
    have later := ih (s := (takePending s key (terminalResult key.request status)).2)
    refine ⟨fun b => later.balanced (first.balanced b),first.story.trans later.story,
      later.incoming.trans first.incoming,later.queueMetric.trans first.queueMetric,fun k => ?_,?_⟩
    · rw [takeAll,later.pending,first.pending]
      by_cases here : k = key <;> simp [here]
    · have both := first.owed.trans (later.owed.append_left _)
      simpa [takeAll,owedBy,filterMap_append,append_assoc] using both

variable {r : IncomingRequest}

theorem balanced_closeHandler (b : Balanced s) (found : s.incomingRequests.find? key = some r) :
    Balanced (closeHandler s key) := by
  have keys := keys_erase_perm found
  have ended := (b.accounts.perm (.refl _) (.refl _) (.refl _) keys).endHandler
  exact ⟨ended.congr (.of_eq rfl rfl rfl rfl rfl rfl),b.deferredMetric,b.inFlight⟩

theorem sameStory_closeHandler (s : State ε) (key : PendingKey) : SameStory s (closeHandler s key) :=
  .of_modify rfl (fun _ => rfl) rfl rfl rfl rfl

structure Owner (peers : SortedMap ConnectionId PeerState) (key : PendingKey) (remote : ObjectId)
    (publication : Option RemotePublicationId) : Prop where
  exists_peer : ∃ peer, peers.find? key.connection = some peer ∧ remote ∈ peer.publishedRemotes ∧
    peer.publications.find? remote = publication ∧ key.request.toNat < peer.nextRequest.toNat

structure Requests (s : State ε) (owed : List Nat) : Prop where
  fresh : ∀ a ∈ s.history.accepted, a.completion < s.history.issued
  distinct : (s.history.accepted.map AcceptedRequest.completion).Nodup
  ledger : (s.history.accepted.map AcceptedRequest.completion).Perm
    (s.history.invoked ++ (owed ++ pendingCompletions s.pendingRequests))
  owners : ∀ key p, s.pendingRequests.find? key = some p → ∃ publication, Owner s.peers key p.remote publication ∧
    ∀ id, p.completion = some id → (⟨id,key,p.remote,publication⟩ : AcceptedRequest) ∈ s.history.accepted

theorem Requests.step {owed owed' : List Nat} (r : Requests s owed)
    (accepted : t.history.accepted = s.history.accepted) (issued : s.history.issued ≤ t.history.issued)
    (invoked : t.history.invoked = s.history.invoked)
    (moved : (owed ++ pendingCompletions s.pendingRequests).Perm (owed' ++ pendingCompletions t.pendingRequests))
    (kept : ∀ key p, t.pendingRequests.find? key = some p → s.pendingRequests.find? key = some p ∧
      ∀ publication, Owner s.peers key p.remote publication → Owner t.peers key p.remote publication) :
    Requests t owed' where
  fresh a member := lt_of_lt_of_le (r.fresh a (accepted ▸ member)) issued
  distinct := by rw [accepted]; exact r.distinct
  ledger := by
    rw [accepted,invoked]
    exact r.ledger.trans (moved.append_left _)
  owners key p found := by
    obtain ⟨before,carry⟩ := kept key p found
    obtain ⟨publication,owner,recorded⟩ := r.owners key p before
    exact ⟨publication,carry publication owner,by rw [accepted]; exact recorded⟩

variable {publication : Option RemotePublicationId} {remote : ObjectId}

theorem Owner.of_identity {peers peers' : SortedMap ConnectionId PeerState}
    (same : ∀ c, (peers'.find? c).map PeerState.identity = (peers.find? c).map PeerState.identity)
    (owner : Owner peers key remote publication) : Owner peers' key remote publication := by
  obtain ⟨peer,found,published,current,below⟩ := owner.exists_peer
  have here := same key.connection
  rw [found] at here
  obtain ⟨q,after,identity⟩ := Option.map_eq_some_iff.mp here
  obtain ⟨remotes,publications,next⟩ := identity_parts identity
  exact ⟨q,after,by rw [remotes]; exact published,by rw [publications]; exact current,by rw [next]; exact below⟩

theorem Owner.sameStory (same : SameStory s t)
    (owner : Owner s.peers key remote publication) : Owner t.peers key remote publication :=
  owner.of_identity same.peers

theorem Requests.sameStory {owed : List Nat} (r : Requests s owed) (same : SameStory s t)
    (pending : t.pendingRequests = s.pendingRequests) : Requests t owed :=
  r.step same.accepted same.issued.ge same.invoked (by rw [pending])
    fun key p found => ⟨by rw [← pending]; exact found,fun _ owner => owner.sameStory same⟩

variable {completions : List PendingCompletion} {keys : List PendingKey}

theorem Requests.taken {owed : List Nat}
    (r : Requests s owed) (taken : Taken s t keys completions) : Requests t (owedBy completions ++ owed) := by
  refine r.step taken.story.accepted taken.story.issued.ge taken.story.invoked ?_ ?_
  · have moved := (taken.owed.append_left owed).trans (perm_append_comm_assoc owed (owedBy completions) _)
    simpa only [append_assoc] using moved
  · intro key p found
    rw [taken.pending] at found
    split_ifs at found
    exact ⟨found,fun _ owner => owner.sameStory taken.story⟩

/-! ### Steps of operations -/

def Frame.owed : Frame → List Nat
  | .completions rest => owedBy rest
  | _ => []

def owedOn (stack : List Frame) : List Nat := stack.flatMap Frame.owed

@[simp] theorem owedOn_nil : owedOn [] = [] := rfl
@[simp] theorem owedOn_cons (frame : Frame) (rest : List Frame) : owedOn (frame :: rest) = frame.owed ++ owedOn rest :=
  rfl
@[simp] theorem owedOn_append (first second : List Frame) : owedOn (first ++ second) = owedOn first ++ owedOn second :=
  flatMap_append

def QueueMetric (s : State ε) : Prop :=
  s.active = true → s.metrics.queuedDispatchMessages = s.dispatchQueue.length

structure Books (s t : State ε) (frames : List Frame) : Prop where
  balanced : Balanced s → Balanced t
  requests : ∀ owed, Balanced s → Requests s owed → Requests t (owedOn frames ++ owed)
  queueMetric : QueueMetric s → QueueMetric t

theorem Books.trans {frames : List Frame} (first : Books s t []) (second : Books t u frames) : Books s u frames where
  balanced b := second.balanced (first.balanced b)
  requests owed b r := second.requests owed (first.balanced b) (first.requests owed b r)
  queueMetric m := second.queueMetric (first.queueMetric m)

theorem Books.frames {frames frames' : List Frame} (k : Books s t frames) (same : owedOn frames' = owedOn frames) :
    Books s t frames' :=
  ⟨k.balanced,fun owed b r => by rw [same]; exact k.requests owed b r,k.queueMetric⟩

structure Keeps (s t : State ε) (frames : List Frame) : Prop extends Books s t frames, Passive s t

theorem Keeps.refl (s : State ε) : Keeps s s [] := ⟨⟨id,fun _ _ r => r,id⟩,.refl s⟩

theorem Keeps.trans {frames : List Frame} (first : Keeps s t []) (second : Keeps t u frames) : Keeps s u frames :=
  ⟨first.toBooks.trans second.toBooks,first.toPassive.trans second.toPassive⟩

theorem Keeps.andThen {frames : List Frame} (first : Keeps s t frames) (second : Keeps t u []) : Keeps s u frames where
  balanced b := second.balanced (first.balanced b)
  requests owed b r := second.requests _ (first.balanced b) (first.toBooks.requests owed b r)
  queueMetric m := second.queueMetric (first.queueMetric m)
  toPassive := first.toPassive.trans second.toPassive

theorem Keeps.frames {frames frames' : List Frame} (k : Keeps s t frames) (same : owedOn frames' = owedOn frames) :
    Keeps s t frames' :=
  ⟨k.toBooks.frames same,k.toPassive⟩

theorem keeps_quiet (quiet : Quiet s t) : Keeps s t [] where
  balanced b := b.quiet quiet
  requests _ _ r := r.sameStory quiet.sameStory quiet.pending
  queueMetric m on := by rw [quiet.metrics,quiet.queue,m (quiet.active ▸ on)]
  toPassive := quiet.passive

theorem books_sameStory (balanced : Balanced s → Balanced t) (same : SameStory s t)
    (pending : t.pendingRequests = s.pendingRequests)
    (metric : t.metrics.queuedDispatchMessages = s.metrics.queuedDispatchMessages) : Books s t [] where
  balanced := balanced
  requests _ _ r := r.sameStory same pending
  queueMetric m on := by rw [metric,same.queue,m (same.active ▸ on)]

theorem keeps_sameStory (balanced : Balanced s → Balanced t) (same : SameStory s t)
    (pending : t.pendingRequests = s.pendingRequests)
    (metric : t.metrics.queuedDispatchMessages = s.metrics.queuedDispatchMessages)
    (incoming : t.incomingRequests = s.incomingRequests) : Keeps s t [] :=
  ⟨books_sameStory balanced same pending metric,same.passive fun _ member => incoming ▸ member⟩

theorem keeps_closeHandler (found : s.incomingRequests.find? key = some r) : Keeps s (closeHandler s key) [] :=
  ⟨books_sameStory (fun b => balanced_closeHandler b found) (sameStory_closeHandler s key) rfl rfl,
    (sameStory_closeHandler s key).passive fun k member => by
      have keys := keys_erase_perm found
      exact keys.mem_iff.mpr (.tail _ member)⟩

theorem Taken.keeps (taken : Taken s t keys completions) : Keeps s t [.completions completions] where
  balanced := taken.balanced
  requests owed _ r := by simpa [Frame.owed] using r.taken taken
  queueMetric m on := by rw [taken.queueMetric,taken.story.queue,m (taken.story.active ▸ on)]
  toPassive := taken.story.passive fun _ member => taken.incoming ▸ member

theorem keeps_takePending (key : PendingKey) (result : RemoteRequestResult) :
    Keeps s (takePending s key result).2 [.completions (takePending s key result).1.toList] :=
  (taken_takePending key result).keeps

variable (host : Host ε)

theorem observeOwnership_cases (s : State ε) (c : ConnectionId) :
    observeOwnership s c = s ∨
      observeOwnership s c = { s with metrics := { s.metrics with boundViolations := s.metrics.boundViolations + 1 } } := by
  simp only [observeOwnership]
  split_ifs
  · exact .inr rfl
  · exact .inl rfl

theorem sameStory_observeOwnership (s : State ε) (c : ConnectionId) :
    SameStory s (observeOwnership s c) ∧ (observeOwnership s c).pendingRequests = s.pendingRequests ∧
      (observeOwnership s c).metrics.queuedDispatchMessages = s.metrics.queuedDispatchMessages ∧
      (observeOwnership s c).incomingRequests = s.incomingRequests := by
  rcases observeOwnership_cases s c with same | same <;> rw [same]
  · exact ⟨.refl s,rfl,rfl,rfl⟩
  · exact ⟨.of_eq rfl rfl rfl rfl rfl,rfl,rfl,rfl⟩

theorem keeps_observeOwnership (s : State ε) (c : ConnectionId) : Keeps s (observeOwnership s c) [] := by
  obtain ⟨story,pending,metric,incoming⟩ := sameStory_observeOwnership s c
  refine keeps_sameStory (fun b => ?_) story pending metric incoming
  rwa [b.accounts.observeOwnership_eq c]

theorem keeps_deferMessage {c : ConnectionId} {peer : PeerState} (message : RemoteMessage) {encoded : List UInt8}
    (missing : List ObjectId) (found : s.peers.find? c = some peer) (fits : deferralFits s peer encoded.length) :
    Keeps s (deferMessage host s c message encoded missing) [] := by
  simp only [deferralFits,Bool.and_eq_true,decide_eq_true_eq] at fits
  obtain ⟨⟨⟨⟨length,small⟩,total⟩,within⟩,bytes⟩ := fits
  simp only [deferMessage]
  generalize waiting : (⟨c,message,encoded,missing,_⟩ : DeferredMessage) = x
  have connection : x.connection = c := by rw [← waiting]
  have size : x.encoded = encoded := by rw [← waiting]
  refine (keeps_quiet (quiet_readTime host s)).trans (.trans ?_ (keeps_observeOwnership _ c))
  refine keeps_sameStory (fun b => ⟨?_,fun _ => rfl,b.inFlight⟩) (.of_modify rfl (fun _ => rfl) rfl rfl rfl rfl) rfl rfl rfl
  have sum : (readTime host s).2.metrics.deferredReliableBytes + x.encoded.length ≤ maximumQueuedRemoteDispatchBytes := by
    change s.metrics.deferredReliableBytes + x.encoded.length ≤ maximumQueuedRemoteDispatchBytes
    rw [size]
    omega
  have owner : (readTime host s).2.peers.find? x.connection = some peer := by rw [connection]; exact found
  have added := b.accounts.addDeferred owner (by rw [size]; omega) length sum
  rw [connection,size] at added
  exact (added.perm (.refl _) (perm_append_singleton x s.deferred).symm (.refl _) (.refl _)).whole
    (.of_eq rfl rfl rfl rfl rfl rfl) rfl rfl rfl rfl

variable (s : State ε)

theorem keeps_sendMessage (c : ConnectionId) (message : RemoteMessage) (allow : Bool) :
    Keeps s (sendMessage host s c message allow).2 [] := by
  rcases sendMessage_cases host s c message allow with quiet | ⟨m,peer,message',encoded,missing,_,quiet,found,
    fits,parked⟩
  · exact keeps_quiet quiet
  · exact (keeps_quiet quiet).trans ((keeps_deferMessage host message' missing found fits).trans (keeps_quiet parked))

theorem keeps_sendReply (key : PendingKey) (remote : ObjectId) (results : List WireValue)
    (error : Option StructuredRemoteError) : Keeps s (sendReply host s key remote results error).2 [] := by
  simp only [sendReply]
  split
  · exact .refl s
  rename_i incoming found
  by_cases other : incoming.remote ≠ remote
  · rw [if_pos other]
    exact .refl s
  rw [if_neg other]
  split
  · exact .refl s
  obtain ⟨quiet,incomings⟩ := quiet_replyInTime host s incoming
  generalize replyInTime host s incoming = checked at quiet incomings
  have still : checked.2.incomingRequests.find? key = some incoming := by rw [incomings,found]
  have closed := (keeps_quiet quiet).trans (keeps_closeHandler still)
  split
  · exact closed
  · exact closed.trans (keeps_sendMessage ..)

theorem keeps_closeIncoming (closing : List (PendingKey × IncomingRequest))
    (present : ∀ e ∈ closing, s.incomingRequests.contains e.1) (distinct : (closing.map Prod.fst).Nodup) :
    Keeps s (closeIncoming host s closing) [] := by
  induction closing generalizing s with
  | nil => exact .refl s
  | cons e rest ih =>
    obtain ⟨key,incoming⟩ := e
    obtain ⟨notLater,restDistinct⟩ := nodup_cons.mp distinct
    have quiet := quiet_answerUnavailable host s key incoming
    simp only [closeIncoming]
    generalize answerUnavailable host s key incoming = m at quiet
    have same : ∀ k, m.incomingRequests.contains k = s.incomingRequests.contains k := fun k => by
      rw [Bool.eq_iff_iff,contains_iff_mem_keys,contains_iff_mem_keys,quiet.incoming]
    have here : m.incomingRequests.contains key := by rw [same]; exact present (key,incoming) (by simp)
    obtain ⟨r,found⟩ := contains_iff.mp here
    refine (keeps_quiet quiet).trans ((keeps_closeHandler found).trans (ih _ ?_ restDistinct))
    intro e member
    have other : e.1 ≠ key := fun equal => notLater (mem_map.mpr ⟨e,member,equal⟩)
    have stays : m.incomingRequests.contains e.1 := by
      rw [same]; exact present e (.tail _ member)
    simpa [closeHandler,SortedMap.contains,find?_erase,other] using stays

end
end Gargantuan.RemoteManager
