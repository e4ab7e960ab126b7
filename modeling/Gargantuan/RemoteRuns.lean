import Gargantuan.RemotePump

/-!
What holds in every configuration of every run, also while user code runs: the books are
balanced, and the completion of every accepted request was invoked, is owed by an
operation that is still running, or belongs to a request that is still pending.
-/
namespace Gargantuan.RemoteManager
open List SortedMap Frame Books

section
variable {ε : Type} {s t : State ε} (host : Host ε)

def dispatchingOn (stack : List Frame) : Bool := stack.any Frame.dispatching

structure Sound (c : Config ε) : Prop where
  balanced : Balanced c.state
  requests : Requests c.state (owedOn c.stack)
  queueMetric : dispatchingOn c.stack = false → QueueMetric c.state

variable {frames stack : List Frame} {owed : List Nat}

theorem Sound.replace {frame : Frame} {rest : List Frame} (sound : Sound ⟨s,frame :: rest⟩)
    (steps : Preserves s t (frames)) (owes : frame.owed = []) (keeps : frame.dispatching = false) :
    Sound ⟨t,frames ++ rest⟩ := by
  have requests : Requests s (owedOn rest) := by simpa [owes] using sound.requests
  obtain ⟨balanced,onward⟩ := steps.sound _ sound.balanced requests
  refine ⟨balanced,by simpa using onward,fun idle => steps.queueMetric (sound.queueMetric ?_)⟩
  simp only [dispatchingOn,any_append,Bool.or_eq_false_iff] at idle
  simp only [dispatchingOn,any_cons,keeps,idle.2,Bool.or_self]

theorem Sound.push (sound : Sound ⟨s,stack⟩) (steps : Preserves s t frames) : Sound ⟨t,frames ++ stack⟩ := by
  obtain ⟨balanced,onward⟩ := steps.sound _ sound.balanced sound.requests
  refine ⟨balanced,by simpa using onward,fun idle => steps.queueMetric (sound.queueMetric ?_)⟩
  simp only [dispatchingOn,any_append,Bool.or_eq_false_iff] at idle
  exact idle.2

theorem requests_invoked {id : Nat} (r : Requests s (id :: owed)) :
    Requests { s with history := { s.history with invoked := s.history.invoked ++ [id] } } owed where
  fresh := r.fresh
  distinct := r.distinct
  ledger := by
    refine r.ledger.trans (.of_eq ?_)
    simp
  owners := r.owners

theorem sound_completions {pending : PendingCompletion} {completions : List PendingCompletion}
    (sound : Sound ⟨s,.completions (pending :: completions) :: stack⟩) :
    Sound ⟨(advance host s (.completions (pending :: completions))).1,
      (advance host s (.completions (pending :: completions))).2 ++ stack⟩ := by
  obtain ⟨balanced,requests,metric⟩ := sound
  cases completion : pending.completion with
  | none =>
    simp only [advance,completion]
    refine ⟨balanced,?_,metric⟩
    simpa [owed,owedBy,completion] using requests
  | some id =>
    simp only [advance,completion]
    refine ⟨⟨balanced.accounts.congr (.of_eq rfl rfl rfl rfl rfl rfl),balanced.deferredMetric,balanced.inFlight⟩,?_,
      metric⟩
    refine requests_invoked ?_
    simpa [owed,owedBy,completion] using requests

theorem preserves_quiet (quiet : Quiet s t) (owes : owedOn frames = []) : Preserves s t frames :=
  preserves (.frames (keeps_quiet quiet).toBooks owes)

theorem preserves_advance (s : State ε) (frame : Frame) (owes : frame.owed = []) (idle : frame.dispatching = false) :
    Preserves s (advance host s frame).1 (advance host s frame).2 := by
  have same : ∀ frames, owedOn frames = [] → Preserves s s frames := fun _ => preserves_quiet (.refl s)
  cases frame with
  | callback c => exact same _ rfl
  | completions rest =>
    cases rest with
    | nil => exact same _ rfl
    | cons pending rest =>
      have none : pending.completion = none ∧ owedBy rest = [] := by
        simpa [owed,owedBy] using owes
      simp only [advance,none]
      exact same _ (by simp [owed,none])
  | drainTerminals =>
    simp only [advance]
    split
    · exact same _ rfl
    · exact preserves_quiet (.of_samePeers rfl rfl rfl rfl rfl rfl rfl rfl rfl) rfl
  | removeTerminals rest =>
    cases rest with
    | nil => exact same _ rfl
    | cons c rest => exact preserves (.frames (keeps_removePeerState s c).toBooks (by simp [advance,owed]))
  | notifyTerminals rest =>
    cases rest with
    | nil => exact same _ rfl
    | cons terminal rest =>
      simp only [advance]
      split <;> exact same _ rfl
  | sendCancellation key remote => exact preserves_quiet (quiet_sendMessage ..) rfl
  | pumpTimeouts now rest =>
    cases rest with
    | nil => exact same _ rfl
    | cons key rest =>
      simp only [advance]
      split
      · exact same _ rfl
      · exact preserves (.frames (keeps_takePending key _).toBooks (by simp [owed]))
  | pumpIncoming now maximumMessages => exact (keeps_pumpIncoming host s now maximumMessages).toBooks.preserves
  | pumpDispatch loop => cases idle
  | broadcast rest remote arguments results =>
    cases rest with
    | nil => exact same _ rfl
    | cons c rest =>
      exact preserves (.frames (keeps_sendEvent host s c remote arguments).toBooks (by simp [advance,owed]))
  | finish result => exact same _ rfl

theorem sound_advance {frame : Frame} (sound : Sound ⟨s,frame :: stack⟩) :
    Sound ⟨(advance host s frame).1,(advance host s frame).2 ++ stack⟩ := by
  by_cases looping : ∃ loop, frame = .pumpDispatch loop
  · obtain ⟨loop,rfl⟩ := looping
    obtain ⟨balanced,requests,metric⟩ := sound
    obtain ⟨b,r⟩ := sound_pumpDispatch host s loop (owedOn stack) balanced (by simpa [owed] using requests)
    refine ⟨b,by simpa [advance] using r,fun idle => ?_⟩
    rcases dispatching_pumpDispatch host s loop with still | refreshed
    · simp [dispatchingOn,advance,still] at idle
    · change QueueMetric (pumpDispatch host s loop).1
      rw [refreshed]
      exact fun _ => rfl
  by_cases completing : ∃ pending rest, frame = .completions (pending :: rest)
  · obtain ⟨pending,rest,rfl⟩ := completing
    exact sound_completions host sound
  have owes : frame.owed = [] := by
    cases frame with
    | completions rest =>
      cases rest with
      | nil => rfl
      | cons pending rest => exact absurd ⟨pending,rest,rfl⟩ completing
    | _ => rfl
  have idle : frame.dispatching = false := by
    cases frame with
    | pumpDispatch loop => exact absurd ⟨loop,rfl⟩ looping
    | _ => rfl
  exact sound.replace (preserves_advance host s frame owes idle) owes idle

theorem preserves_begin (s : State ε) (operation : Operation) :
    Preserves s (begin host s operation).1 (begin host s operation).2 := by
  have finishes : ∀ {m : State ε} {result}, Keeps s m [] → Preserves s m [.finish result] := fun kept =>
    preserves (.frames kept.toBooks rfl)
  cases operation with
  | addPeer c epoch limits => exact preserves (.frames (books_addPeer s c epoch limits) rfl)
  | removePeer c => exact (keeps_removePeer s c).toBooks.preserves
  | registerRemote remote kind => exact finishes (keeps_quiet (quiet_registerRemote s remote kind))
  | unregisterRemote remote => exact (keeps_unregisterRemote host s remote).toBooks.preserves
  | publishRemote c remote materialized => exact finishes (keeps_publishRemote host s c remote materialized)
  | unpublishRemote c remote => exact (keeps_unpublishRemote host s c remote).toBooks.preserves
  | markMaterialized c object => exact finishes (keeps_markMaterialized host s c object)
  | markUnmaterialized c object => exact (keeps_markUnmaterialized host s c object).toBooks.preserves
  | setEventHandler remote handler => exact finishes (keeps_quiet (quiet_setEventHandler s remote handler))
  | setRequestHandler remote handler => exact finishes (keeps_quiet (quiet_setRequestHandler s remote handler))
  | setTerminalHandler handler => exact preserves_quiet (.of_samePeers rfl rfl rfl rfl rfl rfl rfl rfl rfl) rfl
  | sendEvent c remote arguments =>
    exact preserves (.frames (keeps_sendEvent host s c remote arguments).toBooks (by simp [begin,owed]))
  | broadcast remote arguments => exact (keeps_startBroadcast host s remote arguments).toBooks.preserves
  | startRequest c remote arguments callable deadline =>
    exact (preserves_startRequest host s c remote arguments _ deadline fun _ r => freshFor_issuing r callable).1
  | cancelRequest c request => exact (keeps_cancelRequest s ⟨c,request⟩).toBooks.preserves
  | handleTransportEvent event => exact (books_handleTransportEvent host s event).preserves
  | pump maximumMessages => exact (keeps_pump host s maximumMessages).toBooks.preserves
  | reply key remote results error =>
    simp only [begin]
    split
    · exact finishes (keeps_sendReply host s key remote results error)
    · exact finishes (.refl s)
  | destroy => exact (keeps_destroy s).toBooks.preserves

theorem keeps_caught {callback : Callback} (caughtState : caught host s callback = some t) : Keeps s t [] := by
  cases callback <;> simp only [caught,Option.some.injEq,reduceCtorEq] at caughtState
  · subst caughtState
    exact .refl s
  · subst caughtState
    exact keeps_sendReply ..

theorem sound_step {c d : Config ε} {event : Event ε} (sound : Sound c) (stepped : step host c event = some d) :
    Sound d := by
  obtain ⟨s,stack⟩ := c
  cases event with
  | call operation =>
    simp only [step] at stepped
    split at stepped
    · cases stepped
      exact sound.push (preserves_begin host s operation)
    · cases stepped
  | «return» =>
    simp only [step] at stepped
    split at stepped
    · rename_i callback rest
      cases stepped
      exact ⟨sound.balanced,sound.requests,sound.queueMetric⟩
    · cases stepped
  | throw =>
    simp only [step] at stepped
    split at stepped
    · rename_i callback rest
      obtain ⟨m,caughtState,rfl⟩ := Option.map_eq_some_iff.mp stepped
      exact sound.replace (keeps_caught host caughtState).toBooks.preserves rfl rfl
    · cases stepped
  | advance =>
    simp only [step] at stepped
    split at stepped
    · cases stepped
    · cases stepped
    · cases stepped
      exact sound_advance host sound
  | environment value =>
    simp only [step] at stepped
    split at stepped
    · cases stepped
      have quiet : Quiet s { s with environment := value } := .of_samePeers rfl rfl rfl rfl rfl rfl rfl rfl rfl
      exact sound.push (keeps_quiet quiet).toBooks.preserves
    · cases stepped

theorem sound_initial (environment : ε) : Sound (initial environment) where
  balanced := ⟨.nothing rfl (fun _ => rfl) (fun _ => rfl) rfl rfl,fun _ => rfl,rfl⟩
  requests := ⟨nofun,.nil,.refl _,fun _ _ found => nomatch found⟩
  queueMetric _ _ := rfl

theorem sound_reachable {c : Config ε} (reachable : Reachable host c) : Sound c := by
  obtain ⟨environment,events,ran⟩ := reachable
  exact run_preserves (fun _ _ _ => sound_step host) (sound_initial environment) ran

def Gone (s : State ε) (a : AcceptedRequest) : Prop :=
  ∀ peer, s.peers.find? a.key.connection = some peer → a.remote ∈ peer.publishedRemotes →
    peer.publications.find? a.remote ≠ a.publication

structure Counted (s : State ε) (connection : ConnectionId) (peer : PeerState) : Prop where
  pendingOutgoingRequests : peer.pendingOutgoingRequests =
    (s.pendingRequests.keys.filter fun key => key.connection = connection).length
  concurrentHandlers : peer.concurrentHandlers =
    (s.incomingRequests.keys.filter fun key => key.connection = connection).length
  queuedDispatchMessages : peer.queuedDispatchMessages =
    (s.dispatchQueue.filter fun q => q.connection = connection).length
  queuedDispatchBytes : peer.queuedDispatchBytes =
    ((s.dispatchQueue.filter fun q => q.connection = connection).map QueuedMessage.encodedBytes).sum
  deferredReliableBytes : peer.deferredReliableBytes =
    ((s.deferred.filter fun d => d.connection = connection).map fun d => d.encoded.length).sum

def peerSum (s : State ε) (counter : PeerState → Nat) : Nat := (s.peers.entries.map fun e => counter e.2).sum

structure Totalled (s : State ε) (dispatching : Bool) : Prop where
  pendingRequests : s.pendingRequests.size = peerSum s PeerState.pendingOutgoingRequests
  inFlightRequests : s.metrics.inFlightRequests = peerSum s PeerState.pendingOutgoingRequests
  incomingRequests : s.incomingRequests.size = peerSum s PeerState.concurrentHandlers
  dispatchQueue : s.dispatchQueue.length = peerSum s PeerState.queuedDispatchMessages
  queuedDispatchMessages : dispatching = false →
    s.metrics.queuedDispatchMessages = peerSum s PeerState.queuedDispatchMessages
  queuedDispatchBytes : s.metrics.queuedDispatchBytes = peerSum s PeerState.queuedDispatchBytes
  deferredReliableMessages : s.metrics.deferredReliableMessages = s.deferred.length
  deferredReliableBytes : s.metrics.deferredReliableBytes = peerSum s PeerState.deferredReliableBytes

/-- Everything the manager promises about its own accounts. -/
structure Audited (c : Config ε) : Prop where
  invokedAtMostOnce : ∀ a ∈ c.state.history.accepted, c.state.history.invoked.count a.completion ≤ 1
  invokedWhenGone : ∀ a ∈ c.state.history.accepted, Gone c.state a → a.completion ∉ owedOn c.stack →
    c.state.history.invoked.count a.completion = 1
  counted : ∀ connection peer, c.state.peers.find? connection = some peer → Counted c.state connection peer
  totalled : c.state.active = true → Totalled c.state (dispatchingOn c.stack)
  withinBounds : ∀ connection peer, c.state.peers.find? connection = some peer → exceedsBounds c.state peer = false
  noViolation : c.state.metrics.boundViolations = 0
  noUnderflow : c.state.history.underflowed = false

theorem Requests.invoked_nodup (r : Requests s owed) :
    (s.history.invoked ++ (owed ++ pendingCompletions s.pendingRequests)).Nodup :=
  r.ledger.nodup_iff.mp r.distinct

theorem Requests.invoked_of_gone (r : Requests s owed) {a : AcceptedRequest} (member : a ∈ s.history.accepted)
    (gone : Gone s a) (notOwed : a.completion ∉ owed) : a.completion ∈ s.history.invoked := by
  have somewhere := r.ledger.mem_iff.mp (mem_map_of_mem member)
  rcases mem_append.mp somewhere with done | open_
  · exact done
  rcases mem_append.mp open_ with owes | waiting
  · exact absurd owes notOwed
  obtain ⟨⟨key,p⟩,entry,completion⟩ := mem_filterMap.mp waiting
  obtain ⟨publication,owner,recorded⟩ := r.owners key p (find?_eq_some.mpr entry)
  have same := inj_on_of_nodup_map r.distinct (recorded _ completion) member rfl
  obtain ⟨peer,found,published,current,_⟩ := owner.exists_peer
  rw [← same] at gone
  exact absurd current (gone peer found published)

private theorem charge_one {α : Type} (owner : α → ConnectionId) (items : List α) (c : ConnectionId) :
    charge owner (fun _ => 1) items c = (items.filter fun x => owner x = c).length := by
  simp [charge]

theorem Balanced.counted (b : Balanced s) {c : ConnectionId} {peer : PeerState}
    (found : s.peers.find? c = some peer) : Counted s c peer where
  pendingOutgoingRequests := (b.accounts.requests.counted c peer found).trans (charge_one ..)
  concurrentHandlers := (b.accounts.running.counted c peer found).trans (charge_one ..)
  queuedDispatchMessages := (b.accounts.queueMessages.counted c peer found).trans (charge_one ..)
  queuedDispatchBytes := b.accounts.queueBytes.counted c peer found
  deferredReliableBytes := b.accounts.deferredBytes.counted c peer found

private theorem sum_one {α : Type} (items : List α) : (items.map fun _ => 1).sum = items.length := by simp

theorem Balanced.totalled (b : Balanced s) (on : s.active) {dispatching : Bool}
    (metric : dispatching = false → QueueMetric s) : Totalled s dispatching := by
  have outgoing : s.pendingRequests.size = peerSum s PeerState.pendingOutgoingRequests := by
    rw [← length_keys,← sum_one]
    exact b.accounts.requests.total.symm
  have queue : s.dispatchQueue.length = peerSum s PeerState.queuedDispatchMessages := by
    rw [← sum_one]
    exact b.accounts.queueMessages.total.symm
  refine ⟨outgoing,b.inFlight.trans outgoing,?_,queue,fun idle => (metric idle on).trans queue,?_,
    b.deferredMetric on,?_⟩
  · rw [← length_keys,← sum_one]
    exact b.accounts.running.total.symm
  · exact (b.accounts.queueTotal on).trans b.accounts.queueBytes.total.symm
  · exact (b.accounts.deferredTotal on).trans b.accounts.deferredBytes.total.symm

/-- In every configuration of every run the accounts are right and every completion is accounted for. -/
theorem audited_reachable {c : Config ε} (reachable : Reachable host c) : Audited c := by
  obtain ⟨balanced,requests,metric⟩ := sound_reachable host reachable
  have once : c.state.history.invoked.Nodup := (nodup_append.mp requests.invoked_nodup).1
  exact {
    invokedAtMostOnce := fun a _ => nodup_iff_count_le_one.mp once a.completion
    invokedWhenGone := fun a member gone notOwed =>
      count_eq_one_of_mem once (requests.invoked_of_gone member gone notOwed)
    counted := fun _ _ found => balanced.counted found
    totalled := fun on => balanced.totalled on metric
    withinBounds := fun _ _ found => balanced.accounts.within found
    noViolation := balanced.accounts.noViolation
    noUnderflow := balanced.accounts.noUnderflow }

end

/-- A host that shows and accepts everything, at a clock that stands still. -/
def plainHost : Host Unit where
  isVisible _ _ _ := true
  resolveObject _ _ := true
  getTime _ := (0,())
  submit _ _ := ({ status := .accepted },())

def firstRemote : ObjectId := ⟨7,1⟩
def firstPeer : ConnectionId := ⟨1,1⟩

def setUp (kind : RemoteInstanceKind) : List (Event Unit) :=
  [.call (.registerRemote firstRemote kind),.advance,.call (.addPeer firstPeer ⟨1⟩ .nativeCeilings),.advance,
    .call (.publishRemote firstPeer firstRemote true),.advance]

def payloadOf (message : RemoteMessage) : List UInt8 := (encodeRemoteMessage message).toOption.getD []

def removalRun : List (Event Unit) :=
  setUp .function ++ [.call (.startRequest firstPeer firstRemote [] true 1000),.advance,
    .call (.removePeer firstPeer),.advance,.return,.advance,.advance]

theorem audited_removalRun : ∃ c, run (step plainHost) (initial ()) removalRun = some c ∧ c.stack = [] ∧
    c.state.history.invoked = [0] ∧ Audited c := by
  have ran : (run (step plainHost) (initial ()) removalRun).map (fun c => (c.stack,c.state.history.invoked)) =
      some ([],[0]) := by decide +kernel
  obtain ⟨c,reached,same⟩ := Option.map_eq_some_iff.mp ran
  obtain ⟨stack,invoked⟩ := Prod.mk.inj same
  exact ⟨c,reached,stack,invoked,audited_reachable plainHost ⟨(),removalRun,reached⟩⟩

def handlerRun : List (Event Unit) :=
  setUp .reliableEvent ++ [.call (.setEventHandler firstRemote (some 0)),.advance,
    .call (.handleTransportEvent (.received firstPeer .reliableOrdered .reliableApplication .none
      (payloadOf { remote := firstRemote }))),.advance,.call (.pump 1),.advance,.advance,.advance]

/-- While a handler runs, the metric of the queue length still counts the message it handles. -/
theorem queuedDispatchMessages_lags : ∃ c, Reachable plainHost c ∧ c.inUserCode = true ∧ c.state.active = true ∧
    c.state.metrics.queuedDispatchMessages ≠ peerSum c.state PeerState.queuedDispatchMessages := by
  have ran : (run (step plainHost) (initial ()) handlerRun).map (fun c => (c.inUserCode,c.state.active,
      c.state.metrics.queuedDispatchMessages,peerSum c.state PeerState.queuedDispatchMessages)) =
      some (true,true,1,0) := by decide +kernel
  obtain ⟨c,reached,same⟩ := Option.map_eq_some_iff.mp ran
  simp only [Prod.mk.injEq] at same
  obtain ⟨user,active,metric,sum⟩ := same
  exact ⟨c,⟨(),handlerRun,reached⟩,user,active,by rw [metric,sum]; decide⟩

end Gargantuan.RemoteManager
