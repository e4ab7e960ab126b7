import Gargantuan.SimulatedLifecycle

/-!
The network as a whole: how connections are wired by links, what waits on the schedule
for each of them, and the order in which reliable messages arrive.
-/
namespace Gargantuan.SimulatedTransport
open SortedMap Option ScheduledItem SimulatedConnection
open List (append_nil filter_append map_cons nil_append singleton_append)
open RemoteManager (DisconnectInfo)

def Side (link : SimulatedLink) (t : Nat) (c : ConnectionId) (t' : Nat) (c' : ConnectionId) : Prop :=
  (t = link.firstTransportId ∧ c = link.firstConnection ∧ t' = link.secondTransportId ∧ c' = link.secondConnection) ∨
  (t = link.secondTransportId ∧ c = link.secondConnection ∧ t' = link.firstTransportId ∧ c' = link.firstConnection)

variable {c : ConnectionId} {link : SimulatedLink} {t id : Nat} {n : Network} {c' : ConnectionId}

theorem Side.swap {t' : Nat} (side : Side link t c t' c') : Side link t' c' t c := by
  rcases side with ⟨rfl,rfl,rfl,rfl⟩ | ⟨rfl,rfl,rfl,rfl⟩
  · exact .inr ⟨rfl,rfl,rfl,rfl⟩
  · exact .inl ⟨rfl,rfl,rfl,rfl⟩

/-- Every link is there with both of its ends, and nothing else is connected or scheduled. -/
structure Wired (n : Network) : Prop where
  links : ∀ id link, n.links.find? id = some link →
    link.id = id ∧ id < n.nextLinkId ∧ link.firstTransportId ≠ link.secondTransportId
  ends : ∀ id link, n.links.find? id = some link → ∀ t c t' c', Side link t c t' c' →
    ∃ x, findConnection n t c = some x ∧ x.linkId = id ∧ x.remoteTransportId = t' ∧ x.remoteConnection = c'
  connections : ∀ t c x, findConnection n t c = some x →
    ∃ link, n.links.find? x.linkId = some link ∧ Side link t c x.remoteTransportId x.remoteConnection
  scheduled : ∀ e ∈ n.scheduled.entries, ∃ link, n.links.find? e.2.linkId = some link ∧
    (e.2.kind = .message → Side link e.2.sourceTransportId e.2.sourceConnection e.2.destinationTransportId
      e.2.destinationConnection)
  ties : ∀ e ∈ n.scheduled.entries, (ofLex e.1).2 < n.nextTieBreaker

variable {x y : SimulatedConnection} {f : SimulatedConnection → SimulatedConnection} {item : ScheduledItem}
  {a b flight : List ScheduledItem}

theorem Wired.peer (wired : Wired n) (found : findConnection n t c = some x) :
    ∃ y, findConnection n x.remoteTransportId x.remoteConnection = some y ∧ y.linkId = x.linkId ∧
      y.remoteTransportId = t ∧ y.remoteConnection = c ∧ x.remoteTransportId ≠ t := by
  obtain ⟨link,stored,side⟩ := wired.connections t c x found
  obtain ⟨-,-,different⟩ := wired.links _ link stored
  obtain ⟨y,foundPeer,linkId,transport,connection⟩ := wired.ends _ link stored _ _ _ _ side.swap
  refine ⟨y,foundPeer,linkId,transport,connection,?_⟩
  rcases side with ⟨rfl,-,other,-⟩ | ⟨rfl,-,other,-⟩
  · exact fun same => different (same.symm.trans other)
  · exact fun same => different (other.symm.trans same)

def ScheduledItem.isFrom (t : Nat) (c : ConnectionId) (item : ScheduledItem) : Bool :=
  decide (item.kind = .message) && decide (item.sourceTransportId = t) && decide (item.sourceConnection = c)

def ScheduledItem.isReliable (item : ScheduledItem) : Bool := decide (item.delivery = .reliableOrdered)

def ScheduledItem.isReliableTo (t : Nat) (c : ConnectionId) (item : ScheduledItem) : Bool :=
  decide (item.kind = .message) && item.isReliable && decide (item.destinationTransportId = t) &&
    decide (item.destinationConnection = c)

def reliableBytes (t : Nat) (c : ConnectionId) (items : List ScheduledItem) : Nat :=
  ((items.filter fun item => item.isFrom t c && item.isReliable).map fun item => item.payload.length).sum

def unreliableMessages (t : Nat) (c : ConnectionId) (items : List ScheduledItem) : Nat :=
  items.countP fun item => item.isFrom t c && !item.isReliable

def items (n : Network) : List ScheduledItem := n.scheduled.entries.map Prod.snd

def deliveries (t : Nat) (c : ConnectionId) (items : List ScheduledItem) : List TransportEvent :=
  (items.filter (ScheduledItem.isReliableTo t c)).map receivedEvent

def TransportEvent.isReliable : TransportEvent → Bool
  | .received _ .reliableOrdered _ _ _ => true
  | _ => false

def SimulatedTransportState.received (t : SimulatedTransportState) (c : ConnectionId) : List TransportEvent :=
  (t.observed c).filter TransportEvent.isReliable

def receivedAt (n : Network) (t : Nat) (c : ConnectionId) : List TransportEvent :=
  match n.transports.find? t with
  | none => []
  | some state => state.received c

def Accounted (n : Network) (flight : List ScheduledItem) : Prop :=
  ∀ t c x, findConnection n t c = some x → reliableBytes t c (flight ++ items n) ≤ x.reliableQueueBytes ∧
    unreliableMessages t c (flight ++ items n) ≤ x.queuedUnreliableMessages

structure Ordered (n : Network) (flight : List ScheduledItem) : Prop where
  paced : ∀ t c x, findConnection n t c = some x → ∀ e ∈ n.scheduled.entries,
    e.2.isReliableTo x.remoteTransportId x.remoteConnection = true → (ofLex e.1).1 ≤ x.lastReliableDelivery
  delivered : ∀ t c, receivedAt n t c <+: deliveries t c n.history.accepted
  flowing : ∀ t c x y, findConnection n t c = some x →
    findConnection n x.remoteTransportId x.remoteConnection = some y →
    x.currentState ≠ .closing → y.currentState ≠ .closing →
    deliveries x.remoteTransportId x.remoteConnection n.history.accepted =
      receivedAt n x.remoteTransportId x.remoteConnection ++
        deliveries x.remoteTransportId x.remoteConnection (flight ++ items n)
  accepted : ∀ item ∈ n.history.accepted, item.destinationTransportId < n.nextTransportId ∧
    ∀ t, n.transports.find? item.destinationTransportId = some t → item.destinationConnection ∈ t.linked

structure Tended (n : Network) : Prop where
  asserted : n.history.assertFailed = false
  exact_ : n.history.underflowed = false
  kept : ∀ id t, n.transports.find? id = some t → t.Kept
  roomy : ∀ id t, n.transports.find? id = some t → t.Roomy n.configuration.maximumPendingEventsPerTransport
  known : ∀ id t, n.transports.find? id = some t → id < n.nextTransportId

structure Sound (n : Network) : Prop where
  tended : Tended n
  wired : Wired n
  accounted : Accounted n []
  ordered : Ordered n []

/-! ### Changes that keep the wiring -/

structure Alike (x x' : SimulatedConnection) : Prop where
  linkId : x'.linkId = x.linkId
  transport : x'.remoteTransportId = x.remoteTransportId
  connection : x'.remoteConnection = x.remoteConnection
  open_ : x'.currentState ≠ .closing → x.currentState ≠ .closing
  later : x.lastReliableDelivery ≤ x'.lastReliableDelivery

theorem Alike.refl (x : SimulatedConnection) : Alike x x := ⟨rfl,rfl,rfl,id,le_rfl⟩

structure Reshaped (n m : Network) : Prop where
  links : m.links = n.links
  scheduled : m.scheduled = n.scheduled
  ties : m.nextTieBreaker = n.nextTieBreaker
  linkIds : m.nextLinkId = n.nextLinkId
  transportIds : m.nextTransportId = n.nextTransportId
  accepted : m.history.accepted = n.history.accepted
  received : ∀ t c, receivedAt m t c = receivedAt n t c
  linked : ∀ id u, m.transports.find? id = some u →
    ∃ t, n.transports.find? id = some t ∧ ∀ c ∈ t.linked, c ∈ u.linked
  onward : ∀ t c x, findConnection n t c = some x → ∃ x', findConnection m t c = some x' ∧ Alike x x'
  back : ∀ t c x', findConnection m t c = some x' → ∃ x, findConnection n t c = some x ∧ Alike x x'

variable {s : SimulatedTransportState}

theorem findConnection_of (found : n.transports.find? t = some s) :
    findConnection n t c = s.connections.find? c := by
  rw [findConnection,found]
  rfl

theorem findConnection_eq_some :
    findConnection n t c = some x ↔ ∃ s, n.transports.find? t = some s ∧ s.connections.find? c = some x := by
  rw [findConnection,bind_eq_some_iff]

theorem receivedAt_of (found : n.transports.find? t = some s) :
    receivedAt n t c = s.received c := by
  rw [receivedAt,found]

section Reshaping
variable {n m : Network}

theorem Reshaped.items_eq (reshaped : Reshaped n m) : items m = items n := by
  rw [items,reshaped.scheduled,items]

theorem Wired.reshape (wired : Wired n) (reshaped : Reshaped n m) : Wired m where
  links := by rw [reshaped.links,reshaped.linkIds]; exact wired.links
  ends := by
    rw [reshaped.links]
    intro id link found t c t' c' side
    obtain ⟨x,foundEnd,linkId,transport,connection⟩ := wired.ends id link found t c t' c' side
    obtain ⟨x',foundThere,alike⟩ := reshaped.onward t c x foundEnd
    exact ⟨x',foundThere,alike.linkId.trans linkId,alike.transport.trans transport,
      alike.connection.trans connection⟩
  connections := by
    intro t c x' found
    obtain ⟨x,foundHere,alike⟩ := reshaped.back t c x' found
    obtain ⟨link,stored,side⟩ := wired.connections t c x foundHere
    rw [reshaped.links,alike.linkId,alike.transport,alike.connection]
    exact ⟨link,stored,side⟩
  scheduled := by rw [reshaped.scheduled,reshaped.links]; exact wired.scheduled
  ties := by rw [reshaped.scheduled,reshaped.ties]; exact wired.ties

theorem Ordered.reshape (ordered : Ordered n flight) (reshaped : Reshaped n m) : Ordered m flight where
  paced := by
    intro t c x' found
    obtain ⟨x,foundHere,alike⟩ := reshaped.back t c x' found
    rw [reshaped.scheduled,alike.transport,alike.connection]
    intro e member reliable
    exact (ordered.paced t c x foundHere e member reliable).trans alike.later
  delivered := by
    intro t c
    rw [reshaped.received,reshaped.accepted]
    exact ordered.delivered t c
  flowing := by
    intro t c x' y' found foundPeer openHere openThere
    obtain ⟨x,foundHere,alike⟩ := reshaped.back t c x' found
    rw [alike.transport,alike.connection] at foundPeer ⊢
    obtain ⟨y,foundOther,alikeOther⟩ := reshaped.back _ _ y' foundPeer
    rw [reshaped.received,reshaped.accepted,reshaped.items_eq]
    exact ordered.flowing t c x y foundHere foundOther (alike.open_ openHere) (alikeOther.open_ openThere)
  accepted := by
    rw [reshaped.accepted,reshaped.transportIds]
    intro item member
    obtain ⟨below,linked⟩ := ordered.accepted item member
    refine ⟨below,?_⟩
    intro u found
    obtain ⟨t,foundHere,kept⟩ := reshaped.linked _ u found
    exact kept _ (linked t foundHere)

theorem Accounted.reshape (accounted : Accounted n flight) (reshaped : Reshaped n m)
    (counters : ∀ t c x x', findConnection n t c = some x → findConnection m t c = some x' →
      x.reliableQueueBytes ≤ x'.reliableQueueBytes ∧ x.queuedUnreliableMessages ≤ x'.queuedUnreliableMessages) :
    Accounted m flight := by
  intro t c x' found
  obtain ⟨x,foundHere,-⟩ := reshaped.back t c x' found
  obtain ⟨reliable,unreliable⟩ := accounted t c x foundHere
  obtain ⟨bytes,messages⟩ := counters t c x x' foundHere found
  rw [reshaped.items_eq]
  exact ⟨reliable.trans bytes,unreliable.trans messages⟩

structure Replaced (n m : Network) (id : Nat) (t u : SimulatedTransportState) : Prop where
  found : n.transports.find? id = some t
  transports : ∀ other, m.transports.find? other = if other = id then some u else n.transports.find? other
  links : m.links = n.links
  scheduled : m.scheduled = n.scheduled
  ties : m.nextTieBreaker = n.nextTieBreaker
  linkIds : m.nextLinkId = n.nextLinkId
  transportIds : m.nextTransportId = n.nextTransportId
  accepted : m.history.accepted = n.history.accepted
  configuration : m.configuration = n.configuration

variable {u : SimulatedTransportState} {t : SimulatedTransportState}

section
variable (replaced : Replaced n m id t u)
include replaced

theorem Replaced.findConnection_self (c : ConnectionId) : findConnection m id c = u.connections.find? c :=
  findConnection_of (by rw [replaced.transports,if_pos rfl])

theorem Replaced.findConnection_other {other : Nat} (different : other ≠ id)
    (c : ConnectionId) : findConnection m other c = findConnection n other c := by
  rw [findConnection,replaced.transports,if_neg different,findConnection]

theorem Replaced.receivedAt_other {other : Nat} (different : other ≠ id)
    (c : ConnectionId) : receivedAt m other c = receivedAt n other c := by
  rw [receivedAt,replaced.transports,if_neg different,receivedAt]

theorem Replaced.reshaped (received : ∀ c, u.received c = t.received c) (linked : ∀ c ∈ t.linked, c ∈ u.linked)
    (onward : ∀ c x, t.connections.find? c = some x → ∃ x', u.connections.find? c = some x' ∧ Alike x x')
    (back : ∀ c x', u.connections.find? c = some x' → ∃ x, t.connections.find? c = some x ∧ Alike x x') :
    Reshaped n m where
  links := replaced.links
  scheduled := replaced.scheduled
  ties := replaced.ties
  linkIds := replaced.linkIds
  transportIds := replaced.transportIds
  accepted := replaced.accepted
  received := by
    intro other c
    by_cases here : other = id
    · subst here
      rw [receivedAt_of replaced.found,receivedAt_of (by rw [replaced.transports,if_pos rfl]),received]
    · exact replaced.receivedAt_other here c
  linked := by
    intro other v found
    rw [replaced.transports] at found
    split_ifs at found with here
    · cases found
      exact ⟨t,here ▸ replaced.found,linked⟩
    · exact ⟨v,found,fun _ member => member⟩
  onward := by
    intro other c x found
    by_cases here : other = id
    · subst here
      rw [findConnection_of replaced.found] at found
      rw [replaced.findConnection_self]
      exact onward c x found
    · rw [replaced.findConnection_other here]
      exact ⟨x,found,.refl x⟩
  back := by
    intro other c x' found
    by_cases here : other = id
    · subst here
      rw [replaced.findConnection_self] at found
      rw [findConnection_of replaced.found]
      exact back c x' found
    · rw [replaced.findConnection_other here] at found
      exact ⟨x',found,.refl x'⟩

end

theorem Tended.replace (tended : Tended n) (replaced : Replaced n m id t u)
    (asserted : m.history.assertFailed = false) (exact_ : m.history.underflowed = false) (kept : u.Kept)
    (roomy : u.Roomy n.configuration.maximumPendingEventsPerTransport) : Tended m where
  asserted := asserted
  exact_ := exact_
  kept := by
    intro other v found
    rw [replaced.transports] at found
    split_ifs at found with here
    · cases found; exact kept
    · exact tended.kept other v found
  roomy := by
    rw [replaced.configuration]
    intro other v found
    rw [replaced.transports] at found
    split_ifs at found with here
    · cases found; exact roomy
    · exact tended.roomy other v found
  known := by
    rw [replaced.transportIds]
    intro other v found
    rw [replaced.transports] at found
    split_ifs at found with here
    · rw [here]; exact tended.known id t replaced.found
    · exact tended.known other v found

end Reshaping

theorem find?_modifyConnection {t : SimulatedTransportState} (found : n.transports.find? id = some t)
    (c : ConnectionId) (f : SimulatedConnection → SimulatedConnection) :
    Replaced n (modifyConnection n id c f) id t { t with connections := t.connections.modify c f } := by
  refine ⟨found,?_,rfl,rfl,rfl,rfl,rfl,rfl,rfl⟩
  intro other
  show (n.transports.modify id _).find? other = _
  rw [find?_modify]
  split_ifs with here
  · rw [here,found]; rfl
  · rfl

theorem modifyConnection_of_absent (absent : n.transports.find? id = none) (c : ConnectionId)
    (f : SimulatedConnection → SimulatedConnection) : modifyConnection n id c f = n := by
  have same : n.transports.modify id (fun t => { t with connections := t.connections.modify c f }) = n.transports := by
    apply ext_find?
    intro other
    rw [find?_modify]
    split_ifs with here
    · rw [here,absent]; rfl
    · rfl
  rw [modifyConnection,same]

theorem findConnection_modifyConnection (n : Network) (id : Nat) (c : ConnectionId)
    (f : SimulatedConnection → SimulatedConnection) (other : Nat) (d : ConnectionId) :
    findConnection (modifyConnection n id c f) other d =
      if other = id ∧ d = c then (findConnection n other d).map f else findConnection n other d := by
  rcases present : n.transports.find? id with _ | t
  · rw [modifyConnection_of_absent present]
    split_ifs with here
    · rw [here.1,findConnection,present]; rfl
    · rfl
  · have replaced := find?_modifyConnection present c f
    by_cases here : other = id
    · subst here
      rw [replaced.findConnection_self,findConnection_of present,find?_modify]
      simp only [true_and]
    · rw [replaced.findConnection_other here,if_neg fun both => here both.1]

theorem reshaped_modifyConnection (n : Network) (id : Nat) (c : ConnectionId)
    (alike : ∀ x, findConnection n id c = some x → Alike x (f x)) : Reshaped n (modifyConnection n id c f) := by
  rcases present : n.transports.find? id with _ | t
  · rw [modifyConnection_of_absent present]
    exact ⟨rfl,rfl,rfl,rfl,rfl,rfl,fun _ _ => rfl,fun _ u found => ⟨u,found,fun _ member => member⟩,
      fun _ _ x found => ⟨x,found,.refl x⟩,fun _ _ x found => ⟨x,found,.refl x⟩⟩
  · rw [findConnection_of present] at alike
    refine (find?_modifyConnection present c f).reshaped (fun _ => rfl) (fun _ member => member) ?_ ?_
    · intro d x found
      show ∃ x', (t.connections.modify c f).find? d = some x' ∧ _
      rw [find?_modify]
      split_ifs with here
      · subst here
        rw [found]
        exact ⟨f x,rfl,alike x found⟩
      · exact ⟨x,found,.refl x⟩
    · intro d x' found
      rw [find?_modify] at found
      split_ifs at found with here
      · subst here
        obtain ⟨x,foundHere,rfl⟩ := map_eq_some_iff.mp found
        exact ⟨x,foundHere,alike x foundHere⟩
      · exact ⟨x',found,.refl x'⟩

theorem Tended.modifyConnection (tended : Tended n) (id : Nat) (c : ConnectionId)
    (state : ∀ x, findConnection n id c = some x → (f x).currentState = x.currentState ∨ (f x).currentState = .closing) :
    Tended (modifyConnection n id c f) := by
  rcases present : n.transports.find? id with _ | t
  · rwa [modifyConnection_of_absent present]
  · rw [findConnection_of present] at state
    refine tended.replace (find?_modifyConnection present c f) tended.asserted tended.exact_
      ((tended.kept id t present).change state) ?_
    have roomy := tended.roomy id t present
    unfold SimulatedTransportState.Roomy at roomy ⊢
    rcases there : t.connections.find? c with _ | x
    · have same : t.connections.modify c f = t.connections := by
        apply ext_find?
        intro other
        rw [find?_modify]
        split_ifs with here
        · rw [here,there]; rfl
        · rfl
      rwa [same]
    · have trade := SimulatedTransportState.reserved_modify (f := f) there
      have less : reservedFor (f x) ≤ reservedFor x := by
        unfold reservedFor
        rcases state x there with same | closes
        · rw [same]
        · rw [closes,if_neg nofun]
          split_ifs <;> omega
      show t.events.length + _ ≤ _
      omega

/-! ### Scheduling -/

/-- The schedule has room for one item more. -/
def CanTake (n : Network) : Prop :=
  n.scheduled.size < n.configuration.maximumScheduledEvents ∧ n.nextTieBreaker ≠ maximumUnsigned

def scheduledNetwork (n : Network) (item : ScheduledItem) : Network :=
  { n with
    scheduled := n.scheduled.insert (toLex (item.time,n.nextTieBreaker)) item
    nextTieBreaker := n.nextTieBreaker + 1 }

theorem schedule_cases (n : Network) (item : ScheduledItem) :
    schedule n item = (true,scheduledNetwork n item) ∨ schedule n item = (false,n) ∧ ¬ CanTake n := by
  unfold schedule CanTake
  split_ifs with full
  · refine .inr ⟨rfl,?_⟩
    simp only [ge_iff_le,Bool.or_eq_true,decide_eq_true_eq] at full
    omega
  · exact .inl rfl

theorem CanTake.scheduled (room : CanTake n) (item : ScheduledItem) :
    schedule n item = (true,scheduledNetwork n item) := by
  rcases schedule_cases n item with scheduled | ⟨-,full⟩
  · exact scheduled
  · exact absurd room full

theorem Wired.fresh_key (wired : Wired n) (time : SimulatedTime) (e : ScheduledKey × ScheduledItem)
    (member : e ∈ n.scheduled.entries) : e.1 ≠ toLex (time,n.nextTieBreaker) := by
  intro same
  have below := wired.ties e member
  rw [same] at below
  exact lt_irrefl _ below

theorem mem_scheduledNetwork {e : ScheduledKey × ScheduledItem}
    (member : e ∈ (scheduledNetwork n item).scheduled.entries) :
    e = (toLex (item.time,n.nextTieBreaker),item) ∨ e ∈ n.scheduled.entries :=
  mem_insertIn member

theorem Wired.schedule (wired : Wired n) (stored : n.links.find? item.linkId = some link)
    (side : item.kind = .message → Side link item.sourceTransportId item.sourceConnection item.destinationTransportId
      item.destinationConnection) : Wired (scheduledNetwork n item) where
  links := wired.links
  ends := wired.ends
  connections := wired.connections
  scheduled := by
    intro e member
    rcases mem_scheduledNetwork member with rfl | old
    · exact ⟨link,stored,side⟩
    · exact wired.scheduled e old
  ties := by
    intro e member
    show (ofLex e.1).2 < n.nextTieBreaker + 1
    rcases mem_scheduledNetwork member with rfl | old
    · exact Nat.lt_succ_self _
    · exact Nat.lt_succ_of_lt (wired.ties e old)

theorem filter_items_schedule (wired : Wired n) (p : ScheduledItem → Bool)
    (after : p item → ∀ e ∈ n.scheduled.entries, p e.2 → (ofLex e.1).1 ≤ item.time) :
    (items (scheduledNetwork n item)).filter p = (items n).filter p ++ [item].filter p := by
  have inserted := filter_insertIn_last
    n.scheduled.sorted (wired.fresh_key item.time) (by
      intro passes e member there
      have early := after passes e member there
      have tie := wired.ties e member
      rw [Prod.Lex.lt_iff]
      rcases lt_or_eq_of_le early with sooner | same
      · exact .inl sooner
      · exact .inr ⟨same,tie⟩)
  have mapped := congrArg (List.map Prod.snd) inserted
  simp only [items]
  rw [List.filter_map,List.filter_map]
  change List.map Prod.snd (.filter (fun e => p e.2) (SortedMap.insertIn _ _ _)) = _
  rw [mapped,List.map_append]
  congr 1
  by_cases passes : p item = true
  · simp [passes]
  · simp [passes]

theorem items_schedule_perm (wired : Wired n) (item : ScheduledItem) :
    (items (scheduledNetwork n item)).Perm (item :: items n) := by
  have absent : n.scheduled.find? (toLex (item.time,n.nextTieBreaker)) = none := by
    rw [find?_eq_none]
    intro x member
    exact wired.fresh_key item.time _ member rfl
  exact (insert_perm item absent).map Prod.snd

theorem reliableBytes_perm (perm : a.Perm b) : reliableBytes t c a = reliableBytes t c b :=
  ((perm.filter _).map _).sum_eq

theorem unreliableMessages_perm (perm : a.Perm b) : unreliableMessages t c a = unreliableMessages t c b :=
  perm.countP_eq _

theorem reliableBytes_cons (t : Nat) (c : ConnectionId) (item : ScheduledItem) (rest : List ScheduledItem) :
    reliableBytes t c (item :: rest) =
      (if item.isFrom t c && item.isReliable then item.payload.length else 0) + reliableBytes t c rest := by
  unfold reliableBytes
  rw [List.filter_cons]
  split_ifs <;> simp

theorem unreliableMessages_cons (t : Nat) (c : ConnectionId) (item : ScheduledItem) (rest : List ScheduledItem) :
    unreliableMessages t c (item :: rest) =
      unreliableMessages t c rest + if item.isFrom t c && !item.isReliable then 1 else 0 := by
  unfold unreliableMessages
  rw [List.countP_cons]

theorem reliableBytes_sublist (sub : a.Sublist b) : reliableBytes t c a ≤ reliableBytes t c b :=
  ((sub.filter _).map _).sum_le_sum (by simp)

theorem unreliableMessages_sublist (sub : a.Sublist b) : unreliableMessages t c a ≤ unreliableMessages t c b :=
  sub.countP_le

theorem Accounted.schedule_control (accounted : Accounted n []) (wired : Wired n) (control : item.kind ≠ .message) :
    Accounted (scheduledNetwork n item) [] := by
  intro t c x found
  obtain ⟨reliable,unreliable⟩ := accounted t c x found
  have from_ : item.isFrom t c = false := by simp [isFrom,control]
  rw [nil_append] at reliable unreliable ⊢
  rw [reliableBytes_perm (items_schedule_perm wired item),reliableBytes_cons,
    unreliableMessages_perm (items_schedule_perm wired item),unreliableMessages_cons,from_]
  simpa using ⟨reliable,unreliable⟩

theorem deliveries_schedule_of_not (wired : Wired n) (not : item.isReliableTo t c = false) :
    deliveries t c (items (scheduledNetwork n item)) = deliveries t c (items n) := by
  unfold deliveries
  rw [filter_items_schedule wired _ (by simp [not])]
  simp [not]

theorem Ordered.schedule_other (ordered : Ordered n []) (wired : Wired n) (not : ∀ t c, item.isReliableTo t c = false) :
    Ordered (scheduledNetwork n item) [] where
  paced := by
    intro t c x found e member reliable
    rcases mem_scheduledNetwork member with rfl | old
    · rw [not] at reliable
      cases reliable
    · exact ordered.paced t c x found e old reliable
  delivered := ordered.delivered
  flowing := by
    intro t c x y found foundPeer openHere openThere
    have flows := ordered.flowing t c x y found foundPeer openHere openThere
    rw [nil_append] at flows ⊢
    rwa [deliveries_schedule_of_not wired (not _ _)]
  accepted := ordered.accepted

theorem isReliableTo_of_control (control : item.kind ≠ .message) (t : Nat) (c : ConnectionId) :
    item.isReliableTo t c = false := by
  simp [isReliableTo,control]

variable {m : Network}

theorem Tended.of_transports (tended : Tended n) (history : m.history = n.history)
    (transports : m.transports = n.transports) (configuration : m.configuration = n.configuration)
    (transportIds : m.nextTransportId = n.nextTransportId) : Tended m :=
  ⟨history ▸ tended.asserted,history ▸ tended.exact_,transports ▸ tended.kept,
    by rw [transports,configuration]; exact tended.roomy,by rw [transports,transportIds]; exact tended.known⟩

theorem Sound.schedule_control (sound : Sound n) (stored : n.links.find? item.linkId = some link)
    (control : item.kind ≠ .message) : Sound (scheduledNetwork n item) where
  tended := sound.tended.of_transports rfl rfl rfl rfl
  wired := sound.wired.schedule stored fun message => absurd message control
  accounted := sound.accounted.schedule_control sound.wired control
  ordered := sound.ordered.schedule_other sound.wired (isReliableTo_of_control control)

variable {n : Network} {link : SimulatedLink} {item : ScheduledItem}

theorem Sound.schedule_either (sound : Sound n)
    (stored : n.links.find? item.linkId = some link) (control : item.kind ≠ .message) : Sound (schedule n item).2 := by
  rcases schedule_cases n item with scheduled | ⟨refused,-⟩
  · rw [scheduled]
    exact sound.schedule_control stored control
  · rwa [refused]

/-! ### Closing a link -/

def On (link : SimulatedLink) (t : Nat) (c : ConnectionId) : Prop :=
  (t = link.firstTransportId ∧ c = link.firstConnection) ∨ (t = link.secondTransportId ∧ c = link.secondConnection)

theorem Side.on {t' : Nat} (side : Side link t c t' c') : On link t c := by
  rcases side with ⟨rfl,rfl,-,-⟩ | ⟨rfl,rfl,-,-⟩
  · exact .inl ⟨rfl,rfl⟩
  · exact .inr ⟨rfl,rfl⟩

def SimulatedTransportState.shut (t : SimulatedTransportState) (c : ConnectionId) (previous : ConnectionState)
    (information : DisconnectInfo) : SimulatedTransportState :=
  { t.dropConnection c with
    events := (t.dropConnection c).events ++ SimulatedTransportState.closing c previous information }

namespace SimulatedTransportState
variable {t : SimulatedTransportState} {c : ConnectionId} {previous : ConnectionState} {information : DisconnectInfo}

theorem shut_connections : (t.shut c previous information).connections = t.connections.erase c := by
  simp [shut,dropConnection,removeConnectionEvents]

theorem shut_linked : (t.shut c previous information).linked = t.linked := releaseConnection_linked

theorem shut_received_other {other : ConnectionId} (different : other ≠ c) :
    (t.shut c previous information).received other = t.received other := by
  have all : ∀ x ∈ closing c previous information, x.connection = c := by simp [closing,TransportEvent.connection]
  have dropped : (t.dropConnection c).observed = (removeConnectionEvents t c).observed :=
    observed_of_same (by simp [dropConnection]) (by simp [dropConnection])
  have same := observed_push_other (t := t.dropConnection c) all different
  unfold received shut
  rw [same,dropped,observed_remove_other different]

theorem shut_received_own : (t.shut c previous information).received c <+: t.received c := by
  have all : ∀ x ∈ closing c previous information, x.connection = c := by simp [closing,TransportEvent.connection]
  have dropped : (t.dropConnection c).observed = (removeConnectionEvents t c).observed :=
    observed_of_same (by simp [dropConnection]) (by simp [dropConnection])
  have same := observed_push_own (t := t.dropConnection c) all
  unfold received shut
  rw [same,dropped,observed_remove_own,filter_append]
  have none : (closing c previous information).filter TransportEvent.isReliable = [] := rfl
  rw [none,append_nil]
  exact (polled_prefix_observed c).filter _

end SimulatedTransportState

theorem closeOneSide_replaced (tended : Tended n) {t : SimulatedTransportState}
    (found : n.transports.find? id = some t) (there : t.connections.find? c = some x) (information : DisconnectInfo) :
    Replaced n (closeOneSide n id c information) id t (t.shut c x.currentState information) ∧
      Tended (closeOneSide n id c information) := by
  have room := (tended.roomy id t found).drop there
  have capacity : hasEventCapacityWithReservations n (t.dropConnection c) 2 :=
    SimulatedTransportState.hasEventCapacity_iff.mpr room
  have opened : closeOneSide n id c information = { n with
      history := { n.history with
        assertFailed := n.history.assertFailed || !hasEventCapacityWithReservations n (t.dropConnection c) 2 }
      transports := n.transports.insert id (t.shut c x.currentState information) } := by
    simp only [closeOneSide,found,there]
    rfl
  have replaced : Replaced n (closeOneSide n id c information) id t (t.shut c x.currentState information) := by
    rw [opened]
    exact ⟨found,fun other => find?_insert _ _ _ _,rfl,rfl,rfl,rfl,rfl,rfl,rfl⟩
  refine ⟨replaced,tended.replace replaced ?_ ?_ ((tended.kept id t found).close there information) ?_⟩
  · rw [opened]
    simp [tended.asserted,capacity]
  · rw [opened]
    exact tended.exact_
  · show (t.shut c x.currentState information).events.length +
      reservedLifecycleEventCapacity (t.shut c x.currentState information) ≤ _
    have same : reservedLifecycleEventCapacity (t.shut c x.currentState information) =
        reservedLifecycleEventCapacity (t.dropConnection c) := rfl
    have more : (t.shut c x.currentState information).events.length = (t.dropConnection c).events.length + 2 := by
      simp [SimulatedTransportState.shut,SimulatedTransportState.closing]
    rw [more]
    omega

structure Closed (n m : Network) (id : Nat) (link : SimulatedLink) : Prop where
  stored : n.links.find? id = some link
  tended : Tended m
  links : m.links = n.links.erase id
  scheduled : m.scheduled = n.scheduled.filter fun _ item => item.linkId != id
  ties : m.nextTieBreaker = n.nextTieBreaker
  linkIds : m.nextLinkId = n.nextLinkId
  transportIds : m.nextTransportId = n.nextTransportId
  accepted : m.history.accepted = n.history.accepted
  configuration : m.configuration = n.configuration
  present : ∀ t, (m.transports.find? t).isSome = (n.transports.find? t).isSome
  linked : ∀ t u, m.transports.find? t = some u → ∃ s, n.transports.find? t = some s ∧ u.linked = s.linked
  gone : ∀ t c, On link t c → findConnection m t c = none
  others : ∀ t c, ¬ On link t c → findConnection m t c = findConnection n t c
  received : ∀ t c, receivedAt m t c <+: receivedAt n t c
  receivedOthers : ∀ t c, ¬ On link t c → receivedAt m t c = receivedAt n t c

theorem closeLink_of_stored (stored : n.links.find? id = some link) (initiator : Nat) (information : DisconnectInfo) :
    ∃ one two, closeLink n id initiator information =
      closeOneSide (closeOneSide (cancelScheduledLink { n with links := n.links.erase id } id) link.firstTransportId
        link.firstConnection one) link.secondTransportId link.secondConnection two := by
  unfold closeLink
  rw [stored]
  exact ⟨_,_,rfl⟩

theorem closeLink_closed (tended : Tended n) (wired : Wired n) (stored : n.links.find? id = some link)
    (initiator : Nat) (information : DisconnectInfo) : Closed n (closeLink n id initiator information) id link := by
  obtain ⟨-,-,different⟩ := wired.links id link stored
  obtain ⟨x,foundFirst,-⟩ := wired.ends id link stored _ _ _ _ (.inl ⟨rfl,rfl,rfl,rfl⟩)
  obtain ⟨y,foundSecond,-⟩ := wired.ends id link stored _ _ _ _ (.inr ⟨rfl,rfl,rfl,rfl⟩)
  obtain ⟨s,first,firstThere⟩ := findConnection_eq_some.mp foundFirst
  obtain ⟨t,second,secondThere⟩ := findConnection_eq_some.mp foundSecond
  have cleared : Tended (cancelScheduledLink { n with links := n.links.erase id } id) :=
    tended.of_transports rfl rfl rfl rfl
  obtain ⟨one,two,closes⟩ := closeLink_of_stored stored initiator information
  rw [closes]
  generalize base : cancelScheduledLink { n with links := n.links.erase id } id = b at cleared ⊢
  have transports : b.transports = n.transports := by rw [← base]; rfl
  have there : b.transports.find? link.firstTransportId = some s := by rw [transports,first]
  obtain ⟨replacedFirst,tendedFirst⟩ := closeOneSide_replaced cleared there firstThere one
  generalize closeOneSide b link.firstTransportId link.firstConnection one = c at replacedFirst tendedFirst ⊢
  have thereSecond : c.transports.find? link.secondTransportId = some t := by
    rw [replacedFirst.transports,if_neg different.symm,transports,second]
  obtain ⟨replacedSecond,tendedSecond⟩ := closeOneSide_replaced tendedFirst thereSecond secondThere two
  generalize closeOneSide c link.secondTransportId link.secondConnection two = m at replacedSecond tendedSecond ⊢
  have firstFinal : m.transports.find? link.firstTransportId = some (s.shut link.firstConnection x.currentState one) := by
    rw [replacedSecond.transports,if_neg different,replacedFirst.transports,if_pos rfl]
  have secondFinal : m.transports.find? link.secondTransportId =
      some (t.shut link.secondConnection y.currentState two) := by
    rw [replacedSecond.transports,if_pos rfl]
  have elsewhere : ∀ u, u ≠ link.firstTransportId → u ≠ link.secondTransportId →
      m.transports.find? u = n.transports.find? u := by
    intro u notFirst notSecond
    rw [replacedSecond.transports,if_neg notSecond,replacedFirst.transports,if_neg notFirst,transports]
  have onFirst : ∀ u, u = link.firstTransportId ∨ u = link.secondTransportId ∨
      (u ≠ link.firstTransportId ∧ u ≠ link.secondTransportId) := by
    intro u
    by_cases a : u = link.firstTransportId <;> by_cases b : u = link.secondTransportId <;> simp [a,b]
  refine ⟨stored,tendedSecond,?_,?_,?_,?_,?_,?_,?_,?_,?_,?_,?_,?_,?_⟩
  · rw [replacedSecond.links,replacedFirst.links,← base]; rfl
  · rw [replacedSecond.scheduled,replacedFirst.scheduled,← base]; rfl
  · rw [replacedSecond.ties,replacedFirst.ties,← base]; rfl
  · rw [replacedSecond.linkIds,replacedFirst.linkIds,← base]; rfl
  · rw [replacedSecond.transportIds,replacedFirst.transportIds,← base]; rfl
  · rw [replacedSecond.accepted,replacedFirst.accepted,← base]; rfl
  · rw [replacedSecond.configuration,replacedFirst.configuration,← base]; rfl
  · intro u
    rcases onFirst u with rfl | rfl | ⟨notFirst,notSecond⟩
    · rw [firstFinal,first]; rfl
    · rw [secondFinal,second]; rfl
    · rw [elsewhere u notFirst notSecond]
  · intro u v found
    rcases onFirst u with rfl | rfl | ⟨notFirst,notSecond⟩
    · rw [firstFinal] at found
      cases found
      exact ⟨s,first,SimulatedTransportState.shut_linked⟩
    · rw [secondFinal] at found
      cases found
      exact ⟨t,second,SimulatedTransportState.shut_linked⟩
    · rw [elsewhere u notFirst notSecond] at found
      exact ⟨v,found,rfl⟩
  · rintro u d (⟨rfl,rfl⟩ | ⟨rfl,rfl⟩)
    · rw [findConnection_of firstFinal,SimulatedTransportState.shut_connections,find?_erase,if_pos rfl]
    · rw [findConnection_of secondFinal,SimulatedTransportState.shut_connections,find?_erase,if_pos rfl]
  · intro u d off
    rcases onFirst u with rfl | rfl | ⟨notFirst,notSecond⟩
    · rw [findConnection_of firstFinal,SimulatedTransportState.shut_connections,find?_erase,
        if_neg fun same => off (.inl ⟨rfl,same⟩),findConnection_of first]
    · rw [findConnection_of secondFinal,SimulatedTransportState.shut_connections,find?_erase,
        if_neg fun same => off (.inr ⟨rfl,same⟩),findConnection_of second]
    · rw [findConnection,elsewhere u notFirst notSecond,findConnection]
  · intro u d
    rcases onFirst u with rfl | rfl | ⟨notFirst,notSecond⟩
    · rw [receivedAt_of firstFinal,receivedAt_of first]
      by_cases here : d = link.firstConnection
      · rw [here]; exact SimulatedTransportState.shut_received_own
      · rw [SimulatedTransportState.shut_received_other here]
    · rw [receivedAt_of secondFinal,receivedAt_of second]
      by_cases here : d = link.secondConnection
      · rw [here]; exact SimulatedTransportState.shut_received_own
      · rw [SimulatedTransportState.shut_received_other here]
    · rw [receivedAt,elsewhere u notFirst notSecond,receivedAt]
  · intro u d off
    rcases onFirst u with rfl | rfl | ⟨notFirst,notSecond⟩
    · rw [receivedAt_of firstFinal,receivedAt_of first,
        SimulatedTransportState.shut_received_other fun same => off (.inl ⟨rfl,same⟩)]
    · rw [receivedAt_of secondFinal,receivedAt_of second,
        SimulatedTransportState.shut_received_other fun same => off (.inr ⟨rfl,same⟩)]
    · rw [receivedAt,elsewhere u notFirst notSecond,receivedAt]

section Closing
variable {n m : Network} {id : Nat} {link : SimulatedLink}

theorem Closed.survives (closed : Closed n m id link) (found : findConnection m t c = some x) :
    ¬ On link t c ∧ findConnection n t c = some x := by
  have off : ¬ On link t c := by
    intro on
    rw [closed.gone t c on] at found
    cases found
  exact ⟨off,(closed.others t c off).symm.trans found⟩

theorem Closed.items_eq (closed : Closed n m id link) : items m = (items n).filter fun item => item.linkId != id := by
  rw [items,closed.scheduled,items,List.filter_map]
  rfl

theorem Wired.linkId_of_off (wired : Wired n) (stored : n.links.find? id = some link)
    (found : findConnection n t c = some x) (off : ¬ On link t c) : x.linkId ≠ id := by
  rintro rfl
  obtain ⟨other,storedHere,side⟩ := wired.connections t c x found
  rw [stored] at storedHere
  cases storedHere
  exact off side.on

theorem Wired.on_of_linkId (wired : Wired n) {t : Nat} {c : ConnectionId} {x : SimulatedConnection}
    (found : findConnection n t c = some x) (stored : n.links.find? x.linkId = some link) :
    Side link t c x.remoteTransportId x.remoteConnection := by
  obtain ⟨other,storedHere,side⟩ := wired.connections t c x found
  rw [stored] at storedHere
  cases storedHere
  exact side

variable (closed : Closed n m id link)
include closed

theorem Closed.wired (wired : Wired n) : Wired m where
  links := by
    rw [closed.links,closed.linkIds]
    intro other found stored
    rw [find?_erase] at stored
    split_ifs at stored
    exact wired.links other found stored
  ends := by
    rw [closed.links]
    intro other found stored t c t' c' side
    rw [find?_erase] at stored
    split_ifs at stored with different
    obtain ⟨x,there,linkId,remote⟩ := wired.ends other found stored t c t' c' side
    refine ⟨x,?_,linkId,remote⟩
    rw [closed.others]
    · exact there
    · intro on
      rcases on with ⟨rfl,rfl⟩ | ⟨rfl,rfl⟩
      · obtain ⟨y,thereToo,named,-⟩ := wired.ends id link closed.stored _ _ _ _ (.inl ⟨rfl,rfl,rfl,rfl⟩)
        rw [there] at thereToo
        cases thereToo
        exact different (linkId.symm.trans named)
      · obtain ⟨y,thereToo,named,-⟩ := wired.ends id link closed.stored _ _ _ _ (.inr ⟨rfl,rfl,rfl,rfl⟩)
        rw [there] at thereToo
        cases thereToo
        exact different (linkId.symm.trans named)
  connections := by
    intro t c x found
    obtain ⟨off,there⟩ := closed.survives found
    obtain ⟨other,stored,side⟩ := wired.connections t c x there
    refine ⟨other,?_,side⟩
    rw [closed.links,find?_erase,if_neg (wired.linkId_of_off closed.stored there off),stored]
  scheduled := by
    rw [closed.scheduled,closed.links]
    intro e member
    obtain ⟨there,kept⟩ := List.mem_filter.mp member
    obtain ⟨other,stored,side⟩ := wired.scheduled e there
    refine ⟨other,?_,side⟩
    rw [find?_erase,if_neg (by simpa using kept),stored]
  ties := by
    rw [closed.scheduled,closed.ties]
    intro e member
    exact wired.ties e (List.mem_of_mem_filter member)

theorem Closed.accounted (accounted : Accounted n flight) : Accounted m [] := by
  intro t c x found
  obtain ⟨-,there⟩ := closed.survives found
  obtain ⟨reliable,unreliable⟩ := accounted t c x there
  have sub : List.Sublist ([] ++ items m) (flight ++ items n) := by
    rw [closed.items_eq]
    exact List.filter_sublist.trans (List.sublist_append_right _ _)
  exact ⟨(reliableBytes_sublist sub).trans reliable,(unreliableMessages_sublist sub).trans unreliable⟩

theorem Closed.deliveries_eq (wired : Wired n) (off : ¬ On link t c) :
    deliveries t c (items m) = deliveries t c (items n) := by
  rw [closed.items_eq]
  unfold deliveries
  rw [List.filter_filter]
  congr 1
  refine List.filter_congr fun item member => ?_
  rcases reliable : item.isReliableTo t c with _ | _
  · rfl
  · simp only [Bool.true_and,bne_iff_ne,ne_eq]
    simp only [isReliableTo,Bool.and_eq_true,decide_eq_true_eq] at reliable
    obtain ⟨e,there,rfl⟩ := List.mem_map.mp member
    obtain ⟨other,stored,side⟩ := wired.scheduled e there
    have sided := side reliable.1.1.1
    rw [reliable.1.2,reliable.2] at sided
    intro same
    rw [same,closed.stored] at stored
    cases stored
    exact off sided.swap.on

theorem Closed.ordered (wired : Wired n) (ordered : Ordered n flight)
    (own : ∀ item ∈ flight, ∀ t c, item.isReliableTo t c → On link t c) : Ordered m [] where
  paced := by
    rw [closed.scheduled]
    intro t c x found e member
    obtain ⟨-,there⟩ := closed.survives found
    exact ordered.paced t c x there e (List.mem_of_mem_filter member)
  delivered := by
    intro t c
    rw [closed.accepted]
    exact (closed.received t c).trans (ordered.delivered t c)
  flowing := by
    intro t c x y found foundPeer openHere openThere
    obtain ⟨off,there⟩ := closed.survives found
    obtain ⟨offPeer,therePeer⟩ := closed.survives foundPeer
    have flows := ordered.flowing t c x y there therePeer openHere openThere
    have none : deliveries x.remoteTransportId x.remoteConnection flight = [] := by
      unfold deliveries
      rw [List.map_eq_nil_iff,List.filter_eq_nil_iff]
      intro item member reliable
      exact offPeer (own item member _ _ reliable)
    rw [closed.accepted,closed.receivedOthers _ _ offPeer,nil_append,closed.deliveries_eq wired offPeer,flows]
    congr 1
    unfold deliveries at none ⊢
    rw [filter_append,List.map_append,none,nil_append]
  accepted := by
    rw [closed.accepted,closed.transportIds]
    intro item member
    obtain ⟨below,linked⟩ := ordered.accepted item member
    refine ⟨below,?_⟩
    intro u found
    obtain ⟨s,there,same⟩ := closed.linked _ u found
    rw [same]
    exact linked s there

theorem Closed.sound (wired : Wired n) {other : List ScheduledItem}
    (accounted : Accounted n other) (ordered : Ordered n flight)
    (own : ∀ item ∈ flight, ∀ t c, item.isReliableTo t c → On link t c) : Sound m :=
  ⟨closed.tended,closed.wired wired,closed.accounted accounted,closed.ordered wired ordered own⟩

end Closing

theorem Sound.closeLink (sound : Sound n) (id initiator : Nat) (information : DisconnectInfo) :
    Sound (closeLink n id initiator information) := by
  rcases stored : n.links.find? id with _ | link
  · unfold SimulatedTransport.closeLink
    rwa [stored]
  · exact (closeLink_closed sound.tended sound.wired stored initiator information).sound sound.wired sound.accounted
      sound.ordered (by simp)

theorem activateSide_replaced (tended : Tended n) {t : SimulatedTransportState}
    (found : n.transports.find? id = some t) (there : t.connections.find? c = some x)
    (connecting : x.currentState = .connecting) :
    Replaced n (activateSide n id c) id t { t with
      connections := t.connections.modify c fun c => { c with currentState := .connected }
      events := t.events ++ opening c } ∧ Tended (activateSide n id c) := by
  have trade := SimulatedTransportState.reserved_modify (f := fun c => { c with currentState := .connected }) there
  have four : reservedFor x = 4 := by rw [reservedFor,if_pos connecting]
  have two : reservedFor { x with currentState := .connected } = 2 := rfl
  have roomy := tended.roomy id t found
  unfold SimulatedTransportState.Roomy at roomy
  have capacity : hasEventCapacityWithReservations n { t with
      connections := t.connections.modify c fun c => { c with currentState := .connected } } 2 = true := by
    rw [SimulatedTransportState.hasEventCapacity_iff]
    show t.events.length + _ + 2 ≤ _
    omega
  have opened : activateSide n id c = { n with
      history := { n.history with
        assertFailed := n.history.assertFailed || !hasEventCapacityWithReservations n { t with
          connections := t.connections.modify c fun c => { c with currentState := .connected } } 2 }
      transports := n.transports.insert id { t with
        connections := t.connections.modify c fun c => { c with currentState := .connected }
        events := t.events ++ opening c } } := by
    simp only [activateSide,found]
    rfl
  have replaced : Replaced n (activateSide n id c) id t { t with
      connections := t.connections.modify c fun c => { c with currentState := .connected }
      events := t.events ++ opening c } := by
    rw [opened]
    exact ⟨found,fun other => find?_insert _ _ _ _,rfl,rfl,rfl,rfl,rfl,rfl,rfl⟩
  refine ⟨replaced,tended.replace replaced ?_ ?_ ((tended.kept id t found).activate there connecting) ?_⟩
  · rw [opened]
    simp [tended.asserted,capacity]
  · rw [opened]
    exact tended.exact_
  · show (t.events ++ opening c).length + reservedLifecycleEventCapacity { t with
      connections := t.connections.modify c fun c => { c with currentState := .connected } } ≤ _
    rw [List.length_append]
    have length : (opening c).length = 2 := rfl
    omega

theorem Sound.activateSide (sound : Sound n) (found : findConnection n id c = some x)
    (connecting : x.currentState = .connecting) : Sound (activateSide n id c) := by
  obtain ⟨t,foundTransport,there⟩ := findConnection_eq_some.mp found
  obtain ⟨replaced,tended⟩ := activateSide_replaced sound.tended foundTransport there connecting
  have alike : ∀ y, t.connections.find? c = some y → Alike y { y with currentState := .connected } := by
    intro y same
    rw [there] at same
    cases same
    exact ⟨rfl,rfl,rfl,fun _ => by rw [connecting]; decide,le_rfl⟩
  have reshaped := replaced.reshaped (by
      intro d
      have all : ∀ e ∈ opening c, e.connection = c := by simp [opening,TransportEvent.connection]
      unfold SimulatedTransportState.received
      by_cases here : d = c
      · subst here
        have own := SimulatedTransportState.observed_push_own (t := t) all
        change List.filter _ (({ t with events := t.events ++ opening d } : SimulatedTransportState).observed d) = _
        rw [own,filter_append]
        have none : (opening d).filter TransportEvent.isReliable = [] := rfl
        rw [none,append_nil]
      · have other := SimulatedTransportState.observed_push_other (t := t) all here
        change List.filter _ (({ t with events := t.events ++ opening c } : SimulatedTransportState).observed d) = _
        rw [other])
    (fun _ member => member)
    (by
      intro d y foundThere
      show ∃ y', (t.connections.modify c _).find? d = some y' ∧ _
      rw [find?_modify]
      split_ifs with here
      · subst here
        rw [foundThere]
        exact ⟨_,rfl,alike y foundThere⟩
      · exact ⟨y,foundThere,.refl y⟩)
    (by
      intro d y foundThere
      rw [find?_modify] at foundThere
      split_ifs at foundThere with here
      · subst here
        obtain ⟨z,zThere,rfl⟩ := map_eq_some_iff.mp foundThere
        exact ⟨z,zThere,alike z zThere⟩
      · exact ⟨y,foundThere,.refl y⟩)
  refine ⟨tended,sound.wired.reshape reshaped,sound.accounted.reshape reshaped ?_,sound.ordered.reshape reshaped⟩
  intro u d y y' foundOld foundNew
  by_cases here : u = id
  · subst here
    rw [replaced.findConnection_self,find?_modify] at foundNew
    rw [findConnection_of foundTransport] at foundOld
    split_ifs at foundNew with same
    · subst same
      rw [foundOld] at foundNew
      cases foundNew
      exact ⟨le_rfl,le_rfl⟩
    · rw [foundOld] at foundNew
      cases foundNew
      exact ⟨le_rfl,le_rfl⟩
  · rw [replaced.findConnection_other here,foundOld] at foundNew
    cases foundNew
    exact ⟨le_rfl,le_rfl⟩

theorem findConnection_activateSide (tended : Tended n) (found : findConnection n id c = some x)
    (connecting : x.currentState = .connecting) (t : Nat) (d : ConnectionId) :
    findConnection (activateSide n id c) t d =
      if t = id ∧ d = c then some { x with currentState := .connected } else findConnection n t d := by
  obtain ⟨s,foundTransport,there⟩ := findConnection_eq_some.mp found
  obtain ⟨replaced,-⟩ := activateSide_replaced tended foundTransport there connecting
  by_cases here : t = id
  · subst here
    rw [replaced.findConnection_self,find?_modify,findConnection_of foundTransport]
    by_cases same : d = c
    · subst same
      rw [there]
      simp
    · simp [same]
  · rw [replaced.findConnection_other here,if_neg fun both => here both.1]

/-- The first due item is taken off the schedule and is in flight. -/
structure Flying (n : Network) (item : ScheduledItem) : Prop where
  tended : Tended n
  wired : Wired n
  accounted : Accounted n [item]
  ordered : Ordered n [item]
  linked : ∃ link, n.links.find? item.linkId = some link ∧
    (item.kind = .message → Side link item.sourceTransportId item.sourceConnection item.destinationTransportId
      item.destinationConnection)

theorem Sound.take (sound : Sound n) {key : ScheduledKey} {rest : List (ScheduledKey × ScheduledItem)}
    (entries : n.scheduled.entries = (key,item) :: rest) :
    Flying { n with scheduled := n.scheduled.erase key } item := by
  have after := entries_erase_first entries
  have all : [item] ++ items { n with scheduled := n.scheduled.erase key } = items n := by
    simp only [items,after,entries,map_cons,singleton_append]
  have sub : ∀ e ∈ (n.scheduled.erase key).entries, e ∈ n.scheduled.entries := by
    intro e member
    rw [after] at member
    rw [entries]
    exact .tail _ member
  have ordered := sound.ordered
  refine ⟨sound.tended.of_transports rfl rfl rfl rfl,?_,?_,?_,?_⟩
  · exact ⟨sound.wired.links,sound.wired.ends,sound.wired.connections,
      fun e member => sound.wired.scheduled e (sub e member),fun e member => sound.wired.ties e (sub e member)⟩
  · intro t c x found
    rw [all]
    exact sound.accounted t c x found
  · refine ⟨fun t c x found e member => ordered.paced t c x found e (sub e member),ordered.delivered,?_,
      ordered.accepted⟩
    intro t c x y found foundPeer openHere openThere
    rw [all]
    exact ordered.flowing t c x y found foundPeer openHere openThere
  · have member : (key,item) ∈ n.scheduled.entries := by rw [entries]; exact (.head _)
    exact sound.wired.scheduled _ member

/-! ### Ends that have not begun -/

/-- Nothing is sent over a link before both of its ends are connected. -/
structure Begun (n : Network) (flight : List ScheduledItem) : Prop where
  agreed : ∀ t c x y, findConnection n t c = some x →
    findConnection n x.remoteTransportId x.remoteConnection = some y → x.currentState = .connected →
    y.currentState ≠ .connecting
  started : ∀ item ∈ flight ++ items n, item.kind = .message →
    (∀ x, findConnection n item.sourceTransportId item.sourceConnection = some x → x.currentState ≠ .connecting) ∧
    (∀ x, findConnection n item.destinationTransportId item.destinationConnection = some x →
      x.currentState ≠ .connecting)

theorem Begun.reshape (begun : Begun n flight) (reshaped : Reshaped n m)
    (states : ∀ t c x x', findConnection n t c = some x → findConnection m t c = some x' →
      (x'.currentState = .connecting → x.currentState = .connecting) ∧
      (x'.currentState = .connected → x.currentState = .connected)) : Begun m flight where
  agreed := by
    intro t c x' y' found foundPeer connected
    obtain ⟨x,foundHere,alike⟩ := reshaped.back t c x' found
    rw [alike.transport,alike.connection] at foundPeer
    obtain ⟨y,foundOther,-⟩ := reshaped.back _ _ y' foundPeer
    intro connecting
    exact begun.agreed t c x y foundHere foundOther ((states t c x x' foundHere found).2 connected)
      ((states _ _ y y' foundOther foundPeer).1 connecting)
  started := by
    rw [reshaped.items_eq]
    intro item member message
    obtain ⟨source,destination⟩ := begun.started item member message
    constructor
    · intro x' found connecting
      obtain ⟨x,foundHere,-⟩ := reshaped.back _ _ x' found
      exact source x foundHere ((states _ _ x x' foundHere found).1 connecting)
    · intro x' found connecting
      obtain ⟨x,foundHere,-⟩ := reshaped.back _ _ x' found
      exact destination x foundHere ((states _ _ x x' foundHere found).1 connecting)

structure SameConnections (n m : Network) : Prop where
  connections : ∀ t c, findConnection m t c = findConnection n t c
  links : m.links = n.links
  scheduled : m.scheduled = n.scheduled
  ties : m.nextTieBreaker = n.nextTieBreaker
  linkIds : m.nextLinkId = n.nextLinkId

namespace SameConnections

variable (same : SameConnections n m)
include same

theorem items_eq : items m = items n := by rw [items,same.scheduled,items]

theorem wired (wired : Wired n) : Wired m where
  links := by rw [same.links,same.linkIds]; exact wired.links
  ends i link stored t c t' c' side := by
    rw [same.links] at stored
    rw [same.connections]
    exact wired.ends i link stored t c t' c' side
  connections t c x found := by
    rw [same.connections] at found
    rw [same.links]
    exact wired.connections t c x found
  scheduled := by rw [same.scheduled,same.links]; exact wired.scheduled
  ties := by rw [same.scheduled,same.ties]; exact wired.ties

theorem accounted (accounted : Accounted n flight) : Accounted m flight := by
  intro t c x found
  rw [same.connections] at found
  rw [same.items_eq]
  exact accounted t c x found

theorem begun (begun : Begun n flight) : Begun m flight where
  agreed t c x y found foundPeer := by
    rw [same.connections] at found foundPeer
    exact begun.agreed t c x y found foundPeer
  started item member message := by
    rw [same.items_eq] at member
    rw [same.connections,same.connections]
    exact begun.started item member message

end SameConnections

theorem Begun.forget (begun : Begun n [item]) : Begun n [] :=
  ⟨begun.agreed,fun other member => begun.started other (List.mem_append_right _ member)⟩

theorem Begun.schedule_control (begun : Begun n []) (wired : Wired n) (control : item.kind ≠ .message) :
    Begun (scheduledNetwork n item) [] where
  agreed := begun.agreed
  started := by
    intro other member message
    rcases List.mem_cons.mp ((items_schedule_perm wired item).mem_iff.mp member) with rfl | old
    · exact absurd message control
    · exact begun.started other old message

theorem Closed.begun (closed : Closed n m id link) (begun : Begun n flight) : Begun m [] where
  agreed := by
    intro t c x y found foundPeer
    exact begun.agreed t c x y (closed.survives found).2 (closed.survives foundPeer).2
  started := by
    intro item member message
    rw [closed.items_eq] at member
    obtain ⟨source,destination⟩ := begun.started item
      (List.mem_append_right _ (List.mem_of_mem_filter member)) message
    exact ⟨fun x found => source x (closed.survives found).2,fun x found => destination x (closed.survives found).2⟩

structure Stable (n : Network) : Prop where
  sound : Sound n
  begun : Begun n []

theorem Stable.schedule_either (stable : Stable n)
    (stored : n.links.find? item.linkId = some link) (control : item.kind ≠ .message) : Stable (schedule n item).2 := by
  refine ⟨stable.sound.schedule_either stored control,?_⟩
  rcases schedule_cases n item with scheduled | ⟨refused,-⟩
  · rw [scheduled]
    exact stable.begun.schedule_control stable.sound.wired control
  · rw [refused]
    exact stable.begun

theorem Stable.closeLink (stable : Stable n) (id initiator : Nat) (information : DisconnectInfo) :
    Stable (closeLink n id initiator information) := by
  refine ⟨stable.sound.closeLink id initiator information,?_⟩
  rcases stored : n.links.find? id with _ | link
  · unfold SimulatedTransport.closeLink
    rw [stored]
    exact stable.begun
  · exact (closeLink_closed stable.sound.tended stable.sound.wired stored initiator information).begun stable.begun

/-- A change of statistics and other things the invariant does not look at. -/
structure Mild (f : SimulatedConnection → SimulatedConnection) : Prop where
  linkId : ∀ x, (f x).linkId = x.linkId
  transport : ∀ x, (f x).remoteTransportId = x.remoteTransportId
  connection : ∀ x, (f x).remoteConnection = x.remoteConnection
  state : ∀ x, (f x).currentState = x.currentState ∨ (f x).currentState = .closing
  later : ∀ x, x.lastReliableDelivery ≤ (f x).lastReliableDelivery
  bytes : ∀ x, x.reliableQueueBytes ≤ (f x).reliableQueueBytes
  messages : ∀ x, x.queuedUnreliableMessages ≤ (f x).queuedUnreliableMessages

theorem Mild.alike (mild : Mild f) (x : SimulatedConnection) : Alike x (f x) := by
  refine ⟨mild.linkId x,mild.transport x,mild.connection x,?_,mild.later x⟩
  intro open_
  rcases mild.state x with same | closes
  · rwa [← same]
  · exact absurd closes open_

variable {d : ConnectionId}

theorem modified_cases {x' : SimulatedConnection} (found : findConnection n t d = some x)
    (foundAfter : findConnection (modifyConnection n id c f) t d = some x') :
    (t = id ∧ d = c ∧ x' = f x) ∨ (¬ (t = id ∧ d = c) ∧ x' = x) := by
  rw [findConnection_modifyConnection] at foundAfter
  split_ifs at foundAfter with here
  · rw [found] at foundAfter
    cases foundAfter
    exact .inl ⟨here.1,here.2,rfl⟩
  · rw [found] at foundAfter
    cases foundAfter
    exact .inr ⟨here,rfl⟩

theorem Begun.modifyConnection (begun : Begun n flight) (id : Nat) (c : ConnectionId)
    (alike : ∀ x, findConnection n id c = some x → Alike x (f x))
    (state : ∀ x, (f x).currentState = x.currentState ∨ (f x).currentState = .closing) :
    Begun (modifyConnection n id c f) flight := by
  refine begun.reshape (reshaped_modifyConnection n id c alike) ?_
  intro t d x x' found foundAfter
  rcases modified_cases found foundAfter with ⟨-,-,rfl⟩ | ⟨-,rfl⟩
  · rcases state x with same | closes
    · rw [same]
      exact ⟨fun same => same,fun same => same⟩
    · rw [closes]
      constructor <;> rintro ⟨⟩
  · exact ⟨fun same => same,fun same => same⟩

theorem Accounted.mild (accounted : Accounted n flight) (id : Nat) (c : ConnectionId) (mild : Mild f) :
    Accounted (modifyConnection n id c f) flight := by
  refine accounted.reshape (reshaped_modifyConnection n id c fun x _ => mild.alike x) ?_
  intro t d x x' found foundAfter
  rcases modified_cases found foundAfter with ⟨-,-,rfl⟩ | ⟨-,rfl⟩
  · exact ⟨mild.bytes x,mild.messages x⟩
  · exact ⟨le_rfl,le_rfl⟩

theorem Stable.mild (stable : Stable n) (id : Nat) (c : ConnectionId) (mild : Mild f) :
    Stable (modifyConnection n id c f) := by
  have reshaped := reshaped_modifyConnection n id c fun x _ => mild.alike x
  exact ⟨⟨stable.sound.tended.modifyConnection id c fun x _ => mild.state x,stable.sound.wired.reshape reshaped,
    stable.sound.accounted.mild id c mild,stable.sound.ordered.reshape reshaped⟩,
    stable.begun.modifyConnection id c (fun x _ => mild.alike x) mild.state⟩

theorem mild_recordUnreliableDrop : Mild recordUnreliableDrop :=
  ⟨fun _ => rfl,fun _ => rfl,fun _ => rfl,fun _ => .inl rfl,fun _ => le_rfl,fun _ => le_rfl,
    fun _ => le_rfl⟩

theorem mild_close : Mild close :=
  ⟨fun _ => rfl,fun _ => rfl,fun _ => rfl,fun _ => .inr rfl,fun _ => le_rfl,fun _ => le_rfl,
    fun _ => le_rfl⟩

theorem Stable.activateLink (stable : Stable n) (item : ScheduledItem) : Stable (activateLink n item) := by
  have sound := stable.sound
  unfold SimulatedTransport.activateLink
  rcases stored : n.links.find? item.linkId with _ | link
  · exact stable
  · dsimp only
    split
    · next first second foundFirst foundSecond =>
      split
      · next x y thereFirst thereSecond =>
        split_ifs with states
        · exact stable
        · simp only [Bool.or_eq_true,decide_eq_true_eq,not_or,ne_eq,Decidable.not_not] at states
          obtain ⟨connectingFirst,connectingSecond⟩ := states
          have atFirst : findConnection n link.firstTransportId link.firstConnection = some x :=
            (findConnection_of foundFirst).trans thereFirst
          have atSecond : findConnection n link.secondTransportId link.secondConnection = some y :=
            (findConnection_of foundSecond).trans thereSecond
          have different := (sound.wired.links item.linkId link stored).2.2
          have half := sound.activateSide atFirst connectingFirst
          have findHalf := findConnection_activateSide sound.tended atFirst connectingFirst
          have atSecondHalf : findConnection (activateSide n link.firstTransportId link.firstConnection)
              link.secondTransportId link.secondConnection = some y := by
            rwa [findHalf,if_neg fun both => different both.1.symm]
          have whole := half.activateSide atSecondHalf connectingSecond
          have findWhole := findConnection_activateSide half.tended atSecondHalf connectingSecond
          have sameItems : items (activateSide (activateSide n link.firstTransportId link.firstConnection)
              link.secondTransportId link.secondConnection) = items n := by
            obtain ⟨s,foundTransport,there⟩ := findConnection_eq_some.mp atFirst
            obtain ⟨s',foundTransport',there'⟩ := findConnection_eq_some.mp atSecondHalf
            rw [items,(activateSide_replaced half.tended foundTransport' there' connectingSecond).1.scheduled,
              (activateSide_replaced sound.tended foundTransport there connectingFirst).1.scheduled,items]
          refine ⟨whole,?_,?_⟩
          · -- both ends are connected now, and the ends of other links are what they were
            intro t c z w found foundPeer connected
            rw [findWhole] at found foundPeer
            split_ifs at foundPeer with peerSecond
            · cases foundPeer
              simp
            · rw [findHalf] at foundPeer
              split_ifs at foundPeer with peerFirst
              · cases foundPeer
                simp
              · split_ifs at found with atTwo
                · cases found
                  have sided := @Wired.on_of_linkId _ link sound.wired _ _ _ atSecond (by
                    obtain ⟨y',same,linkId,-⟩ := sound.wired.ends _ link stored _ _ _ _ (.inr ⟨rfl,rfl,rfl,rfl⟩)
                    rw [atSecond] at same
                    cases same
                    rw [linkId,stored])
                  rcases sided with ⟨a,-,-,-⟩ | ⟨-,-,a,b⟩
                  · exact absurd a.symm different
                  · exact absurd ⟨a,b⟩ peerFirst
                · rw [findHalf] at found
                  split_ifs at found with atOne
                  · cases found
                    have sided := @Wired.on_of_linkId _ link sound.wired _ _ _ atFirst (by
                      obtain ⟨x',same,linkId,-⟩ := sound.wired.ends _ link stored _ _ _ _ (.inl ⟨rfl,rfl,rfl,rfl⟩)
                      rw [atFirst] at same
                      cases same
                      rw [linkId,stored])
                    rcases sided with ⟨-,-,a,b⟩ | ⟨a,-,-,-⟩
                    · exact absurd ⟨a,b⟩ peerSecond
                    · exact absurd a different
                  · exact stable.begun.agreed t c z w found foundPeer connected
          · rw [sameItems]
            intro other member message
            obtain ⟨source,destination⟩ := stable.begun.started other member message
            constructor
            · intro z found
              rw [findWhole,findHalf] at found
              split_ifs at found
              · cases found; simp
              · cases found; simp
              · exact source z found
            · intro z found
              rw [findWhole,findHalf] at found
              split_ifs at found
              · cases found; simp
              · cases found; simp
              · exact destination z found
      · exact stable
    · exact stable.closeLink _ _ _

/-! ### Delivering -/

variable {e : TransportEvent}

theorem queued_replaced (tended : Tended n) {t : SimulatedTransportState} (found : n.transports.find? id = some t)
    (there : t.connections.find? c = some y) (capacity : hasEventCapacityWithReservations n t 1)
    (named : e.connection = c) (message : e.isLifecycle = false) :
    Replaced n (pushEvent n id t e) id t
        { t with events := t.events ++ [e] } ∧
      Tended (pushEvent n id t e) := by
  have replaced : Replaced n (pushEvent n id t e) id t
      { t with events := t.events ++ [e] } :=
    ⟨found,fun other => find?_insert _ _ _ _,rfl,rfl,rfl,rfl,rfl,rfl,rfl⟩
  refine ⟨replaced,tended.replace replaced tended.asserted tended.exact_
    ((tended.kept id t found).receive there named message) ?_⟩
  rw [SimulatedTransportState.hasEventCapacity_iff] at capacity
  show (t.events ++ [e]).length + reservedLifecycleEventCapacity t ≤ _
  rw [List.length_append,List.length_singleton]
  omega

theorem received_push (t : SimulatedTransportState) (e : TransportEvent) (c : ConnectionId) :
    ({ t with events := t.events ++ [e] } : SimulatedTransportState).received c =
      t.received c ++ if e.connection = c ∧ e.isReliable = true then [e] else [] := by
  unfold SimulatedTransportState.received
  rw [SimulatedTransportState.observed_push]
  by_cases named : e.connection = c
  · by_cases reliable : e.isReliable = true
    · simp [named,reliable]
    · simp [named,reliable]
  · simp [named]

theorem same_pushed {t : SimulatedTransportState} (found : n.transports.find? id = some t) (e : TransportEvent) :
    SameConnections n (pushEvent n id t e) := by
  refine ⟨?_,rfl,rfl,rfl,rfl⟩
  intro other c
  simp only [findConnection,pushEvent]
  rw [find?_insert]
  split_ifs with here
  · rw [here,found]; rfl
  · rfl

theorem receivedAt_pushed {t : SimulatedTransportState} (found : n.transports.find? id = some t)
    (loud : e.isReliable) (other : Nat) (c : ConnectionId) : receivedAt (pushEvent n id t e) other c =
      receivedAt n other c ++ if other = id ∧ c = e.connection then [e] else [] := by
  simp only [receivedAt,pushEvent]
  rw [find?_insert]
  by_cases here : other = id
  · simp only [here,if_true,found,received_push,loud,and_true,true_and,eq_comm]
  · simp [here]

theorem mild_countDelivered (item : ScheduledItem) : Mild (·.countDelivered item) :=
  ⟨fun _ => rfl,fun _ => rfl,fun _ => rfl,fun _ => .inl rfl,fun _ => le_rfl,fun _ => le_rfl,
    fun _ => le_rfl⟩

theorem mild_countReceived (item : ScheduledItem) : Mild (·.countReceived item) :=
  ⟨fun _ => rfl,fun _ => rfl,fun _ => rfl,fun _ => .inl rfl,fun _ => le_rfl,fun _ => le_rfl,
    fun _ => le_rfl⟩

theorem Stable.queueUnreliable (stable : Stable n) (unreliable : item.delivery ≠ .reliableOrdered)
    (there : findConnection n item.destinationTransportId item.destinationConnection = some y) :
    Stable (queueReceived n item) := by
  obtain ⟨t,found,thereIn⟩ := findConnection_eq_some.mp there
  unfold queueReceived
  rw [found]
  dsimp only
  split_ifs with full
  · exact stable.mild _ _ mild_recordUnreliableDrop
  · have named : (receivedEvent item).connection = item.destinationConnection := rfl
    obtain ⟨replaced,tended⟩ := queued_replaced stable.sound.tended found thereIn (by simpa using full) named rfl
    have quiet : (receivedEvent item).isReliable = false := by
      unfold receivedEvent
      rcases mode : item.delivery with _ | _
      · exact absurd mode unreliable
      all_goals rfl
    have reshaped := replaced.reshaped (fun c => by rw [received_push]; simp [quiet]) (fun _ member => member)
      (fun c x foundIn => ⟨x,foundIn,.refl x⟩) (fun c x foundIn => ⟨x,foundIn,.refl x⟩)
    have same := same_pushed found (receivedEvent item)
    exact .mild (.mild ⟨⟨tended,same.wired stable.sound.wired,same.accounted stable.sound.accounted,
      stable.sound.ordered.reshape reshaped⟩,same.begun stable.begun⟩ _ _ (mild_countDelivered item)) _ _
      (mild_countReceived item)

/-- The two ends of the link of a message. -/
structure Carried (n : Network) (item : ScheduledItem) (x y : SimulatedConnection) : Prop where
  source : findConnection n item.sourceTransportId item.sourceConnection = some x
  destination : findConnection n item.destinationTransportId item.destinationConnection = some y
  transport : x.remoteTransportId = item.destinationTransportId
  connection : x.remoteConnection = item.destinationConnection
  link : ∃ link, n.links.find? item.linkId = some link ∧ Side link item.sourceTransportId item.sourceConnection
    item.destinationTransportId item.destinationConnection

theorem Wired.source_unique (wired : Wired n) {s : Nat} {z : SimulatedConnection}
    (foundX : findConnection n t c = some x) (foundZ : findConnection n s d = some z)
    (transport : x.remoteTransportId = z.remoteTransportId) (connection : x.remoteConnection = z.remoteConnection) :
    t = s ∧ c = d := by
  obtain ⟨y,foundY,-,atT,atC,-⟩ := wired.peer foundX
  obtain ⟨w,foundW,-,atS,atD,-⟩ := wired.peer foundZ
  rw [transport,connection,foundW] at foundY
  cases foundY
  exact ⟨atT.symm.trans atS,atC.symm.trans atD⟩

theorem Ordered.pushed {t : SimulatedTransportState} (ordered : Ordered n [item])
    (found : n.transports.find? item.destinationTransportId = some t) (reliable : item.delivery = .reliableOrdered)
    (flows : deliveries item.destinationTransportId item.destinationConnection n.history.accepted =
      receivedAt n item.destinationTransportId item.destinationConnection ++ [receivedEvent item] ++
        deliveries item.destinationTransportId item.destinationConnection (items n)) :
    Ordered (pushEvent n item.destinationTransportId t (receivedEvent item)) [] := by
  have loud : (receivedEvent item).isReliable := by
    unfold receivedEvent
    rw [reliable]
    rfl
  have same := same_pushed found (receivedEvent item)
  have received := receivedAt_pushed found loud
  refine ⟨?_,?_,?_,?_⟩
  · intro u d z foundZ
    rw [same.connections] at foundZ
    exact ordered.paced u d z foundZ
  · intro u d
    rw [received]
    split_ifs with here
    · obtain ⟨rfl,rfl⟩ := here
      exact ⟨_,flows.symm⟩
    · rw [append_nil]
      exact ordered.delivered u d
  · intro u d z w foundZ foundW openHere openThere
    rw [same.connections] at foundZ foundW
    have before := ordered.flowing u d z w foundZ foundW openHere openThere
    rw [received]
    split_ifs with here
    · rwa [here.1,here.2]
    · rw [append_nil]
      have off : item.isReliableTo z.remoteTransportId z.remoteConnection = false := by
        rw [Bool.eq_false_iff]
        intro to_
        simp only [isReliableTo,Bool.and_eq_true,decide_eq_true_eq] at to_
        exact here ⟨to_.1.2.symm,to_.2.symm⟩
      unfold deliveries at before ⊢
      rwa [singleton_append,List.filter_cons_of_neg (by simp [off])] at before
  · intro other member
    obtain ⟨below,linked⟩ := ordered.accepted other member
    refine ⟨below,?_⟩
    intro u foundU
    simp only [pushEvent] at foundU
    rw [find?_insert] at foundU
    split_ifs at foundU with here
    · cases foundU
      exact linked t (here ▸ found)
    · exact linked u foundU

theorem Stable.queueReliable (tended : Tended n) (wired : Wired n) (accounted : Accounted n [])
    (ordered : Ordered n [item]) (begun : Begun n [item]) (message : item.kind = .message)
    (reliable : item.delivery = .reliableOrdered) (carried : Carried n item x y)
    (connectedSource : x.currentState = .connected) (connectedDestination : y.currentState = .connected) :
    Stable (queueReceived n item) := by
  obtain ⟨t,found,thereIn⟩ := findConnection_eq_some.mp carried.destination
  obtain ⟨link,stored,side⟩ := carried.link
  unfold queueReceived
  rw [found]
  dsimp only
  split_ifs with full
  · have closed := closeLink_closed tended wired stored item.destinationTransportId
      ⟨.resourceExhaustion,ascii "Simulated receive queue exhausted"⟩
    refine ⟨closed.sound wired accounted ordered ?_,closed.begun begun⟩
    intro other member u d to_
    rw [List.mem_singleton.mp member] at to_
    simp only [isReliableTo,Bool.and_eq_true,decide_eq_true_eq] at to_
    rw [← to_.1.2,← to_.2]
    exact side.swap.on
  · have tendedAfter := (queued_replaced tended found thereIn (by simpa using full) (e := receivedEvent item) rfl rfl).2
    have same := same_pushed found (receivedEvent item)
    have own : item.isReliableTo item.destinationTransportId item.destinationConnection := by
      simp [isReliableTo,isReliable,message,reliable]
    have flows := ordered.flowing _ _ x y carried.source
      (by rw [carried.transport,carried.connection]; exact carried.destination) (by rw [connectedSource]; decide)
      (by rw [connectedDestination]; decide)
    rw [carried.transport,carried.connection] at flows
    have orderedAfter := ordered.pushed found reliable (by
      rw [flows,List.append_assoc]
      unfold deliveries
      rw [singleton_append,List.filter_cons_of_pos own,map_cons,singleton_append])
    exact .mild (.mild ⟨⟨tendedAfter,same.wired wired,same.accounted accounted,orderedAfter⟩,
      same.begun begun.forget⟩ _ _ (mild_countDelivered item)) _ _ (mild_countReceived item)

theorem isFrom_self (message : item.kind = .message) : item.isFrom item.sourceTransportId item.sourceConnection := by
  simp [isFrom,message]

theorem isFrom_of_ne (different : ¬ (t = item.sourceTransportId ∧ c = item.sourceConnection)) :
    item.isFrom t c = false := by
  rw [Bool.eq_false_iff]
  intro from_
  simp only [isFrom,Bool.and_eq_true,decide_eq_true_eq] at from_
  exact different ⟨from_.1.2.symm,from_.2.symm⟩

theorem Accounted.land (accounted : Accounted n [item]) (message : item.kind = .message) :
    Accounted (modifyConnection n item.sourceTransportId item.sourceConnection (·.released item)) [] := by
  intro t c x' found
  rw [findConnection_modifyConnection] at found
  have same : items (modifyConnection n item.sourceTransportId item.sourceConnection (·.released item)) = items n := rfl
  rw [same,nil_append]
  split_ifs at found with here
  · obtain ⟨rfl,rfl⟩ := here
    obtain ⟨x,foundHere,rfl⟩ := map_eq_some_iff.mp found
    obtain ⟨bytes,messages⟩ := accounted _ _ x foundHere
    rw [singleton_append,reliableBytes_cons,isFrom_self message] at bytes
    rw [singleton_append,unreliableMessages_cons,isFrom_self message] at messages
    unfold released
    split_ifs with reliable
    · have is : item.isReliable := by simp [isReliable,reliable]
      simp only [is,Bool.and_true,Bool.not_true,Bool.and_false,if_true,Bool.false_eq_true,if_false] at bytes messages
      exact ⟨by dsimp only; omega,by dsimp only; omega⟩
    · have is : item.isReliable = false := by simp [isReliable,reliable]
      simp only [is,Bool.and_false,Bool.not_false,Bool.and_true,if_true,Bool.false_eq_true,if_false] at bytes messages
      exact ⟨by dsimp only; omega,by dsimp only; omega⟩
  · obtain ⟨bytes,messages⟩ := accounted t c x' found
    rw [singleton_append,reliableBytes_cons] at bytes
    rw [singleton_append,unreliableMessages_cons] at messages
    exact ⟨by omega,by omega⟩

theorem Accounted.forget (accounted : Accounted n [item]) : Accounted n [] := by
  intro t c x found
  obtain ⟨bytes,messages⟩ := accounted t c x found
  have sub : List.Sublist ([] ++ items n) ([item] ++ items n) := List.sublist_append_right _ _
  exact ⟨(reliableBytes_sublist sub).trans bytes,(unreliableMessages_sublist sub).trans messages⟩

theorem Ordered.forget (ordered : Ordered n [item]) (unexpected : ∀ t c x y, findConnection n t c = some x →
      findConnection n x.remoteTransportId x.remoteConnection = some y → x.currentState ≠ .closing →
      y.currentState ≠ .closing → item.isReliableTo x.remoteTransportId x.remoteConnection = false) : Ordered n [] where
  paced := ordered.paced
  delivered := ordered.delivered
  flowing := by
    intro t c x y found foundPeer openHere openThere
    have flows := ordered.flowing t c x y found foundPeer openHere openThere
    have off := unexpected t c x y found foundPeer openHere openThere
    unfold deliveries at flows ⊢
    rwa [singleton_append,List.filter_cons_of_neg (by simp [off])] at flows
  accepted := ordered.accepted

theorem alike_released (item : ScheduledItem) (x : SimulatedConnection) : Alike x (x.released item) := by
  unfold released
  split_ifs
  · exact ⟨rfl,rfl,rfl,fun h => h,le_rfl⟩
  · exact ⟨rfl,rfl,rfl,fun h => h,le_rfl⟩

theorem state_released (item : ScheduledItem) (x : SimulatedConnection) :
    (x.released item).currentState = x.currentState := by
  unfold released
  split_ifs <;> rfl

theorem Flying.carried (flying : Flying n item) (message : item.kind = .message) :
    ∃ x y, Carried n item x y ∧ x.linkId = item.linkId ∧ y.linkId = item.linkId := by
  obtain ⟨link,stored,sided⟩ := flying.linked
  have side := sided message
  obtain ⟨x,source,linkId,transport,connection⟩ := flying.wired.ends _ link stored _ _ _ _ side
  obtain ⟨y,destination,linkIdPeer,-,-⟩ := flying.wired.ends _ link stored _ _ _ _ side.swap
  exact ⟨x,y,⟨source,destination,transport,connection,link,stored,side⟩,linkId,linkIdPeer⟩

theorem Carried.modify (carried : Carried n item x y) (wired : Wired n) :
    Carried (modifyConnection n item.sourceTransportId item.sourceConnection (·.released item)) item
      (x.released item) y := by
  have apart := (wired.peer carried.source).choose_spec.2.2.2.2
  refine ⟨?_,?_,?_,?_,carried.link⟩
  · rw [findConnection_modifyConnection,if_pos ⟨rfl,rfl⟩,carried.source]
    rfl
  · rw [findConnection_modifyConnection,if_neg fun both => apart (carried.transport.trans both.1)]
    exact carried.destination
  · exact ((alike_released item x).transport).trans carried.transport
  · exact ((alike_released item x).connection).trans carried.connection

theorem mild_latest (key : SequenceKey) (entry : ReceivedSequence) : Mild fun c =>
    { c with latestReceivedSequences := c.latestReceivedSequences.insert key entry } :=
  ⟨fun _ => rfl,fun _ => rfl,fun _ => rfl,fun _ => .inl rfl,fun _ => le_rfl,fun _ => le_rfl,
    fun _ => le_rfl⟩

theorem Stable.noteDiscard (stable : Stable n) (lost cause : MessageOrder) : Stable (noteDiscard n lost cause) := by
  obtain ⟨⟨tended,wired,accounted,ordered⟩,begun⟩ := stable
  exact ⟨⟨{ tended with },
    { wired with },accounted,
    { ordered with }⟩,⟨begun.agreed,begun.started⟩⟩

theorem findConnection_mild {t id : Nat} {c : ConnectionId} {y : SimulatedConnection}
    (found : findConnection n t c = some y) (f : SimulatedConnection → SimulatedConnection) :
    ∃ y', findConnection (modifyConnection n id d f) t c = some y' := by
  rw [findConnection_modifyConnection]
  split_ifs
  · rw [found]; exact ⟨f y,rfl⟩
  · exact ⟨y,found⟩

theorem Stable.filterSequenced (stable : Stable n) (unreliable : item.delivery ≠ .reliableOrdered)
    {destination : SimulatedConnection}
    (there : findConnection n item.destinationTransportId item.destinationConnection = some y) :
    Stable (filterSequenced n destination item) := by
  have onward : ∀ key entry, Stable (queueReceived (modifyConnection n item.destinationTransportId
      item.destinationConnection fun c => { c with
        latestReceivedSequences := c.latestReceivedSequences.insert key entry }) item) := by
    intro key entry
    obtain ⟨y',thereAfter⟩ := @findConnection_mild _ _ item.destinationTransportId _ item.destinationConnection _
      there fun c => { c with
        latestReceivedSequences := c.latestReceivedSequences.insert key entry }
    exact (stable.mild _ _ (mild_latest key entry)).queueUnreliable unreliable thereAfter
  unfold SimulatedTransport.filterSequenced
  split
  · exact stable.mild _ _ mild_recordUnreliableDrop
  · split
    · split_ifs
      · exact (stable.noteDiscard _ _).mild _ _ mild_recordUnreliableDrop
      · exact onward _ _
    · exact onward _ _

theorem Tended.states (tended : Tended n) (found : findConnection n t c = some x) :
    x.currentState = .connecting ∨ x.currentState = .connected ∨ x.currentState = .closing := by
  obtain ⟨s,foundTransport,there⟩ := findConnection_eq_some.mp found
  have proceeds := ((tended.kept t s foundTransport).present c x there).2
  generalize x.currentState = state at proceeds
  cases proceeds with
  | connecting => exact .inl rfl
  | connected => exact .inr (.inl rfl)
  | closing => exact .inr (.inr rfl)

theorem Flying.deliver (flying : Flying n item) (begun : Begun n [item]) (message : item.kind = .message) :
    Stable (deliverMessage n item) := by
  obtain ⟨x,y,carried,linkId,linkIdPeer⟩ := flying.carried message
  obtain ⟨link,stored,-⟩ := carried.link
  obtain ⟨bytes,messages⟩ := flying.accounted _ _ x carried.source
  rw [singleton_append,reliableBytes_cons,isFrom_self message] at bytes
  rw [singleton_append,unreliableMessages_cons,isFrom_self message] at messages
  unfold deliverMessage
  rw [stored]
  simp only [isNone_some,Bool.false_eq_true,if_false,carried.source,carried.destination]
  by_cases stopped : x.currentState ≠ .connected ∨ y.currentState ≠ .connected
  · rw [if_pos (by simpa [linkId,linkIdPeer] using stopped)]
    obtain ⟨source,destination⟩ := begun.started item (.head _) message
    refine ⟨⟨flying.tended,flying.wired,flying.accounted.forget,flying.ordered.forget ?_⟩,begun.forget⟩
    intro t c z w foundZ foundW openHere openThere
    rw [Bool.eq_false_iff]
    intro to_
    simp only [isReliableTo,Bool.and_eq_true,decide_eq_true_eq] at to_
    have same := flying.wired.source_unique foundZ carried.source (to_.1.2.symm.trans carried.transport.symm)
      (to_.2.symm.trans carried.connection.symm)
    rw [same.1,same.2,carried.source] at foundZ
    cases foundZ
    rw [carried.transport,carried.connection,carried.destination] at foundW
    cases foundW
    rcases stopped with off | off
    · rcases flying.tended.states carried.source with connecting | connected | closing
      · exact source x carried.source connecting
      · exact off connected
      · exact openHere closing
    · rcases flying.tended.states carried.destination with connecting | connected | closing
      · exact destination y carried.destination connecting
      · exact off connected
      · exact openThere closing
  · obtain ⟨connectedSource,connectedDestination⟩ : x.currentState = .connected ∧ y.currentState = .connected := by
      simpa only [not_or,ne_eq,Decidable.not_not] using stopped
    rw [if_neg (by simp [linkId,linkIdPeer,connectedSource,connectedDestination])]
    have reshaped := reshaped_modifyConnection n item.sourceTransportId item.sourceConnection
      fun z _ => alike_released item z
    have tended := flying.tended.modifyConnection item.sourceTransportId item.sourceConnection
      fun z _ => .inl (state_released item z)
    have wired := flying.wired.reshape reshaped
    have accounted := flying.accounted.land message
    have ordered := flying.ordered.reshape reshaped
    have begunAfter := begun.modifyConnection item.sourceTransportId item.sourceConnection
      (fun z _ => alike_released item z) fun z => .inl (state_released item z)
    have carriedAfter := carried.modify flying.wired
    have connectedAfter := (state_released item x).trans connectedSource
    by_cases reliable : item.delivery = .reliableOrdered
    · have is : item.isReliable := by simp [isReliable,reliable]
      simp only [is,Bool.and_true,if_true] at bytes
      rw [if_neg (by simp; omega),if_neg (by simp [reliable]),if_neg (by rw [reliable]; decide)]
      exact .queueReliable tended wired accounted ordered begunAfter message reliable carriedAfter connectedAfter
        connectedDestination
    · have is : item.isReliable = false := by simp [isReliable,reliable]
      simp only [is,Bool.not_false,Bool.and_true,if_true] at messages
      rw [if_neg (by simp [reliable]),if_neg (by simp; omega)]
      have stable : Stable (modifyConnection n item.sourceTransportId item.sourceConnection (·.released item)) :=
        ⟨⟨tended,wired,accounted,ordered.forget fun t c z w _ _ _ _ => by
          simp [isReliableTo,is]⟩,begunAfter.forget⟩
      split_ifs
      · exact stable.filterSequenced reliable carriedAfter.destination
      · exact stable.queueUnreliable reliable carriedAfter.destination

theorem Flying.land_control (flying : Flying n item) (begun : Begun n [item]) (control : item.kind ≠ .message) :
    Stable n :=
  ⟨⟨flying.tended,flying.wired,flying.accounted.forget,
    flying.ordered.forget fun _ _ _ _ _ _ _ _ => isReliableTo_of_control control _ _⟩,begun.forget⟩

theorem Stable.pumpTurn (stable : Stable n) (turned : pumpTurn n = some m) : Stable m := by
  unfold SimulatedTransport.pumpTurn at turned
  split at turned
  · cases turned
  · next key item rest entries =>
    split_ifs at turned
    cases turned
    have flying := stable.sound.take entries
    have begun : Begun { n with scheduled := n.scheduled.erase key } [item] := by
      have all : [item] ++ items { n with scheduled := n.scheduled.erase key } = items n := by
        simp only [items,entries_erase_first entries,entries,map_cons,singleton_append]
      exact ⟨stable.begun.agreed,by rw [all]; exact stable.begun.started⟩
    unfold processScheduledItem
    split
    · next kind =>
      exact (flying.land_control begun (by rw [kind]; decide)).activateLink item
    · next kind => exact flying.deliver begun kind
    · next kind =>
      exact (flying.land_control begun (by rw [kind]; decide)).closeLink _ _ _

theorem Stable.pump (stable : Stable n) : Stable (pump n) := by
  unfold SimulatedTransport.pump
  generalize n.scheduled.size = turns
  induction turns generalizing n with
  | zero => exact stable
  | succ turns ih =>
    simp only [pumpLoop]
    split
    · exact stable
    · next m turned => exact ih (stable.pumpTurn turned)

end Gargantuan.SimulatedTransport
