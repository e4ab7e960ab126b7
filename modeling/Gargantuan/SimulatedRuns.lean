import Gargantuan.Runs
import Gargantuan.SimulatedDelivery

/-!
The operations of the simulated network keep its invariant, and so does every run.
-/
namespace Gargantuan.SimulatedTransport
open SortedMap Option SimulatedTransportState SimulatedTransport ScheduledItem Nat And Prod
open RemoteManager (DisconnectInfo)
open NetworkScheduler (TransportOperationResult)

variable {m n : Network} {id : Nat} {t u : SimulatedTransportState} {item : ScheduledItem} {c : ConnectionId}

theorem Stable.of_same (stable : Stable n) (transports : m.transports = n.transports) (links : m.links = n.links)
    (scheduled : m.scheduled = n.scheduled) (ties : m.nextTieBreaker = n.nextTieBreaker)
    (linkIds : m.nextLinkId = n.nextLinkId) (transportIds : m.nextTransportId = n.nextTransportId)
    (history : m.history = n.history) (configuration : m.configuration = n.configuration) : Stable m := by
  have same : ∀ t c, findConnection m t c = findConnection n t c := by
    intro t c
    rw [findConnection,transports,findConnection]
  have reshaped : Reshaped n m := by
    refine ⟨links,scheduled,ties,linkIds,transportIds,by rw [history],?_,?_,?_,?_⟩
    · intro t c
      rw [receivedAt,transports,receivedAt]
    · rw [transports]
      exact fun _ u found => ⟨u,found,fun _ member => member⟩
    · intro t c x found
      exact ⟨x,(same t c).trans found,.refl x⟩
    · intro t c x found
      exact ⟨x,(same t c).symm.trans found,.refl x⟩
  refine ⟨⟨stable.sound.tended.of_transports history transports configuration transportIds,
    stable.sound.wired.reshape reshaped,stable.sound.accounted.reshape reshaped ?_,
    stable.sound.ordered.reshape reshaped⟩,stable.begun.reshape reshaped ?_⟩
  · intro t c x x' found foundAfter
    rw [same,found] at foundAfter
    cases foundAfter
    exact ⟨le_rfl,le_rfl⟩
  · intro t c x x' found foundAfter
    rw [same,found] at foundAfter
    cases foundAfter
    exact ⟨fun h => h,fun h => h⟩

structure Onward (x x' : SimulatedConnection) : Prop extends Alike x x' where
  state : x'.currentState = x.currentState ∨ x'.currentState = .closing
  bytes : x.reliableQueueBytes ≤ x'.reliableQueueBytes
  messages : x.queuedUnreliableMessages ≤ x'.queuedUnreliableMessages

theorem Onward.refl (x : SimulatedConnection) : Onward x x := ⟨.refl x,.inl rfl,le_rfl,le_rfl⟩

theorem Stable.retouch (stable : Stable n) (replaced : Replaced n m id t u) (history : m.history = n.history)
    (kept : u.Kept) (roomy : u.Roomy n.configuration.maximumPendingEventsPerTransport)
    (received : ∀ c, u.received c = t.received c) (linked : u.linked = t.linked)
    (connections : ∀ c, (u.connections.find? c = none ∧ t.connections.find? c = none) ∨
      ∃ x x', t.connections.find? c = some x ∧ u.connections.find? c = some x' ∧ Onward x x') : Stable m := by
  have reshaped : Reshaped n m := by
    refine replaced.reshaped received (by rw [linked]; exact fun _ member => member) ?_ ?_
    · intro c x found
      rcases connections c with ⟨-,none⟩ | ⟨y,y',there,after,onward⟩
      · rw [none] at found
        cases found
      · rw [there] at found
        cases found
        exact ⟨y',after,onward.toAlike⟩
    · intro c x' found
      rcases connections c with ⟨none,-⟩ | ⟨y,y',there,after,onward⟩
      · rw [none] at found
        cases found
      · rw [after] at found
        cases found
        exact ⟨y,there,onward.toAlike⟩
  have onward : ∀ s c x x', findConnection n s c = some x → findConnection m s c = some x' → Onward x x' := by
    intro s c x x' found after
    by_cases here : s = id
    · subst here
      rw [findConnection_of replaced.found] at found
      rw [replaced.findConnection_self] at after
      rcases connections c with ⟨none,-⟩ | ⟨y,y',there,later,onward⟩
      · rw [none] at after
        cases after
      · rw [there] at found
        rw [later] at after
        cases found
        cases after
        exact onward
    · rw [replaced.findConnection_other here,found] at after
      cases after
      exact .refl x
  refine ⟨⟨stable.sound.tended.replace replaced (history ▸ stable.sound.tended.asserted)
    (history ▸ stable.sound.tended.exact_) kept roomy,stable.sound.wired.reshape reshaped,
    stable.sound.accounted.reshape reshaped fun s c x x' found after =>
      ⟨(onward s c x x' found after).bytes,(onward s c x x' found after).messages⟩,
    stable.sound.ordered.reshape reshaped⟩,stable.begun.reshape reshaped ?_⟩
  intro s c x x' found after
  rcases (onward s c x x' found after).state with same | closes
  · rw [same]
    exact ⟨fun h => h,fun h => h⟩
  · rw [closes]
    constructor <;> rintro ⟨⟩

theorem connections_same (same : u.connections = t.connections) (c : ConnectionId) :
    (u.connections.find? c = none ∧ t.connections.find? c = none) ∨
      ∃ x x', t.connections.find? c = some x ∧ u.connections.find? c = some x' ∧ Onward x x' := by
  rw [same]
  rcases t.connections.find? c with _ | x
  · exact .inl ⟨rfl,rfl⟩
  · exact .inr ⟨x,x,rfl,rfl,.refl x⟩

theorem replaced_insert (found : n.transports.find? id = some t) (u : SimulatedTransportState) :
    Replaced n { n with transports := n.transports.insert id u } id t u :=
  ⟨found,fun _ => find?_insert _ _ _ _,rfl,rfl,rfl,rfl,rfl,rfl,rfl⟩

theorem replaced_modify (found : n.transports.find? id = some t)
    (f : SimulatedTransportState → SimulatedTransportState) :
    Replaced n { n with transports := n.transports.modify id f } id t (f t) := by
  refine ⟨found,?_,rfl,rfl,rfl,rfl,rfl,rfl,rfl⟩
  intro other
  rw [find?_modify]
  split_ifs with here
  · rw [here,found]; rfl
  · rfl

theorem Stable.poll (stable : Stable n) (id capacity : Nat) : Stable (pollEvents n id capacity).2 := by
  unfold pollEvents
  rcases found : n.transports.find? id with _ | t
  · exact stable
  · have roomy := stable.sound.tended.roomy id t found
    refine stable.retouch (replaced_insert found _) rfl ((stable.sound.tended.kept id t found).poll capacity) ?_ ?_ rfl
      (connections_same rfl)
    · refine le_trans (Nat.add_le_add_right ?_ _) roomy
      exact (List.drop_sublist _ _).length_le
    · intro c
      simp only [received,observed,List.append_assoc,
        List.take_append_drop]

theorem Stable.begin (stable : Stable n) (id : Nat) (configuration : TransportStartConfiguration) :
    Stable { n with transports := n.transports.modify id (·.begin configuration) } := by
  rcases found : n.transports.find? id with _ | t
  · refine stable.of_same ?_ rfl rfl rfl rfl rfl rfl rfl
    apply ext_find?
    intro other
    rw [find?_modify]
    split_ifs with here
    · rw [here,found]; rfl
    · rfl
  · exact stable.retouch (replaced_modify found _) rfl
      ((stable.sound.tended.kept id t found).congr rfl rfl rfl rfl rfl fun _ => rfl) (stable.sound.tended.roomy id t found)
      (fun _ => rfl) rfl (connections_same rfl)

theorem Stable.createTransport (stable : Stable n) : Stable (createTransport n).2 := by
  unfold SimulatedTransport.createTransport
  split_ifs
  · exact stable
  · have sound := stable.sound
    have absent : n.transports.find? n.nextTransportId = none := by
      rcases present : n.transports.find? n.nextTransportId with _ | t
      · rfl
      · exact absurd (sound.tended.known _ t present) (lt_irrefl _)
    have find : ∀ other, (n.transports.insert n.nextTransportId { id := n.nextTransportId }).find? other =
        if other = n.nextTransportId then some { id := n.nextTransportId } else n.transports.find? other :=
      fun other => find?_insert _ _ _ _
    have same : SameConnections n { n with
        nextTransportId := n.nextTransportId + 1
        transports := n.transports.insert n.nextTransportId { id := n.nextTransportId } } := by
      refine ⟨?_,rfl,rfl,rfl,rfl⟩
      intro t c
      simp only [findConnection]
      rw [find]
      split_ifs with here
      · rw [here,absent]; rfl
      · rfl
    have received : ∀ t c, receivedAt { n with
        nextTransportId := n.nextTransportId + 1
        transports := n.transports.insert n.nextTransportId { id := n.nextTransportId } } t c = receivedAt n t c := by
      intro t c
      simp only [receivedAt]
      rw [find]
      split_ifs with here
      · rw [here,absent]; rfl
      · rfl
    refine ⟨⟨⟨sound.tended.asserted,sound.tended.exact_,?_,?_,?_⟩,same.wired sound.wired,
      same.accounted sound.accounted,⟨?_,?_,?_,?_⟩⟩,same.begun stable.begun⟩
    · intro other t found
      rw [find] at found
      split_ifs at found
      · cases found; exact kept_new _
      · exact sound.tended.kept other t found
    · intro other t found
      rw [find] at found
      split_ifs at found
      · cases found
        exact zero_le _
      · exact sound.tended.roomy other t found
    · intro other t found
      show other < n.nextTransportId + 1
      rw [find] at found
      split_ifs at found with here
      · omega
      · exact lt_succ_of_lt (sound.tended.known other t found)
    · intro t c x there
      rw [same.connections] at there
      exact sound.ordered.paced t c x there
    · intro t c
      rw [received]
      exact sound.ordered.delivered t c
    · intro t c x y there thereToo
      rw [same.connections] at there thereToo
      rw [received]
      exact sound.ordered.flowing t c x y there thereToo
    · intro item member
      obtain ⟨below,linked⟩ := sound.ordered.accepted item member
      refine ⟨lt_succ_of_lt below,?_⟩
      intro t found
      rw [find,if_neg (by omega)] at found
      exact linked t found

/-! ### Linking -/

theorem Wired.item_ends (wired : Wired n) (member : item ∈ items n) (message : item.kind = .message) :
    ∃ x y, findConnection n item.sourceTransportId item.sourceConnection = some x ∧
      findConnection n item.destinationTransportId item.destinationConnection = some y := by
  obtain ⟨e,there,rfl⟩ := List.mem_map.mp member
  obtain ⟨link,stored,sided⟩ := wired.scheduled e there
  obtain ⟨x,source,-⟩ := wired.ends _ link stored _ _ _ _ (sided message)
  obtain ⟨y,destination,-⟩ := wired.ends _ link stored _ _ _ _ (sided message).swap
  exact ⟨x,y,source,destination⟩

theorem Wired.no_items (wired : Wired n) {t : Nat} (absent : findConnection n t c = none) :
    reliableBytes t c (items n) = 0 ∧ unreliableMessages t c (items n) = 0 ∧ deliveries t c (items n) = [] := by
  have noneFrom : ∀ item ∈ items n, item.isFrom t c = false := by
    intro item member
    rw [Bool.eq_false_iff]
    intro from_
    simp only [isFrom,Bool.and_eq_true,decide_eq_true_eq] at from_
    obtain ⟨x,y,source,-⟩ := wired.item_ends member from_.1.1
    rw [from_.1.2,from_.2,absent] at source
    cases source
  have noneTo : ∀ item ∈ items n, item.isReliableTo t c = false := by
    intro item member
    rw [Bool.eq_false_iff]
    intro to_
    simp only [isReliableTo,Bool.and_eq_true,decide_eq_true_eq] at to_
    obtain ⟨x,y,-,destination⟩ := wired.item_ends member to_.1.1.1
    rw [to_.1.2,to_.2,absent] at destination
    cases destination
  refine ⟨?_,?_,?_⟩
  · unfold reliableBytes
    rw [List.filter_eq_nil_iff.mpr]
    · rfl
    · intro item member
      simp [noneFrom item member]
  · unfold unreliableMessages
    rw [List.countP_eq_zero]
    intro item member
    simp [noneFrom item member]
  · unfold deliveries
    rw [List.filter_eq_nil_iff.mpr]
    · rfl
    · intro item member
      simp [noneTo item member]

structure Ready (n : Network) (id : Nat) (t : SimulatedTransportState) (c : ConnectionId) : Prop where
  found : n.transports.find? id = some t
  issued : c ∈ t.issued
  unlinked : c ∉ t.linked
  roomy : t.events.length + reservedLifecycleEventCapacity t + 4 ≤ n.configuration.maximumPendingEventsPerTransport

theorem Ready.absent (stable : Stable n) (ready : Ready n id t c) : findConnection n id c = none := by
  rcases there : findConnection n id c with _ | x
  · rfl
  · rw [findConnection_of ready.found] at there
    exact absurd ((stable.sound.tended.kept id t ready.found).present c x there).1 ready.unlinked

theorem Ready.nothing_received (stable : Stable n) (ready : Ready n id t c) : receivedAt n id c = [] := by
  rw [receivedAt_of ready.found,received,
    (stable.sound.tended.kept id t ready.found).quiet c ready.unlinked]
  rfl

theorem Ready.nothing_accepted (stable : Stable n) (ready : Ready n id t c) :
    deliveries id c n.history.accepted = [] := by
  unfold deliveries
  rw [List.filter_eq_nil_iff.mpr]
  · rfl
  · intro item member to_
    simp only [isReliableTo,Bool.and_eq_true,decide_eq_true_eq] at to_
    have linked := (stable.sound.ordered.accepted item member).2 t (by rw [to_.1.2]; exact ready.found)
    rw [to_.2] at linked
    exact ready.unlinked linked

variable {x : SimulatedConnection} {s : SimulatedTransportState} {serverId : Nat}

theorem roomy_link {maximum : Nat} (absent : t.connections.find? c = none)
    (room : t.events.length + reservedLifecycleEventCapacity t + 4 ≤ maximum) : (t.link c x).Roomy maximum := by
  have more := reserved_insert (c := x) absent
  have most := reservedFor_le x
  show t.events.length + reservedLifecycleEventCapacity { t with connections := t.connections.insert c x } ≤ _
  omega

structure Joined (n m : Network) (link : SimulatedLink) (id : Nat) (t : SimulatedTransportState) (c : ConnectionId)
    (x : SimulatedConnection) : Prop extends Ready n id t c where
  gained : m.transports.find? id = some (t.link c x)
  linkId : x.linkId = link.id
  side : Side link id c x.remoteTransportId x.remoteConnection
  connecting : x.currentState = .connecting

structure Linking (n m : Network) (link : SimulatedLink) : Prop where
  ends : ∀ u c v d, Side link u c v d →
    ∃ a x, Joined n m link u a c x ∧ x.remoteTransportId = v ∧ x.remoteConnection = d
  others : ∀ u, u ≠ link.firstTransportId → u ≠ link.secondTransportId → m.transports.find? u = n.transports.find? u
  apart : link.firstTransportId ≠ link.secondTransportId
  fresh : link.id = n.nextLinkId
  links : m.links = n.links.insert link.id link
  scheduled : m.scheduled = n.scheduled
  ties : m.nextTieBreaker = n.nextTieBreaker
  linkIds : m.nextLinkId = n.nextLinkId + 1
  transportIds : m.nextTransportId = n.nextTransportId
  history : m.history = n.history
  configuration : m.configuration = n.configuration

section Linking
variable {link other : SimulatedLink} {v i : Nat}

theorem Joined.connection (joined : Joined n m link id t c x) (d : ConnectionId) :
    findConnection m id d = if d = c then some x else findConnection n id d := by
  rw [findConnection_of joined.gained,findConnection_of joined.found]
  exact find?_insert ..

namespace Linking

section
variable (l : Linking n m link)
include l

theorem end_or (v : Nat) :
    (∃ a c x, Joined n m link v a c x) ∨ m.transports.find? v = n.transports.find? v := by
  by_cases first : v = link.firstTransportId
  · obtain ⟨a,x,joined,-⟩ := l.ends v _ _ _ (.inl ⟨first,rfl,rfl,rfl⟩)
    exact .inl ⟨a,_,x,joined⟩
  by_cases second : v = link.secondTransportId
  · obtain ⟨a,x,joined,-⟩ := l.ends v _ _ _ (.inr ⟨second,rfl,rfl,rfl⟩)
    exact .inl ⟨a,_,x,joined⟩
  · exact .inr (l.others v first second)

theorem found_cases (found : m.transports.find? v = some s) :
    (∃ a c x, Joined n m link v a c x ∧ s = a.link c x) ∨ n.transports.find? v = some s := by
  rcases l.end_or v with ⟨a,c,x,joined⟩ | same
  · rw [joined.gained] at found
    cases found
    exact .inl ⟨a,c,x,joined,rfl⟩
  · exact .inr (same ▸ found)

theorem connection_cases (found : findConnection m v c = some x) :
    (∃ a, Joined n m link v a c x) ∨ findConnection n v c = some x := by
  rcases l.end_or v with ⟨a,d,y,joined⟩ | same
  · rw [joined.connection] at found
    split_ifs at found with own
    · cases found
      subst own
      exact .inl ⟨a,joined⟩
    · exact .inr found
  · rw [findConnection,same] at found
    exact .inr found

theorem other_end (joined : Joined n m link v t c x) :
    ∃ b y, Joined n m link x.remoteTransportId b x.remoteConnection y := by
  obtain ⟨b,y,there,-⟩ := l.ends _ _ _ _ joined.side.swap
  exact ⟨b,y,there⟩

theorem old (stable : Stable n) (found : findConnection n v c = some x) :
    findConnection m v c = some x := by
  rcases l.end_or v with ⟨a,d,y,joined⟩ | same
  · rw [joined.connection,if_neg]
    · exact found
    · rintro rfl
      rw [joined.absent stable] at found
      cases found
  · rwa [findConnection,same]

theorem received (v : Nat) (c : ConnectionId) : receivedAt m v c = receivedAt n v c := by
  rcases l.end_or v with ⟨a,d,y,joined⟩ | same
  · rw [receivedAt_of joined.gained,receivedAt_of joined.found]
    rfl
  · rw [receivedAt,same,receivedAt]

theorem items_eq : items m = items n := by rw [items,l.scheduled,items]

theorem stored (stable : Stable n) (stored : n.links.find? i = some other) :
    m.links.find? i = some other := by
  have below := (stable.sound.wired.links i other stored).2.1
  rw [← l.fresh] at below
  rw [l.links,find?_insert,if_neg below.ne,stored]

theorem tended (stable : Stable n) : Tended m where
  asserted := l.history ▸ stable.sound.tended.asserted
  exact_ := l.history ▸ stable.sound.tended.exact_
  kept v s found := by
    rcases l.found_cases found with ⟨a,c,x,joined,rfl⟩ | before
    · exact (stable.sound.tended.kept v a joined.found).link joined.issued joined.unlinked joined.connecting
    · exact stable.sound.tended.kept v s before
  roomy v s found := by
    rw [l.configuration]
    rcases l.found_cases found with ⟨a,c,x,joined,rfl⟩ | before
    · have absent := joined.absent stable
      rw [findConnection_of joined.found] at absent
      exact roomy_link absent joined.roomy
    · exact stable.sound.tended.roomy v s before
  known v s found := by
    rw [l.transportIds]
    rcases l.found_cases found with ⟨a,_,_,joined,-⟩ | before
    · exact stable.sound.tended.known v a joined.found
    · exact stable.sound.tended.known v s before

theorem wired (stable : Stable n) : Wired m where
  links i other stored := by
    rw [l.links,find?_insert] at stored
    rw [l.linkIds]
    split_ifs at stored with new
    · cases stored
      exact ⟨new.symm,by rw [new,l.fresh]; exact lt_succ_self _,l.apart⟩
    · obtain ⟨named,below,different⟩ := stable.sound.wired.links i other stored
      exact ⟨named,lt_succ_of_lt below,different⟩
  ends i other stored v c v' c' side := by
    rw [l.links,find?_insert] at stored
    split_ifs at stored with new
    · cases stored
      obtain ⟨a,x,joined,remote⟩ := l.ends v c v' c' side
      exact ⟨x,by rw [joined.connection,if_pos rfl],joined.linkId.trans new.symm,remote⟩
    · obtain ⟨x,found,rest⟩ := stable.sound.wired.ends i other stored v c v' c' side
      exact ⟨x,l.old stable found,rest⟩
  connections v c x found := by
    rcases l.connection_cases found with ⟨a,joined⟩ | before
    · exact ⟨link,by rw [joined.linkId,l.links,find?_insert,if_pos rfl],joined.side⟩
    · obtain ⟨other,there,side⟩ := stable.sound.wired.connections v c x before
      exact ⟨other,l.stored stable there,side⟩
  scheduled e member := by
    rw [l.scheduled] at member
    obtain ⟨other,there,side⟩ := stable.sound.wired.scheduled e member
    exact ⟨other,l.stored stable there,side⟩
  ties := by
    rw [l.scheduled,l.ties]
    exact stable.sound.wired.ties

theorem accounted (stable : Stable n) : Accounted m [] := by
  intro v c x found
  rw [l.items_eq]
  rcases l.connection_cases found with ⟨a,joined⟩ | before
  · obtain ⟨bytes,messages,-⟩ := stable.sound.wired.no_items (joined.absent stable)
    rw [List.nil_append,bytes,messages]
    exact ⟨zero_le _,zero_le _⟩
  · exact stable.sound.accounted v c x before

theorem ordered (stable : Stable n) : Ordered m [] where
  paced v c x found e member reliable := by
    rw [l.scheduled] at member
    rcases l.connection_cases found with ⟨a,joined⟩ | before
    · obtain ⟨b,y,there⟩ := l.other_end joined
      have waits : receivedEvent e.2 ∈ deliveries x.remoteTransportId x.remoteConnection (items n) :=
        List.mem_map_of_mem (List.mem_filter.mpr ⟨List.mem_map_of_mem member,reliable⟩)
      rw [(stable.sound.wired.no_items (there.absent stable)).2.2] at waits
      cases waits
    · exact stable.sound.ordered.paced v c x before e member reliable
  delivered v c := by
    rw [l.received,l.history]
    exact stable.sound.ordered.delivered v c
  flowing v c x y found foundPeer openHere openThere := by
    rw [l.items_eq,l.received,l.history]
    rcases l.connection_cases found with ⟨a,joined⟩ | before
    · obtain ⟨b,z,there⟩ := l.other_end joined
      rw [there.nothing_accepted stable,there.nothing_received stable,List.nil_append,List.nil_append,
        (stable.sound.wired.no_items (there.absent stable)).2.2]
    · obtain ⟨w,peer,-⟩ := stable.sound.wired.peer before
      rw [l.old stable peer] at foundPeer
      cases foundPeer
      exact stable.sound.ordered.flowing v c x _ before peer openHere openThere
  accepted item member := by
    rw [l.history] at member
    rw [l.transportIds]
    obtain ⟨below,linked⟩ := stable.sound.ordered.accepted item member
    refine ⟨below,fun s found => ?_⟩
    rcases l.found_cases found with ⟨a,c,x,joined,rfl⟩ | before
    · exact List.mem_append_left _ (linked a joined.found)
    · exact linked s before

theorem begun (stable : Stable n) : Begun m [] where
  agreed v c x y found foundPeer connected := by
    rcases l.connection_cases found with ⟨a,joined⟩ | before
    · rw [joined.connecting] at connected
      cases connected
    · obtain ⟨w,peer,-⟩ := stable.sound.wired.peer before
      rw [l.old stable peer] at foundPeer
      cases foundPeer
      exact stable.begun.agreed v c x _ before peer connected
  started item member message := by
    rw [l.items_eq] at member
    obtain ⟨source,destination⟩ := stable.begun.started item member message
    obtain ⟨x,y,foundSource,foundDestination⟩ := stable.sound.wired.item_ends member message
    constructor
    · intro z found
      rw [l.old stable foundSource] at found
      cases found
      exact source x foundSource
    · intro z found
      rw [l.old stable foundDestination] at found
      cases found
      exact destination y foundDestination

theorem stable (stable : Stable n) : Stable m :=
  ⟨⟨l.tended stable,l.wired stable,l.accounted stable,l.ordered stable⟩,l.begun stable⟩

end

theorem entered {client server : ConnectionId} (here : Ready n id t client) (there : Ready n serverId s server)
    (apart : id ≠ serverId) (limits : NetworkLimits) :
    Linking n { n with
      nextLinkId := n.nextLinkId + 1
      links := n.links.insert n.nextLinkId ⟨n.nextLinkId,id,client,serverId,server⟩
      transports := (n.transports.modify id (·.link client
        { linkId := n.nextLinkId, remoteConnection := server, remoteTransportId := serverId, limits })).modify serverId
          (·.link server
            { linkId := n.nextLinkId, remoteConnection := client, remoteTransportId := id, limits }) }
      ⟨n.nextLinkId,id,client,serverId,server⟩ := by
  refine ⟨?_,?_,apart,rfl,rfl,rfl,rfl,rfl,rfl,rfl,rfl⟩
  · rintro u c v d (⟨rfl,rfl,rfl,rfl⟩ | ⟨rfl,rfl,rfl,rfl⟩)
    · refine ⟨t,{ linkId := n.nextLinkId, remoteConnection := d, remoteTransportId := v, limits },
        ⟨here,?_,rfl,.inl ⟨rfl,rfl,rfl,rfl⟩,rfl⟩,rfl,rfl⟩
      rw [find?_modify,if_neg apart,find?_modify,if_pos rfl,here.found]
      rfl
    · refine ⟨s,{ linkId := n.nextLinkId, remoteConnection := d, remoteTransportId := v, limits },
        ⟨there,?_,rfl,.inr ⟨rfl,rfl,rfl,rfl⟩,rfl⟩,rfl,rfl⟩
      rw [find?_modify,if_pos rfl,find?_modify,if_neg apart.symm,there.found]
      rfl
  · intro u first second
    rw [find?_modify,if_neg second,find?_modify,if_neg first]

end Linking
end Linking

theorem allocation_of {result : Option ConnectionId} (kept : t.Kept) (allocated : allocateConnection t = (result,u)) :
    u.Kept ∧ u.connections = t.connections ∧ u.events = t.events ∧ u.polled = t.polled ∧ u.linked = t.linked ∧
      ∀ c, result = some c → c ∈ u.issued ∧ c ∉ u.linked := by
  obtain ⟨keptAfter,connections,events,-,-,linked,-,polled,new⟩ := kept.allocate allocated
  refine ⟨keptAfter,connections,events,polled,linked,?_⟩
  intro c same
  obtain ⟨member,fresh⟩ := new c same
  refine ⟨member,?_⟩
  rw [linked]
  exact fun there => fresh (kept.linkedIssued c there)

theorem Stable.reissue (stable : Stable n) (found : n.transports.find? id = some t) (kept : u.Kept)
    (connections : u.connections = t.connections) (events : u.events = t.events) (polled : u.polled = t.polled)
    (linked : u.linked = t.linked) :
    Stable { n with transports := n.transports.insert id u } := by
  refine stable.retouch (replaced_insert found u) rfl kept ?_ ?_ linked (connections_same connections)
  · have roomy := stable.sound.tended.roomy id t found
    unfold SimulatedTransportState.Roomy reservedLifecycleEventCapacity at roomy ⊢
    rwa [events,connections]
  · intro c
    rw [received,observed_of_same polled events,
      received]

theorem Stable.reissueBoth (stable : Stable n) {other : Nat} {v : SimulatedTransportState} (apart : id ≠ other)
    (found : n.transports.find? id = some t) (foundOther : n.transports.find? other = some s) (kept : u.Kept)
    (keptOther : v.Kept)
    (same : u.connections = t.connections ∧ u.events = t.events ∧ u.polled = t.polled ∧ u.linked = t.linked)
    (sameOther : v.connections = s.connections ∧ v.events = s.events ∧ v.polled = s.polled ∧ v.linked = s.linked) :
    Stable { n with transports := (n.transports.insert id u).insert other v } := by
  have first := stable.reissue found kept same.1 same.2.1 same.2.2.1 same.2.2.2
  have there : (n.transports.insert id u).find? other = some s := by
    rw [find?_insert,if_neg apart.symm,foundOther]
  exact first.reissue there keptOther sameOther.1 sameOther.2.1 sameOther.2.2.1 sameOther.2.2.2

theorem same_release
    (same : u.connections = t.connections ∧ u.events = t.events ∧ u.polled = t.polled ∧ u.linked = t.linked)
    (c : ConnectionId) : (releaseConnection u c).connections = t.connections ∧
      (releaseConnection u c).events = t.events ∧ (releaseConnection u c).polled = t.polled ∧
      (releaseConnection u c).linked = t.linked := by
  refine ⟨?_,?_,?_,?_⟩
  · rw [releaseConnection_connections,same.1]
  · rw [releaseConnection_events,same.2.1]
  · rw [releaseConnection_polled,same.2.2.1]
  · rw [releaseConnection_linked,same.2.2.2]

section
variable (stable : Stable n)
include stable

/-- What is known once both connections are issued. -/
theorem Stable.allocateBoth (apart : id ≠ serverId) (found : n.transports.find? id = some t)
    (foundServer : n.transports.find? serverId = some s)
    (room : t.events.length + reservedLifecycleEventCapacity t + 4 ≤ n.configuration.maximumPendingEventsPerTransport)
    (roomServer :
      s.events.length + reservedLifecycleEventCapacity s + 4 ≤ n.configuration.maximumPendingEventsPerTransport)
    {result : Option (ConnectionId × ConnectionId)} (allocated : allocateBoth n id serverId = (result,m)) :
    Stable m ∧ ∀ client server, result = some (client,server) →
      (∃ t', Ready m id t' client) ∧ ∃ s', Ready m serverId s' server := by
  have kept := stable.sound.tended.kept id t found
  have keptServer := stable.sound.tended.kept serverId s foundServer
  rcases first : allocateConnection t with ⟨client,t'⟩
  rcases second : allocateConnection s with ⟨server,s'⟩
  obtain ⟨keptAfter,connections,events,polled,linked,new⟩ := allocation_of kept first
  obtain ⟨keptServerAfter,connectionsServer,eventsServer,polledServer,linkedServer,newServer⟩ :=
    allocation_of keptServer second
  have same := intro connections (intro events (intro polled linked))
  have sameServer := intro connectionsServer (intro eventsServer (intro polledServer linkedServer))
  unfold SimulatedTransport.allocateBoth at allocated
  simp only [found,foundServer,first,second] at allocated
  rcases client with _ | client <;> rcases server with _ | server
  · cases allocated
    exact ⟨stable.reissueBoth apart found foundServer keptAfter keptServerAfter same sameServer,by simp⟩
  · cases allocated
    exact ⟨stable.reissueBoth apart found foundServer keptAfter (keptServerAfter.release server) same
      (same_release sameServer server),by simp⟩
  · cases allocated
    exact ⟨stable.reissueBoth apart found foundServer (keptAfter.release client) keptServerAfter
      (same_release same client) sameServer,by simp⟩
  · dsimp only at allocated
    split_ifs at allocated
    · cases allocated
      exact ⟨stable.reissueBoth apart found foundServer (keptAfter.release client) (keptServerAfter.release server)
        (same_release same client) (same_release sameServer server),by simp⟩
    · cases allocated
      refine ⟨stable.reissueBoth apart found foundServer keptAfter keptServerAfter same sameServer,?_⟩
      intro a b both
      cases both
      obtain ⟨issued,unlinked⟩ := new client rfl
      obtain ⟨issuedServer,unlinkedServer⟩ := newServer server rfl
      refine ⟨⟨t',?_,issued,unlinked,?_⟩,⟨s',?_,issuedServer,unlinkedServer,?_⟩⟩
      · show ((n.transports.insert id t').insert serverId s').find? id = _
        rw [find?_insert,if_neg apart,find?_insert,if_pos rfl]
      · unfold reservedLifecycleEventCapacity at room ⊢
        rwa [events,connections]
      · show ((n.transports.insert id t').insert serverId s').find? serverId = _
        rw [find?_insert,if_pos rfl]
      · unfold reservedLifecycleEventCapacity at roomServer ⊢
        rwa [eventsServer,connectionsServer]

theorem Stable.linkUp (apart : id ≠ serverId) {client server : ConnectionId}
    (here : ∃ t, Ready n id t client) (there : ∃ s, Ready n serverId s server) (limits : NetworkLimits)
    (timeoutAt : SimulatedTime) : Stable (linkUp n id serverId client server limits timeoutAt).2 := by
  obtain ⟨t,here⟩ := here
  obtain ⟨s,there⟩ := there
  unfold SimulatedTransport.linkUp
  dsimp only
  generalize joined : ({ n with
    nextLinkId := n.nextLinkId + 1
    links := n.links.insert n.nextLinkId ⟨n.nextLinkId,id,client,serverId,server⟩
    transports := _ } : Network) = m
  have linked : Stable m := by
    subst joined
    exact (Linking.entered here there apart limits).stable stable
  have stored : m.links.find? n.nextLinkId = some ⟨n.nextLinkId,id,client,serverId,server⟩ := by
    subst joined
    exact (find?_insert _ _ _ _).trans (if_pos rfl)
  generalize activation : ({ kind := .activate, time := n.currentTime, linkId := n.nextLinkId } : ScheduledItem) = item
  have scheduled : Stable (schedule m item).2 := by
    subst activation
    exact linked.schedule_either stored nofun
  have storedAfter : (schedule m item).2.links.find? n.nextLinkId =
      some ⟨n.nextLinkId,id,client,serverId,server⟩ := by
    rcases schedule_cases m item with done | ⟨done,-⟩
    · rw [done]; exact stored
    · rw [done]; exact stored
  split
  · next after activated =>
    have same : after = (schedule m _).2 := (congrArg snd activated).symm
    rw [same]
    exact scheduled.closeLink _ _ _
  · next after activated =>
    have same : after = (schedule m _).2 := (congrArg snd activated).symm
    rw [← same] at scheduled storedAfter
    split_ifs
    · have both := @Stable.schedule_either _ _
        { kind := .disconnect, time := timeoutAt, linkId := n.nextLinkId, disconnect := lifetimeExpired } scheduled
        storedAfter nofun
      split
      · next last expires =>
        have same : last = (schedule after _).2 := (congrArg snd expires).symm
        rw [same]
        exact both.closeLink _ _ _
      · next last expires =>
        have same : last = (schedule after _).2 := (congrArg snd expires).symm
        rwa [same]
    · exact scheduled

theorem Stable.startClient (found : n.transports.find? id = some t) (stopped : t.started = false)
    (configuration : TransportStartConfiguration) : Stable (startClient n id t configuration).2 := by
  unfold SimulatedTransport.startClient
  split
  · exact stable
  next serverId _ =>
  split
  · exact stable
  next server foundServer =>
  split
  · exact stable
  next serving =>
  split
  · exact stable
  next limits _ =>
  split
  · exact stable
  split
  · exact stable
  next timeoutAt _ =>
  split
  · exact stable
  next refused =>
  have apart : id ≠ serverId := by
    rintro rfl
    rw [found] at foundServer
    cases foundServer
    simp [stopped] at serving
  simp only [Bool.or_eq_true,Bool.not_eq_true',not_or,Bool.not_eq_false] at refused
  have room := hasEventCapacity_iff.mp refused.1.2
  have roomServer := hasEventCapacity_iff.mp refused.2
  split
  · next m allocated =>
    exact (stable.allocateBoth apart found foundServer room roomServer allocated).1
  · next client serverConnection m allocated =>
    obtain ⟨issued,ends⟩ := stable.allocateBoth apart found foundServer room roomServer allocated
    obtain ⟨ready,readyServer⟩ := ends client serverConnection rfl
    have up := issued.linkUp apart ready readyServer limits timeoutAt
    dsimp only
    split
    · exact up.begin id configuration
    · exact up

theorem Stable.start (id : Nat) (configuration : TransportStartConfiguration) :
    Stable (start n id configuration).2 := by
  unfold SimulatedTransport.start
  split
  · exact stable
  next t found =>
  split
  · exact stable
  split
  · exact stable
  next started =>
  split
  · exact stable
  split
  · split
    · exact stable
    · exact (stable.begin id configuration).of_same rfl rfl rfl rfl rfl rfl rfl rfl
  · refine stable.startClient found ?_ configuration
    simp only [Bool.or_eq_true,not_or,Bool.not_eq_true] at started
    exact started.1

theorem Stable.eraseServer (endpoint : TransportEndpoint) : Stable (eraseServer n endpoint) :=
  stable.of_same rfl rfl rfl rfl rfl rfl rfl rfl

end

theorem schedule_links (n : Network) (item : ScheduledItem) : (schedule n item).2.links = n.links := by
  rcases schedule_cases n item with done | ⟨done,-⟩
  · rw [done]; rfl
  · rw [done]

variable {waiting : List ScheduledItem}

theorem Stable.scheduleAll (stable : Stable n)
    (controls : ∀ item ∈ waiting, item.kind ≠ .message ∧ ∃ link, n.links.find? item.linkId = some link) :
    Stable (scheduleAll n waiting) := by
  induction waiting generalizing n with
  | nil => exact stable
  | cons item rest ih =>
    obtain ⟨control,link,stored⟩ := controls item (.head _)
    refine ih (stable.schedule_either stored control) ?_
    rw [schedule_links]
    exact fun other member => controls other (.tail _ member)

theorem Stable.closeAll (stable : Stable n) (found : n.transports.find? id = some t) :
    Stable { n with transports := n.transports.modify id fun t =>
      { t with started := false, connections := t.connections.mapValues fun _ c => c.close } } := by
  refine stable.retouch (replaced_modify found _) rfl
    ((stable.sound.tended.kept id t found).closeAll.congr rfl rfl rfl rfl rfl fun _ => rfl) ?_ (fun _ => rfl) rfl ?_
  · have roomy := stable.sound.tended.roomy id t found
    have less : reservedLifecycleEventCapacity { t with connections := t.connections.mapValues fun _ c => c.close } ≤
        reservedLifecycleEventCapacity t := by
      refine reserved_mapValues ?_
      intro _ c
      unfold reservedFor SimulatedConnection.close
      rw [if_neg nofun]
      split_ifs <;> omega
    exact le_trans (Nat.add_le_add_left less _) roomy
  · intro c
    show ((t.connections.mapValues fun _ c => c.close).find? c = none ∧ _) ∨
      ∃ x x', _ ∧ (t.connections.mapValues fun _ c => c.close).find? c = some x' ∧ _
    rw [find?_mapValues]
    rcases t.connections.find? c with _ | x
    · exact .inl ⟨rfl,rfl⟩
    · exact .inr ⟨x,x.close,rfl,rfl,mild_close.alike x,.inr rfl,le_rfl,le_rfl⟩

theorem Stable.stop (stable : Stable n) (id : Nat) (information : DisconnectInfo) :
    Stable (stop n id information).2 := by
  unfold SimulatedTransport.stop
  split
  · exact stable
  next t found =>
  split
  · exact stable
  split
  · exact stable
  split
  · exact stable
  generalize base : (if t.role = TransportRole.server then SimulatedTransport.eraseServer n t.endpoint else n) = m
  have erased : Stable m ∧ m.transports = n.transports ∧ m.links = n.links := by
    subst base
    split
    · exact ⟨stable.eraseServer _,rfl,rfl⟩
    · exact ⟨stable,rfl,rfl⟩
  obtain ⟨stableAfter,transports,links⟩ := erased
  have foundAfter : m.transports.find? id = some t := by rw [transports]; exact found
  refine (stableAfter.closeAll foundAfter).scheduleAll ?_
  intro item member
  obtain ⟨e,there,rfl⟩ := List.mem_map.mp member
  refine ⟨by simp [disconnectItem],?_⟩
  obtain ⟨link,stored,-⟩ := stableAfter.sound.wired.connections id e.1 e.2
    ((findConnection_of foundAfter).trans (find?_eq_some.mpr there))
  exact ⟨link,stored⟩

theorem Stable.disconnect (stable : Stable n) (id : Nat) (connection : ConnectionId) (information : DisconnectInfo) :
    Stable (disconnect n id connection information).2 := by
  unfold SimulatedTransport.disconnect
  split
  · exact stable
  split
  · exact stable
  next c found =>
  split
  · exact stable
  split
  · exact stable
  · obtain ⟨link,stored,-⟩ := stable.sound.wired.connections id connection c found
    exact @Stable.schedule_either _ link _ (stable.mild id connection mild_close) stored (by simp [disconnectItem])

theorem Stable.scheduleDisconnect (stable : Stable n) (id : Nat) (connection : ConnectionId) (delay : SimulatedTime)
    (information : DisconnectInfo) : Stable (scheduleDisconnect n id connection delay information).2 := by
  unfold SimulatedTransport.scheduleDisconnect
  split
  · exact stable
  split
  · exact stable
  next c found =>
  split
  · exact stable
  next time _ =>
  split
  · exact stable
  · obtain ⟨link,stored,-⟩ := stable.sound.wired.connections id connection c found
    have after := @Stable.schedule_either _ _ (disconnectItem id c.linkId connection information time) stable stored
      (by simp [disconnectItem])
    split
    · next m done =>
      rwa [done] at after
    · next m done =>
      rwa [done] at after

theorem Stable.erase (stable : Stable n) (empty : ∀ c, findConnection n id c = none) :
    Stable { n with transports := n.transports.erase id } := by
  have sound := stable.sound
  have same : SameConnections n { n with transports := n.transports.erase id } := by
    refine ⟨?_,rfl,rfl,rfl,rfl⟩
    intro t c
    simp only [findConnection]
    rw [find?_erase]
    split_ifs with here
    · exact here ▸ (empty c).symm
    · rfl
  have kept : ∀ t s, (n.transports.erase id).find? t = some s → n.transports.find? t = some s := by
    intro t s found
    rw [find?_erase] at found
    split_ifs at found
    exact found
  have received : ∀ t c, t ≠ id → receivedAt { n with transports := n.transports.erase id } t c = receivedAt n t c := by
    intro t c other
    simp only [receivedAt]
    rw [find?_erase,if_neg other]
  refine ⟨⟨⟨sound.tended.asserted,sound.tended.exact_,fun t s found => sound.tended.kept t s (kept t s found),
    fun t s found => sound.tended.roomy t s (kept t s found),fun t s found => sound.tended.known t s (kept t s found)⟩,
    same.wired sound.wired,same.accounted sound.accounted,⟨?_,?_,?_,?_⟩⟩,same.begun stable.begun⟩
  · intro t c x there
    rw [same.connections] at there
    exact sound.ordered.paced t c x there
  · intro t c
    by_cases here : t = id
    · subst here
      have none : receivedAt { n with transports := n.transports.erase t } t c = [] := by
        simp only [receivedAt]
        rw [find?_erase,if_pos rfl]
      rw [none]
      exact List.nil_prefix
    · rw [received t c here]
      exact sound.ordered.delivered t c
  · intro t c x y there thereToo openHere openThere
    rw [same.connections] at there thereToo
    have other : x.remoteTransportId ≠ id := by
      intro at_
      rw [at_,empty] at thereToo
      cases thereToo
    rw [received _ _ other]
    exact sound.ordered.flowing t c x y there thereToo openHere openThere
  · intro item member
    obtain ⟨below,linked⟩ := sound.ordered.accepted item member
    exact ⟨below,fun s found => linked s (kept _ s found)⟩

theorem closeLinks_gone {links : List Nat} {n : Network} (stable : Stable n) (id initiator : Nat)
    (information : DisconnectInfo) : Stable (links.foldl (fun n link => closeLink n link initiator information) n) ∧
      ∀ c x, findConnection (links.foldl (fun n link => closeLink n link initiator information) n) id c = some x →
        findConnection n id c = some x ∧ x.linkId ∉ links := by
  induction links generalizing n with
  | nil => exact ⟨stable,fun c x found => ⟨found,by simp⟩⟩
  | cons link rest ih =>
    obtain ⟨after,gone⟩ := ih (stable.closeLink link initiator information)
    refine ⟨after,?_⟩
    intro c x found
    obtain ⟨before,notIn⟩ := gone c x found
    rcases stored : n.links.find? link with _ | l
    · have same : closeLink n link initiator information = n := by
        unfold closeLink
        rw [stored]
      rw [same] at before
      refine ⟨before,?_⟩
      intro member
      rcases List.mem_cons.mp member with here | later
      · obtain ⟨l,there,-⟩ := stable.sound.wired.connections id c x before
        rw [here,stored] at there
        cases there
      · exact notIn later
    · have closed := closeLink_closed stable.sound.tended stable.sound.wired stored initiator information
      obtain ⟨off,there⟩ := closed.survives before
      refine ⟨there,?_⟩
      intro member
      rcases List.mem_cons.mp member with here | later
      · exact stable.sound.wired.linkId_of_off stored there off here
      · exact notIn later

theorem Stable.destroy (stable : Stable n) (id : Nat) : Stable (destroy n id) := by
  unfold SimulatedTransport.destroy
  split
  · exact stable
  · next t found =>
    dsimp only
    obtain ⟨after,gone⟩ := @closeLinks_gone (t.connections.entries.map fun e => e.2.linkId) _ stable id id
      transportDestroyed
    generalize (t.connections.entries.map fun e => e.2.linkId).foldl
      (fun n link => SimulatedTransport.closeLink n link id transportDestroyed) n = m at after gone ⊢
    have empty : ∀ c, findConnection m id c = none := by
      intro c
      rcases there : findConnection m id c with _ | x
      · rfl
      · obtain ⟨before,notIn⟩ := gone c x there
        rw [findConnection_of found] at before
        exact absurd (List.mem_map_of_mem (find?_eq_some.mp before)) notIn
    split
    · exact (after.eraseServer t.endpoint).erase empty
    · exact after.erase empty

theorem reliableBytes_append (t : Nat) (c : ConnectionId) (a b : List ScheduledItem) :
    reliableBytes t c (a ++ b) = reliableBytes t c a + reliableBytes t c b := by
  simp [reliableBytes]

theorem unreliableMessages_append (t : Nat) (c : ConnectionId) (a b : List ScheduledItem) :
    unreliableMessages t c (a ++ b) = unreliableMessages t c a + unreliableMessages t c b := by
  simp [unreliableMessages]

variable {flight : List ScheduledItem} {t : Nat}

theorem Accounted.credit (accounted : Accounted n []) {f : SimulatedConnection → SimulatedConnection}
    (own : ∀ item ∈ flight, item.sourceTransportId = t ∧ item.sourceConnection = c)
    (bytes : ∀ x, x.reliableQueueBytes + reliableBytes t c flight ≤ (f x).reliableQueueBytes)
    (messages : ∀ x, x.queuedUnreliableMessages + unreliableMessages t c flight ≤ (f x).queuedUnreliableMessages) :
    Accounted (modifyConnection n t c f) flight := by
  intro u d x' found
  have same : items (modifyConnection n t c f) = items n := rfl
  rw [same,reliableBytes_append,unreliableMessages_append]
  rw [findConnection_modifyConnection] at found
  split_ifs at found with here
  · obtain ⟨rfl,rfl⟩ := here
    obtain ⟨x,foundHere,rfl⟩ := map_eq_some_iff.mp found
    obtain ⟨old,oldMessages⟩ := accounted u d x foundHere
    rw [List.nil_append] at old oldMessages
    have more := bytes x
    have moreMessages := messages x
    omega
  · obtain ⟨old,oldMessages⟩ := accounted u d x' found
    rw [List.nil_append] at old oldMessages
    have noneFrom : ∀ item ∈ flight, item.isFrom u d = false := by
      intro item member
      refine isFrom_of_ne ?_
      rintro ⟨rfl,rfl⟩
      exact here (own item member)
    have noBytes : reliableBytes u d flight = 0 := by
      unfold reliableBytes
      rw [List.filter_eq_nil_iff.mpr]
      · rfl
      · intro item member
        simp [noneFrom item member]
    have noMessages : unreliableMessages u d flight = 0 := by
      unfold unreliableMessages
      rw [List.countP_eq_zero]
      intro item member
      simp [noneFrom item member]
    omega

theorem Accounted.schedule (accounted : Accounted n (item :: flight)) (wired : Wired n) :
    Accounted (scheduledNetwork n item) flight := by
  intro t c x found
  obtain ⟨bytes,messages⟩ := accounted t c x found
  have perm : (flight ++ items (scheduledNetwork n item)).Perm (item :: flight ++ items n) :=
    ((items_schedule_perm wired item).append_left flight).trans List.perm_middle
  rw [reliableBytes_perm perm,unreliableMessages_perm perm]
  exact ⟨bytes,messages⟩

structure Outgoing (n : Network) (t : Nat) (c : ConnectionId) (item : ScheduledItem) : Prop where
  message : item.kind = .message
  sourceTransport : item.sourceTransportId = t
  sourceConnection : item.sourceConnection = c
  ends : ∃ x, findConnection n t c = some x ∧ x.currentState = .connected ∧ x.linkId = item.linkId ∧
    x.remoteTransportId = item.destinationTransportId ∧ x.remoteConnection = item.destinationConnection

theorem Outgoing.stored (outgoing : Outgoing n t c item) (wired : Wired n) :
    ∃ link, n.links.find? item.linkId = some link ∧
      Side link item.sourceTransportId item.sourceConnection item.destinationTransportId item.destinationConnection := by
  obtain ⟨x,found,-,linkId,transport,connection⟩ := outgoing.ends
  obtain ⟨link,stored,side⟩ := wired.connections t c x found
  rw [linkId] at stored
  rw [transport,connection] at side
  rw [outgoing.sourceTransport,outgoing.sourceConnection]
  exact ⟨link,stored,side⟩

theorem Begun.schedule_message (begun : Begun n []) (wired : Wired n) (outgoing : Outgoing n t c item) :
    Begun (scheduledNetwork n item) [] where
  agreed := begun.agreed
  started := by
    intro other member message
    rcases List.mem_cons.mp ((items_schedule_perm wired item).mem_iff.mp member) with rfl | old
    · obtain ⟨x,found,connected,-,transport,connection⟩ := outgoing.ends
      constructor
      · intro y foundY
        rw [outgoing.sourceTransport,outgoing.sourceConnection] at foundY
        change findConnection n t c = some y at foundY
        rw [found] at foundY
        cases foundY
        rw [connected]
        simp
      · intro y foundY
        rw [← transport,← connection] at foundY
        exact begun.agreed t c x y found foundY connected
    · exact begun.started other old message

theorem Stable.scheduleItems (tended : Tended n) (wired : Wired n)
    (accounted : Accounted n waiting) (ordered : Ordered n []) (begun : Begun n [])
    (outgoing : ∀ item ∈ waiting, Outgoing n t c item ∧ item.isReliable = false)
    (room : n.scheduled.size + waiting.length ≤ n.configuration.maximumScheduledEvents ∧
      n.nextTieBreaker + waiting.length ≤ maximumUnsigned) : ∃ m, scheduleItems n waiting = (true,m) ∧ Stable m := by
  induction waiting generalizing n with
  | nil => exact ⟨n,rfl,⟨⟨tended,wired,accounted,ordered⟩,begun⟩⟩
  | cons item rest ih =>
    obtain ⟨out,unreliable⟩ := outgoing item (.head _)
    obtain ⟨link,stored,side⟩ := out.stored wired
    rw [List.length_cons] at room
    have take : CanTake n := ⟨by omega,by omega⟩
    have size : (scheduledNetwork n item).scheduled.size = n.scheduled.size + 1 := by
      have absent : n.scheduled.find? (toLex (item.time,n.nextTieBreaker)) = none := by
        rw [find?_eq_none]
        intro x member
        exact wired.fresh_key item.time _ member rfl
      exact (insert_perm item absent).length_eq
    simp only [scheduleItems,take.scheduled]
    refine ih (tended.of_transports rfl rfl rfl rfl) (wired.schedule stored fun _ => side)
      (accounted.schedule wired) (ordered.schedule_other wired ?_) (begun.schedule_message wired out) ?_ ?_
    · intro u d
      simp [isReliableTo,unreliable]
    · intro other member
      obtain ⟨outOther,unreliableOther⟩ := outgoing other (.tail _ member)
      exact ⟨{ outOther with },unreliableOther⟩
    · rw [size]
      exact ⟨by show _ ≤ n.configuration.maximumScheduledEvents; omega,by
        show n.nextTieBreaker + 1 + rest.length ≤ maximumUnsigned; omega⟩

theorem Ordered.send (ordered : Ordered n []) (tended : Tended n) (wired : Wired n)
    (outgoing : Outgoing n t c item) (reliable : item.isReliable) (due : ∀ e ∈ n.scheduled.entries,
      e.2.isReliableTo item.destinationTransportId item.destinationConnection → (ofLex e.1).1 ≤ item.time)
    (paced : ∀ x, findConnection n t c = some x → item.time ≤ x.lastReliableDelivery) :
    Ordered { scheduledNetwork n item with history := { n.history with accepted := n.history.accepted ++ [item] } } [] := by
  obtain ⟨x,found,-,-,transport,connection⟩ := outgoing.ends
  have own : item.isReliableTo item.destinationTransportId item.destinationConnection := by
    simp [isReliableTo,outgoing.message,reliable]
  have off : ∀ u d, ¬ (u = item.destinationTransportId ∧ d = item.destinationConnection) →
      item.isReliableTo u d = false := by
    intro u d different
    rw [Bool.eq_false_iff]
    intro to_
    simp only [isReliableTo,Bool.and_eq_true,decide_eq_true_eq] at to_
    exact different ⟨to_.1.2.symm,to_.2.symm⟩
  have acceptedOff : ∀ u d, item.isReliableTo u d = false →
      deliveries u d (n.history.accepted ++ [item]) = deliveries u d n.history.accepted := by
    intro u d not
    unfold deliveries
    rw [List.filter_append,List.filter_cons_of_neg (by simp [not])]
    simp
  have acceptedOwn : deliveries item.destinationTransportId item.destinationConnection (n.history.accepted ++ [item]) =
      deliveries item.destinationTransportId item.destinationConnection n.history.accepted ++ [receivedEvent item] := by
    unfold deliveries
    rw [List.filter_append,List.filter_cons_of_pos own,List.map_append]
    rfl
  refine ⟨?_,?_,?_,?_⟩
  · intro u d z foundZ e member to_
    rcases mem_scheduledNetwork member with rfl | old
    · simp only [isReliableTo,Bool.and_eq_true,decide_eq_true_eq] at to_
      have same := wired.source_unique foundZ found (to_.1.2.symm.trans transport.symm)
        (to_.2.symm.trans connection.symm)
      rw [same.1,same.2] at foundZ
      exact paced z foundZ
    · exact ordered.paced u d z foundZ e old to_
  · intro u d
    refine (ordered.delivered u d).trans ?_
    unfold deliveries
    rw [List.filter_append,List.map_append]
    exact List.prefix_append _ _
  · intro u d z w foundZ foundW openHere openThere
    have flows := ordered.flowing u d z w foundZ foundW openHere openThere
    show deliveries _ _ (n.history.accepted ++ [item]) =
      receivedAt n _ _ ++ deliveries _ _ ([] ++ items (scheduledNetwork n item))
    rw [List.nil_append] at flows ⊢
    by_cases here : z.remoteTransportId = item.destinationTransportId ∧ z.remoteConnection = item.destinationConnection
    · rw [here.1,here.2] at flows ⊢
      rw [acceptedOwn,flows,List.append_assoc]
      congr 1
      unfold deliveries
      rw [filter_items_schedule wired _ fun _ => due,List.map_append,List.filter_cons_of_pos own]
      rfl
    · have not := off _ _ here
      rwa [acceptedOff _ _ not,deliveries_schedule_of_not wired not]
  · intro other member
    rcases List.mem_append.mp member with old | new
    · exact ordered.accepted other old
    · rw [List.mem_singleton.mp new]
      obtain ⟨y,peer,-⟩ := wired.peer found
      rw [transport,connection] at peer
      obtain ⟨s,foundTransport,there⟩ := findConnection_eq_some.mp peer
      refine ⟨tended.known _ s foundTransport,?_⟩
      intro u foundU
      change n.transports.find? item.destinationTransportId = some u at foundU
      rw [foundTransport] at foundU
      cases foundU
      exact ((tended.kept _ s foundTransport).present _ y there).1

theorem schedule_modifyConnection (n : Network) (t : Nat) (c : ConnectionId)
    (f : SimulatedConnection → SimulatedConnection) (item : ScheduledItem) :
    schedule (modifyConnection n t c f) item = ((schedule n item).1,modifyConnection (schedule n item).2 t c f) := by
  have same : ∀ m : Network, (modifyConnection m t c f).scheduled = m.scheduled := fun _ => rfl
  unfold schedule
  show (if n.scheduled.size ≥ n.configuration.maximumScheduledEvents || n.nextTieBreaker = maximumUnsigned then _
    else _) = _
  split <;> rfl

theorem scheduleItems_modifyConnection (t : Nat) (c : ConnectionId) (f : SimulatedConnection → SimulatedConnection)
    (waiting : List ScheduledItem) (n : Network) : scheduleItems (modifyConnection n t c f) waiting =
      ((scheduleItems n waiting).1,modifyConnection (scheduleItems n waiting).2 t c f) := by
  induction waiting generalizing n with
  | nil => rfl
  | cons item rest ih =>
    simp only [scheduleItems,schedule_modifyConnection]
    rcases schedule n item with ⟨done,m⟩
    cases done
    · rfl
    · exact ih m

theorem canSchedule_iff {count : Nat} (can : canSchedule n count) :
    n.scheduled.size + count ≤ n.configuration.maximumScheduledEvents ∧ n.nextTieBreaker + count ≤ maximumUnsigned := by
  simp only [canSchedule,Bool.and_eq_true,decide_eq_true_eq] at can
  omega

theorem canSchedule_of_messages {count : Nat} (can : canScheduleMessages n count) : canSchedule n count := by
  unfold canScheduleMessages at can
  dsimp only at can
  split at can
  · cases can
  · simp only [Bool.and_eq_true] at can
    exact can.2

theorem Stable.withRandom (stable : Stable n) (randomState : UInt64) : Stable { n with randomState } :=
  stable.of_same rfl rfl rfl rfl rfl rfl rfl rfl

variable {message : NetworkMessageIntent}

section
variable (draw : UInt64 → UInt64 × UInt64)
include draw

theorem Stable.sendReliable (stable : Stable n)
    (found : findConnection n id message.destination = some x) (connected : x.currentState = .connected)
    (reliable : message.delivery = .reliableOrdered) : Stable (sendReliable draw n id x message).2 := by
  have sound := stable.sound
  obtain ⟨link,stored,-⟩ := sound.wired.connections id message.destination x found
  unfold SimulatedTransport.sendReliable
  dsimp only
  split
  · have closing := stable.mild id message.destination mild_close
    have scheduled := @Stable.schedule_either _ link (disconnectItem id x.linkId message.destination
      reliableQueueExhausted (modifyConnection n id message.destination SimulatedConnection.close).currentTime)
      closing stored (by simp [disconnectItem])
    split
    · next m done =>
      rwa [done] at scheduled
    · next m done =>
      rw [done] at scheduled
      exact scheduled.closeLink _ _ _
  · next room =>
    simp only [Bool.or_eq_true,Bool.not_eq_true',not_or,Bool.not_eq_false] at room
    have fits := canSchedule_iff (canSchedule_of_messages room.2)
    split
    · exact stable
    · next time nextSendAvailable randomState _ =>
      generalize due : max time x.lastReliableDelivery = deliveryTime
      generalize sent : messageItem id x message deliveryTime false = item
      have take : CanTake { n with randomState } := ⟨by
        show n.scheduled.size < n.configuration.maximumScheduledEvents; omega,by
        show n.nextTieBreaker ≠ maximumUnsigned; omega⟩
      rw [take.scheduled item]
      generalize changed : (fun c : SimulatedConnection =>
        c.queueReliable message.payload.length nextSendAvailable deliveryTime) = f
      have alike : ∀ y, findConnection n id message.destination = some y → Alike y (f y) := by
        intro y foundY
        rw [found] at foundY
        cases foundY
        subst changed
        exact ⟨rfl,rfl,rfl,fun h => h,by rw [← due]; exact le_max_right _ _⟩
      have state : ∀ y, (f y).currentState = y.currentState := by
        subst changed
        exact fun _ => rfl
      have base := stable.withRandom randomState
      have reshaped := reshaped_modifyConnection { n with randomState } id message.destination alike
      have tended := base.sound.tended.modifyConnection id message.destination fun y _ => .inl (state y)
      have wired := base.sound.wired.reshape reshaped
      have ordered := base.sound.ordered.reshape reshaped
      have begun := base.begun.modifyConnection id message.destination alike fun y => .inl (state y)
      have source : item.sourceTransportId = id ∧ item.sourceConnection = message.destination := by
        subst sent
        exact ⟨rfl,rfl⟩
      have isReliable : item.isReliable := by
        subst sent
        simp [isReliable,messageItem,reliable]
      have isMessage : item.kind = .message := by
        subst sent
        rfl
      have foundAfter : findConnection (modifyConnection { n with randomState } id message.destination f) id
          message.destination = some (f x) := by
        rw [findConnection_modifyConnection,if_pos ⟨rfl,rfl⟩]
        show Option.map f (findConnection n id message.destination) = _
        rw [found]
        rfl
      have outgoing : Outgoing (modifyConnection { n with randomState } id message.destination f) id
          message.destination item := by
        refine ⟨isMessage,source.1,source.2,f x,foundAfter,(state x).trans connected,?_⟩
        subst sent
        exact ⟨(alike x found).linkId,(alike x found).transport,(alike x found).connection⟩
      have credited : Accounted (modifyConnection { n with randomState } id message.destination f) [item] := by
        refine base.sound.accounted.credit ?_ ?_ ?_
        · intro other member
          rwa [List.mem_singleton.mp member]
        · intro y
          subst changed sent
          rw [reliableBytes_cons]
          have none : reliableBytes id message.destination [] = 0 := rfl
          split
          · exact le_rfl
          · exact le_add_right _ _
        · intro y
          subst changed
          rw [unreliableMessages_cons,isReliable]
          have none : unreliableMessages id message.destination [] = 0 := rfl
          rw [none]
          simp [SimulatedConnection.queueReliable,SimulatedConnection.countSent]
      obtain ⟨l,storedAfter,side⟩ := outgoing.stored wired
      have final := ordered.send tended wired outgoing isReliable (by
        intro e member to_
        subst sent
        refine (sound.ordered.paced id message.destination x found e member to_).trans ?_
        rw [← due]
        exact le_max_right _ _) (by
        intro y foundY
        rw [foundAfter] at foundY
        cases foundY
        subst changed sent
        exact le_rfl)
      have counted := credited.schedule wired
      have wiredAfter := wired.schedule storedAfter fun _ => side
      have begunAfter := begun.schedule_message wired outgoing
      exact ⟨⟨{ tended with },
        { wiredAfter with },counted,
        final⟩,⟨begunAfter.agreed,begunAfter.started⟩⟩

theorem copyTimes_length (n : Network) (bytes : Nat) {copies : Nat}
    {state randomState : UInt64} {available nextSendAvailable : SimulatedTime} {times : List SimulatedTime}
    (computed : copyTimes draw n bytes copies state available = some (times,nextSendAvailable,randomState)) :
    times.length = copies := by
  induction copies generalizing state available times nextSendAvailable randomState with
  | zero =>
    cases computed
    rfl
  | succ copies ih =>
    simp only [copyTimes,bind_eq_bind,bind_eq_some_iff] at computed
    obtain ⟨⟨time,next,after⟩,-,⟨rest,last,final⟩,inner,same⟩ := computed
    cases same
    rw [List.length_cons,ih inner]

theorem Stable.sendUnreliable (stable : Stable n)
    (found : findConnection n id message.destination = some x) (connected : x.currentState = .connected)
    (unreliable : message.delivery ≠ .reliableOrdered) : Stable (sendUnreliable draw n id x message).2 := by
  have mild_drop : Mild fun c => recordUnreliableDrop (c.attempt message.payload.length) :=
    ⟨fun _ => rfl,fun _ => rfl,fun _ => rfl,fun _ => .inl rfl,fun _ => le_rfl,fun _ => le_rfl,
      fun _ => le_rfl⟩
  unfold SimulatedTransport.sendUnreliable
  dsimp only
  split
  · exact (stable.withRandom _).mild _ _ mild_drop
  split
  · exact (stable.withRandom _).mild _ _ mild_drop
  next room =>
  generalize copiesOf _ = copies at room ⊢
  simp only [Bool.or_eq_true,Bool.not_eq_true',not_or,Bool.not_eq_false] at room
  have fits := canSchedule_iff (canSchedule_of_messages room.2)
  split
  · exact stable
  next times nextSendAvailable randomState computed =>
  have length := copyTimes_length draw n _ computed
  generalize sent : (times.mapIdx fun index time => messageItem id x message time (index != 0)) = waiting
  have each : ∀ item ∈ waiting, ∃ time duplicate, item = messageItem id x message time duplicate := by
    intro item member
    rw [← sent] at member
    obtain ⟨index,inside,same⟩ := List.mem_mapIdx.mp member
    exact ⟨_,_,same.symm⟩
  have count : waiting.length = copies := by rw [← sent,List.length_mapIdx,length]
  generalize changed : (fun c : SimulatedConnection =>
    c.queueCopies message.payload.length copies nextSendAvailable) = f
  have mild : Mild f := by
    subst changed
    exact ⟨fun _ => rfl,fun _ => rfl,fun _ => rfl,fun _ => .inl rfl,fun _ => le_rfl,fun _ => le_rfl,
      fun _ => Nat.le_add_right _ _⟩
  have state : ∀ y, (f y).currentState = y.currentState := by
    subst changed
    exact fun _ => rfl
  have unreliableItem : ∀ item ∈ waiting, item.isReliable = false := by
    intro item member
    obtain ⟨time,duplicate,rfl⟩ := each item member
    simp [isReliable,messageItem,unreliable]
  have noBytes : reliableBytes id message.destination waiting = 0 := by
    unfold reliableBytes
    rw [List.filter_eq_nil_iff.mpr]
    · rfl
    · intro item member
      simp [unreliableItem item member]
  have base := stable.withRandom randomState
  have modified := base.mild id message.destination mild
  have foundAfter : findConnection (modifyConnection { n with randomState } id message.destination f) id
      message.destination = some (f x) := by
    rw [findConnection_modifyConnection,if_pos ⟨rfl,rfl⟩]
    show Option.map f (findConnection n id message.destination) = _
    rw [found]
    rfl
  have credited : Accounted (modifyConnection { n with randomState } id message.destination f) waiting := by
    refine base.sound.accounted.credit ?_ ?_ ?_
    · intro item member
      obtain ⟨time,duplicate,rfl⟩ := each item member
      exact ⟨rfl,rfl⟩
    · intro y
      rw [noBytes]
      exact mild.bytes y
    · intro y
      have most : unreliableMessages id message.destination waiting ≤ copies := by
        rw [← count]
        exact List.countP_le_length
      subst changed
      exact Nat.add_le_add_left most _
  have outgoing : ∀ item ∈ waiting, Outgoing (modifyConnection { n with randomState } id message.destination f) id
      message.destination item ∧ item.isReliable = false := by
    intro item member
    refine ⟨?_,unreliableItem item member⟩
    obtain ⟨time,duplicate,rfl⟩ := each item member
    exact ⟨rfl,rfl,rfl,f x,foundAfter,(state x).trans connected,(mild.alike x).linkId,(mild.alike x).transport,
      (mild.alike x).connection⟩
  obtain ⟨m,done,final⟩ := Stable.scheduleItems modified.sound.tended modified.sound.wired credited
    modified.sound.ordered modified.begun outgoing (by rw [count]; exact fits)
  rw [scheduleItems_modifyConnection] at done
  obtain ⟨first,second⟩ := mk.inj done
  split
  · next m' refused =>
    rw [refused] at first
    cases first
  · next m' accepted =>
    rw [accepted] at second
    rwa [← second] at final

theorem Stable.send (stable : Stable n) (id : Nat) (message : NetworkMessageIntent) :
    Stable (send draw n id message).2 := by
  unfold SimulatedTransport.send
  split
  · exact stable
  next x found =>
  split
  · exact stable
  next connected =>
  dsimp only
  split
  · exact stable
  split
  · next reliable =>
    exact stable.sendReliable draw found (by simpa using connected) (by simpa using reliable)
  · next unreliable =>
    split
    · exact stable
    · exact stable.sendUnreliable draw found (by simpa using connected) (by simpa using unreliable)

end

variable {configuration : SimulatedTransportConfiguration}

theorem stable_create (created : create configuration = some n) : Stable n := by
  unfold create at created
  split at created
  · cases created
  cases created
  have absent : ∀ t c, findConnection { configuration, randomState := configuration.seed } t c = none := fun _ _ => rfl
  refine ⟨⟨⟨rfl,rfl,?_,?_,?_⟩,⟨?_,?_,?_,?_,?_⟩,?_,⟨?_,?_,?_,?_⟩⟩,⟨?_,?_⟩⟩
  · rintro id t ⟨⟩
  · rintro id t ⟨⟩
  · rintro id t ⟨⟩
  · rintro id link ⟨⟩
  · rintro id link ⟨⟩
  · intro t c x found
    cases found
  · rintro e ⟨⟩
  · rintro e ⟨⟩
  · intro t c x found
    cases found
  · intro t c x found
    cases found
  · intro t c
    exact List.nil_prefix
  · intro t c x y found
    cases found
  · rintro item ⟨⟩
  · intro t c x y found
    cases found
  · rintro item ⟨⟩

variable {draw : UInt64 → UInt64 × UInt64}

theorem Stable.step (stable : Stable n) {event : Event} (stepped : step draw n event = some m) : Stable m := by
  cases event with
  | createTransport => cases stepped; exact stable.createTransport
  | start id configuration => cases stepped; exact stable.start id configuration
  | stop id information => cases stepped; exact stable.stop id information
  | disconnect id connection information => cases stepped; exact stable.disconnect id connection information
  | scheduleDisconnect id connection delay information =>
    cases stepped; exact stable.scheduleDisconnect id connection delay information
  | send id message => cases stepped; exact stable.send draw id message
  | poll id capacity => cases stepped; exact stable.poll id capacity
  | destroy id => cases stepped; exact stable.destroy id
  | advance delta =>
    cases stepped
    unfold advance
    split
    · exact stable
    split
    · exact stable
    · exact stable.of_same rfl rfl rfl rfl rfl rfl rfl rfl
  | pump => cases stepped; exact stable.pump

theorem stable_reachable
    {events : List Event} (created : create configuration = some n) (reached : run (step draw) n events = some m) :
    Stable m :=
  run_preserves (fun _ _ _ stable stepped => .step stable stepped) (stable_create created) reached

structure Lived (t : SimulatedTransportState) (connection : ConnectionId) : Prop where
  connecting : ∀ c, t.connections.find? connection = some c → c.currentState = .connecting →
    t.lifecycle connection = []
  connected : ∀ c, t.connections.find? connection = some c → c.currentState = .connected →
    t.lifecycle connection = opening connection
  closing : ∀ c, t.connections.find? connection = some c → c.currentState = .closing →
    t.lifecycle connection = [] ∨ t.lifecycle connection = opening connection
  closed : t.connections.find? connection = none → t.Ends connection

structure Contract (n : Network) : Prop where
  delivered : ∀ id connection, receivedAt n id connection <+: deliveries id connection n.history.accepted
  lived : ∀ id t, n.transports.find? id = some t → ∀ connection ∈ t.linked, Lived t connection
  states : ∀ id connection c, findConnection n id connection = some c →
    c.currentState = .connecting ∨ c.currentState = .connected ∨ c.currentState = .closing
  room : ∀ id t, n.transports.find? id = some t →
    t.events.length + reservedLifecycleEventCapacity t ≤ n.configuration.maximumPendingEventsPerTransport
  asserted : n.history.assertFailed = false
  covered : n.history.underflowed = false
  issuedOnce : ∀ id t, n.transports.find? id = some t → t.issued.Nodup

theorem Stable.contract (stable : Stable n) : Contract n where
  delivered := stable.sound.ordered.delivered
  lived := by
    intro id t found connection member
    have kept := stable.sound.tended.kept id t found
    refine ⟨?_,?_,?_,kept.gone connection member⟩
    · intro c there state
      have proceeds := (kept.present connection c there).2
      rw [state] at proceeds
      cases proceeds with
      | connecting none => exact none
    · intro c there state
      have proceeds := (kept.present connection c there).2
      rw [state] at proceeds
      cases proceeds with
      | connected opened => exact opened
    · intro c there state
      have proceeds := (kept.present connection c there).2
      rw [state] at proceeds
      cases proceeds with
      | closing either => exact either
  states := fun _ _ _ => stable.sound.tended.states
  room := stable.sound.tended.roomy
  asserted := stable.sound.tended.asserted
  covered := stable.sound.tended.exact_
  issuedOnce := fun id t found => (stable.sound.tended.kept id t found).issuedOnce

/-- Two transports, of which the second connects to the first, and the activation of their link. -/
def activationEvents : List Event :=
  [.createTransport,.start 1 { role := .server, endpoint := ⟨ascii "host",1⟩, advertisedLimits := .nativeCeilings },
    .createTransport,.start 2 { role := .client, endpoint := ⟨ascii "host",1⟩, advertisedLimits := .nativeCeilings },.pump]

def closureEvents : List Event := [.disconnect 2 ⟨1,1⟩ ⟨.localShutdown,[]⟩,.pump,.poll 2 16]

/-- The queue and the record of what was handed out of one transport. -/
def eventsOf (id : Nat) (n : Network) : Option (List TransportEvent × List TransportEvent) :=
  (n.transports.find? id).map fun t => (t.polled,t.events)

/-- Every lifecycle event that was queued is still queued or was handed out. -/
def LifecycleKept (n m : Network) : Prop :=
  ∀ id t u, n.transports.find? id = some t → m.transports.find? id = some u →
    ∀ e ∈ t.polled ++ t.events, e.isLifecycle = true → e ∈ u.polled ++ u.events

end Gargantuan.SimulatedTransport
