import Gargantuan.SimulatedTransport

/-!
One transport of the simulated network: the connections it issues, the room its queue
keeps for the events of their lives, and what has been observed of each of them.
-/
namespace Gargantuan.SimulatedTransport
open SortedMap List Bool SimulatedConnection
open RemoteManager (DisconnectInfo)

def TransportEvent.isLifecycle : TransportEvent → Bool
  | .received .. => false
  | _ => true

/-- The two events of an activation. -/
def opening (connection : ConnectionId) : List TransportEvent :=
  [.connectionState connection .connecting .authenticating,.connectionState connection .authenticating .connected]

namespace SimulatedTransportState
variable {t : SimulatedTransportState} {connection other : ConnectionId} {c : SimulatedConnection}

def observed (t : SimulatedTransportState) (connection : ConnectionId) : List TransportEvent :=
  (t.polled ++ t.events).filter fun e => e.connection = connection

def lifecycle (t : SimulatedTransportState) (connection : ConnectionId) : List TransportEvent :=
  (t.observed connection).filter TransportEvent.isLifecycle

inductive Proceeds (t : SimulatedTransportState) (connection : ConnectionId) : ConnectionState → Prop
  | connecting (none : t.lifecycle connection = []) : Proceeds t connection .connecting
  | connected (opened : t.lifecycle connection = opening connection) : Proceeds t connection .connected
  | closing (either : t.lifecycle connection = [] ∨ t.lifecycle connection = opening connection) :
    Proceeds t connection .closing

def Ends (t : SimulatedTransportState) (connection : ConnectionId) : Prop :=
  ∃ before previous information,
    t.observed connection =
      before ++ [.connectionState connection previous .closed,.disconnected connection information] ∧
    before.filter TransportEvent.isLifecycle <+: opening connection

structure Kept (t : SimulatedTransportState) : Prop where
  issuedOnce : t.issued.Nodup
  issuedBelow : ∀ connection ∈ t.issued, connection.slot.toNat < t.generations.length ∧
    connection.generation ≤ t.generations.getD connection.slot.toNat 0
  freeBelow : ∀ slot ∈ t.freeSlots, slot.toNat < t.generations.length
  linkedIssued : ∀ connection ∈ t.linked, connection ∈ t.issued
  present : ∀ connection c, t.connections.find? connection = some c →
    connection ∈ t.linked ∧ t.Proceeds connection c.currentState
  gone : ∀ connection ∈ t.linked, t.connections.find? connection = none → t.Ends connection
  quiet : ∀ connection, connection ∉ t.linked → t.observed connection = []

/-- The queue has room for the events every connection may still cause. -/
def Roomy (maximum : Nat) (t : SimulatedTransportState) : Prop :=
  t.events.length + reservedLifecycleEventCapacity t ≤ maximum

variable {u : SimulatedTransportState}

theorem observed_of_same (polled : u.polled = t.polled) (events : u.events = t.events) : u.observed = t.observed := by
  funext connection
  simp only [observed,polled,events]

theorem observed_push (events : List TransportEvent) :
    ({ t with events := t.events ++ events } : SimulatedTransportState).observed connection =
      t.observed connection ++ events.filter fun e => e.connection = connection := by
  simp only [observed,← append_assoc,filter_append]

variable {events : List TransportEvent}

section
variable (named : ∀ e ∈ events, e.connection = connection)
include named

theorem observed_push_other
    (different : other ≠ connection) :
    ({ t with events := t.events ++ events } : SimulatedTransportState).observed other = t.observed other := by
  rw [observed_push,filter_eq_nil_iff.mpr,append_nil]
  intro e member
  simpa [named e member] using fun same => different same.symm

theorem observed_push_own :
    ({ t with events := t.events ++ events } : SimulatedTransportState).observed connection =
      t.observed connection ++ events := by
  rw [observed_push,filter_eq_self.mpr]
  intro e member
  simp [named e member]

end

theorem observed_remove_other (different : other ≠ connection) :
    (removeConnectionEvents t connection).observed other = t.observed other := by
  simp only [observed,removeConnectionEvents,filter_append,filter_filter]
  congr 1
  refine filter_congr fun e _ => ?_
  by_cases same : e.connection = other
  · simp [same,different]
  · simp [same]

theorem observed_remove_own :
    (removeConnectionEvents t connection).observed connection = t.polled.filter fun e => e.connection = connection := by
  simp only [observed,removeConnectionEvents,filter_append,filter_filter]
  convert append_nil _
  rw [filter_eq_nil_iff]
  intro e _
  simp

theorem polled_prefix_observed (connection : ConnectionId) :
    (t.polled.filter fun e => e.connection = connection) <+: t.observed connection := by
  rw [observed,filter_append]
  exact prefix_append _ _

theorem lifecycle_of_observed (same : u.observed connection = t.observed connection) :
    u.lifecycle connection = t.lifecycle connection := by rw [lifecycle,same,lifecycle]

variable {state : ConnectionState}

theorem Proceeds.congr (same : u.lifecycle connection = t.lifecycle connection)
    (proceeds : t.Proceeds connection state) : u.Proceeds connection state := by
  cases proceeds with
  | connecting none => exact .connecting (same.trans none)
  | connected opened => exact .connected (same.trans opened)
  | closing either => exact .closing (by rwa [same])

theorem Proceeds.close (proceeds : t.Proceeds connection state) : t.Proceeds connection .closing := by
  cases proceeds with
  | connecting none => exact .closing (.inl none)
  | connected opened => exact .closing (.inr opened)
  | closing either => exact .closing either

theorem Proceeds.lifecycle_prefix (proceeds : t.Proceeds connection state) :
    t.lifecycle connection <+: opening connection := by
  cases proceeds with
  | connecting none => rw [none]; exact List.nil_prefix
  | connected opened => rw [opened]
  | closing either =>
    rcases either with none | opened
    · rw [none]; exact List.nil_prefix
    · rw [opened]

theorem Ends.congr (same : u.observed connection = t.observed connection) (ends : t.Ends connection) :
    u.Ends connection := by
  obtain ⟨before,previous,information,split,opened⟩ := ends
  exact ⟨before,previous,information,same.trans split,opened⟩

theorem reservedFor_le (c : SimulatedConnection) : reservedFor c ≤ 4 := by
  unfold reservedFor
  split <;> omega

theorem two_le_reservedFor (c : SimulatedConnection) : 2 ≤ reservedFor c := by
  unfold reservedFor
  split <;> omega

theorem reserved_insert (absent : t.connections.find? connection = none) :
    reservedLifecycleEventCapacity { t with connections := t.connections.insert connection c } =
      reservedLifecycleEventCapacity t + reservedFor c := by
  have perm := insert_perm c absent
  have sums := (perm.map fun e => reservedFor e.2).sum_eq
  simp only [reservedLifecycleEventCapacity]
  rw [sums,map_cons,sum_cons,Nat.add_comm]

theorem reserved_erase (found : t.connections.find? connection = some c) :
    reservedLifecycleEventCapacity { t with connections := t.connections.erase connection } + reservedFor c =
      reservedLifecycleEventCapacity t := by
  have perm := erase_perm found
  have sums := (perm.map fun e => reservedFor e.2).sum_eq
  simp only [reservedLifecycleEventCapacity]
  rw [sums,map_cons,sum_cons,Nat.add_comm]

theorem hasEventCapacity_iff {n : Network} {required : Nat} : hasEventCapacityWithReservations n t required ↔
      t.events.length + reservedLifecycleEventCapacity t + required ≤
        n.configuration.maximumPendingEventsPerTransport := by
  unfold hasEventCapacityWithReservations
  simp only [and_eq_true,decide_eq_true_eq]
  omega

theorem reserved_mapValues {f : ConnectionId → SimulatedConnection → SimulatedConnection}
    (le : ∀ connection c, reservedFor (f connection c) ≤ reservedFor c) :
    reservedLifecycleEventCapacity { t with connections := t.connections.mapValues f } ≤
      reservedLifecycleEventCapacity t := by
  simp only [reservedLifecycleEventCapacity,SortedMap.mapValues,map_map]
  exact sum_le_sum fun e _ => le e.1 e.2

variable {f : SimulatedConnection → SimulatedConnection}

theorem reserved_modify
    (found : t.connections.find? connection = some c) :
    reservedLifecycleEventCapacity { t with connections := t.connections.modify connection f } + reservedFor c =
      reservedLifecycleEventCapacity t + reservedFor (f c) := by
  have before := erase_perm found
  have foundAfter : (t.connections.modify connection f).find? connection = some (f c) := by
    rw [find?_modify,if_pos rfl,found]; rfl
  have after := erase_perm foundAfter
  have rest : (t.connections.modify connection f).erase connection = t.connections.erase connection := by
    apply ext_find?
    intro k
    rw [find?_erase,find?_erase,find?_modify]
    split_ifs <;> rfl
  rw [rest] at after
  have sumBefore := (before.map fun e => reservedFor e.2).sum_eq
  have sumAfter := (after.map fun e => reservedFor e.2).sum_eq
  simp only [map_cons,sum_cons] at sumBefore sumAfter
  simp only [reservedLifecycleEventCapacity]
  omega

/-! ### What each operation keeps -/

section
variable (kept : t.Kept)
include kept

theorem Kept.rebuild (linked : u.linked = t.linked) (observed : u.observed = t.observed)
    (states : ∀ connection, (u.connections.find? connection).map currentState =
      (t.connections.find? connection).map currentState) (issuedOnce : u.issued.Nodup)
    (issuedBelow : ∀ connection ∈ u.issued, connection.slot.toNat < u.generations.length ∧
      connection.generation ≤ u.generations.getD connection.slot.toNat 0)
    (freeBelow : ∀ slot ∈ u.freeSlots, slot.toNat < u.generations.length)
    (linkedIssued : ∀ connection ∈ u.linked, connection ∈ u.issued) : u.Kept := by
  refine ⟨issuedOnce,issuedBelow,freeBelow,linkedIssued,?_,?_,?_⟩
  · intro connection c found
    have same := states connection
    rw [found] at same
    obtain ⟨d,foundThere,state⟩ := Option.map_eq_some_iff.mp same.symm
    obtain ⟨member,proceeds⟩ := kept.present connection d foundThere
    rw [linked]
    refine ⟨member,?_⟩
    rw [← state]
    exact proceeds.congr (lifecycle_of_observed (congrFun observed connection))
  · rw [linked]
    intro connection member absent
    have same := states connection
    rw [absent] at same
    exact (kept.gone connection member (Option.map_eq_none_iff.mp same.symm)).congr (congrFun observed connection)
  · rw [linked]
    intro connection foreign
    rw [observed]
    exact kept.quiet connection foreign

theorem Kept.congr (issued : u.issued = t.issued) (linked : u.linked = t.linked)
    (generations : u.generations = t.generations) (freeSlots : u.freeSlots = t.freeSlots)
    (observed : u.observed = t.observed)
    (states : ∀ connection, (u.connections.find? connection).map currentState =
      (t.connections.find? connection).map currentState) : u.Kept := by
  apply kept.rebuild linked observed states
  · rw [issued]; exact kept.issuedOnce
  · rw [issued,generations]; exact kept.issuedBelow
  · rw [freeSlots,generations]; exact kept.freeBelow
  · rw [linked,issued]; exact kept.linkedIssued

theorem Kept.change
    (state : ∀ c, t.connections.find? connection = some c →
      (f c).currentState = c.currentState ∨ (f c).currentState = .closing) :
    ({ t with connections := t.connections.modify connection f } : SimulatedTransportState).Kept := by
  have observed := observed_of_same (t := t) rfl rfl
  refine { kept with present := ?_, gone := ?_, quiet := ?_ }
  · intro other d found
    rw [find?_modify] at found
    have same := lifecycle_of_observed (congrFun observed other)
    split_ifs at found with here
    · subst here
      obtain ⟨c,foundHere,rfl⟩ := Option.map_eq_some_iff.mp found
      obtain ⟨member,proceeds⟩ := kept.present other c foundHere
      refine ⟨member,?_⟩
      rcases state c foundHere with keeps | closes
      · rw [keeps]; exact proceeds.congr same
      · rw [closes]; exact proceeds.close.congr same
    · obtain ⟨member,proceeds⟩ := kept.present other d found
      exact ⟨member,proceeds.congr same⟩
  · intro other member absent
    rw [find?_modify] at absent
    refine (kept.gone other member ?_).congr (congrFun observed other)
    split_ifs at absent with here
    · exact Option.map_eq_none_iff.mp absent
    · exact absent
  · intro other foreign
    exact kept.quiet other foreign

theorem Kept.closeAll :
    ({ t with connections := t.connections.mapValues fun _ c => c.close } : SimulatedTransportState).Kept := by
  have observed := observed_of_same (t := t)
    rfl rfl
  refine { kept with present := ?_, gone := ?_, quiet := ?_ }
  · intro other d found
    rw [find?_mapValues] at found
    obtain ⟨c,foundHere,rfl⟩ := Option.map_eq_some_iff.mp found
    obtain ⟨member,proceeds⟩ := kept.present other c foundHere
    exact ⟨member,proceeds.close.congr (lifecycle_of_observed (congrFun observed other))⟩
  · intro other member absent
    rw [find?_mapValues] at absent
    exact (kept.gone other member (Option.map_eq_none_iff.mp absent)).congr (congrFun observed other)
  · intro other foreign
    exact kept.quiet other foreign

theorem Kept.receive (found : t.connections.find? connection = some c) {e : TransportEvent}
    (named : e.connection = connection) (message : e.isLifecycle = false) :
    ({ t with events := t.events ++ [e] } : SimulatedTransportState).Kept := by
  have all : ∀ x ∈ [e], x.connection = connection := by simpa using named
  have lifecycle : ∀ other, ({ t with events := t.events ++ [e] } : SimulatedTransportState).lifecycle other =
      t.lifecycle other := by
    intro other
    simp only [SimulatedTransportState.lifecycle]
    by_cases same : other = connection
    · subst same
      rw [observed_push_own all]
      simp [message]
    · rw [observed_push_other all same]
  refine { kept with present := ?_, gone := ?_, quiet := ?_ }
  · intro other d foundOther
    obtain ⟨member,proceeds⟩ := kept.present other d foundOther
    exact ⟨member,proceeds.congr (lifecycle other)⟩
  · intro other member absent
    have different : other ≠ connection := by
      rintro rfl
      rw [found] at absent
      cases absent
    exact (kept.gone other member absent).congr (observed_push_other all different)
  · intro other foreign
    have different : other ≠ connection := fun same => foreign (same ▸ (kept.present connection c found).1)
    rw [observed_push_other all different]
    exact kept.quiet other foreign

theorem Kept.poll (capacity : Nat) :
    ({ t with events := t.events.drop capacity, polled := t.polled ++ t.events.take capacity } :
      SimulatedTransportState).Kept := by
  refine kept.congr rfl rfl rfl rfl ?_ fun _ => rfl
  funext connection
  simp only [SimulatedTransportState.observed,append_assoc,take_append_drop]

theorem Kept.activate (found : t.connections.find? connection = some c)
    (connecting : c.currentState = .connecting) :
    ({ t with
      connections := t.connections.modify connection fun c => { c with currentState := .connected }
      events := t.events ++ opening connection } : SimulatedTransportState).Kept := by
  have all : ∀ x ∈ opening connection, x.connection = connection := by simp [opening,TransportEvent.connection]
  have others : ∀ other, other ≠ connection → ({ t with
      connections := t.connections.modify connection fun c => { c with currentState := .connected }
      events := t.events ++ opening connection } : SimulatedTransportState).observed other = t.observed other :=
    fun other different => observed_push_other all different
  refine { kept with present := ?_, gone := ?_, quiet := ?_ }
  · intro other d foundOther
    rw [find?_modify] at foundOther
    split_ifs at foundOther with here
    · subst here
      rw [found] at foundOther
      cases foundOther
      obtain ⟨member,proceeds⟩ := kept.present other c found
      refine ⟨member,.connected ?_⟩
      rw [connecting] at proceeds
      cases proceeds with
      | connecting none =>
        rw [SimulatedTransportState.lifecycle] at none ⊢
        have own := observed_push_own (t := t) all
        change List.filter _ (({ t with events := t.events ++ opening other } : SimulatedTransportState).observed other) = _
        rw [own,filter_append,none]
        rfl
    · obtain ⟨member,proceeds⟩ := kept.present other d foundOther
      exact ⟨member,proceeds.congr (lifecycle_of_observed (others other here))⟩
  · intro other member absent
    rw [find?_modify] at absent
    have different : other ≠ connection := by
      rintro rfl
      rw [if_pos rfl,found] at absent
      cases absent
    rw [if_neg different] at absent
    exact (kept.gone other member absent).congr (others other different)
  · intro other foreign
    have different : other ≠ connection := fun same => foreign (same ▸ (kept.present connection c found).1)
    rw [others other different]
    exact kept.quiet other foreign

theorem Kept.release (connection : ConnectionId) : (releaseConnection t connection).Kept := by
  unfold releaseConnection
  split_ifs with returns
  · simp only [and_eq_true,decide_eq_true_eq] at returns
    refine kept.rebuild rfl rfl (fun _ => rfl) kept.issuedOnce kept.issuedBelow ?_ kept.linkedIssued
    intro slot member
    rcases mem_append.mp member with old | new
    · exact kept.freeBelow slot old
    · rw [mem_singleton.mp new]
      exact returns.1.1
  · exact kept

end

theorem releaseConnection_linked : (releaseConnection t connection).linked = t.linked := by
  unfold releaseConnection
  split_ifs <;> rfl

theorem releaseConnection_issued : (releaseConnection t connection).issued = t.issued := by
  unfold releaseConnection
  split_ifs <;> rfl

theorem releaseConnection_generations : (releaseConnection t connection).generations = t.generations := by
  unfold releaseConnection
  split_ifs <;> rfl

@[simp] theorem releaseConnection_connections : (releaseConnection t connection).connections = t.connections := by
  unfold releaseConnection
  split_ifs <;> rfl

@[simp] theorem releaseConnection_events : (releaseConnection t connection).events = t.events := by
  unfold releaseConnection
  split_ifs <;> rfl

@[simp] theorem releaseConnection_polled : (releaseConnection t connection).polled = t.polled := by
  unfold releaseConnection
  split_ifs <;> rfl

def closing (connection : ConnectionId) (previous : ConnectionState) (information : DisconnectInfo) :
    List TransportEvent :=
  [.connectionState connection previous .closed,.disconnected connection information]

theorem Kept.close (kept : t.Kept) (found : t.connections.find? connection = some c) (information : DisconnectInfo) :
    ({ t.dropConnection connection with
      events := (t.dropConnection connection).events ++ closing connection c.currentState information } :
      SimulatedTransportState).Kept := by
  have all : ∀ x ∈ closing connection c.currentState information, x.connection = connection := by
    simp [closing,TransportEvent.connection]
  have dropped : (t.dropConnection connection).observed = (removeConnectionEvents t connection).observed :=
    observed_of_same (by simp [dropConnection]) (by simp [dropConnection])
  have others : ∀ other, other ≠ connection → ({ t.dropConnection connection with
      events := (t.dropConnection connection).events ++ closing connection c.currentState information } :
      SimulatedTransportState).observed other = t.observed other := by
    intro other different
    rw [observed_push_other all different,dropped,observed_remove_other different]
  have own : ({ t.dropConnection connection with
      events := (t.dropConnection connection).events ++ closing connection c.currentState information } :
      SimulatedTransportState).observed connection =
        (t.polled.filter fun e => e.connection = connection) ++ closing connection c.currentState information := by
    rw [observed_push_own all,dropped,observed_remove_own]
  have connections : (t.dropConnection connection).connections = t.connections.erase connection := by
    simp [dropConnection,removeConnectionEvents]
  have linked : (t.dropConnection connection).linked = t.linked := releaseConnection_linked
  have issued : (t.dropConnection connection).issued = t.issued := releaseConnection_issued
  have generations : (t.dropConnection connection).generations = t.generations := releaseConnection_generations
  obtain ⟨member,proceeds⟩ := kept.present connection c found
  refine ⟨issued ▸ kept.issuedOnce,?_,?_,?_,?_,?_,?_⟩
  · show ∀ x ∈ (t.dropConnection connection).issued, x.slot.toNat < (t.dropConnection connection).generations.length ∧ _
    rw [issued,generations]
    exact kept.issuedBelow
  · intro slot present
    rw [generations]
    change slot ∈ (releaseConnection _ connection).freeSlots at present
    unfold releaseConnection at present
    split_ifs at present with returns
    · simp only [and_eq_true,decide_eq_true_eq] at returns
      rcases mem_append.mp present with old | new
      · exact kept.freeBelow slot old
      · rw [mem_singleton.mp new]
        exact returns.1.1
    · exact kept.freeBelow slot present
  · show ∀ x ∈ (t.dropConnection connection).linked, x ∈ (t.dropConnection connection).issued
    rw [linked,issued]
    exact kept.linkedIssued
  · intro other d foundOther
    rw [connections,find?_erase] at foundOther
    split_ifs at foundOther with here
    obtain ⟨memberOther,proceedsOther⟩ := kept.present other d foundOther
    rw [linked]
    exact ⟨memberOther,proceedsOther.congr (lifecycle_of_observed (others other here))⟩
  · intro other memberOther absent
    rw [linked] at memberOther
    rw [connections,find?_erase] at absent
    by_cases here : other = connection
    · subst here
      refine ⟨_,c.currentState,information,own,?_⟩
      exact ((polled_prefix_observed other).filter _).trans proceeds.lifecycle_prefix
    · rw [if_neg here] at absent
      exact (kept.gone other memberOther absent).congr (others other here)
  · intro other foreign
    rw [linked] at foreign
    have different : other ≠ connection := fun same => foreign (same ▸ member)
    rw [others other different]
    exact kept.quiet other foreign

theorem Roomy.drop {maximum : Nat} (roomy : t.Roomy maximum) (found : t.connections.find? connection = some c) :
    (t.dropConnection connection).events.length + reservedLifecycleEventCapacity (t.dropConnection connection) + 2 ≤
      maximum := by
  have erased := reserved_erase found
  have least := two_le_reservedFor c
  have events : (t.dropConnection connection).events.length ≤ t.events.length := by
    simp only [dropConnection,releaseConnection_events,removeConnectionEvents]
    exact length_filter_le _ _
  have reserved : reservedLifecycleEventCapacity (t.dropConnection connection) =
      reservedLifecycleEventCapacity { t with connections := t.connections.erase connection } := by
    simp [reservedLifecycleEventCapacity,dropConnection,removeConnectionEvents]
  unfold Roomy at roomy
  omega

structure Issues (generations : List UInt32) (freeSlots : List UInt32) (connection : ConnectionId)
    (generations' : List UInt32) (freeSlots' : List UInt32) : Prop where
  below : connection.slot.toNat < generations'.length
  holds : connection.generation = generations'.getD connection.slot.toNat 0
  longer : generations.length ≤ generations'.length
  above : ∀ slot, generations.getD slot 0 ≤ generations'.getD slot 0
  fresh : connection.slot.toNat < generations.length →
    generations.getD connection.slot.toNat 0 < connection.generation
  free : ∀ slot ∈ freeSlots', slot ∈ freeSlots

theorem lt_succ_of_ne_max {g : UInt32} (room : g ≠ 0xffffffff) : g < g + 1 := by
  rw [UInt32.lt_iff_toNat_lt,UInt32.toNat_add]
  have bound := g.toNat_lt
  have different : g.toNat ≠ 2 ^ 32 - 1 := fun same => room (UInt32.toNat_inj.mp same)
  have one : (1 : UInt32).toNat = 1 := rfl
  omega

theorem allocateFrom_issues {generations freeSlots generations' freeSlots' : List UInt32}
    (bounded : ∀ slot ∈ freeSlots, slot.toNat < generations.length)
    (issued : allocateFrom generations freeSlots = some (connection,generations',freeSlots')) :
    Issues generations freeSlots connection generations' freeSlots' := by
  induction freeSlots with
  | nil =>
    simp only [allocateFrom] at issued
    split_ifs at issued with full
    cases issued
    have slot : (UInt32.ofNat generations.length).toNat = generations.length := by
      rw [UInt32.toNat_ofNat']
      omega
    refine ⟨?_,?_,?_,?_,?_,by simp⟩
    · simp [slot]
    · simp [slot]
    · simp
    · intro slot
      rcases Nat.lt_or_ge slot generations.length with inside | outside
      · simp [getD_eq_getElem?_getD,getElem?_append_left inside]
      · simp [getD_eq_getElem?_getD,getElem?_eq_none outside]
    · intro inside
      simp [slot] at inside
  | cons slot free ih =>
    simp only [allocateFrom] at issued
    split_ifs at issued with worn
    · have inner := ih (fun s member => bounded s (.tail _ member)) issued
      exact { inner with free := fun s member => .tail _ (inner.free s member) }
    · cases issued
      have inside := bounded slot (.head _)
      have more := lt_succ_of_ne_max worn
      refine ⟨by simpa using inside,?_,by simp,?_,fun _ => more,fun s member => .tail _ member⟩
      · simp [getD_eq_getElem?_getD,inside]
      · intro s
        by_cases here : slot.toNat = s
        · subst here
          simp only [getD_eq_getElem?_getD,getElem?_set_self inside,Option.getD_some]
          simpa [getD_eq_getElem?_getD] using UInt32.le_of_lt more
        · simp [getD_eq_getElem?_getD,getElem?_set_ne here]

theorem Kept.allocate (kept : t.Kept) {result : Option ConnectionId} (allocated : allocateConnection t = (result,u)) :
    u.Kept ∧ u.connections = t.connections ∧ u.events = t.events ∧ u.started = t.started ∧ u.role = t.role ∧
      u.linked = t.linked ∧ (∀ x ∈ t.issued, x ∈ u.issued) ∧ u.polled = t.polled ∧
      ∀ connection, result = some connection → connection ∈ u.issued ∧ connection ∉ t.issued := by
  unfold allocateConnection at allocated
  split at allocated
  · cases allocated
    refine ⟨kept.rebuild rfl rfl (fun _ => rfl) kept.issuedOnce kept.issuedBelow nofun kept.linkedIssued,
      rfl,rfl,rfl,rfl,rfl,fun _ member => member,rfl,?_⟩
    intro connection none
    cases none
  · next connection generations freeSlots found =>
    cases allocated
    have issues := allocateFrom_issues kept.freeBelow found
    have new : connection ∉ t.issued := by
      intro member
      obtain ⟨inside,atMost⟩ := kept.issuedBelow connection member
      exact absurd (issues.fresh inside) (UInt32.not_lt.mpr atMost)
    refine ⟨kept.rebuild rfl rfl (fun _ => rfl) ?_ ?_ ?_ ?_,rfl,rfl,rfl,rfl,rfl,
      fun _ member => mem_append_left _ member,rfl,?_⟩
    · refine kept.issuedOnce.append (nodup_singleton _) ?_
      intro x member single
      rw [mem_singleton.mp single] at member
      exact new member
    · intro x member
      rcases mem_append.mp member with old | same
      · obtain ⟨inside,atMost⟩ := kept.issuedBelow x old
        exact ⟨lt_of_lt_of_le inside issues.longer,UInt32.le_trans atMost (issues.above _)⟩
      · rw [mem_singleton.mp same]
        exact ⟨issues.below,issues.holds ▸ UInt32.le_refl _⟩
    · intro slot member
      exact lt_of_lt_of_le (kept.freeBelow slot (issues.free slot member)) issues.longer
    · intro x member
      exact mem_append_left _ (kept.linkedIssued x member)
    · intro other same
      cases same
      exact ⟨mem_append_right _ (mem_singleton_self _),new⟩

theorem Kept.link (kept : t.Kept) (issued : connection ∈ t.issued) (unlinked : connection ∉ t.linked)
    (connecting : c.currentState = .connecting) : (t.link connection c).Kept := by
  have observed : (t.link connection c).observed = t.observed := observed_of_same rfl rfl
  refine ⟨kept.issuedOnce,kept.issuedBelow,kept.freeBelow,?_,?_,?_,?_⟩
  · intro x member
    rcases mem_append.mp member with old | same
    · exact kept.linkedIssued x old
    · rwa [mem_singleton.mp same]
  · intro other d found
    change (t.connections.insert connection c).find? other = some d at found
    rw [find?_insert] at found
    split_ifs at found with here
    · cases found
      subst here
      refine ⟨mem_append_right _ (mem_singleton_self _),?_⟩
      rw [connecting]
      refine .connecting ?_
      rw [SimulatedTransportState.lifecycle,observed,kept.quiet other unlinked]
      rfl
    · obtain ⟨member,proceeds⟩ := kept.present other d found
      exact ⟨mem_append_left _ member,proceeds.congr (lifecycle_of_observed (congrFun observed other))⟩
  · intro other member absent
    change (t.connections.insert connection c).find? other = none at absent
    rw [find?_insert] at absent
    split_ifs at absent with here
    rcases mem_append.mp member with old | same
    · exact (kept.gone other old absent).congr (congrFun observed other)
    · exact absurd (mem_singleton.mp same) here
  · intro other foreign
    exact kept.quiet other fun member => foreign (mem_append_left _ member)

theorem kept_new (id : Nat) : ({ id } : SimulatedTransportState).Kept := by
  refine ⟨nodup_nil,by simp,by simp,by simp,?_,by simp,?_⟩
  · intro connection c found
    cases found
  · intro connection _
    rfl

end SimulatedTransportState
end Gargantuan.SimulatedTransport
