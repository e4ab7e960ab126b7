import Gargantuan.SchedulerAccounts

/-!
What a connection hands to the transport. In every traffic class the messages handed over
and then those still queued are the accepted ones in order, less those a newer state
replaced. While an application message waits behind an empty control queue at most eight
structural messages go first, and a flush that may send something sends something.
-/
namespace Gargantuan.NetworkScheduler
open QueuedMessage ConnectionQueue Nat Handover
open List
open RemoteManager (DisconnectInfo sizeSub sizeSub_of_le)

/-! ### The lines of a connection -/

def stands (superseded : List QueuedMessage) (k : Fin 6) (m : QueuedMessage) : Bool :=
  decide (m.precedence = k) && superseded.all fun o => o.serial != m.serial

/-- The accepted messages of a traffic class that no newer state replaced. -/
def standing (c : ConnectionQueue) (k : Fin 6) : List QueuedMessage := c.accepted.filter (stands c.superseded k)

/-- The messages of a traffic class that were handed to the transport. -/
def handedOf (c : ConnectionQueue) (k : Fin 6) : List QueuedMessage :=
  (c.handed.map Handover.message).filter fun m => decide (m.precedence = k)

def Handover.starving (h : Handover) : Bool :=
  h.controlEmpty && h.applicationQueued &&
    decide (h.message.precedence ≠ schedulerTrafficPrecedence .reliableApplication)

/-- The latest handovers in a row that made application messages wait. -/
def starvingStreak (handed : List Handover) : Nat := (handed.reverse.takeWhile Handover.starving).length

structure Lined (c : ConnectionQueue) : Prop where
  serials : c.accepted.map serial = List.range c.accepted.length
  replaced : ∀ m ∈ c.superseded, ∃ o ∈ c.accepted, o.unstamped = m.unstamped
  order : c.active = true → ∀ k, (standing c k).map unstamped =
    (handedOf c k).map unstamped ++ (c.queues k).map unstamped
  unreliable : ∀ m ∈ c.superseded, m.reliable = false
  streak : c.active = true → starvingStreak c.handed ≤ c.consecutiveStructuralReplicationMessages
  fair : ∀ before segment after, c.handed = before ++ segment ++ after →
    (∀ h ∈ segment, h.starving = true) → segment.length ≤ maximumConsecutiveStructuralReplicationMessages

/-- What the order depends on. -/
def ConnectionQueue.lines (c : ConnectionQueue) :
    (Fin 6 → List QueuedMessage) × List QueuedMessage × List QueuedMessage × List Handover × Nat × Bool :=
  (c.queues,c.accepted,c.superseded,c.handed,c.consecutiveStructuralReplicationMessages,c.active)

variable {k : Fin 6}

section
variable {c d : ConnectionQueue} {m : QueuedMessage}

section
variable (lined : Lined c)
include lined

theorem Lined.congr (same : d.lines = c.lines) : Lined d := by
  simp only [lines,Prod.mk.injEq] at same
  obtain ⟨queues,accepted,superseded,handed,consecutive,active⟩ := same
  have stands : ∀ k, standing d k = standing c k := fun k => by rw [standing,standing,accepted,superseded]
  have handing : ∀ k, handedOf d k = handedOf c k := fun k => by rw [handedOf,handedOf,handed]
  constructor
  · rw [accepted]
    exact lined.serials
  · rw [accepted,superseded]
    exact lined.replaced
  · intro on k
    rw [stands,handing,queues]
    exact lined.order (active ▸ on) k
  · rw [superseded]
    exact lined.unreliable
  · intro on
    rw [handed,consecutive]
    exact lined.streak (active ▸ on)
  · rw [handed]
    exact lined.fair

theorem Lined.nodup : (c.accepted.map serial).Nodup :=
  lined.serials ▸ nodup_range

theorem Lined.serial_lt (member : m ∈ c.accepted) : m.serial < c.accepted.length := by
  have inside : m.serial ∈ c.accepted.map serial := mem_map_of_mem member
  rw [lined.serials] at inside
  exact mem_range.mp inside

theorem Lined.queued (on : c.active) (member : m ∈ c.queues k) : ∃ o ∈ standing c k, o.unstamped = m.unstamped := by
  have right : m.unstamped ∈ (standing c k).map unstamped := by
    rw [lined.order on k]
    exact mem_append_right _ (mem_map_of_mem member)
  exact mem_map.mp right

end

theorem unstamped_parts {o : QueuedMessage} (same : o.unstamped = m.unstamped) :
    o.serial = m.serial ∧ o.precedence = m.precedence ∧ o.reliable = m.reliable := by
  have serials := congrArg serial same
  have precedences := congrArg precedence same
  have reliables := congrArg reliable same
  exact ⟨serials,precedences,reliables⟩

theorem Lined.replaced_lt (lined : Lined c) (gone : m ∈ c.superseded) : m.serial < c.accepted.length := by
  obtain ⟨o,member,same⟩ := lined.replaced m gone
  rw [← (unstamped_parts same).1]
  exact lined.serial_lt member

theorem Lined.placed (lined : Lined c) (on : c.active) (member : m ∈ c.queues k) : m.precedence = k := by
  obtain ⟨o,inside,same⟩ := lined.queued on member
  have own := (mem_filter.mp inside).2
  simp only [stands,Bool.and_eq_true,decide_eq_true_eq] at own
  rw [← (unstamped_parts same).2.1]
  exact own.1

theorem Lined.push (lined : Lined c) (m : QueuedMessage) : Lined (c.push m) := by
  have fresh : (c.superseded.all fun o => o.serial != c.accepted.length) = true := by
    rw [all_eq_true]
    intro o member
    have below := lined.replaced_lt member
    exact bne_iff_ne.mpr (by omega)
  refine ⟨?_,?_,?_,lined.unreliable,lined.streak,lined.fair⟩
  · simp only [ConnectionQueue.push,map_append,lined.serials,length_append,map_cons,map_nil,
      length_cons,length_nil,zero_add,range_succ]
  · intro o gone
    obtain ⟨p,member,same⟩ := lined.replaced o gone
    exact ⟨p,mem_append_left _ member,same⟩
  · intro on k
    let stored : QueuedMessage := { m with serial := c.accepted.length }
    have before := lined.order on k
    change (List.filter (stands c.superseded k) (c.accepted ++ [stored])).map _ =
      (handedOf c k).map _ ++ (Function.update c.queues m.precedence (c.queues m.precedence ++ [stored]) k).map _
    rw [filter_append,map_append]
    change (standing c k).map _ ++ _ = _
    rw [before,append_assoc]
    congr 1
    by_cases here : k = m.precedence
    · subst here
      have standing_ : stands c.superseded m.precedence stored := by
        rw [stands,fresh,Bool.and_true]
        exact decide_eq_true rfl
      rw [Function.update_self,map_append,filter_cons_of_pos standing_,filter_nil]
    · have other : ¬stands c.superseded k stored := by
        rw [stands,Bool.and_eq_true,decide_eq_true_eq]
        exact fun both => here both.1.symm
      rw [Function.update_of_ne here,filter_cons_of_neg other,filter_nil,map_nil,append_nil]

variable {after before : List QueuedMessage} {i : Fin 6}

theorem filter_split {l : List QueuedMessage} {x : QueuedMessage} (split : l = before ++ x :: after)
    (distinct : (l.map serial).Nodup) : l.filter (fun m => x.serial != m.serial) = before ++ after := by
  subst split
  rw [map_append,map_cons,nodup_middle,nodup_cons] at distinct
  have others : ∀ m ∈ before ++ after, (x.serial != m.serial) = true := by
    intro m member
    refine bne_iff_ne.mpr fun same => distinct.1 ?_
    rw [← map_append,same]
    exact mem_map_of_mem member
  rw [filter_append,filter_cons_of_neg (by simp),← filter_append]
  exact filter_eq_self.mpr others

variable {existing : QueuedMessage}

/-- A replaced message leaves its line and no other. -/
theorem Lined.supersede (lined : Lined c)
    (split : c.queues i = before ++ existing :: after) (on : c.active) (unreliable : existing.reliable = false) :
    Lined (c.supersede i before existing after) := by
  obtain ⟨o,inside,same⟩ := lined.queued on (m := existing) (by rw [split]; simp)
  obtain ⟨member,ownClass⟩ := mem_filter.mp inside
  have serials := (unstamped_parts same).1
  refine ⟨lined.serials,?_,?_,?_,lined.streak,lined.fair⟩
  · intro m gone
    rcases mem_append.mp gone with old | new
    · exact lined.replaced m old
    · rw [mem_singleton.mp new]
      exact ⟨o,member,same⟩
  · intro _ k
    have order := lined.order on k
    have narrower : standing (c.supersede i before existing after) k =
        (standing c k).filter fun m => existing.serial != m.serial := by
      rw [standing,standing,filter_filter]
      refine filter_congr fun m _ => ?_
      simp only [stands,ConnectionQueue.supersede,all_append,all_cons,all_nil,Bool.and_true]
      rw [Bool.and_comm (existing.serial != m.serial),Bool.and_assoc]
    have blind : ∀ l : List QueuedMessage, (l.filter fun m => existing.serial != m.serial).map unstamped =
        (l.map unstamped).filter fun m => existing.serial != m.serial := by
      intro l
      rw [filter_map]
      rfl
    have distinct : (((standing c k).map unstamped).map serial).Nodup := by
      rw [map_map]
      exact (filter_sublist.map _).nodup lined.nodup
    rw [narrower,blind,order]
    change _ = (handedOf c k).map _ ++ (Function.update c.queues i (before ++ after) k).map _
    by_cases here : k = i
    · subst here
      rw [order] at distinct
      rw [Function.update_self]
      have parts : (handedOf c k).map unstamped ++ (c.queues k).map unstamped =
          ((handedOf c k).map unstamped ++ before.map unstamped) ++
            existing.unstamped :: after.map unstamped := by
        rw [split,map_append,map_cons,append_assoc]
      have taken := filter_split parts distinct
      rw [show existing.unstamped.serial = existing.serial from rfl] at taken
      rw [taken,map_append,append_assoc]
    · rw [Function.update_of_ne here,filter_eq_self.mpr]
      intro m inLine
      refine bne_iff_ne.mpr fun clash => here ?_
      rw [← order] at inLine
      obtain ⟨n,standsHere,rfl⟩ := mem_map.mp inLine
      obtain ⟨accepted,itsClass⟩ := mem_filter.mp standsHere
      have equal : o = n := inj_on_of_nodup_map lined.nodup member accepted (serials.trans clash)
      subst equal
      simp only [stands,Bool.and_eq_true,decide_eq_true_eq] at ownClass itsClass
      exact itsClass.1.symm.trans ownClass.1
  · intro m gone
    rcases mem_append.mp gone with old | new
    · exact lined.unreliable m old
    · rwa [mem_singleton.mp new]

theorem Lined.ended (lined : Lined c) (off : d.active = false) (accepted : d.accepted = c.accepted)
    (superseded : d.superseded = c.superseded) (handed : d.handed = c.handed) : Lined d := by
  refine ⟨?_,?_,fun on => ?_,?_,fun on => ?_,?_⟩
  · rw [accepted]
    exact lined.serials
  · rw [accepted,superseded]
    exact lined.replaced
  · rw [off] at on
    cases on
  · rw [superseded]
    exact lined.unreliable
  · rw [off] at on
    cases on
  · rw [handed]
    exact lined.fair

theorem streak_append (handed : List Handover) (h : Handover) :
    starvingStreak (handed ++ [h]) = if h.starving then starvingStreak handed + 1 else 0 := by
  rw [starvingStreak,reverse_append,reverse_singleton,singleton_append,takeWhile_cons]
  split_ifs <;> rfl

theorem segment_le_streak {before segment : List Handover} (starving : ∀ h ∈ segment, h.starving) :
    segment.length ≤ starvingStreak (before ++ segment) := by
  rw [starvingStreak,reverse_append,takeWhile_append_of_pos (by simpa using starving)]
  simp

theorem starving_choice (chosen : chooseQueue c = some i) (placed : m.precedence = i)
    (starves : (⟨m,(c.queues 0).isEmpty,!(c.queues 2).isEmpty⟩ : Handover).starving = true) :
    i = 1 ∧ c.consecutiveStructuralReplicationMessages < maximumConsecutiveStructuralReplicationMessages := by
  simp only [starving,Bool.and_eq_true,Bool.not_eq_true',decide_eq_true_eq] at starves
  obtain ⟨⟨noControl,waiting⟩,other⟩ := starves
  rw [placed] at other
  simp only [chooseQueue,noControl,waiting,Bool.not_true,Bool.false_eq_true,if_false,Bool.not_false,Bool.and_true,
    Bool.not_eq_true'] at chosen
  split_ifs at chosen with structural many
  · exact absurd (Option.some.inj chosen).symm other
  · exact ⟨(Option.some.inj chosen).symm,not_le.mp many⟩
  · have nothing : (c.queues 1).isEmpty := by simpa using structural
    rw [show List.finRange 6 = [0,1,2,3,4,5] from by decide] at chosen
    simp only [find?_cons,noControl,nothing,waiting,Bool.not_true,Bool.not_false] at chosen
    exact absurd (Option.some.inj chosen).symm other

theorem Lined.handOver (lined : Lined c) (on : c.active) {rest : List QueuedMessage}
    (chosen : chooseQueue c = some i) (front : c.queues i = m :: rest) : Lined (c.handOver i m rest) := by
  have placed : m.precedence = i := lined.placed on (by rw [front]; simp)
  have counter := lined.streak on
  have taken : (c.handOver i m rest).handed = c.handed ++ [⟨m,(c.queues 0).isEmpty,!(c.queues 2).isEmpty⟩] := rfl
  have next : starvingStreak (c.handOver i m rest).handed ≤ (c.handOver i m rest).consecutiveStructuralReplicationMessages ∧
      starvingStreak (c.handOver i m rest).handed ≤ maximumConsecutiveStructuralReplicationMessages := by
    rw [taken,streak_append]
    split_ifs with starves
    · obtain ⟨rfl,few⟩ := starving_choice chosen placed starves
      change starvingStreak c.handed + 1 ≤ consecutiveAfter 1 c.consecutiveStructuralReplicationMessages ∧ _
      have limit : maximumConsecutiveStructuralReplicationMessages = 8 := rfl
      simp only [consecutiveAfter,if_true]
      split_ifs <;> omega
    · exact ⟨zero_le _,zero_le _⟩
  refine ⟨lined.serials,lined.replaced,?_,lined.unreliable,fun _ => next.1,?_⟩
  · intro _ k
    have order := lined.order on k
    change (standing c k).map _ = (List.filter _ (.map message (c.handed ++ [_]))).map _ ++
      (Function.update c.queues i rest k).map _
    rw [order,map_append,filter_append,map_append,append_assoc]
    congr 1
    by_cases here : k = i
    · subst here
      rw [Function.update_self,front,map_cons,map_cons,map_nil,
        filter_cons_of_pos (by simpa using placed),filter_nil]
      rfl
    · rw [Function.update_of_ne here,map_cons,map_nil,
        filter_cons_of_neg (by simpa [placed] using Ne.symm here),filter_nil]
      rfl
  · intro before segment after split starving
    rw [taken] at split
    rcases eq_nil_or_concat after with rfl | ⟨init,last,rfl⟩
    · rw [append_nil] at split
      have short : segment.length ≤ starvingStreak (before ++ segment) := segment_le_streak starving
      rw [← split] at short
      exact short.trans next.2
    · rw [concat_eq_append,← append_assoc] at split
      exact lined.fair before segment init (append_inj_left' split rfl) starving

/-- What happened to a connection is only added to. -/
structure Extends (c d : ConnectionQueue) : Prop where
  accepted : c.accepted <+: d.accepted
  handed : c.handed <+: d.handed

variable {e : ConnectionQueue}

theorem Extends.trans (first : Extends c d) (second : Extends d e) : Extends c e :=
  ⟨first.accepted.trans second.accepted,first.handed.trans second.handed⟩

theorem Extends.of_eq (accepted : d.accepted = c.accepted) (handed : d.handed = c.handed) : Extends c d := by
  constructor
  · rw [accepted]
  · rw [handed]

theorem extends_push (c : ConnectionQueue) (m : QueuedMessage) : Extends c (c.push m) :=
  ⟨prefix_append ..,prefix_rfl⟩

structure Onward (c : ConnectionQueue) (terminal : Option DisconnectInfo) (d : ConnectionQueue) : Prop where
  lined : Lined c → Lined d
  grows : Extends c d
  active : terminal = none → d.active = c.active

theorem Onward.of_lines (same : d.lines = c.lines) (terminal : Option DisconnectInfo) : Onward c terminal d := by
  have parts := same
  simp only [lines,Prod.mk.injEq] at parts
  exact ⟨fun lined => lined.congr same,.of_eq parts.2.1 parts.2.2.2.1,fun _ => parts.2.2.2.2.2⟩

theorem onward_rejectUnreliable (c : ConnectionQueue) (terminal : Option DisconnectInfo) :
    Onward c terminal (rejectUnreliable c).2 := by
  apply Onward.of_lines
  rfl

theorem onward_push (c : ConnectionQueue) (m : QueuedMessage) : Onward c none (c.push m) :=
  ⟨fun lined => lined.push m,extends_push c m,fun _ => rfl⟩

theorem Onward.andLines {terminal : Option DisconnectInfo} (onward : Onward c terminal d)
    (same : e.lines = d.lines) : Onward c terminal e := by
  have next : Onward d terminal e := .of_lines same terminal
  exact ⟨fun lined => next.lined (onward.lined lined),onward.grows.trans next.grows,
    fun quiet => (next.active quiet).trans (onward.active quiet)⟩

theorem onward_submitUnreliable (c : ConnectionQueue) (a : Aggregate) (m : QueuedMessage) :
    Onward c (submitUnreliable c a m).1.terminalDisconnect (submitUnreliable c a m).2.1 := by
  simp only [submitUnreliable]
  split_ifs
  · exact onward_rejectUnreliable c none
  · exact onward_rejectUnreliable c none
  · exact (onward_push c m).andLines rfl

theorem onward_submitReliable (maximumTotal : Nat) (c : ConnectionQueue) (a : Aggregate) (m : QueuedMessage) :
    Onward c (submitReliable maximumTotal c a m).1.terminalDisconnect (submitReliable maximumTotal c a m).2.1 := by
  simp only [submitReliable]
  split_ifs
  · exact ⟨fun lined => lined.ended rfl rfl rfl rfl,.of_eq rfl rfl,fun none => (by cases none)⟩
  · exact (onward_push c m).andLines rfl

theorem onward_submitOver (on : c.active) (a : Aggregate) (m : QueuedMessage) {sequence : UInt64}
    (split : c.queues i = before ++ existing :: after)
    (displaces : (existing.sequenced.map Prod.snd).getD 0 < sequence → existing.reliable = false) :
    Onward c (submitOver c a m sequence i before existing after).1.terminalDisconnect
      (submitOver c a m sequence i before existing after).2.1 := by
  simp only [submitOver]
  split_ifs with stale
  · exact onward_rejectUnreliable c none
  · exact onward_rejectUnreliable c none
  · have old := displaces (UInt64.not_le.mp stale)
    refine ⟨fun lined => ?_,⟨prefix_append ..,prefix_rfl⟩,fun _ => rfl⟩
    exact ((lined.supersede split on old).push m).congr rfl

theorem onward_submitTo (on : c.active) (maximumTotal : Nat) (a : Aggregate) (m : QueuedMessage)
    (displaces : ∀ existing, displaced c m.intent = some existing → existing.reliable = false) :
    Onward c (submitTo maximumTotal c a m).1.terminalDisconnect (submitTo maximumTotal c a m).2.1 := by
  simp only [submitTo]
  split_ifs with invalid
  · apply Onward.of_lines
    rfl
  cases delivery : m.intent.delivery with
  | reliableOrdered => exact onward_submitReliable maximumTotal c a m
  | unreliableUnordered => exact onward_submitUnreliable c a m
  | unreliableSequenced =>
    simp only [submitSequenced]
    split
    · exact onward_rejectUnreliable c none
    · next key sequence sequenced =>
      split
      · next i before existing after found =>
        refine onward_submitOver on a m (findExisting_eq_some found).1 fun newer => displaces existing ?_
        simp only [QueuedMessage.sequenced] at sequenced
        simp only [displaced,invalid,Bool.false_eq_true,if_false,delivery,sequenced,found,
          Option.map_some,Option.filter_some,decide_eq_true newer,if_true]
      · exact onward_submitUnreliable c a m

section
variable {τ : Type} {send : τ → QueuedMessage → TransportOperationResult × τ} {budget : SchedulerTickBudget}

structure FlushOnward (c : ConnectionQueue) (f : Flushing τ) : Prop where
  onward : Onward c f.result.terminalDisconnect f.connection
  active : f.result.terminalDisconnect = none → f.connection.active = true

theorem flushOnward_turn {f : Flushing τ} (flushing : FlushOnward c f) (going : f.result.terminalDisconnect = none) :
    FlushOnward c (flushTurn send budget f).1 ∧
      ((flushTurn send budget f).2 → (flushTurn send budget f).1.result.terminalDisconnect = none) := by
  obtain ⟨onward,active⟩ := flushing
  have on := active going
  simp only [flushTurn]
  split
  · exact ⟨⟨onward,active⟩,fun _ => going⟩
  split
  · exact ⟨⟨onward,active⟩,fun _ => going⟩
  next i chosen =>
  split
  · exact ⟨⟨onward,active⟩,fun _ => going⟩
  next message rest front =>
  split
  · exact ⟨⟨onward.andLines rfl,active⟩,fun _ => going⟩
  split
  · exact ⟨⟨onward.andLines rfl,active⟩,fun _ => going⟩
  split
  · refine ⟨⟨⟨fun lined => (onward.lined lined).ended rfl rfl rfl rfl,onward.grows.trans (.of_eq rfl rfl),fun none => (by cases none)⟩,
      fun none => (by cases none)⟩,fun more => (by cases more)⟩
  · refine ⟨⟨⟨fun lined => (onward.lined lined).handOver on chosen front,?_,onward.active⟩,
      fun _ => on⟩,fun _ => going⟩
    exact onward.grows.trans ⟨prefix_rfl,prefix_append ..⟩

theorem flushOnward_loop (queued : Nat) : ∀ {f : Flushing τ}, FlushOnward c f → f.result.terminalDisconnect = none →
    FlushOnward c (flushLoop send budget queued f) := by
  induction queued with
  | zero => exact fun flushing _ => flushing
  | succ queued ih =>
    intro f flushing going
    have turned : FlushOnward c (flushTurn send budget f).1 ∧
        ((flushTurn send budget f).2 = true → (flushTurn send budget f).1.result.terminalDisconnect = none) :=
      flushOnward_turn flushing going
    simp only [flushLoop]
    split
    · next _ onward =>
      rw [onward] at turned
      exact ih turned.1 (turned.2 rfl)
    · next _ stopped =>
      rw [stopped] at turned
      exact turned.1

theorem flushTurn_sends {f : Flushing τ} (k : Kept f.connection) (valid : budget.isValidFor f.connection.limits)
    {i : Fin 6} (waiting : f.connection.queues i ≠ []) (fresh : f.result.messagesSubmitted = 0)
    (unsent : f.result.bytesSubmitted = 0) (accepts : ∀ m, (send f.transport m).1.status = .succeeded) :
    (flushTurn send budget f).2 ∧ (flushTurn send budget f).1.result.messagesSubmitted = 1 := by
  simp only [SchedulerTickBudget.isValidFor,Bool.and_eq_true,decide_eq_true_eq] at valid
  obtain ⟨⟨⟨⟨_,largest⟩,_⟩,some_⟩,_⟩ := valid
  have queued : f.connection.statistics.queuedMessages ≠ 0 := by
    intro none
    rw [k.counted.messages] at none
    exact waiting (held_eq_zero (fun _ _ _ => one_pos) none i)
  have chooses : ∃ j message rest, chooseQueue f.connection = some j ∧ f.connection.queues j = message :: rest := by
    have nonempty : ∃ j, chooseQueue f.connection = some j ∧ (f.connection.queues j).isEmpty = false := by
      simp only [chooseQueue]
      split_ifs with control both many
      · exact ⟨0,rfl,by simpa using control⟩
      · exact ⟨2,rfl,by simpa using (Bool.and_eq_true_iff.mp both).2⟩
      · exact ⟨1,rfl,by simpa using (Bool.and_eq_true_iff.mp both).1⟩
      · cases found : (List.finRange 6).find? fun i => !(f.connection.queues i).isEmpty with
        | none =>
          have empty := List.find?_eq_none.mp found i (List.mem_finRange i)
          simp only [Bool.not_eq_true',Bool.not_eq_false,List.isEmpty_iff] at empty
          exact absurd empty waiting
        | some j => exact ⟨j,rfl,by simpa using List.find?_some found⟩
    obtain ⟨j,chosen,present⟩ := nonempty
    obtain ⟨message,rest,front⟩ := exists_cons_of_ne_nil (isEmpty_eq_false_iff.mp present)
    exact ⟨j,message,rest,chosen,front⟩
  obtain ⟨j,message,rest,chosen,front⟩ := chooses
  have size := (valid_size (k.valid j message (by rw [front]; simp))).2.2
  have accepted := accepts message
  simp only [flushTurn,if_neg queued,chosen,front,fresh,unsent,sizeSub_of_le (zero_le _),accepted]
  rw [if_neg (by simp only [Bool.or_eq_true,decide_eq_true_eq,not_or]; omega)]
  exact ⟨rfl,rfl⟩

theorem flushTurn_submitted (f : Flushing τ) :
    f.result.messagesSubmitted ≤ (flushTurn send budget f).1.result.messagesSubmitted := by
  simp only [flushTurn]
  repeat' split
  all_goals first | exact le_rfl | exact le_succ _

theorem flushLoop_submitted (queued : Nat) : ∀ f : Flushing τ,
    f.result.messagesSubmitted ≤ (flushLoop send budget queued f).result.messagesSubmitted := by
  induction queued with
  | zero => exact fun f => le_rfl
  | succ queued ih =>
    intro f
    have turned : f.result.messagesSubmitted ≤ (flushTurn send budget f).1.result.messagesSubmitted :=
      flushTurn_submitted f
    simp only [flushLoop]
    split
    · next _ onward =>
      rw [onward] at turned
      exact turned.trans (ih _)
    · next _ stopped =>
      rwa [stopped] at turned

end

end

theorem Lined.restamped {c : ConnectionQueue} (lined : Lined c) {i : Fin 6} {queue : List QueuedMessage}
    (same : queue.map unstamped = (c.queues i).map unstamped) :
    Lined { c with queues := Function.update c.queues i queue } := by
  refine { lined with order := fun on k => ?_ }
  change (standing c k).map _ = (handedOf c k).map _ ++ (Function.update c.queues i queue k).map _
  rw [lined.order on k]
  by_cases here : k = i
  · subst here
    rw [Function.update_self,same]
  · rw [Function.update_of_ne here]

section
variable {τ : Type} (send : τ → QueuedMessage → TransportOperationResult × τ)

def terminalFor (x : System τ) (id : ConnectionId) : Event τ → Option DisconnectInfo
  | .submit intent token producer =>
    if intent.destination = id then (submit x.scheduler intent token producer).1.terminalDisconnect else none
  | .flush connection budget =>
    if connection = id then (flush send budget x.scheduler x.transport connection).1.terminalDisconnect else none
  | _ => none

inductive Moves (terminal : Option DisconnectInfo) (cancelled : Prop) :
    Option ConnectionQueue → Option ConnectionQueue → Prop where
  | absent : Moves terminal cancelled none none
  | registered (limits : NetworkLimits) : Moves terminal cancelled none (some { limits })
  | onward {c d : ConnectionQueue} (onward : Onward c terminal d) : Moves terminal cancelled (some c) (some d)
  | gone {c : ConnectionQueue} (cancels : cancelled) : Moves terminal cancelled (some c) none

variable {cancelled : Prop} {terminal : Option DisconnectInfo}

theorem Moves.same (entry : Option ConnectionQueue) : Moves terminal cancelled entry entry := by
  cases entry with
  | none => exact .absent
  | some c => exact .onward (.of_lines rfl _)

variable {c : ConnectionQueue} {s : Scheduler} {x : System τ} {id : ConnectionId}

theorem moves_insert {connections : SortedMap ConnectionId ConnectionQueue} {id' : ConnectionId}
    {d : ConnectionQueue} (found : connections.find? id' = some c) (onward : id = id' → Onward c terminal d) :
    Moves terminal cancelled (connections.find? id) ((connections.insert id' d).find? id) := by
  rw [SortedMap.find?_insert]
  split_ifs with here
  · rw [here,found]
    exact .onward (onward here)
  · exact .same _

theorem moves_submit (id : ConnectionId) {intent : NetworkMessageIntent} (token : UInt64) (producer : WorkProducer)
    (spares : ∀ c, s.connections.find? intent.destination = some c →
      ∀ existing, displaced c intent = some existing → existing.reliable = false)
    (told : intent.destination = id → terminal = (submit s intent token producer).1.terminalDisconnect) :
    Moves terminal cancelled (s.connections.find? id) ((submit s intent token producer).2.connections.find? id) := by
  simp only [submit] at told ⊢
  cases found : s.connections.find? intent.destination with
  | none => exact .same _
  | some c =>
    simp only [found] at told ⊢
    by_cases off : c.active = true
    · simp only [off,Bool.not_true,Bool.false_eq_true,if_false] at told ⊢
      refine moves_insert found fun here => ?_
      rw [told here.symm]
      exact onward_submitTo off _ _ _ (spares c found)
    · simp only [off,Bool.not_false,if_true]
      exact .same _

variable {budget : SchedulerTickBudget}

theorem moves_flush {transport : τ} (id connection : ConnectionId)
    (told : connection = id → terminal = (flush send budget s transport connection).1.terminalDisconnect) :
    Moves terminal cancelled (s.connections.find? id)
      ((flush send budget s transport connection).2.1.connections.find? id) := by
  simp only [flush] at told ⊢
  cases found : s.connections.find? connection with
  | none => exact .same _
  | some c =>
    simp only [found] at told ⊢
    by_cases off : c.active = true
    · simp only [off,Bool.not_true,Bool.false_eq_true,if_false] at told ⊢
      by_cases valid : budget.isValidFor c.limits = true
      · simp only [valid,Bool.not_true,Bool.false_eq_true,if_false] at told ⊢
        refine moves_insert found fun here => ?_
        rw [told here.symm]
        have start : FlushOnward c (⟨c,s.aggregate,transport,{ status := .drained }⟩ : Flushing τ) :=
          ⟨.of_lines rfl _,fun _ => off⟩
        have flushed : FlushOnward c (flushLoop send budget c.statistics.queuedMessages _) :=
          flushOnward_loop _ start rfl
        exact flushed.onward
      · simp only [valid,Bool.not_false,if_true]
        exact .same _
    · simp only [off,Bool.not_false,if_true]
      exact .same _

theorem moves_step {y : System τ} {event : Event τ} (spares : Spares x event) (stepped : step send x event = some y)
    (id : ConnectionId) : Moves (terminalFor send x id event) (event = .cancel id)
      (x.scheduler.connections.find? id) (y.scheduler.connections.find? id) := by
  cases event with
  | register connection limits =>
    cases stepped
    simp only [registerConnection]
    split_ifs with invalid taken stored
    · exact .same _
    · exact .same _
    · exact .same _
    · have absent : x.scheduler.connections.find? connection = none := by simpa [SortedMap.contains] using stored
      simp only [SortedMap.find?_insert]
      split_ifs with here
      · rw [here,absent]
        exact .registered limits
      · exact .same _
  | submit intent token producer =>
    cases stepped
    refine moves_submit id token producer spares fun here => ?_
    simp only [terminalFor,if_pos here]
  | flush connection budget =>
    cases stepped
    refine moves_flush send id connection fun here => ?_
    simp only [terminalFor,if_pos here]
  | cancel connection =>
    cases stepped
    simp only [cancelConnection]
    cases found : x.scheduler.connections.find? connection with
    | none => exact .same _
    | some c =>
      simp only [SortedMap.find?_erase]
      split_ifs with here
      · rw [here,found]
        exact .gone rfl
      · exact .same _
  | activate connection token time =>
    cases stepped
    simp only [activateReliableGrant]
    split_ifs
    · exact .same _
    split
    · exact .same _
    next c found =>
    split_ifs
    · exact .same _
    split
    · exact .same _
    next i activated queue changed =>
    obtain ⟨j,_,inner⟩ := exists_of_findSome?_eq_some changed
    obtain ⟨⟨flag,list⟩,first,same⟩ := Option.map_eq_some_iff.mp inner
    cases same
    exact moves_insert found fun _ =>
      ⟨fun lined => lined.restamped (unstamped_activateIn first),.of_eq rfl rfl,fun _ => rfl⟩
  | transport value =>
    cases stepped
    exact .same _

theorem lined_new (limits : NetworkLimits) : Lined { limits } where
  serials := rfl
  replaced _ member := absurd member not_mem_nil
  order _ _ := rfl
  unreliable _ member := absurd member not_mem_nil
  streak _ := zero_le _
  fair before segment after split _ := by
    have none : segment = [] := by
      have empty := append_eq_nil_iff.mp split.symm
      exact (append_eq_nil_iff.mp empty.1).2
    rw [none]
    exact zero_le _

structure InLine (x : System τ) : Prop where
  sound : Sound x.scheduler
  lined : ∀ id c, x.scheduler.connections.find? id = some c → Lined c

theorem inLine_step {y : System τ} {event : Event τ} (spares : Spares x event) (inLine : InLine x)
    (stepped : step send x event = some y) : InLine y := by
  refine ⟨sound_step send spares inLine.sound stepped,fun id d found => ?_⟩
  have moves := moves_step send spares stepped id
  rw [found] at moves
  generalize before : x.scheduler.connections.find? id = entry at moves
  cases moves with
  | registered limits => exact lined_new limits
  | onward onward => exact onward.lined (inLine.lined id _ before)

structure Orderly (c : ConnectionQueue) : Prop where
  once : (c.accepted.map serial).Nodup
  handedInOrder : c.active = true → ∀ k, (standing c k).map unstamped =
    (handedOf c k).map unstamped ++ (c.queues k).map unstamped
  reliableStays : c.active = true → ∀ m ∈ c.accepted, m.reliable = true →
    m.unstamped ∈ (handedOf c m.precedence).map unstamped ++
      (c.queues m.precedence).map unstamped
  fair : ∀ before segment after, c.handed = before ++ segment ++ after →
    (∀ h ∈ segment, h.controlEmpty = true ∧ h.applicationQueued = true ∧ h.message.intent.traffic ≠ .reliableApplication) →
    (segment.filter fun h => h.message.intent.traffic == .structuralReplication).length ≤
      maximumConsecutiveStructuralReplicationMessages

theorem Lined.orderly (lined : Lined c) : Orderly c where
  once := lined.nodup
  handedInOrder := lined.order
  reliableStays on m member reliable := by
    rw [← lined.order on]
    refine mem_map_of_mem (mem_filter.mpr ⟨member,?_⟩)
    simp only [stands,Bool.and_eq_true,decide_eq_true_eq,true_and,all_eq_true]
    intro o gone
    refine bne_iff_ne.mpr fun clash => ?_
    obtain ⟨p,accepted,same⟩ := lined.replaced o gone
    obtain ⟨serials,_,delivery⟩ := unstamped_parts same
    have equal : p = m := inj_on_of_nodup_map lined.nodup accepted member (serials.trans clash)
    rw [← equal,delivery,lined.unreliable o gone] at reliable
    cases reliable
  fair before segment after split waits := by
    refine (length_filter_le _ _).trans (lined.fair before segment after split fun h member => ?_)
    obtain ⟨control,application,other⟩ := waits h member
    have precedence : h.message.precedence ≠ 2 := by
      intro second
      apply other
      simp only [precedence] at second
      revert second
      cases h.message.intent.traffic <;> decide
    simp only [starving,control,application,Bool.and_self,Bool.true_and]
    exact decide_eq_true precedence

theorem flush_sends (sound : Sound x.scheduler)
    (found : x.scheduler.connections.find? id = some c) (on : c.active)
    (valid : budget.isValidFor c.limits) (waiting : c.queues k ≠ [])
    (accepts : ∀ m, (send x.transport m).1.status = .succeeded) :
    1 ≤ (flush send budget x.scheduler x.transport id).1.messagesSubmitted := by
  have kept := sound.kept id c found
  have queued : c.statistics.queuedMessages ≠ 0 := by
    intro none
    rw [kept.counted.messages] at none
    exact waiting (held_eq_zero (fun _ _ _ => one_pos) none k)
  obtain ⟨rest,more⟩ := exists_eq_succ_of_ne_zero queued
  let start : Flushing τ := ⟨c,x.scheduler.aggregate,x.transport,{ status := .drained }⟩
  obtain ⟨goes,one⟩ : (flushTurn send budget start).2 = true ∧
      (flushTurn send budget start).1.result.messagesSubmitted = 1 :=
    flushTurn_sends kept valid waiting rfl rfl accepts
  simp only [flush,found,on,valid,Bool.not_true,Bool.false_eq_true,if_false]
  rw [more]
  simp only [flushLoop]
  split
  · next f onward =>
    rw [onward] at one
    exact one.symm.le.trans (flushLoop_submitted rest f)
  · next f stopped =>
    rw [stopped] at goes
    cases goes

theorem inLine_run {maximumTotal : UInt64} (created : create maximumTotal = some s) {transport : τ}
    {events : List (Event τ)} (reached : run (step send) ⟨s,transport⟩ events = some x)
    (spares : RunMeets (step send) Spares ⟨s,transport⟩ events) : InLine x := by
  have start : InLine (⟨s,transport⟩ : System τ) := by
    refine ⟨sound_create created,fun id c found => ?_⟩
    simp only [create] at created
    split_ifs at created
    cases created
    cases found
  exact run_preserves_where
    (fun _ _ _ spares inLine stepped => inLine_step send spares inLine stepped) start spares reached

/-- In every run in which no sequenced message is to replace a reliable one, every connection's messages are
    handed over in order; a flush that may send sends; and only a terminal result ends a connection. -/
theorem orderly_run {maximumTotal : UInt64} {s : Scheduler} (created : create maximumTotal = some s) {transport : τ}
    {events : List (Event τ)} {x : System τ} (reached : run (step send) ⟨s, transport⟩ events = some x)
    (spares : RunMeets (step send) Spares ⟨s, transport⟩ events) :
    (∀ id c, x.scheduler.connections.find? id = some c → Orderly c) ∧
    (∀ id c budget k, x.scheduler.connections.find? id = some c → c.active = true →
      budget.isValidFor c.limits = true → c.queues k ≠ [] → (∀ m, (send x.transport m).1.status = .succeeded) →
      1 ≤ (flush send budget x.scheduler x.transport id).1.messagesSubmitted) ∧
    ∀ event y id c, Spares x event → step send x event = some y → x.scheduler.connections.find? id = some c →
      event ≠ .cancel id → terminalFor send x id event = none →
      ∃ d, y.scheduler.connections.find? id = some d ∧ d.active = c.active ∧ Extends c d := by
  have inLine := inLine_run send created reached spares
  refine ⟨fun id c found => (inLine.lined id c found).orderly,?_,?_⟩
  · intro id c budget k found on valid waiting accepts
    exact flush_sends send inLine.sound found on valid waiting accepts
  · intro event y id c spared stepped found kept quiet
    have moves := moves_step send spared stepped id
    rw [found] at moves
    generalize after : y.scheduler.connections.find? id = entry at moves
    cases moves with
    | onward onward => exact ⟨_,rfl,onward.active quiet,onward.grows⟩
    | gone cancels => exact absurd cancels kept

end

/-- One flush empties the queue of two states. -/
def flushedRun : List (Event Unit) :=
  stateRun .unreliableSequenced ++ [.flush firstConnection ⟨8388608,1⟩]

theorem orderly_flushedRun : ∃ x, run (step sendAlways) ⟨newScheduler, ()⟩ flushedRun = some x ∧
    ∃ c, x.scheduler.connections.find? firstConnection = some c ∧ c.handed.length = 1 ∧ Orderly c := by
  have created : create 1024 = some newScheduler := rfl
  have spares : RunMeets (step sendAlways) Spares ⟨newScheduler,()⟩ flushedRun := by decide +kernel
  have ran : (run (step sendAlways) ⟨newScheduler,()⟩ flushedRun).map (fun x =>
      (x.scheduler.connections.find? firstConnection).map fun c => c.handed.length) = some (some 1) := by decide +kernel
  obtain ⟨x,reached,same⟩ := Option.map_eq_some_iff.mp ran
  obtain ⟨c,found,length⟩ := Option.map_eq_some_iff.mp same
  exact ⟨x,reached,c,found,length,(orderly_run sendAlways created reached spares).1 _ c found⟩

/-- A sequenced state replaces a reliable one: the connection accepted the reliable message, has no terminal
    result, and neither handed it over nor holds it. -/
theorem supersession_drops_reliable : create 1024 = some newScheduler ∧ ∃ x c m,
    run (step sendAlways) ⟨newScheduler, ()⟩ (stateRun .reliableOrdered) = some x ∧
    x.scheduler.connections.find? firstConnection = some c ∧ c.active = true ∧
    m ∈ c.accepted ∧ m.reliable = true ∧
    m.unstamped ∉ (handedOf c m.precedence).map unstamped ++
      (c.queues m.precedence).map unstamped := by
  have ran : (run (step sendAlways) ⟨newScheduler,()⟩ (stateRun .reliableOrdered)).map (fun x =>
      (x.scheduler.connections.find? firstConnection).map fun c => (c.active,c.accepted.any fun m =>
        m.reliable && decide (m.unstamped ∉ (handedOf c m.precedence).map unstamped ++
          (c.queues m.precedence).map unstamped))) = some (some (true,true)) := by decide +kernel
  obtain ⟨x,reached,same⟩ := Option.map_eq_some_iff.mp ran
  obtain ⟨c,found,parts⟩ := Option.map_eq_some_iff.mp same
  obtain ⟨active,lost⟩ := Prod.mk.inj parts
  obtain ⟨m,member,gone⟩ := any_eq_true.mp lost
  simp only [Bool.and_eq_true,decide_eq_true_eq] at gone
  exact ⟨rfl,x,c,m,reached,found,active,member,gone.1,gone.2⟩

end Gargantuan.NetworkScheduler
