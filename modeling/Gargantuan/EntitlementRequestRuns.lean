import Gargantuan.EntitlementRequests

/-!
Runs of the requests. As long as every call that registers a request goes on to yield, the table of
pending requests has exactly the coroutines that wait, and each of them is resumed once.
-/
namespace Gargantuan.EntitlementRequests
open SortedMap List Nat

def registers (s : EntitlementRequests) (call : Call) : Bool :=
  call.malformed.isNone && call.many.all (fun count => 0 < count && count ≤ maximumBatchSize) &&
    call.thread != call.main && (!s.attached || s.main == some call.main) &&
    decide (s.pending.size < maximumInFlightRequests) && s.nextId != maximumNumber

/-- Whether a check begins: the player is live, of this data model and not of an invalid identity, and the worker queue
accepts the check if it comes to that. -/
def isBegun (call : Call) : Bool :=
  !call.player.destroyed && !call.player.destroying && !call.player.isForeign &&
    call.player.identity.all (·.isNone) &&
    (call.player.identity.isNone || call.cached || !call.reserved || call.accepted)

/-- Whether a call that has registered its request yields. -/
def isServed (call : Call) : Bool := isBegun call && call.isYieldable

def Serves (s : EntitlementRequests) : Event → Prop
  | .call call => s.registers call = true → isServed call = true
  | _ => True

instance decidableServes (s : EntitlementRequests) : (event : Event) → Decidable (Serves s event)
  | .call call => inferInstanceAs (Decidable (s.registers call = true → isServed call = true))
  | .complete _ | .pump | .resume | .release | .detach => isTrue trivial

structure SoundWith (queue : List LuaCompletion) (s : EntitlementRequests) : Prop where
  ids : ∀ id request, s.pending.find? id = some request →
    request.id = id ∧ id < s.nextId ∧ request.generation = s.generation ∧ s.attached = true
  ready : ∀ request ∈ s.ready, request.id < s.nextId ∧ request.generation = s.generation ∧
    s.pending.find? request.id = none
  readyIds : (s.ready.map (·.id)).Nodup
  waiting : s.waiting.Perm (s.pending.entries.map (fun entry => (entry.2.thread,entry.2.id)) ++
    s.ready.map fun request => (request.thread,request.id))
  threads : (s.waiting.map (·.1)).Nodup
  references : s.references.Perm (s.pending.entries.map (fun entry => entry.2.reference) ++
    s.ready.map (·.reference) ++ s.resuming.toList.map (·.reference))
  distinct : s.references.Nodup
  bounded : ∀ reference ∈ s.references, reference < s.nextReference
  served : ∀ id request, s.pending.find? id = some request → ⟨id,s.generation⟩ ∈ s.tasks ∨ ⟨id,s.generation⟩ ∈ queue
  resumed : s.resumed.Nodup
  past : ∀ id ∈ s.resumed, id < s.nextId ∧ s.pending.find? id = none ∧ ∀ request ∈ s.ready, request.id ≠ id

def Sound (s : EntitlementRequests) : Prop := SoundWith s.completions s

theorem sound_new : Sound {} where
  ids := fun _ _ found => by cases found
  ready := fun _ member => absurd member not_mem_nil
  readyIds := nodup_nil
  waiting := .nil
  threads := nodup_nil
  references := .nil
  distinct := nodup_nil
  bounded := fun _ member => absurd member not_mem_nil
  served := fun _ _ found => by cases found
  resumed := nodup_nil
  past := fun _ member => absurd member not_mem_nil

theorem readArguments_eq (call : Call) : readArguments call = .ok () ↔
    (call.malformed.isNone && call.many.all (fun count => 0 < count && count ≤ maximumBatchSize)) := by
  rw [readArguments]
  cases call.malformed with
  | some message => simp
  | none =>
    cases call.many with
    | none => simp
    | some count =>
      simp only [Option.isNone_none,Bool.true_and,Option.all_some,Bool.and_eq_true,decide_eq_true_eq]
      split
      · constructor
        · exact fun refused => by cases refused
        · omega
      · constructor
        · omega
        · exact fun _ => rfl

def requestOf (s : EntitlementRequests) (call : Call) : PendingLuaRequest :=
  ⟨s.nextId,call.thread,call.main,s.nextReference,s.generation⟩

def registered (s : EntitlementRequests) (call : Call) : EntitlementRequests :=
  { s with
    attached := true
    main := some call.main
    references := s.nextReference :: s.references
    nextReference := s.nextReference + 1
    nextId := s.nextId + 1
    pending := s.pending.insert s.nextId (s.requestOf call) }

variable {s : EntitlementRequests}

theorem registerLuaRequest_ok {call : Call} (registers : s.registers call) :
    readArguments call = .ok () ∧ s.registerLuaRequest call = (.ok (s.requestOf call),s.registered call) := by
  simp only [EntitlementRequests.registers,Bool.and_eq_true,bne_iff_ne,decide_eq_true_eq,ne_eq] at registers
  obtain ⟨⟨⟨⟨⟨well,batch⟩,thread⟩,attachment⟩,room⟩,number⟩ := registers
  refine ⟨(readArguments_eq call).mpr (by rw [well,batch]; rfl),?_⟩
  rw [registerLuaRequest,if_neg thread]
  cases attached : s.attached with
  | true =>
    rw [attached,Bool.not_true,Bool.false_or,beq_iff_eq] at attachment
    simp only [attachment,ne_eq,not_true_eq_false,and_false,if_false,if_true,ge_iff_le,not_le.mpr room,
      number,or_self,registered,requestOf]
  | false =>
    simp only [Bool.false_eq_true,false_and,if_false,ge_iff_le,not_le.mpr room,number,or_self,registered]
    rfl

theorem checkAsync_refused {call : Call} (refused : s.registers call = false) :
    (∃ message, (s.checkAsync call).1 = .error message) ∧
      ∃ attached main nextReference, (s.checkAsync call).2 = { s with attached, main, nextReference } ∧
        (s.attached → attached) ∧ s.nextReference ≤ nextReference := by
  rw [checkAsync]
  cases arguments : readArguments call with
  | error message => exact ⟨⟨message,rfl⟩,s.attached,s.main,s.nextReference,rfl,id,le_rfl⟩
  | ok _ =>
    have well := (readArguments_eq call).mp arguments
    rw [registerLuaRequest]
    by_cases thread : call.thread = call.main
    · rw [if_pos thread]
      exact ⟨⟨_,rfl⟩,s.attached,s.main,s.nextReference,rfl,id,le_rfl⟩
    · rw [if_neg thread]
      by_cases foreign : s.attached = true ∧ s.main ≠ some call.main
      · obtain ⟨attached,other⟩ := foreign
        simp only [attached,if_true,erase_cons_head,if_pos (And.intro True.intro other)]
        exact ⟨⟨_,rfl⟩,true,s.main,s.nextReference + 1,rfl,fun _ => rfl,le_succ _⟩
      · by_cases full : s.pending.size ≥ maximumInFlightRequests ∨ s.nextId = maximumNumber
        · simp only [if_neg foreign,if_pos full]
          cases attached : s.attached with
          | true =>
            simp only [if_true,erase_cons_head]
            exact ⟨⟨_,rfl⟩,true,s.main,s.nextReference + 1,rfl,fun _ => rfl,le_succ _⟩
          | false =>
            simp only [Bool.false_eq_true,if_false,erase_cons_head]
            exact ⟨⟨_,rfl⟩,true,some call.main,s.nextReference + 1,rfl,fun _ => rfl,le_succ _⟩
        · refine absurd refused ?_
          rw [not_or,not_le] at full
          rw [Bool.not_eq_false]
          simp only [EntitlementRequests.registers,well,Bool.true_and,Bool.and_eq_true,bne_iff_ne,
            decide_eq_true_eq,ne_eq,thread,full.1,full.2,not_false_eq_true,and_true,true_and]
          cases attached : s.attached with
          | false => rfl
          | true =>
            rw [not_and,not_not] at foreign
            rw [foreign attached]
            simp

theorem beginCheck_ok {call : Call} : isBegun call ↔ ∃ begun, beginCheck call = .ok begun := by
  rw [isBegun,beginCheck,requirePlayerIdentity]
  cases call.player.destroyed with
  | true => simp [bind,Except.bind]
  | false =>
    cases call.player.destroying with
    | true => simp [bind,Except.bind]
    | false =>
      cases call.player.isForeign with
      | true => simp [bind,Except.bind]
      | false =>
        cases call.player.identity with
        | none => exact ⟨fun _ => ⟨.completed,rfl⟩,fun _ => rfl⟩
        | some invalid =>
          cases invalid with
          | some message => simp [bind,Except.bind]
          | none =>
            cases call.cached <;> cases call.reserved <;> cases call.accepted <;>
              simp [bind,Except.bind,pure,Except.pure,throw,throwThe,MonadExceptOf.throw]

theorem checkAsync_begun {call : Call} (registers : s.registers call) (begins : isBegun call) :
    ∃ tasks completions, s.checkAsync call =
        { s.registered call with tasks, completions }.yieldCoroutine call (s.requestOf call) ∧
      s.tasks ⊆ tasks ∧ s.completions ⊆ completions ∧
      (⟨s.nextId,s.generation⟩ ∈ tasks ∨ ⟨s.nextId,s.generation⟩ ∈ completions) := by
  obtain ⟨arguments,request⟩ := registerLuaRequest_ok registers
  obtain ⟨begun,begins⟩ := beginCheck_ok.mp begins
  have contained : (s.registered call).pending.contains s.nextId :=
    contains_iff.mpr ⟨s.requestOf call,find?_insert_self _ _ _⟩
  have queued : (s.registered call).queueLuaCompletion ⟨s.nextId,s.generation⟩ =
      { s.registered call with completions := s.completions ++ [⟨s.nextId,s.generation⟩] } := by
    rw [queueLuaCompletion,contained]
    simp [registered]
  rw [checkAsync,arguments,request]
  rw [begins]
  cases begun with
  | completed =>
    refine ⟨s.tasks,s.completions ++ [⟨s.nextId,s.generation⟩],?_,fun _ inside => inside,
      subset_append_left _ _,.inr (mem_append_right _ (mem_singleton.mpr rfl))⟩
    exact congrArg (·.yieldCoroutine call (s.requestOf call)) queued
  | submitted =>
    exact ⟨s.tasks ++ [⟨s.nextId,s.generation⟩],s.completions,rfl,subset_append_left _ _,
      fun _ inside => inside,.inl (mem_append_right _ (mem_singleton.mpr rfl))⟩

theorem checkAsync_unserved {call : Call} (registers : s.registers call) (unserved : isServed call = false) :
    (∃ message, (s.checkAsync call).1 = .error message) ∧
      (s.checkAsync call).2.pending = s.pending.insert s.nextId (s.requestOf call) := by
  cases begins : isBegun call with
  | true =>
    rw [isServed,begins,Bool.true_and] at unserved
    obtain ⟨tasks,completions,result,_⟩ := checkAsync_begun registers begins
    rw [result,yieldCoroutine,unserved]
    exact ⟨⟨_,rfl⟩,rfl⟩
  | false =>
    obtain ⟨arguments,request⟩ := registerLuaRequest_ok registers
    cases begun : beginCheck call with
    | ok way =>
      rw [beginCheck_ok.mpr ⟨way,begun⟩] at begins
      cases begins
    | error message =>
      rw [checkAsync,arguments,request]
      rw [begun]
      exact ⟨⟨message,rfl⟩,rfl⟩

section
variable (sound : Sound s)
include sound

theorem Sound.fresh : s.pending.find? s.nextId = none := by
  cases found : s.pending.find? s.nextId with
  | none => rfl
  | some request => exact absurd (sound.ids _ _ found).2.1 (lt_irrefl _)

theorem Sound.refused {attached : Bool} {main : Option Nat} {nextReference : Nat}
    (kept : s.attached → attached) (grown : s.nextReference ≤ nextReference) :
    Sound { s with attached, main, nextReference } where
  ids := fun id request found =>
    have own := sound.ids id request found
    ⟨own.1,own.2.1,own.2.2.1,kept own.2.2.2⟩
  ready := sound.ready
  readyIds := sound.readyIds
  waiting := sound.waiting
  threads := sound.threads
  references := sound.references
  distinct := sound.distinct
  bounded := fun reference inside => lt_of_lt_of_le (sound.bounded reference inside) grown
  served := sound.served
  resumed := sound.resumed
  past := sound.past

theorem Sound.served_call {call : Call} (idle : call.thread ∉ s.waiting.map (·.1))
    {tasks completions : List LuaCompletion} (tasked : s.tasks ⊆ tasks) (completed : s.completions ⊆ completions)
    (own : ⟨s.nextId,s.generation⟩ ∈ tasks ∨ ⟨s.nextId,s.generation⟩ ∈ completions) :
    Sound { s.registered call with tasks, completions, waiting := s.waiting ++ [(call.thread,s.nextId)] } := by
  have fresh := sound.fresh
  have entries := insert_perm (s.requestOf call) fresh
  constructor
  case ids =>
    intro id request found
    dsimp only [registered] at found ⊢
    rw [find?_insert] at found
    split at found
    next same =>
      cases found
      exact ⟨same.symm,by rw [same]; exact Nat.lt_succ_self _,rfl,rfl⟩
    next =>
      have known := sound.ids id request found
      exact ⟨known.1,Nat.lt_succ_of_lt known.2.1,known.2.2.1,rfl⟩
  case ready =>
    intro request inside
    have known := sound.ready request inside
    refine ⟨Nat.lt_succ_of_lt known.1,known.2.1,?_⟩
    dsimp only [registered]
    rw [find?_insert_of_ne _ _ (Nat.ne_of_lt known.1)]
    exact known.2.2
  case readyIds => exact sound.readyIds
  case waiting =>
    calc
      List.Perm _ _ := perm_append_comm
      List.Perm _ _ := sound.waiting.cons (call.thread,s.nextId)
      List.Perm _ _ := (entries.map fun entry => (entry.2.thread,entry.2.id)).symm.append_right _
  case threads =>
    rw [map_append,nodup_append]
    refine ⟨sound.threads,nodup_singleton _,?_⟩
    intro thread inside other same equal
    rw [map_singleton,mem_singleton] at same
    rw [equal,same] at inside
    exact idle inside
  case references =>
    calc
      List.Perm _ _ := sound.references.cons s.nextReference
      List.Perm _ _ := ((entries.map fun entry => entry.2.reference).symm.append_right _).append_right _
  case distinct =>
    exact nodup_cons.mpr ⟨fun inside => Nat.lt_irrefl _ (sound.bounded _ inside),sound.distinct⟩
  case bounded =>
    intro reference inside
    rcases mem_cons.mp inside with same | inside
    · rw [same]
      exact Nat.lt_succ_self _
    · exact Nat.lt_succ_of_lt (sound.bounded reference inside)
  case served =>
    intro id request found
    dsimp only [registered] at found ⊢
    rw [find?_insert] at found
    split at found
    next same => rwa [same]
    next => exact (sound.served id request found).imp (@tasked _) (@completed _)
  case resumed => exact sound.resumed
  case past =>
    intro id inside
    have known := sound.past id inside
    refine ⟨Nat.lt_succ_of_lt known.1,?_,known.2.2⟩
    dsimp only [registered]
    rw [find?_insert_of_ne _ _ (Nat.ne_of_lt known.1)]
    exact known.2.1

theorem Sound.call {call : Call} (idle : call.thread ∉ s.waiting.map (·.1))
    (serves : s.registers call → isServed call) : Sound (s.checkAsync call).2 := by
  cases registers : s.registers call with
  | false =>
    obtain ⟨_,attached,main,nextReference,result,kept,grown⟩ := checkAsync_refused registers
    rw [result]
    exact sound.refused kept grown
  | true =>
    have serves := Bool.and_eq_true_iff.mp (serves registers)
    obtain ⟨tasks,completions,result,tasked,completed,own⟩ := checkAsync_begun registers serves.1
    rw [result,yieldCoroutine,if_pos serves.2]
    exact sound.served_call idle tasked completed own

end

theorem queueLuaCompletion_queues {id : Nat} {request : PendingLuaRequest} (attached : s.attached)
    (found : s.pending.find? id = some request) :
    s.queueLuaCompletion ⟨id,s.generation⟩ = { s with completions := s.completions ++ [⟨id,s.generation⟩] } := by
  rw [queueLuaCompletion,attached,contains_iff.mpr ⟨request,found⟩]
  simp

theorem queueLuaCompletion_eq (s : EntitlementRequests) (completion : LuaCompletion) : ∃ completions,
    s.queueLuaCompletion completion = { s with completions } ∧ s.completions ⊆ completions := by
  rw [queueLuaCompletion]
  split
  · exact ⟨s.completions,rfl,fun _ inside => inside⟩
  · exact ⟨s.completions ++ [completion],rfl,subset_append_left _ _⟩

variable {t : EntitlementRequests}

theorem Sound.completeTask (sound : Sound s) {index : Nat} (stepped : s.completeTask index = some t) : Sound t := by
  obtain ⟨completion,there,rfl⟩ := Option.map_eq_some_iff.mp stepped
  obtain ⟨completions,queued,kept⟩ :=
    queueLuaCompletion_eq { s with tasks := s.tasks.eraseIdx index } completion
  have delivered : ∀ id request, s.pending.find? id = some request →
      ⟨id,s.generation⟩ ∈ s.tasks.eraseIdx index ∨ ⟨id,s.generation⟩ ∈ completions := by
    intro id request found
    rcases sound.served id request found with task | done
    · obtain ⟨place,here⟩ := mem_iff_getElem?.mp task
      by_cases same : place = index
      · rw [same] at here
        rw [← Option.some.inj (here.symm.trans there)] at queued
        have own := queueLuaCompletion_queues (s := { s with tasks := s.tasks.eraseIdx index })
          (sound.ids id request found).2.2.2 found
        have appended : s.completions ++ [⟨id,s.generation⟩] = completions :=
          congrArg EntitlementRequests.completions (own.symm.trans queued)
        right
        rw [← appended]
        exact mem_append_right _ (mem_singleton.mpr rfl)
      · exact .inl (mem_eraseIdx_iff_getElem?.mpr ⟨place,same,here⟩)
    · exact .inr (kept done)
  rw [queued]
  exact { sound with served := delivered }

/-- A completion that is taken moves its request from the table to those that are resumed. -/
theorem SoundWith.takeCompletion {completion : LuaCompletion} {rest : List LuaCompletion}
    (sound : SoundWith (completion :: rest) s) : SoundWith rest (s.takeCompletion completion) := by
  -- A completion that is passed over is for no pending request.
  have passed (stale : ∀ request, s.pending.find? completion.id = some request →
      completion.generation ≠ s.generation) : SoundWith rest s := by
    refine { sound with served := ?_ }
    intro id request found
    refine (sound.served id request found).imp_right fun queued => ?_
    rcases mem_cons.mp queued with same | later
    · rw [← same] at stale
      exact absurd rfl (stale request found)
    · exact later
  rw [EntitlementRequests.takeCompletion]
  split
  next stale => exact passed fun _ _ => stale
  next current =>
    cases found : s.pending.find? completion.id with
    | none => exact passed fun request other => by rw [found] at other; cases other
    | some request =>
      obtain ⟨same,below,own,attached⟩ := sound.ids _ _ found
      have entries := erase_perm found
      have elsewhere : ∀ other ∈ s.ready, other.id ≠ request.id := by
        intro other inside equal
        rw [same] at equal
        have absent := (sound.ready other inside).2.2
        rw [equal,found] at absent
        cases absent
      have absent {id : Nat} (missing : s.pending.find? id = none) :
          (s.pending.erase completion.id).find? id = none := by
        rw [find?_erase,missing,ite_self]
      have remains {id : Nat} {other : PendingLuaRequest}
          (kept : (s.pending.erase completion.id).find? id = some other) :
          id ≠ completion.id ∧ s.pending.find? id = some other := by
        rw [find?_erase] at kept
        split at kept
        · cases kept
        · exact ⟨by assumption,kept⟩
      constructor
      case ids => exact fun id other kept => sound.ids id other (remains kept).2
      case ready =>
        intro other inside
        rcases mem_append.mp inside with before | last
        · exact (sound.ready other before).imp_right (.imp_right absent)
        · cases mem_singleton.mp last
          refine ⟨same ▸ below,own,?_⟩
          rw [same]
          exact find?_erase_self _ _
      case readyIds =>
        rw [map_append,nodup_append]
        refine ⟨sound.readyIds,nodup_singleton _,?_⟩
        intro id inside other last equal
        obtain ⟨before,among,rfl⟩ := mem_map.mp inside
        rw [map_singleton,mem_singleton] at last
        exact elsewhere before among (equal.trans last)
      case waiting =>
        refine sound.waiting.trans ?_
        rw [map_append,← append_assoc]
        refine ((entries.map _).append_right _).trans ?_
        exact @perm_append_comm _ [(request.thread,request.id)] _
      case threads => exact sound.threads
      case references =>
        refine sound.references.trans ?_
        rw [map_append,← append_assoc]
        refine .append_right _ (((entries.map _).append_right _).trans ?_)
        exact @perm_append_comm _ [request.reference] _
      case distinct => exact sound.distinct
      case bounded => exact sound.bounded
      case served =>
        intro id other kept
        obtain ⟨different,was⟩ := remains kept
        refine (sound.served id other was).imp_right fun queued => ?_
        rcases mem_cons.mp queued with equal | later
        · exact absurd (congrArg LuaCompletion.id equal) different
        · exact later
      case resumed => exact sound.resumed
      case past =>
        intro id inside
        obtain ⟨before,missing,unready⟩ := sound.past id inside
        refine ⟨before,absent missing,?_⟩
        intro other among
        rcases mem_append.mp among with earlier | last
        · exact unready other earlier
        · cases mem_singleton.mp last
          intro equal
          rw [← equal,same,found] at missing
          cases missing

theorem SoundWith.takeAll {queue : List LuaCompletion} (sound : SoundWith queue s) :
    SoundWith [] (queue.foldl EntitlementRequests.takeCompletion s) := by
  induction queue generalizing s with
  | nil => exact sound
  | cons completion rest ih => exact ih sound.takeCompletion

theorem Sound.takeCompletions (sound : Sound s) : Sound s.takeCompletions :=
  { sound.takeAll with }

/-- The coroutine that is resumed no longer waits, and was not resumed for this request before. -/
theorem Sound.resumeFirst (sound : Sound s) (stepped : s.resumeFirst = some t) : Sound t := by
  rw [EntitlementRequests.resumeFirst] at stepped
  split at stepped
  next request rest idle first =>
    cases stepped
    have ids := sound.readyIds
    rw [first,map_cons,nodup_cons] at ids
    have member : request ∈ s.ready := by rw [first]; exact (.head _)
    have own := sound.ready request member
    have later : ∀ other ∈ rest, other.id ≠ request.id := fun other inside equal =>
      ids.1 (equal ▸ mem_map_of_mem inside)
    have among : ∀ other ∈ rest, other ∈ s.ready := fun other inside => by
      rw [first]
      exact .tail _ inside
    constructor
    case ids => exact sound.ids
    case ready => exact fun other inside => sound.ready other (among other inside)
    case readyIds => exact ids.2
    case waiting =>
      have resting : (rest.map fun other => (other.thread,other.id)).filter (·.2 != request.id) =
          rest.map fun other => (other.thread,other.id) := by
        rw [filter_eq_self]
        intro waiter inside
        obtain ⟨other,there,rfl⟩ := mem_map.mp inside
        exact bne_iff_ne.mpr (later other there)
      have pending : (s.pending.entries.map fun entry => (entry.2.thread,entry.2.id)).filter (·.2 != request.id) =
          s.pending.entries.map fun entry => (entry.2.thread,entry.2.id) := by
        rw [filter_eq_self]
        intro waiter inside
        obtain ⟨entry,there,rfl⟩ := mem_map.mp inside
        have found := find?_eq_some.mpr there
        refine bne_iff_ne.mpr fun equal => ?_
        rw [← (sound.ids _ _ found).1,show entry.2.id = request.id from equal,own.2.2] at found
        cases found
      have others := sound.waiting.filter (·.2 != request.id)
      rwa [first,map_cons,filter_append,filter_cons_of_neg (by simp),pending,resting] at others
    case threads => exact sound.threads.sublist (filter_sublist.map _)
    case references =>
      refine sound.references.trans ?_
      rw [first,idle,append_assoc,append_assoc]
      refine .append_left _ ?_
      exact (@perm_append_comm _ [request.reference] _).trans (.of_eq (by simp))
    case distinct => exact sound.distinct
    case bounded => exact sound.bounded
    case served => exact sound.served
    case resumed =>
      rw [nodup_append]
      refine ⟨sound.resumed,nodup_singleton _,?_⟩
      intro id inside other same equal
      rw [mem_singleton] at same
      exact (sound.past id inside).2.2 request member (equal.trans same).symm
    case past =>
      intro id inside
      rcases mem_append.mp inside with before | last
      · have known := sound.past id before
        exact ⟨known.1,known.2.1,fun other there => known.2.2 other (among other there)⟩
      · rw [mem_singleton.mp last]
        exact ⟨own.1,own.2.2,later⟩
  next => cases stepped

theorem Sound.releaseResumed (sound : Sound s) (stepped : s.releaseResumed = some t) : Sound t := by
  obtain ⟨request,resuming,rfl⟩ := Option.map_eq_some_iff.mp stepped
  have references := sound.references
  rw [resuming] at references
  refine { sound with references := ?_, distinct := sound.distinct.erase _, bounded := ?_ }
  · have released := (references.trans perm_append_comm).erase request.reference
    rw [Option.toList_some,map_singleton,singleton_append,erase_cons_head] at released
    exact released.trans (.of_eq (append_nil _).symm)
  · exact fun reference inside => sound.bounded reference (mem_of_mem_erase inside)

theorem releaseAll_perm {entries : List (Nat × PendingLuaRequest)} {references others : List Nat}
    (all : references.Perm (entries.map (fun entry => entry.2.reference) ++ others)) :
    (entries.foldl (fun references entry => references.erase entry.2.reference) references).Perm others := by
  induction entries generalizing references with
  | nil => exact all
  | cons entry rest ih =>
    refine ih ((all.erase entry.2.reference).trans ?_)
    rw [map_cons,cons_append,erase_cons_head]

theorem Sound.detachAsyncRuntime (sound : Sound s) (quiet : s.isPumping = false) : Sound s.detachAsyncRuntime := by
  simp only [isPumping,Bool.or_eq_false_iff,Option.isSome_eq_false_iff,Option.isNone_iff_eq_none,
    Bool.not_eq_false',List.isEmpty_iff] at quiet
  rw [EntitlementRequests.detachAsyncRuntime]
  split
  · exact sound
  · have references := sound.references
    rw [quiet.1,quiet.2,List.map_nil,List.append_nil] at references
    have released := (releaseAll_perm references).eq_nil
    have unready {request : PendingLuaRequest} : request ∉ s.ready := by
      rw [quiet.2]
      exact not_mem_nil
    constructor
    case ids => exact fun id request found => by cases found
    case ready => exact fun request inside => absurd inside unready
    case readyIds => exact sound.readyIds
    case waiting =>
      rw [quiet.2]
      exact .nil
    case threads => exact nodup_nil
    case references =>
      rw [released,quiet.1,quiet.2]
      exact .nil
    case distinct =>
      rw [released]
      exact nodup_nil
    case bounded =>
      rw [released]
      exact fun reference inside => absurd inside not_mem_nil
    case served => exact fun id request found => by cases found
    case resumed => exact sound.resumed
    case past => exact fun id inside => ⟨(sound.past id inside).1,rfl,fun request among => absurd among unready⟩

theorem step_sound (s : EntitlementRequests) (event : Event) (t : EntitlementRequests) (serves : Serves s event)
    (sound : Sound s) (stepped : s.step event = some t) : Sound t := by
  cases event with
  | call call =>
    simp only [step,contains_iff_mem] at stepped
    split at stepped
    · cases stepped
    · cases stepped
      exact sound.call (by assumption) serves
  | complete index => exact sound.completeTask stepped
  | pump =>
    rw [step] at stepped
    split at stepped
    · cases stepped
    · cases stepped
      exact sound.takeCompletions
  | resume => exact sound.resumeFirst stepped
  | release => exact sound.releaseResumed stepped
  | detach =>
    rw [step] at stepped
    split at stepped
    · cases stepped
    next quiet =>
      cases stepped
      exact sound.detachAsyncRuntime (Bool.eq_false_iff.mpr quiet)

structure Exact (s : EntitlementRequests) : Prop where
  pending : ∀ thread id, (thread,id) ∈ s.waiting ↔
    (∃ request, s.pending.find? id = some request ∧ request.thread = thread) ∨
      ∃ request ∈ s.ready, request.id = id ∧ request.thread = thread
  threads : (s.waiting.map (·.1)).Nodup
  references : s.references.Perm (s.pending.entries.map (fun entry => entry.2.reference) ++
    s.ready.map (·.reference) ++ s.resuming.toList.map (·.reference))
  distinct : s.references.Nodup
  resumed : s.resumed.Nodup
  past : ∀ id ∈ s.resumed, s.pending.find? id = none ∧ ∀ request ∈ s.ready, request.id ≠ id
  current : (∀ id request, s.pending.find? id = some request → request.generation = s.generation) ∧
    ∀ request ∈ s.ready, request.generation = s.generation
  drained : s.tasks = [] → s.completions = [] → s.pending.entries = []

theorem Sound.exact (sound : Sound s) : Exact s where
  pending := by
    intro thread id
    rw [sound.waiting.mem_iff,mem_append,mem_map,mem_map]
    constructor
    · rintro (⟨entry,inside,same⟩ | ⟨request,inside,same⟩)
      · cases same
        have found := find?_eq_some.mpr inside
        rw [(sound.ids _ _ found).1]
        exact .inl ⟨entry.2,found,rfl⟩
      · cases same
        exact .inr ⟨request,inside,rfl,rfl⟩
    · rintro (⟨request,found,rfl⟩ | ⟨request,inside,rfl,rfl⟩)
      · refine .inl ⟨(id,request),find?_eq_some.mp found,?_⟩
        rw [(sound.ids _ _ found).1]
      · exact .inr ⟨request,inside,rfl⟩
  threads := sound.threads
  references := sound.references
  distinct := sound.distinct
  resumed := sound.resumed
  past := fun id inside => (sound.past id inside).2
  current := ⟨fun id request found => (sound.ids id request found).2.2.1,fun request inside =>
    (sound.ready request inside).2.1⟩
  drained := by
    intro tasks completions
    rw [eq_nil_iff_forall_not_mem]
    intro entry inside
    have served := sound.served entry.1 entry.2 (find?_eq_some.mpr inside)
    rw [tasks,completions] at served
    exact served.elim not_mem_nil not_mem_nil

def Leaks (s : EntitlementRequests) (call : Call) : Prop :=
  (∃ message, (s.checkAsync call).1 = .error message) ∧
    ¬ ((s.checkAsync call).2.pending = s.pending ∧ (s.checkAsync call).2.references = s.references)

theorem Sound.leaks_iff (sound : Sound s) (call : Call) : Leaks s call ↔ ¬ Serves s (.call call) := by
  constructor
  · rintro ⟨⟨message,raised⟩,leaked⟩ served
    cases registers : s.registers call with
    | false =>
      obtain ⟨_,attached,main,nextReference,result,_⟩ := checkAsync_refused registers
      rw [result] at leaked
      exact leaked ⟨rfl,rfl⟩
    | true =>
      have serves := Bool.and_eq_true_iff.mp (served registers)
      obtain ⟨tasks,completions,result,_⟩ := checkAsync_begun registers serves.1
      rw [result,yieldCoroutine,if_pos serves.2] at raised
      cases raised
  · intro unserved
    obtain ⟨registers,refused⟩ := Classical.not_imp.mp unserved
    obtain ⟨raised,added⟩ := checkAsync_unserved registers (Bool.eq_false_iff.mpr refused)
    refine ⟨raised,fun kept => ?_⟩
    have found := find?_insert_self s.pending s.nextId (s.requestOf call)
    rw [← added,kept.1,sound.fresh] at found
    cases found

/-- In a run whose calls are served if they register a request, the table is exact and no such call leaks. -/
theorem requests_run (events : List Event) (s : EntitlementRequests)
    (serves : RunMeets step Serves {} events) (reached : run step {} events = some s) :
    Exact s ∧ ∀ call, Leaks s call ↔ ¬ Serves s (.call call) := by
  have sound : Sound s := run_preserves_where step_sound sound_new serves reached
  exact ⟨sound.exact,sound.leaks_iff⟩

/-- Two calls, of which the first has a cached decision and the second is completed by a worker. -/
def servedCalls : List Event :=
  [.call { thread := 1, main := 0, cached := true },.call { thread := 2, main := 0, many := some 3 },.pump,.resume,
    .release,.complete 0,.pump,.resume,.release]

theorem servedCalls_run : RunMeets step Serves {} servedCalls ∧
    ∀ s, run step {} servedCalls = some s → Exact s ∧ ∀ call, Leaks s call ↔ ¬ Serves s (.call call) := by
  have serves : RunMeets step Serves {} servedCalls := by decide
  exact ⟨serves,fun s reached => requests_run servedCalls s serves reached⟩

def destroyedPlayer : Call := { thread := 1, main := 0, player := { destroyed := true } }

/-- It raises an error, and its request stays in the table with no completion to come. -/
theorem destroyedPlayer_leaks : Leaks {} destroyedPlayer ∧
    ∃ s, run step {} [.call destroyedPlayer] = some s ∧ ¬ Exact s := by
  have sound := sound_new
  refine ⟨(sound.leaks_iff destroyedPlayer).mpr nofun,_,rfl,fun exact => ?_⟩
  exact absurd (exact.drained rfl rfl) nofun

end Gargantuan.EntitlementRequests
