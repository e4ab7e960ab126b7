import Mathlib.Data.List.Nodup
import Mathlib.Logic.Relation

/-!
The hierarchy of a snapshot that is to be loaded: its ids, its root, its parents, and the walk
up from every object that looks for cycles. The walk colours what it passes, the colours stay
for later walks, and it starts from the objects in an order that a hash map chooses. Only what
these parts of the validation read of an object is kept.
-/
namespace Gargantuan.SnapshotHierarchy
open Relation List Function

section
variable {κ : Type} [DecidableEq κ]

structure SnapshotObject (κ : Type) where
  id : κ
  parent : Option κ

inductive VisitState where
  | unvisited | visiting | visited
deriving DecidableEq

def parentOf (objects : List (SnapshotObject κ)) (id : κ) : Option κ :=
  (objects.find? (·.id = id)).bind SnapshotObject.parent

/-- The objects that no walk has passed. -/
def unvisited (objects : List (SnapshotObject κ)) (state : κ → VisitState) : Nat :=
  (objects.filter fun o => state o.id = .unvisited).length

theorem unvisited_lt {objects : List (SnapshotObject κ)} {state : κ → VisitState} {current parent : κ}
    (fresh : state current = .unvisited) (up : parentOf objects current = some parent) :
    unvisited objects (Function.update state current .visiting) < unvisited objects state := by
  obtain ⟨object,found,-⟩ := Option.bind_eq_some_iff.mp up
  have same : object.id = current := by simpa using find?_some found
  have fewer : objects.filter (fun o => update state current .visiting o.id = .unvisited) =
      (objects.filter fun o => state o.id = .unvisited).filter fun o => o.id ≠ current := by
    rw [filter_filter]
    refine filter_congr fun o _ => ?_
    by_cases here : o.id = current
    · simp [here]
    · simp [here]
  unfold unvisited
  rw [fewer]
  refine length_filter_lt_length_iff_exists.mpr ⟨object,?_,by simp [same]⟩
  exact mem_filter.mpr ⟨mem_of_find?_eq_some found,by simp [same,fresh]⟩

/-- Walks up from an object until there is no parent, or until another walk has been there. -/
def walk (objects : List (SnapshotObject κ)) (state : κ → VisitState) (path : List κ) (current : κ) :
    Except String ((κ → VisitState) × List κ) :=
  match fresh : state current with
  | .visiting => .error "Snapshot hierarchy contains a cycle"
  | .visited => .ok (state,path)
  | .unvisited =>
    match up : parentOf objects current with
    | none => .ok (Function.update state current .visiting,path ++ [current])
    | some parent => walk objects (Function.update state current .visiting) (path ++ [current]) parent
termination_by unvisited objects state
decreasing_by exact unvisited_lt fresh up

/-- A walk from one object, unless an earlier one has passed it. -/
def walkFrom (objects : List (SnapshotObject κ)) (state : κ → VisitState) (start : κ) : Except String (κ → VisitState) :=
  if state start = .visited then .ok state
  else match walk objects state [] start with
    | .error message => .error message
    | .ok (state,path) => .ok (path.foldl (fun state id => Function.update state id .visited) state)

def countRoots (isValid : κ → Bool) : List (SnapshotObject κ) → List κ → Nat → Except String (List κ × Nat)
  | [], ids, roots => .ok (ids,roots)
  | object :: rest, ids, roots =>
    if !isValid object.id || ids.contains object.id then
      .error "Snapshot contains an invalid or duplicate ObjectId"
    else countRoots isValid rest (ids ++ [object.id]) (if object.parent.isNone then roots + 1 else roots)

def checkParents (ids : List κ) : List (SnapshotObject κ) → Except String Unit
  | [] => .ok ()
  | object :: rest =>
    if object.parent.any fun parent => !ids.contains parent then
      .error "Snapshot parent is outside the receiving scope"
    else checkParents ids rest

/-- An order in which a hash map hands out its keys. -/
structure Iteration (κ : Type) where
  order : List κ → List κ
  perm : ∀ ids, (order ids).Perm ids

/-- The hierarchy part of the validation. -/
def validateHierarchy (isValid : κ → Bool) (iteration : Iteration κ) (objects : List (SnapshotObject κ)) :
    Except String Unit := do
  let (ids,roots) ← countRoots isValid objects [] 0
  if roots ≠ 1 then throw "Snapshot must contain exactly one root"
  checkParents ids objects
  let _ ← (iteration.order ids).foldlM (walkFrom objects) fun _ => .unvisited

def Up (objects : List (SnapshotObject κ)) (x y : κ) : Prop := parentOf objects x = some y

def Grounded (objects : List (SnapshotObject κ)) (x : κ) : Prop :=
  ∃ top, ReflTransGen (Up objects) x top ∧ parentOf objects top = none

structure IsTree (objects : List (SnapshotObject κ)) : Prop where
  distinct : (objects.map SnapshotObject.id).Nodup
  root : ∃ r ∈ objects, r.parent = none ∧ (∀ o ∈ objects, o.parent = none → o = r) ∧
    ∀ o ∈ objects, ReflTransGen (Up objects) o.id r.id
  parents : ∀ o ∈ objects, ∀ p, o.parent = some p → p ∈ objects.map SnapshotObject.id

section
variable {objects : List (SnapshotObject κ)} {state : κ → VisitState} {path : List κ} {current x y : κ}

theorem Grounded.below (grounded : Grounded objects y) (way : ReflTransGen (Up objects) x y) : Grounded objects x := by
  obtain ⟨top,rest,none⟩ := grounded
  exact ⟨top,way.trans rest,none⟩

theorem Grounded.above (grounded : Grounded objects x) (up : Up objects x y) : Grounded objects y := by
  obtain ⟨top,way,none⟩ := grounded
  obtain rfl | ⟨z,first,rest⟩ := way.cases_head
  · rw [Up,none] at up
    cases up
  · rw [Up,up] at first
    cases first
    exact ⟨top,rest,none⟩

theorem not_grounded_of_loop (loop : TransGen (Up objects) x x) : ¬ Grounded objects x := by
  rintro ⟨top,way,none⟩
  have turning : TransGen (Up objects) top top := by
    clear none
    induction way with
    | refl => exact loop
    | tail _ up turning =>
      obtain ⟨z,first,rest⟩ := TransGen.head'_iff.mp turning
      rw [Up,up] at first
      cases first
      exact .tail' rest up
  obtain ⟨z,first,-⟩ := TransGen.head'_iff.mp turning
  rw [Up,none] at first
  cases first

structure Walking (objects : List (SnapshotObject κ)) (state : κ → VisitState) (path : List κ) (current : κ) : Prop where
  leads : ∀ x ∈ path, TransGen (Up objects) x current
  marked : ∀ x, state x = .visiting ↔ x ∈ path
  visited : ∀ x, state x = .visited → Grounded objects x

section
variable (walking : Walking objects state path current)
include walking

theorem Walking.below (grounded : Grounded objects current) :
    ∀ x ∈ path, Grounded objects x :=
  fun x inside => grounded.below (walking.leads x inside).to_reflTransGen

theorem Walking.mark :
    (∀ x, Function.update state current .visiting x = .visiting ↔ x ∈ path ++ [current]) ∧
      ∀ x, Function.update state current .visiting x = .visited → Grounded objects x := by
  refine ⟨fun x => ?_,fun x done => ?_⟩
  · rw [mem_append,← walking.marked]
    by_cases here : x = current
    · simp [here]
    · simp [here]
  · by_cases here : x = current
    · rw [here,update_self] at done
      cases done
    · rw [update_of_ne here] at done
      exact walking.visited x done

theorem walk_spec :
    match walk objects state path current with
    | .error _ => ¬ Grounded objects current
    | .ok (state',path') => Grounded objects current ∧ (∀ x, state' x = .visiting ↔ x ∈ path') ∧
      (∀ x, state' x = .visited → Grounded objects x) ∧ ∀ x ∈ path', Grounded objects x := by
  fun_induction walk objects state path current with
  | case1 state path current visiting =>
    exact not_grounded_of_loop (walking.leads current ((walking.marked current).mp visiting))
  | case2 state path current done =>
    have grounded := walking.visited current done
    exact ⟨grounded,walking.marked,walking.visited,walking.below grounded⟩
  | case3 state path current fresh top =>
    have grounded : Grounded objects current := ⟨current,.refl,top⟩
    refine ⟨grounded,walking.mark.1,walking.mark.2,fun x inside => ?_⟩
    obtain old | rfl := mem_append.mp inside |>.imp_right mem_singleton.mp
    · exact walking.below grounded x old
    · exact grounded
  | case4 state path current fresh parent up ih =>
    have next := ih ⟨?_,walking.mark.1,walking.mark.2⟩
    · cases went : walk objects (update state current .visiting) (path ++ [current]) parent with
      | error message =>
        rw [went] at next
        exact fun grounded => next (grounded.above up)
      | ok result =>
        rw [went] at next
        exact ⟨next.1.below (.single up),next.2⟩
    · intro x inside
      obtain old | rfl := mem_append.mp inside |>.imp_right mem_singleton.mp
      · exact (walking.leads x old).tail up
      · exact .single up

end

theorem foldl_visited (path : List κ) (state : κ → VisitState) (x : κ) :
    path.foldl (fun state id => Function.update state id .visited) state x = if x ∈ path then .visited else state x := by
  induction path generalizing state with
  | nil => simp
  | cons id rest ih =>
    rw [foldl_cons,ih]
    by_cases later : x ∈ rest
    · simp [later]
    · by_cases here : x = id
      · simp [here]
      · simp [later,here]

def Clean (objects : List (SnapshotObject κ)) (state : κ → VisitState) : Prop :=
  ∀ x, state x ≠ .visiting ∧ (state x = .visited → Grounded objects x)

theorem walkFrom_spec (start : κ) (clean : Clean objects state) :
    match walkFrom objects state start with
    | .error _ => ¬ Grounded objects start
    | .ok state' => Grounded objects start ∧ Clean objects state' := by
  have walking : Walking objects state [] start :=
    ⟨fun x inside => absurd inside not_mem_nil,fun x => by simp [(clean x).1],fun x => (clean x).2⟩
  have walked := walk_spec walking
  unfold walkFrom
  split_ifs with done
  · exact ⟨(clean start).2 done,clean⟩
  · cases went : walk objects state [] start with
    | error message =>
      rwa [went] at walked
    | ok result =>
      rw [went] at walked
      obtain ⟨grounded,marked,visited,passed⟩ := walked
      refine ⟨grounded,fun x => ?_⟩
      rw [foldl_visited]
      split_ifs with inside
      · exact ⟨nofun,fun _ => passed x inside⟩
      · exact ⟨fun visiting => inside ((marked x).mp visiting),visited x⟩

theorem walks_iff (starts : List κ) (clean : Clean objects state) :
    (∃ final, starts.foldlM (walkFrom objects) state = .ok final) ↔ ∀ x ∈ starts, Grounded objects x := by
  induction starts generalizing state with
  | nil => exact ⟨fun _ x inside => absurd inside not_mem_nil,fun _ => ⟨state,rfl⟩⟩
  | cons start rest ih =>
    have first := walkFrom_spec start clean
    rw [foldlM_cons,forall_mem_cons]
    cases went : walkFrom objects state start with
    | error message =>
      rw [went] at first
      constructor
      · rintro ⟨final,ran⟩
        cases ran
      · intro grounded
        exact absurd grounded.1 first
    | ok next =>
      rw [went] at first
      exact (ih first.2).trans ⟨fun later => ⟨first.1,later⟩,And.right⟩

theorem countRoots_iff {isValid : κ → Bool} {taken ids : List κ} {counted roots : Nat} :
    countRoots isValid objects taken counted = .ok (ids,roots) ↔
      (∀ o ∈ objects, isValid o.id) ∧ (objects.map SnapshotObject.id).Nodup ∧ (∀ o ∈ objects, o.id ∉ taken) ∧
        taken ++ objects.map SnapshotObject.id = ids ∧ counted + objects.countP (·.parent.isNone) = roots := by
  induction objects generalizing taken counted with
  | nil => simp [countRoots]
  | cons object rest ih =>
    have total : (if object.parent.isNone then counted + 1 else counted) + rest.countP (·.parent.isNone) =
        counted + (object :: rest).countP (·.parent.isNone) := by
      rw [countP_cons]
      split_ifs <;> omega
    rw [countRoots,forall_mem_cons,forall_mem_cons,map_cons,nodup_cons]
    by_cases refused : !isValid object.id || taken.contains object.id
    · rw [if_pos refused]
      constructor
      · intro counted
        cases counted
      · rintro ⟨⟨valid,-⟩,-,⟨fresh,-⟩,-⟩
        simp [valid,fresh] at refused
    · rw [if_neg refused,ih,total,append_assoc]
      simp only [Bool.or_eq_true,not_or,Bool.not_eq_true',Bool.not_eq_false,contains_iff_mem] at refused
      simp only [mem_append,mem_singleton,not_or]
      constructor
      · rintro ⟨valid,distinct,apart,rest⟩
        refine ⟨⟨refused.1,valid⟩,⟨fun again => ?_,distinct⟩,⟨refused.2,fun o inside => (apart o inside).1⟩,rest⟩
        obtain ⟨o,inside,same⟩ := mem_map.mp again
        exact (apart o inside).2 same
      · rintro ⟨⟨-,valid⟩,⟨once,distinct⟩,⟨-,fresh⟩,rest⟩
        refine ⟨valid,distinct,fun o inside => ⟨fresh o inside,fun same => once ?_⟩,rest⟩
        rw [← same]
        exact mem_map_of_mem inside

theorem checkParents_iff {ids : List κ} :
    checkParents ids objects = .ok () ↔ ∀ o ∈ objects, ∀ p, o.parent = some p → p ∈ ids := by
  induction objects with
  | nil => simp [checkParents]
  | cons object rest ih =>
    rw [checkParents,forall_mem_cons,← ih]
    cases object.parent with
    | none => simp
    | some parent => by_cases inside : parent ∈ ids <;> simp [inside]

variable {o : SnapshotObject κ}

theorem parentOf_eq (distinct : (objects.map SnapshotObject.id).Nodup) (inside : o ∈ objects) :
    parentOf objects o.id = o.parent := by
  unfold parentOf
  cases found : objects.find? (·.id = o.id) with
  | none => exact absurd (find?_eq_none.mp found o inside) (by simp)
  | some q =>
    have same : q.id = o.id := by simpa using find?_some found
    rw [inj_on_of_nodup_map distinct (mem_of_find?_eq_some found) inside same]
    rfl

theorem ends_at_root (distinct : (objects.map SnapshotObject.id).Nodup)
    (parents : ∀ o ∈ objects, ∀ p, o.parent = some p → p ∈ objects.map SnapshotObject.id)
    (inside : o ∈ objects) (way : ReflTransGen (Up objects) o.id x) (top : parentOf objects x = none) :
    ∃ r ∈ objects, r.id = x ∧ r.parent = none := by
  have stays : x ∈ objects.map SnapshotObject.id := by
    clear top
    induction way with
    | refl => exact mem_map_of_mem inside
    | tail _ up stays =>
      obtain ⟨q,member,rfl⟩ := mem_map.mp stays
      rw [Up,parentOf_eq distinct member] at up
      exact parents q member _ up
  obtain ⟨r,member,rfl⟩ := mem_map.mp stays
  exact ⟨r,member,rfl,(parentOf_eq distinct member).symm.trans top⟩

omit [DecidableEq κ] in
theorem one_root_iff (distinct : (objects.map SnapshotObject.id).Nodup) : objects.countP (·.parent.isNone) = 1 ↔
    ∃ r ∈ objects, r.parent = none ∧ ∀ o ∈ objects, o.parent = none → o = r := by
  rw [countP_eq_length_filter,length_eq_one_iff]
  constructor
  · rintro ⟨r,only⟩
    have inside := mem_filter.mp (only ▸ mem_singleton_self r : r ∈ objects.filter (·.parent.isNone))
    refine ⟨r,inside.1,Option.isNone_iff_eq_none.mp inside.2,fun o member none => ?_⟩
    have kept : o ∈ objects.filter (·.parent.isNone) := mem_filter.mpr ⟨member,Option.isNone_iff_eq_none.mpr none⟩
    rw [only] at kept
    exact mem_singleton.mp kept
  · rintro ⟨r,inside,none,single⟩
    refine ⟨r,perm_singleton.mp ?_⟩
    refine (perm_ext_iff_of_nodup (distinct.of_map.filter _) (nodup_singleton r)).mpr fun o => ?_
    rw [mem_filter,mem_singleton,Option.isNone_iff_eq_none]
    constructor
    · rintro ⟨member,none⟩
      exact single o member none
    · rintro rfl
      exact ⟨inside,none⟩

/-- The hierarchy part of the validation accepts exactly the trees, in whatever order the hash map hands out the ids. -/
theorem validateHierarchy_iff (isValid : κ → Bool) (iteration : Iteration κ) (objects : List (SnapshotObject κ)) :
    validateHierarchy isValid iteration objects = .ok () ↔ (∀ o ∈ objects, isValid o.id) ∧ IsTree objects := by
  have clean : Clean objects fun _ => .unvisited := fun x => ⟨nofun,nofun⟩
  have walks := walks_iff (iteration.order (objects.map SnapshotObject.id)) clean
  simp only [(iteration.perm _).mem_iff,List.forall_mem_map] at walks
  have accepted : validateHierarchy isValid iteration objects = .ok () ↔ (∀ o ∈ objects, isValid o.id) ∧
      (objects.map SnapshotObject.id).Nodup ∧ objects.countP (·.parent.isNone) = 1 ∧
      (∀ o ∈ objects, ∀ p, o.parent = some p → p ∈ objects.map SnapshotObject.id) ∧
      ∀ o ∈ objects, Grounded objects o.id := by
    unfold validateHierarchy
    cases counts : countRoots isValid objects [] 0 with
    | error message =>
      constructor
      · intro accepted
        cases accepted
      rintro ⟨valid,distinct,-⟩
      have taken : countRoots isValid objects [] 0 = .ok (_,_) :=
        countRoots_iff.mpr ⟨valid,distinct,fun _ _ => List.not_mem_nil,rfl,rfl⟩
      rw [counts] at taken
      cases taken
    | ok result =>
      obtain ⟨ids,roots⟩ := result
      obtain ⟨valid,distinct,-,rfl,rfl⟩ := countRoots_iff.mp counts
      rw [List.nil_append,Nat.zero_add,← checkParents_iff,← walks]
      show (if _ then _ else _) = _ ↔ _
      split_ifs with several
      · exact ⟨nofun,fun ⟨_,_,one,_⟩ => absurd one several⟩
      · rw [not_not] at several
        cases checkParents (objects.map SnapshotObject.id) objects with
        | error message => exact ⟨nofun,fun ⟨_,_,_,within,_⟩ => nomatch within⟩
        | ok =>
          cases (iteration.order (objects.map SnapshotObject.id)).foldlM (walkFrom objects) fun _ => .unvisited with
          | error message => exact ⟨nofun,fun ⟨_,_,_,_,_,within⟩ => nomatch within⟩
          | ok final => exact ⟨fun _ => ⟨valid,distinct,several,rfl,final,rfl⟩,fun _ => rfl⟩
  rw [accepted]
  constructor
  · rintro ⟨valid,distinct,one,parents,grounded⟩
    obtain ⟨r,inside,none,single⟩ := (one_root_iff distinct).mp one
    refine ⟨valid,distinct,⟨r,inside,none,single,fun o member => ?_⟩,parents⟩
    obtain ⟨top,way,ended⟩ := grounded o member
    obtain ⟨q,there,rfl,without⟩ := ends_at_root distinct parents member way ended
    rwa [← single q there without]
  · rintro ⟨valid,distinct,⟨r,inside,none,single,reaches⟩,parents⟩
    refine ⟨valid,distinct,(one_root_iff distinct).mpr ⟨r,inside,none,single⟩,parents,fun o member => ?_⟩
    exact ⟨r.id,reaches o member,(parentOf_eq distinct inside).trans none⟩

end

end

end Gargantuan.SnapshotHierarchy
