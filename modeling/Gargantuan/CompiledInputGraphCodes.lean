import Gargantuan.CompiledInputGraph
import Mathlib.Data.List.GetD
import Mathlib.Data.Prod.Lex

/-!
Runs of the compiled input graph. An evaluation settles the code that it is about: evaluating the
code once more changes nothing. A code stays settled as long as neither it, nor what its chords
depend on, nor what is defined for it changes, and an operation evaluates every code of which one of
these has changed. Whatever becomes active or inactive on the way makes its action dirty.
-/
namespace Gargantuan.CompiledInputGraph
open List
variable {V : InputNumbers}

/-! ### What a graph is compiled from -/

def definitions (s : CompiledInputGraph V) : Definitions V :=
  ⟨s.contexts,s.actions.map (·.definition),s.bindings.map (·.definition)⟩

def ActionRow.plan (row : ActionRow V) : ActionDefinition × Nat × Int × List Nat :=
  (row.definition,row.context,row.publicationPriority,row.bindings)

def BindingRow.plan (row : BindingRow V) : BindingDefinition V × Nat := (row.definition,row.action)

structure Alike (s t : CompiledInputGraph V) : Prop where
  contexts : t.contexts = s.contexts
  buckets : t.buckets = s.buckets
  modifierBuckets : t.modifierBuckets = s.modifierBuckets
  actions : t.actions.map (·.plan) = s.actions.map (·.plan)
  bindings : t.bindings.map (·.plan) = s.bindings.map (·.plan)

variable {α : Type} {row : BindingRow V} {reason : Reason}

theorem set_getD (l : List α) (i : Nat) (d : α) : l.set i (l.getD i d) = l := by
  refine ext_getElem? fun j => ?_
  rw [getElem?_set]
  by_cases same : i = j
  · subst same
    by_cases inside : i < l.length
    · simp [inside]
    · simp [inside]
  · rw [if_neg same]

theorem getD_set (l : List α) (i j : Nat) (x d : α) :
    (l.set i x).getD j d = if i = j ∧ i < l.length then x else l.getD j d := by
  by_cases same : i = j
  · subst same
    by_cases inside : i < l.length
    · simp [inside]
    · simp [inside]
  · simp [same]

namespace Alike
variable {s t u : CompiledInputGraph V}

theorem refl (s : CompiledInputGraph V) : Alike s s := ⟨rfl,rfl,rfl,rfl,rfl⟩

theorem trans (first : Alike s t) (second : Alike t u) : Alike s u :=
  ⟨second.contexts.trans first.contexts,second.buckets.trans first.buckets,
    second.modifierBuckets.trans first.modifierBuckets,second.actions.trans first.actions,
    second.bindings.trans first.bindings⟩

section
variable (same : Alike s t)
include same

section
variable (index : Nat)

theorem action_plan : (t.action index).plan = (s.action index).plan := by
  have := congrArg (·.getD index (default : ActionRow V).plan) same.actions
  rwa [getD_map,getD_map] at this

theorem binding_plan : (t.binding index).plan = (s.binding index).plan := by
  have := congrArg (·.getD index (default : BindingRow V).plan) same.bindings
  rwa [getD_map,getD_map] at this

theorem action_definition : (t.action index).definition = (s.action index).definition :=
  congrArg (·.1) (same.action_plan index)

theorem action_context : (t.action index).context = (s.action index).context :=
  congrArg (·.2.1) (same.action_plan index)

theorem action_bindings : (t.action index).bindings = (s.action index).bindings :=
  congrArg (·.2.2.2) (same.action_plan index)

theorem binding_definition : (t.binding index).definition = (s.binding index).definition :=
  congrArg (·.1) (same.binding_plan index)

theorem binding_action : (t.binding index).action = (s.binding index).action :=
  congrArg (·.2) (same.binding_plan index)

end

theorem actionCount : t.actions.length = s.actions.length := by
  simpa using congrArg List.length same.actions

theorem bindingCount : t.bindings.length = s.bindings.length := by
  simpa using congrArg List.length same.bindings

theorem definitions : t.definitions = s.definitions := by
  have actions := congrArg (List.map (·.1)) same.actions
  have bindings := congrArg (List.map (·.1)) same.bindings
  simp only [map_map] at actions bindings
  simp only [CompiledInputGraph.definitions,same.contexts]
  exact congrArg₂ (Definitions.mk _) actions bindings

end

variable {row row' : BindingRow V}

variable (same : Alike s t)
include same

section
variable (plan : row'.plan = row.plan)
include plan

theorem contextOf : t.contextOf row' = s.contextOf row := by
  have index : row'.action = row.action := congrArg (·.2) plan
  simp only [CompiledInputGraph.contextOf,context,index,same.action_context,same.contexts]

theorem enabled : t.enabled row' = s.enabled row := by
  have index : row'.action = row.action := congrArg (·.2) plan
  have definition : row'.definition = row.definition := congrArg (·.1) plan
  simp only [CompiledInputGraph.enabled,same.contextOf plan,index,definition,same.action_definition]

theorem consumes : t.consumes row' = s.consumes row := by
  have definition : row'.definition = row.definition := congrArg (·.1) plan
  simp only [CompiledInputGraph.consumes,same.contextOf plan,definition]

end

end Alike

variable {s t : CompiledInputGraph V} {indices : List Nat} {row' : BindingRow V}

theorem chord_congr (modifiers : t.modifiers = s.modifiers) (plan : row'.plan = row.plan) :
    t.chord row' = s.chord row := by
  have definition : row'.definition = row.definition := congrArg (·.1) plan
  simp only [chord,modifiers,definition]

section
variable (s : CompiledInputGraph V)

theorem binding_setBinding (i j : Nat) (row : BindingRow V) :
    (s.setBinding i row).binding j = if i = j ∧ i < s.bindings.length then row else s.binding j :=
  getD_set ..

theorem alike_setBinding (index : Nat) (plan : row.plan = (s.binding index).plan) :
    Alike s (s.setBinding index row) := by
  refine ⟨rfl,rfl,rfl,rfl,?_⟩
  simp only [setBinding,map_set,plan]
  exact (congrArg _ (getD_map ..).symm).trans (set_getD ..)

theorem alike_publish (index : Nat) (value x y : V.Scalar) (reason : Reason) :
    Alike s (s.publish index value x y reason) := by
  rw [publish]
  split
  · exact .refl s
  · refine ⟨rfl,rfl,rfl,?_,rfl⟩
    simp only [map_set]
    exact (congrArg _ (getD_map ..).symm).trans (set_getD ..)

end

def dirtyActions (s : CompiledInputGraph V) : List Nat := s.dirty.map (·.action)

def Listed (s : CompiledInputGraph V) : Prop :=
  s.dirtyActions.Nodup ∧ ∀ action ∈ s.dirtyActions, action < s.actions.length

/-- A step that changes the flags of these bindings only; an action whose binding it makes active or inactive
is dirty from then on. -/
structure Moves (indices : List Nat) (s t : CompiledInputGraph V) : Prop extends Alike s t where
  physicalDown : t.physicalDown = s.physicalDown
  modifiers : t.modifiers = s.modifiers
  actions_eq : t.actions = s.actions
  transitions : t.transitions = s.transitions
  rest : ∀ index, index ∉ indices → t.binding index = s.binding index
  dirty : ∀ action ∈ s.dirtyActions, action ∈ t.dirtyActions
  marked : ∀ index, (t.binding index).active ≠ (s.binding index).active → (s.binding index).action ∈ t.dirtyActions
  listed : (∀ index ∈ indices, (s.binding index).action < s.actions.length) → s.Listed → t.Listed

theorem isMatched_congr (same : Alike s t) (down : t.physicalDown = s.physicalDown)
    (modifiers : t.modifiers = s.modifiers) (code : Nat) (plan : row'.plan = row.plan) :
    t.isMatched code row' = s.isMatched code row := by
  simp only [isMatched,same.enabled plan,down,chord_congr modifiers plan]

namespace Moves
variable {s t u : CompiledInputGraph V} {first second indices : List Nat}

theorem refl (s : CompiledInputGraph V) : Moves indices s s :=
  ⟨.refl s,rfl,rfl,rfl,rfl,fun _ _ => rfl,fun _ dirty => dirty,fun _ changed => absurd rfl changed,
    fun _ listed => listed⟩

theorem append (one : Moves first s t) (two : Moves second t u) : Moves (first ++ second) s u where
  toAlike := one.toAlike.trans two.toAlike
  physicalDown := two.physicalDown.trans one.physicalDown
  modifiers := two.modifiers.trans one.modifiers
  actions_eq := two.actions_eq.trans one.actions_eq
  transitions := two.transitions.trans one.transitions
  rest := by
    intro index outside
    rw [mem_append,not_or] at outside
    exact (two.rest index outside.2).trans (one.rest index outside.1)
  dirty := fun action dirty => two.dirty action (one.dirty action dirty)
  marked := by
    intro index changed
    by_cases late : (u.binding index).active = (t.binding index).active
    · exact two.dirty _ (one.marked index (late ▸ changed))
    · exact one.binding_action index ▸ two.marked index late
  listed := by
    intro placed listed
    refine two.listed ?_ (one.listed ?_ listed)
    · intro index inside
      rw [one.binding_action,one.actions_eq]
      exact placed index (mem_append_right _ inside)
    · exact fun index inside => placed index (mem_append_left _ inside)

theorem weaken (moves : Moves first s t) (inside : ∀ index ∈ first, index ∈ second) : Moves second s t :=
  { moves with
    rest := fun index outside => moves.rest index fun member => outside (inside index member)
    listed := fun placed => moves.listed fun index member => placed index (inside index member) }

theorem trans (one : Moves indices s t) (two : Moves indices t u) : Moves indices s u :=
  (one.append two).weaken fun _ inside => (mem_append.mp inside).elim id id

theorem isMatched (moves : Moves indices s t) (code : Nat) {row row' : BindingRow V} (plan : row'.plan = row.plan) :
    t.isMatched code row' = s.isMatched code row :=
  isMatched_congr moves.toAlike moves.physicalDown moves.modifiers code plan

end Moves

theorem dirtyActions_markDirty (s : CompiledInputGraph V) (index : Nat) (reason : Reason) (priority : Int) :
    (s.markDirty index reason priority).dirtyActions =
      if index ∈ s.dirtyActions then s.dirtyActions else s.dirtyActions ++ [index] := by
  have known : s.dirty.any (·.action == index) ↔ index ∈ s.dirtyActions := by
    simp [dirtyActions]
  rw [markDirty]
  by_cases dirty : index ∈ s.dirtyActions
  · rw [if_pos (known.mpr dirty),if_pos dirty]
    simp only [dirtyActions,map_map]
    refine map_congr_left fun entry _ => ?_
    simp only [Function.comp]
    split <;> rfl
  · rw [if_neg fun any => dirty (known.mp any),if_neg dirty]
    simp [dirtyActions]

theorem moves_markDirty (s : CompiledInputGraph V) (index : Nat) (reason : Reason) (priority : Int)
    (placed : index < s.actions.length) : Moves [] s (s.markDirty index reason priority) := by
  have actions := dirtyActions_markDirty s index reason priority
  have unmoved : ∀ t : CompiledInputGraph V, (∃ dirty, t = { s with dirty }) →
      t.dirtyActions = (if index ∈ s.dirtyActions then s.dirtyActions else s.dirtyActions ++ [index]) →
      Moves [] s t := by
    rintro t ⟨dirty,rfl⟩ marks
    refine ⟨⟨rfl,rfl,rfl,rfl,rfl⟩,rfl,rfl,rfl,rfl,fun _ _ => rfl,?_,fun _ changed => absurd rfl changed,?_⟩
    · intro action member
      rw [marks]
      split
      · exact member
      · exact mem_append_left _ member
    · rintro - ⟨nodup,bounded⟩
      rw [Listed,marks]
      split
      · exact ⟨nodup,bounded⟩
      · rename_i new
        refine ⟨nodup_append.mpr ⟨nodup,nodup_singleton index,?_⟩,?_⟩
        · rintro a member b found rfl
          exact new (mem_singleton.mp found ▸ member)
        · intro action member
          rcases mem_append.mp member with old | last
          · exact bounded action old
          · exact mem_singleton.mp last ▸ placed
  refine unmoved _ ?_ actions
  rw [markDirty]
  split
  · exact ⟨_,rfl⟩
  · exact ⟨_,rfl⟩

variable {index code : Nat} {out seen : List ObjectId}

theorem Moves.store (row : BindingRow V) (plan : row.plan = (s.binding index).plan)
    (after : Moves [] (s.setBinding index row) t)
    (marks : row.active ≠ (s.binding index).active → (s.binding index).action ∈ t.dirtyActions) :
    Moves [index] s t where
  toAlike := (alike_setBinding s index plan).trans after.toAlike
  physicalDown := after.physicalDown
  modifiers := after.modifiers
  actions_eq := after.actions_eq
  transitions := after.transitions
  rest := by
    intro other outside
    rw [after.rest other not_mem_nil,binding_setBinding,if_neg]
    rintro ⟨rfl,-⟩
    exact outside (mem_singleton_self _)
  dirty := after.dirty
  marked := by
    intro other changed
    rw [after.rest other not_mem_nil,binding_setBinding] at changed
    split at changed
    · rename_i same
      exact same.1 ▸ marks (same.1 ▸ changed)
    · exact absurd rfl changed
  listed := fun _ => after.listed fun _ inside => absurd inside not_mem_nil

theorem moves_evaluateBinding (code : Nat) (reason : Reason) (scan : Scan V)
    (placed : (scan.graph.binding index).action < scan.graph.actions.length) :
    Moves [index] scan.graph (evaluateBinding code reason scan index).graph := by
  refine .store (scan.graph.evaluatedRow code scan.winner (scan.graph.binding index)) rfl ?_ ?_
  · rw [evaluateBinding]
    split
    · exact .refl _
    · exact moves_markDirty _ _ _ _ placed
  · intro changed
    rw [evaluateBinding]
    rw [if_neg (Ne.symm changed),dirtyActions_markDirty]
    split
    · assumption
    · exact mem_append_right _ (mem_singleton_self _)

theorem binding_evaluateBinding (code : Nat) (reason : Reason) (scan : Scan V)
    (inside : index < scan.graph.bindings.length) : (evaluateBinding code reason scan index).graph.binding index =
      scan.graph.evaluatedRow code scan.winner (scan.graph.binding index) := by
  have stored := binding_setBinding scan.graph index index
    (scan.graph.evaluatedRow code scan.winner (scan.graph.binding index))
  rw [if_pos ⟨rfl,inside⟩] at stored
  have marked : ∀ (s : CompiledInputGraph V) (a : Nat) (r : Reason) (p : Int),
      (s.markDirty a r p).binding index = s.binding index := by
    intro s a r p
    rw [markDirty]
    split <;> rfl
  rw [evaluateBinding]
  split
  · exact stored
  · rwa [marked]

theorem Moves.evaluatedRow (moves : Moves indices s t) (code : Nat) (winner : ObjectId) (row : BindingRow V) :
    t.evaluatedRow code winner row = s.evaluatedRow code winner row := by
  simp only [CompiledInputGraph.evaluatedRow,moves.contextOf (Eq.refl row.plan),moves.isMatched code
      (.refl row.plan)]

structure InPlace (s : CompiledInputGraph V) (indices : List Nat) : Prop where
  nodup : indices.Nodup
  inside : ∀ index ∈ indices, index < s.bindings.length
  placed : ∀ index ∈ indices, (s.binding index).action < s.actions.length

theorem InPlace.alike (places : InPlace s indices) (same : Alike s t) : InPlace t indices := by
  refine ⟨places.nodup,fun index member => ?_,fun index member => ?_⟩
  · exact same.bindingCount ▸ places.inside index member
  · rw [same.binding_action,same.actionCount]
    exact places.placed index member

theorem InPlace.tail {s : CompiledInputGraph V} {index : Nat} {rest : List Nat} (places : InPlace s (index :: rest)) :
    InPlace s rest :=
  ⟨(nodup_cons.mp places.nodup).2,fun i member => places.inside i (.tail _ member),
    fun i member => places.placed i (.tail _ member)⟩

theorem scan_moves (code : Nat) (reason : Reason) (indices : List Nat) (scan : Scan V)
    (places : InPlace scan.graph indices) :
    Moves indices scan.graph (indices.foldl (evaluateBinding code reason) scan).graph ∧
      ∀ index ∈ indices, ∃ winner, (indices.foldl (evaluateBinding code reason) scan).graph.binding index =
        scan.graph.evaluatedRow code winner (scan.graph.binding index) := by
  induction indices generalizing scan with
  | nil => exact ⟨.refl _,fun _ inside => absurd inside not_mem_nil⟩
  | cons index rest ih =>
    have one := moves_evaluateBinding code reason scan (places.placed index (.head _))
    have here := binding_evaluateBinding code reason scan (places.inside index (.head _))
    have fresh := (nodup_cons.mp places.nodup).1
    obtain ⟨two,there⟩ := ih (evaluateBinding code reason scan index) (places.tail.alike one.toAlike)
    refine ⟨one.append two,fun other member => ?_⟩
    rcases mem_cons.mp member with rfl | later
    · exact ⟨scan.winner,(two.rest other fresh).trans here⟩
    · obtain ⟨winner,evaluated⟩ := there other later
      have unmoved := one.rest other fun same => fresh (mem_singleton.mp same ▸ later)
      exact ⟨winner,by rw [foldl_cons,evaluated,unmoved,one.evaluatedRow]⟩

def isBehind (s : CompiledInputGraph V) (winner : ObjectId) (row : BindingRow V) : Bool :=
  winner.isValid && winner != (s.contextOf row).id

def nextWinner (s : CompiledInputGraph V) (code : Nat) (winner : ObjectId) (index : Nat) : ObjectId :=
  let row := s.binding index
  if s.isMatched code row && !s.isBehind winner row && !(s.contextOf row).legacyPassthrough && s.consumes row then
    (s.contextOf row).id
  else winner

structure SettledRow (s : CompiledInputGraph V) (code : Nat) (winner : ObjectId) (row : BindingRow V) : Prop where
  matched : row.matched = s.isMatched code row
  active : row.active = (s.isMatched code row && row.eligible)
  ahead : row.eligible = true → s.isMatched code row = true → s.isBehind winner row = false
  kept : row.eligible = true → s.isMatched code row = true ∨ (s.contextOf row).legacyPassthrough = true

def Settled (s : CompiledInputGraph V) (code : Nat) : ObjectId → List Nat → Prop
  | _, [] => True
  | winner, index :: rest =>
    s.SettledRow code winner (s.binding index) ∧ s.Settled code (s.nextWinner code winner index) rest

def SettledCode (s : CompiledInputGraph V) (code : Nat) : Prop := s.Settled code {} (s.buckets code)

structure SameRow (s t : CompiledInputGraph V) (code index : Nat) : Prop where
  matches_eq : t.isMatched code (t.binding index) = s.isMatched code (s.binding index)
  context : t.contextOf (t.binding index) = s.contextOf (s.binding index)
  consumes : t.consumes (t.binding index) = s.consumes (s.binding index)
  matched : (t.binding index).matched = (s.binding index).matched
  active : (t.binding index).active = (s.binding index).active
  eligible : (t.binding index).eligible = (s.binding index).eligible

theorem Settled.congr {winner : ObjectId} (settled : s.Settled code winner indices)
    (same : ∀ index ∈ indices, SameRow s t code index) : t.Settled code winner indices := by
  induction indices generalizing winner with
  | nil => trivial
  | cons index rest ih =>
    obtain ⟨here,onward⟩ := settled
    have row := same index (.head _)
    have behind : t.isBehind winner (t.binding index) = s.isBehind winner (s.binding index) := by
      simp only [isBehind,row.context]
    have next : t.nextWinner code winner index = s.nextWinner code winner index := by
      simp only [nextWinner,row.matches_eq,behind,row.context,row.consumes]
    refine ⟨⟨?_,?_,?_,?_⟩,?_⟩
    · rw [row.matched,row.matches_eq,here.matched]
    · rw [row.active,row.matches_eq,row.eligible,here.active]
    · rw [row.eligible,row.matches_eq,behind]
      exact here.ahead
    · rw [row.eligible,row.matches_eq,row.context]
      exact here.kept
    · rw [next]
      exact ih onward fun other later => same other (.tail _ later)

theorem Moves.sameRow (moves : Moves indices s t) (outside : index ∉ indices) : SameRow s t code index := by
  have unmoved := moves.rest index outside
  exact ⟨moves.isMatched code (moves.binding_plan index),moves.contextOf (moves.binding_plan index),
    moves.consumes (moves.binding_plan index),by rw [unmoved],by rw [unmoved],by rw [unmoved]⟩

theorem settledRow_evaluated (s : CompiledInputGraph V) (key : code ≠ pointerCode) (winner : ObjectId)
    (row : BindingRow V) : s.SettledRow code winner (s.evaluatedRow code winner row) := by
  have notPointer : (code == pointerCode) = false := beq_false_of_ne key
  have matchedSame : s.isMatched code (s.evaluatedRow code winner row) = s.isMatched code row :=
    isMatched_congr (.refl s) rfl rfl code rfl
  have contextSame : s.contextOf (s.evaluatedRow code winner row) = s.contextOf row := rfl
  constructor
  · rw [matchedSame]
    rfl
  · rw [matchedSame]
    simp only [evaluatedRow,notPointer,Bool.false_or]
    cases s.isMatched code row <;> cases winner.isValid && winner != (s.contextOf row).id <;> simp_all
  · rw [matchedSame,isBehind]
    simp only [evaluatedRow]
    intro eligible matched
    rw [matched] at eligible
    simp only [Bool.true_and,Bool.not_true,Bool.false_and,Bool.or_false,Bool.and_eq_true,
      Bool.not_eq_eq_eq_not] at eligible
    exact eligible.2
  · rw [matchedSame,contextSame]
    simp only [evaluatedRow]
    intro eligible
    cases matched : s.isMatched code row <;> simp_all

theorem claimsInput_evaluatedRow (s : CompiledInputGraph V) (code : Nat) (claiming : reason ≠ .guiConsumed)
    (winner : ObjectId) (row : BindingRow V) :
    s.claimsInput (s.evaluatedRow code winner row) reason = (s.isMatched code row && !s.isBehind winner row &&
      !(s.contextOf row).legacyPassthrough && s.consumes row) := by
  have free : (reason != Reason.guiConsumed) = true := bne_iff_ne.mpr claiming
  have context : s.contextOf (s.evaluatedRow code winner row) = s.contextOf row := rfl
  have consumes : s.consumes (s.evaluatedRow code winner row) = s.consumes row := rfl
  rw [claimsInput,context,consumes,free,Bool.and_true]
  simp only [evaluatedRow,isBehind]
  cases s.isMatched code row with
  | false => simp only [Bool.false_and]
  | true => simp only [Bool.true_and]

theorem winner_evaluateBinding (code : Nat) (claiming : reason ≠ .guiConsumed) (scan : Scan V) (index : Nat) :
    (evaluateBinding code reason scan index).winner = scan.graph.nextWinner code scan.winner index := by
  simp only [evaluateBinding,claimsInput_evaluatedRow scan.graph code claiming,nextWinner]
  rfl

theorem scan_settled (key : code ≠ pointerCode) (claiming : reason ≠ .guiConsumed) (indices : List Nat)
    (scan : Scan V) (places : InPlace scan.graph indices) :
    (indices.foldl (evaluateBinding code reason) scan).graph.Settled code scan.winner indices := by
  induction indices generalizing scan with
  | nil => trivial
  | cons index rest ih =>
    have one := moves_evaluateBinding code reason scan (places.placed index (.head _))
    have here := binding_evaluateBinding code reason scan (places.inside index (.head _))
    have fresh := (nodup_cons.mp places.nodup).1
    have remaining := places.tail.alike one.toAlike
    have two := (scan_moves code reason rest (evaluateBinding code reason scan index) remaining).1
    have settled := settledRow_evaluated scan.graph key scan.winner (scan.graph.binding index)
    have whole := one.append two
    have stored : ((index :: rest).foldl (evaluateBinding code reason) scan).graph.binding index =
        scan.graph.evaluatedRow code scan.winner (scan.graph.binding index) := (two.rest index fresh).trans here
    have matchedSame : ((index :: rest).foldl (evaluateBinding code reason) scan).graph.isMatched code
        (scan.graph.evaluatedRow code scan.winner (scan.graph.binding index)) =
          scan.graph.isMatched code (scan.graph.binding index) := whole.isMatched code rfl
    have contextSame : ((index :: rest).foldl (evaluateBinding code reason) scan).graph.contextOf
        (scan.graph.evaluatedRow code scan.winner (scan.graph.binding index)) =
          scan.graph.contextOf (scan.graph.binding index) := whole.contextOf rfl
    have consumesSame : ((index :: rest).foldl (evaluateBinding code reason) scan).graph.consumes
        (scan.graph.evaluatedRow code scan.winner (scan.graph.binding index)) =
          scan.graph.consumes (scan.graph.binding index) := whole.consumes rfl
    constructor
    · rw [stored]
      refine ⟨matchedSame ▸ rfl,?_,?_,?_⟩
      · rw [matchedSame]
        exact settled.active
      · rw [matchedSame,isBehind,contextSame]
        exact settled.ahead
      · rw [matchedSame,contextSame]
        exact settled.kept
    · have winner : ((index :: rest).foldl (evaluateBinding code reason) scan).graph.nextWinner code scan.winner index =
          (evaluateBinding code reason scan index).winner := by
        rw [winner_evaluateBinding code claiming]
        simp only [nextWinner,stored,matchedSame,isBehind,contextSame,consumesSame]
        rfl
      rw [winner]
      exact ih (evaluateBinding code reason scan index) remaining

theorem settled_of_ineligible (winner : ObjectId)
    (idle : ∀ index ∈ indices, (s.binding index).matched = s.isMatched code (s.binding index) ∧
      (s.binding index).active = false ∧ (s.binding index).eligible = false) : s.Settled code winner indices := by
  induction indices generalizing winner with
  | nil => trivial
  | cons index rest ih =>
    obtain ⟨matched,inactive,ineligible⟩ := idle index (.head _)
    refine ⟨⟨matched,?_,?_,?_⟩,ih _ fun other later => idle other (.tail _ later)⟩
    · rw [inactive,ineligible,Bool.and_false]
    · exact fun eligible => absurd (ineligible ▸ eligible) nofun
    · exact fun eligible => absurd (ineligible ▸ eligible) nofun

theorem evaluate_settled (key : code ≠ pointerCode) (places : InPlace s (s.buckets code))
    (taken : reason = .guiConsumed → ∀ index ∈ s.buckets code, (s.binding index).eligible = false) :
    (s.evaluate code reason).2.SettledCode code := by
  obtain ⟨moves,evaluated⟩ := scan_moves code reason (s.buckets code) ⟨s,{},false⟩ places
  have buckets : (s.evaluate code reason).2.buckets code = s.buckets code := congrFun moves.buckets code
  rw [SettledCode,buckets]
  by_cases claiming : reason = .guiConsumed
  · refine settled_of_ineligible _ fun index member => ?_
    obtain ⟨winner,row⟩ := evaluated index member
    have settled := settledRow_evaluated s key winner (s.binding index)
    have ineligible : (s.evaluatedRow code winner (s.binding index)).eligible = false := by
      simp only [evaluatedRow,taken claiming index member,Bool.false_and]
    have row' : (s.evaluate code reason).2.binding index = s.evaluatedRow code winner (s.binding index) := row
    have matchedSame : (s.evaluate code reason).2.isMatched code (s.evaluatedRow code winner (s.binding index)) =
        s.isMatched code (s.evaluatedRow code winner (s.binding index)) := moves.isMatched code rfl
    rw [row']
    refine ⟨?_,?_,ineligible⟩
    · rw [matchedSame]
      exact settled.matched
    · rw [settled.active,ineligible,Bool.and_false]
  · exact scan_settled key claiming (s.buckets code) ⟨s,{},false⟩ places

theorem evaluate_moves (code : Nat) (reason : Reason) (places : InPlace s (s.buckets code)) :
    Moves (s.buckets code) s (s.evaluate code reason).2 :=
  (scan_moves code reason (s.buckets code) ⟨s,{},false⟩ places).1

/-! ### Values -/

def Valued (s : CompiledInputGraph V) (index : Nat) : Prop :=
  (s.action index).state.value = s.valueOf (s.action index) ∧
    (s.action index).state.down = ((s.action index).state.value != V.zero)

theorem valueOf_congr {row row' : ActionRow V} (plan : row'.plan = row.plan)
    (same : ∀ index ∈ row.bindings, (t.binding index).definition = (s.binding index).definition ∧
      ((s.binding index).definition.inputKind ≠ .pointerDelta → (t.binding index).active = (s.binding index).active)) :
    t.valueOf row' = s.valueOf row := by
  have definition : row'.definition = row.definition := congrArg (·.1) plan
  have bindings : row'.bindings = row.bindings := congrArg (·.2.2.2) plan
  have sums : t.sum row' = s.sum row := by
    simp only [sum,bindings,definition]
    refine foldl_ext _ _ _ fun total index member => ?_
    obtain ⟨defined,active⟩ := same index member
    rw [defined]
    by_cases pointer : (s.binding index).definition.inputKind = .pointerDelta
    · simp [pointer]
    · rw [active pointer]
  simp only [valueOf,definition,sums]

theorem valueOf_inactive (idle : ∀ index, (s.binding index).active = false) (row : ActionRow V) :
    s.valueOf row = V.zero := by
  have sums : s.sum row = V.nothing := by
    simp only [sum,idle,Bool.false_and,Bool.false_eq_true,if_false]
    exact foldl_fixed _
  simp only [valueOf,sums,V.isZero_nothing,V.clampUnit_nothing,if_true,ite_self]

/-- Steps that publish at most this many transitions, and change nothing but the states of actions. -/
structure Publishes (count : Nat) (s t : CompiledInputGraph V) : Prop extends Alike s t where
  bindings_eq : t.bindings = s.bindings
  physicalDown : t.physicalDown = s.physicalDown
  modifiers : t.modifiers = s.modifiers
  dirty : t.dirty = s.dirty
  transitions : t.transitions.length ≤ s.transitions.length + count

namespace Publishes
variable {s t u : CompiledInputGraph V} {m n : Nat}

theorem refl (n : Nat) (s : CompiledInputGraph V) : Publishes n s s :=
  ⟨.refl s,rfl,rfl,rfl,rfl,Nat.le_add_right ..⟩

theorem trans (one : Publishes m s t) (two : Publishes n t u) : Publishes (m + n) s u := by
  refine ⟨one.toAlike.trans two.toAlike,two.bindings_eq.trans one.bindings_eq,
    two.physicalDown.trans one.physicalDown,two.modifiers.trans one.modifiers,two.dirty.trans one.dirty,?_⟩
  have first := one.transitions
  have second := two.transitions
  omega

theorem binding (publishes : Publishes n s t) (index : Nat) : t.binding index = s.binding index := by
  simp only [CompiledInputGraph.binding,publishes.bindings_eq]

theorem foldl {α : Type} {step : CompiledInputGraph V → α → CompiledInputGraph V}
    (single : ∀ s entry, Publishes 1 s (step s entry)) (entries : List α) (s : CompiledInputGraph V) :
    Publishes entries.length s (entries.foldl step s) := by
  induction entries generalizing s with
  | nil => exact .refl 0 s
  | cons entry rest ih =>
    rw [length_cons,Nat.add_comm]
    exact (single s entry).trans (ih (step s entry))

theorem valueOf (publishes : Publishes n s t) (index : Nat) : t.valueOf (t.action index) = s.valueOf (s.action index) :=
  valueOf_congr (publishes.action_plan index) fun other _ =>
    ⟨by rw [publishes.binding],fun _ => by rw [publishes.binding]⟩

theorem settledCode (publishes : Publishes n s t) (settled : s.SettledCode code) : t.SettledCode code := by
  rw [SettledCode,publishes.buckets]
  refine .congr settled fun index _ => ?_
  have plan := publishes.binding_plan index
  have unmoved := publishes.binding index
  exact ⟨isMatched_congr publishes.toAlike publishes.physicalDown publishes.modifiers code plan,
    publishes.contextOf plan,publishes.consumes plan,by rw [unmoved],by rw [unmoved],by rw [unmoved]⟩

end Publishes

theorem publish_of_known {value x y : V.Scalar} (reason : Reason)
    (known : (s.action index).state.down = (value != V.zero) ∧ (s.action index).state.value = value ∧
      (s.action index).state.x = x ∧ (s.action index).state.y = y) : s.publish index value x y reason = s := by
  exact if_pos known

theorem publishes_publish (s : CompiledInputGraph V) (index : Nat) (value x y : V.Scalar) (reason : Reason) :
    Publishes 1 s (s.publish index value x y reason) := by
  have same := alike_publish s index value x y reason
  by_cases known : (s.action index).state.down = (value != V.zero) ∧ (s.action index).state.value = value ∧
      (s.action index).state.x = x ∧ (s.action index).state.y = y
  · rw [publish_of_known reason known]
    exact .refl 1 s
  · refine ⟨same,?_,?_,?_,?_,?_⟩
    all_goals
      rw [publish]
      rw [if_neg known]
    rw [length_append]
    exact le_rfl

theorem state_publish (s : CompiledInputGraph V) (index : Nat) (value x y : V.Scalar) (reason : Reason) (other : Nat) :
    (other ≠ index → ((s.publish index value x y reason).action other) = s.action other) ∧
      (index < s.actions.length → ((s.publish index value x y reason).action index).state.value = value ∧
        ((s.publish index value x y reason).action index).state.down = (value != V.zero)) := by
  by_cases known : (s.action index).state.down = (value != V.zero) ∧ (s.action index).state.value = value ∧
      (s.action index).state.x = x ∧ (s.action index).state.y = y
  · rw [publish_of_known reason known]
    exact ⟨fun _ => rfl,fun _ => ⟨known.2.1,known.1⟩⟩
  · rw [publish]
    rw [if_neg known]
    simp only [action,getD_set]
    refine ⟨fun apart => ?_,fun inside => ?_⟩
    · rw [if_neg fun same => apart same.1.symm]
    · rw [if_pos ⟨trivial,inside⟩]
      exact ⟨rfl,rfl⟩

theorem valued_publish {value : V.Scalar} (worth : value = s.valueOf (s.action index)) (x y : V.Scalar)
    (reason : Reason) (other : Nat) (wanted : other = index ∧ index < s.actions.length ∨ s.Valued other) :
    (s.publish index value x y reason).Valued other := by
  have worths := (publishes_publish s index value x y reason).valueOf other
  obtain ⟨apart,here⟩ := state_publish s index value x y reason other
  rw [Valued,worths]
  by_cases same : other = index
  · subst same
    by_cases inside : other < s.actions.length
    · obtain ⟨stored,down⟩ := here inside
      rw [stored,down]
      exact ⟨worth,rfl⟩
    · have idle : s.publish other value x y reason = s ∨ (s.publish other value x y reason).action other = s.action
        other := by
        right
        simp only [publish]
        split
        · rfl
        · simp only [action,getD_set,inside,and_false,if_false]
      rcases wanted with found | valued
      · exact absurd found.2 inside
      · rcases idle with unchanged | unchanged <;> rw [unchanged] <;> exact valued
  · rw [apart same]
    exact wanted.elim (fun found => absurd found.1 same) id

theorem valued_foldl {step : CompiledInputGraph V → α → CompiledInputGraph V} (place : α → Nat)
    (good : CompiledInputGraph V → Prop) (kept : ∀ s entry, good s → good (step s entry))
    (publishes : ∀ s entry, good s → ∃ value x y reason, value = s.valueOf (s.action (place entry)) ∧
      step s entry = s.publish (place entry) value x y reason) (entries : List α) (start : good s) (index : Nat)
    (wanted : index ∈ entries.map place ∧ index < s.actions.length ∨ s.Valued index) :
    (entries.foldl step s).Valued index := by
  induction entries generalizing s with
  | nil => exact wanted.elim (fun found => absurd found.1 not_mem_nil) id
  | cons entry rest ih =>
    obtain ⟨value,x,y,reason,worth,stepped⟩ := publishes s entry start
    have count : (step s entry).actions.length = s.actions.length := by
      rw [stepped]
      exact (publishes_publish s (place entry) value x y reason).actionCount
    refine ih (kept s entry start) ?_
    rw [count,stepped]
    rcases wanted with ⟨member,inside⟩ | valued
    · rcases mem_cons.mp member with same | later
      · exact .inr (valued_publish worth x y reason index (.inl ⟨same,same ▸ inside⟩))
      · exact .inl ⟨later,inside⟩
    · exact .inr (valued_publish worth x y reason index (.inr valued))

/-- What the order of the bindings compares. -/
def rank (s : CompiledInputGraph V) (index : Nat) : Int ×ₗ ObjectId ×ₗ Int ×ₗ ObjectId :=
  toLex (-(s.contextOf (s.binding index)).priority,toLex ((s.contextOf (s.binding index)).id,
    toLex (-(s.binding index).definition.priority,(s.binding index).definition.id)))

theorem higher_iff (s : CompiledInputGraph V) (left right : Nat) :
    s.higher left right ↔ s.rank left < s.rank right := by
  simp only [higher,rank,Prod.Lex.toLex_lt_toLex,neg_lt_neg_iff,neg_inj]
  split
  · rename_i apart
    simp [apart]
  · rename_i same
    rw [not_not] at same
    split
    · rename_i apart
      simp [same,apart]
    · rename_i same'
      rw [not_not] at same'
      split
      · rename_i apart
        simp [same,same',apart]
      · rename_i same''
        rw [not_not] at same''
        simp [same,same',same'']

def Ranked (s : CompiledInputGraph V) (left right : Nat) : Prop := (!s.higher right left) = true

theorem ranked_iff (s : CompiledInputGraph V) (left right : Nat) : s.Ranked left right ↔ s.rank left ≤ s.rank
    right := by
  rw [Ranked,Bool.not_eq_true',← Bool.not_eq_true,higher_iff,not_lt]

instance (s : CompiledInputGraph V) : Std.Total (fun left right => (!s.higher right left) = true) :=
  ⟨fun left right => (le_total (s.rank left) (s.rank right)).imp (s.ranked_iff left right).mpr
    (s.ranked_iff right left).mpr⟩

instance (s : CompiledInputGraph V) : IsTrans Nat (fun left right => (!s.higher right left) = true) :=
  ⟨fun a b c first second => (s.ranked_iff a c).mpr
    (((s.ranked_iff a b).mp first).trans ((s.ranked_iff b c).mp second))⟩

section
variable (s : CompiledInputGraph V)

theorem mem_sortedBucket (code index : Nat) :
    index ∈ s.sortedBucket code ↔ index < s.bindings.length ∧ codeOf (s.binding index).definition = code := by
  simp only [sortedBucket,mem_insertionSort,mem_filter,mem_range,beq_iff_eq]

theorem nodup_sortedBucket (code : Nat) : (s.sortedBucket code).Nodup :=
  (perm_insertionSort _ _).nodup_iff.mpr (nodup_range.filter _)

theorem higher_sortedBucket (distinct : ∀ i < s.bindings.length, ∀ j < s.bindings.length,
      (s.binding i).definition.id = (s.binding j).definition.id → i = j) (code : Nat) :
    (s.sortedBucket code).Pairwise fun left right => s.higher left right := by
  have sorted : (s.sortedBucket code).Pairwise fun left right => (!s.higher right left) = true :=
    pairwise_insertionSort _ _
  refine .imp_of_mem ?_ (sorted.and (nodup_sortedBucket s code))
  rintro i j first second ⟨ranked,apart⟩
  have order := (s.ranked_iff i j).mp ranked
  refine (s.higher_iff i j).mpr (lt_of_le_of_ne order fun same => apart ?_)
  refine distinct i ((s.mem_sortedBucket code i).mp first).1 j ((s.mem_sortedBucket code j).mp second).1 ?_
  have parts := congrArg (fun rank => (ofLex (ofLex (ofLex rank).2).2).2) same
  exact parts

end

theorem sortedBucket_congr (count : t.bindings.length = s.bindings.length) (listens : ∀ index < s.bindings.length,
      codeOf (t.binding index).definition = code ↔ codeOf (s.binding index).definition = code)
    (same : ∀ index < s.bindings.length, codeOf (s.binding index).definition = code →
      (t.binding index).definition = (s.binding index).definition ∧
        t.contextOf (t.binding index) = s.contextOf (s.binding index)) : t.sortedBucket code = s.sortedBucket code := by
  have members : (List.range t.bindings.length).filter (fun index => codeOf (t.binding index).definition == code) =
      (List.range s.bindings.length).filter fun index => codeOf (s.binding index).definition == code := by
    rw [count]
    refine filter_congr fun index inside => ?_
    rw [Bool.eq_iff_iff,beq_iff_eq,beq_iff_eq]
    exact listens index (mem_range.mp inside)
  rw [sortedBucket,sortedBucket,members]
  have sorted := map_insertionSort (fun left right => (!t.higher right left) = true)
    (fun left right => (!s.higher right left) = true) id
    ((List.range s.bindings.length).filter fun index => codeOf (s.binding index).definition == code) ?_
  · simpa only [map_id] using sorted
  intro a first b second
  rw [mem_filter,mem_range,beq_iff_eq] at first second
  obtain ⟨definitionA,contextA⟩ := same a first.1 first.2
  obtain ⟨definitionB,contextB⟩ := same b second.1 second.2
  have agree : t.higher b a = s.higher b a := by
    simp only [higher,definitionA,contextA,definitionB,contextB]
  rw [agree]
  rfl

theorem foldlM_checked {check : List ObjectId → α → Except String (List ObjectId)} (key : α → ObjectId)
    (good : α → Prop)
    (spec : ∀ seen d out, check seen d = .ok out → out = key d :: seen ∧ (key d).isValid ∧ key d ∉ seen ∧ good d)
    (list : List α) (passed : list.foldlM check seen = .ok out) (nodup : seen.Nodup) :
    out = (list.map key).reverse ++ seen ∧ out.Nodup ∧ ∀ d ∈ list, (key d).isValid ∧ good d := by
  induction list generalizing seen with
  | nil =>
    obtain rfl : seen = out := Except.ok.inj passed
    exact ⟨rfl,nodup,fun _ member => absurd member not_mem_nil⟩
  | cons d rest ih =>
    rw [foldlM_cons] at passed
    cases first : check seen d with
    | error message =>
      rw [first] at passed
      cases passed
    | ok next =>
      rw [first] at passed
      obtain ⟨rfl,valid,fresh,fine⟩ := spec seen d next first
      obtain ⟨whole,distinct,others⟩ := ih passed (nodup_cons.mpr ⟨fresh,nodup⟩)
      refine ⟨?_,distinct,fun other member => ?_⟩
      · rw [whole,map_cons,reverse_cons,append_assoc]
        rfl
      · rcases mem_cons.mp member with rfl | later
        · exact ⟨valid,fine⟩
        · exact others other later

theorem validateIdentity_ok {id : ObjectId} (passed : validateIdentity seen id = .ok out) :
    out = id :: seen ∧ id.isValid ∧ id ∉ seen := by
  rw [validateIdentity] at passed
  split at passed
  · cases passed
  · rename_i fine
    simp only [Bool.or_eq_true,Bool.not_eq_true',contains_iff_mem,not_or,Bool.not_eq_false] at fine
    exact ⟨(Except.ok.inj passed).symm,fine⟩

theorem validateAction_ok {contexts : List ContextDefinition} {d : ActionDefinition}
    (passed : validateAction contexts seen d = .ok out) :
    out = d.id :: seen ∧ d.id.isValid ∧ d.id ∉ seen ∧ ∃ context ∈ contexts, context.id = d.context := by
  rw [validateAction] at passed
  cases first : validateIdentity seen d.id with
  | error message =>
    rw [first] at passed
    cases passed
  | ok next =>
    rw [first] at passed
    obtain ⟨rfl,valid,fresh⟩ := validateIdentity_ok first
    split at passed
    · cases passed
    · rename_i missing
      refine ⟨(Except.ok.inj passed).symm,valid,fresh,?_⟩
      simpa using missing

theorem validateBinding_ok {actions : List ActionDefinition} {d : BindingDefinition V}
    (passed : validateBinding actions seen d = .ok out) :
    out = d.id :: seen ∧ d.id.isValid ∧ d.id ∉ seen ∧ (∃ action ∈ actions, action.id = d.action) ∧
      ∃ code, bucket d = .ok code := by
  rw [validateBinding] at passed
  cases first : validateIdentity seen d.id with
  | error message =>
    rw [first] at passed
    cases passed
  | ok next =>
    rw [first] at passed
    obtain ⟨rfl,valid,fresh⟩ := validateIdentity_ok first
    cases found : actions.find? (·.id == d.action) with
    | none =>
      simp only [bind,Except.bind,found] at passed
      cases passed
    | some action =>
      simp only [bind,Except.bind,found] at passed
      split at passed
      · cases passed
      · cases coded : bucket d with
        | error message =>
          rw [coded] at passed
          cases passed
        | ok code =>
          rw [coded] at passed
          dsimp only at passed
          split at passed
          · cases passed
          · have same := find?_some found
            exact ⟨(Except.ok.inj passed).symm,valid,fresh,
              ⟨action,mem_of_find?_eq_some found,beq_iff_eq.mp same⟩,code,rfl⟩

structure Definitions.Valid (new : Definitions V) (identities : List ObjectId) : Prop where
  few : new.actions.length ≤ maximumActions
  distinct : (new.contexts.map (·.id) ++ new.actions.map (·.id) ++ new.bindings.map (·.id)).Nodup
  all : ∀ id, id ∈ identities ↔ id ∈ new.contexts.map (·.id) ++ new.actions.map (·.id) ++ new.bindings.map (·.id)
  contexts : ∀ d ∈ new.contexts, d.id.isValid = true
  actions : ∀ d ∈ new.actions, ∃ context ∈ new.contexts, context.id = d.context
  bindings : ∀ d ∈ new.bindings, (∃ action ∈ new.actions, action.id = d.action) ∧ ∃ code, bucket d = .ok code

theorem validate_ok {new : Definitions V} {identities : List ObjectId} (passed : new.validate = .ok identities) :
    new.Valid identities := by
  rw [Definitions.validate] at passed
  by_cases crowded : new.contexts.length > maximumContexts ∨ new.actions.length > maximumActions ∨
      new.bindings.length > maximumBindings
  · simp only [bind,Except.bind,crowded,if_true] at passed
    cases passed
  · simp only [bind,Except.bind,crowded,if_false] at passed
    cases first : new.contexts.foldlM validateContext [] with
    | error message =>
      rw [first] at passed
      cases passed
    | ok known =>
      rw [first] at passed
      dsimp only at passed
      cases second : new.actions.foldlM (validateAction new.contexts) known with
      | error message =>
        rw [second] at passed
        cases passed
      | ok more =>
        rw [second] at passed
        have contexts := foldlM_checked ContextDefinition.id (fun _ => True)
          (fun seen d out ok => by
            obtain ⟨whole,valid,fresh⟩ := validateIdentity_ok ok
            exact ⟨whole,valid,fresh,trivial⟩) new.contexts first nodup_nil
        have actions := foldlM_checked ActionDefinition.id _ (fun seen d out ok => validateAction_ok ok)
          new.actions second contexts.2.1
        have bindings := foldlM_checked BindingDefinition.id _ (fun seen d out ok => validateBinding_ok ok)
          new.bindings passed actions.2.1
        have whole : identities.reverse =
            new.contexts.map (·.id) ++ new.actions.map (·.id) ++ new.bindings.map (·.id) := by
          rw [bindings.1,actions.1,contexts.1]
          simp
        refine ⟨by omega,?_,?_,fun d member => (contexts.2.2 d member).1,fun d member => (actions.2.2 d member).2,
          fun d member => (bindings.2.2 d member).2⟩
        · rw [← whole,nodup_reverse]
          exact bindings.2.1
        · intro id
          rw [← whole,mem_reverse]

end Gargantuan.CompiledInputGraph
