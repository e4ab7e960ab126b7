import Gargantuan.CompiledInputGraphCodes

/-!
Runs of the compiled input graph. Between operations every code is settled, every action is worth
what its active bindings add up to, and the indexes are those of a compilation from scratch.
-/
namespace Gargantuan.CompiledInputGraph
open List Function CompiledInputGraph Nat Definitions Publishes
variable {V : InputNumbers}

structure Placed (s : CompiledInputGraph V) : Prop where
  valid : ∃ identities, s.definitions.Valid identities
  contexts : ∀ a < s.actions.length, (s.action a).context = s.definitions.contextIndex (s.action a).definition.context
  actions : ∀ i < s.bindings.length, (s.binding i).action = s.definitions.actionIndex (s.binding i).definition.action
  bindings : ∀ a < s.actions.length, (s.action a).bindings = s.definitions.bindingsOf a

/-- The indexes are what the definitions make them. -/
structure Shaped (s : CompiledInputGraph V) : Prop extends Placed s where
  buckets : ∀ code, s.buckets code = s.sortedBucket code
  modifierBuckets : s.modifierBuckets = s.dependentCodes

variable {α : Type} {other bit dependent : Nat} {found : Bool × CompiledInputGraph V}

theorem getD_findIdx {l : List α} {p : α → Bool} (found : ∃ x ∈ l, p x) (d : α) :
    l.findIdx p < l.length ∧ l.getD (l.findIdx p) d ∈ l ∧ p (l.getD (l.findIdx p) d) := by
  have inside := findIdx_lt_length.mpr found
  rw [getD_eq_getElem l d inside]
  exact ⟨inside,getElem_mem inside,findIdx_getElem⟩

theorem getD_inj {β : Type} {l : List α} {key : α → β} (distinct : (l.map key).Nodup) {i j : Nat} (d : α)
    (first : i < l.length) (second : j < l.length) (same : key (l.getD i d) = key (l.getD j d)) : i = j := by
  rw [getD_eq_getElem _ _ first,getD_eq_getElem _ _ second] at same
  have equal := inj_on_of_nodup_map distinct (getElem_mem first) (getElem_mem second) same
  exact (List.Nodup.getElem_inj_iff distinct.of_map).mp equal

theorem bindings_definitions (s : CompiledInputGraph V) (index : Nat) :
    s.definitions.bindings.getD index {} = (s.binding index).definition :=
  getD_map s.bindings default fun row => row.definition

theorem actions_definitions (s : CompiledInputGraph V) (index : Nat) :
    s.definitions.actions.getD index default = (s.action index).definition :=
  getD_map s.actions default fun row => row.definition

variable {index code : Nat} {indices : List Nat} {s t : CompiledInputGraph V} {new : Definitions V}
  {identities : List ObjectId}

theorem mem_bindings_definitions (inside : index < s.bindings.length) :
    (s.binding index).definition ∈ s.definitions.bindings := by
  rw [binding,getD_eq_getElem _ _ inside]
  exact mem_map_of_mem (getElem_mem inside)

theorem Definitions.mem_bindingsOf (new : Definitions V) (action index : Nat) : index ∈ new.bindingsOf action ↔
      index < new.bindings.length ∧ new.actionIndex (new.bindings.getD index {}).action = action := by
  simp only [bindingsOf,mem_filter,mem_range,beq_iff_eq]

namespace Definitions.Valid
variable {new : Definitions V} {identities : List ObjectId} {d : BindingDefinition V}

variable (valid : new.Valid identities)
include valid

theorem actionOf (member : d ∈ new.bindings) :
    new.actionIndex d.action < new.actions.length ∧ new.actionOf d ∈ new.actions := by
  obtain ⟨⟨action,known,same⟩,-⟩ := valid.bindings d member
  have found := getD_findIdx (p := (·.id == d.action)) ⟨action,known,beq_iff_eq.mpr same⟩ default
  exact ⟨found.1,found.2.1⟩

theorem contextOf (member : d ∈ new.bindings) : new.contextOf d ∈ new.contexts := by
  obtain ⟨context,known,same⟩ := valid.actions _ (valid.actionOf member).2
  exact (getD_findIdx (p := (·.id == (new.actionOf d).context)) ⟨context,known,beq_iff_eq.mpr same⟩ default).2.1

theorem bindingsDistinct : (new.bindings.map (·.id)).Nodup :=
  (nodup_append.mp valid.distinct).2.1

theorem contextsDistinct : (new.contexts.map (·.id)).Nodup :=
  (nodup_append.mp (nodup_append.mp valid.distinct).1).1

end Definitions.Valid

namespace Placed
variable {s : CompiledInputGraph V}

variable (shaped : Placed s)
include shaped

theorem inside (inside : index < s.bindings.length) : (s.binding index).action < s.actions.length := by
  obtain ⟨identities,valid⟩ := shaped.valid
  rw [shaped.actions index inside]
  have := (valid.actionOf (mem_bindings_definitions inside)).1
  rwa [definitions,length_map] at this

theorem contextOf (inside : index < s.bindings.length) :
    s.contextOf (s.binding index) = s.definitions.contextOf (s.binding index).definition := by
  have placed := shaped.inside inside
  rw [CompiledInputGraph.contextOf,shaped.contexts _ placed,← actions_definitions,shaped.actions index inside]
  rfl

theorem mem_contexts (inside : index < s.bindings.length) : s.contextOf (s.binding index) ∈ s.contexts := by
  obtain ⟨identities,valid⟩ := shaped.valid
  rw [shaped.contextOf inside]
  exact valid.contextOf (mem_bindings_definitions inside)

theorem distinct : ∀ i < s.bindings.length, ∀ j < s.bindings.length,
    (s.binding i).definition.id = (s.binding j).definition.id → i = j := by
  obtain ⟨identities,valid⟩ := shaped.valid
  intro i insideI j insideJ same
  have count : s.definitions.bindings.length = s.bindings.length := length_map ..
  refine getD_inj valid.bindingsDistinct {} (count ▸ insideI) (count ▸ insideJ) ?_
  rw [bindings_definitions,bindings_definitions,same]

end Placed

namespace Shaped
variable {s t : CompiledInputGraph V}

variable (shaped : Shaped s)
include shaped

theorem mem_buckets (code index : Nat) :
    index ∈ s.buckets code ↔ index < s.bindings.length ∧ codeOf (s.binding index).definition = code := by
  rw [shaped.buckets]
  exact s.mem_sortedBucket code index

theorem inPlace (code : Nat) : InPlace s (s.buckets code) where
  nodup := by
    rw [shaped.buckets]
    exact s.nodup_sortedBucket code
  inside := fun index member => ((shaped.mem_buckets code index).mp member).1
  placed := fun index member => shaped.inside ((shaped.mem_buckets code index).mp member).1

theorem mem_bindings {action : Nat} (known : action < s.actions.length) (member : index ∈ (s.action action).bindings) :
    index < s.bindings.length ∧ (s.binding index).action = action := by
  rw [shaped.bindings action known,mem_bindingsOf,bindings_definitions] at member
  have inside : index < s.bindings.length := by simpa [definitions] using member.1
  exact ⟨inside,(shaped.actions index inside).trans member.2⟩

theorem alike (same : Alike s t) : Shaped t := by
  refine ⟨⟨?_,fun a inside => ?_,fun i inside => ?_,fun a inside => ?_⟩,fun code => ?_,?_⟩
  · rw [same.definitions]
    exact shaped.valid
  · rw [same.definitions,same.action_definition,same.action_context]
    exact shaped.contexts a (same.actionCount ▸ inside)
  · rw [same.definitions,same.binding_definition,same.binding_action]
    exact shaped.actions i (same.bindingCount ▸ inside)
  · rw [same.definitions,same.action_bindings]
    exact shaped.bindings a (same.actionCount ▸ inside)
  · rw [same.buckets,shaped.buckets]
    refine (sortedBucket_congr same.bindingCount (fun i _ => by rw [same.binding_definition]) fun i _ _ => ?_).symm
    exact ⟨same.binding_definition i,same.contextOf (same.binding_plan i)⟩
  · rw [same.modifierBuckets,shaped.modifierBuckets]
    funext bit
    have bindings := congrArg (List.map (·.1)) same.bindings
    simp only [map_map] at bindings
    have filtered := congrArg (fun list => ((list.filter fun d : BindingDefinition V =>
      d.exactModifiers || d.modifiers.getLsbD bit).map codeOf).eraseDups) bindings
    simp only [filter_map,map_map] at filtered
    exact filtered.symm

end Shaped

structure Tracked (s : CompiledInputGraph V) : Prop where
  shaped : Shaped s
  listed : s.Listed
  valued : ∀ action < s.actions.length, action ∉ s.dirtyActions → s.Valued action

theorem Tracked.moves (tracked : Tracked s) (moves : Moves indices s t)
    (placed : ∀ index ∈ indices, (s.binding index).action < s.actions.length) : Tracked t := by
  refine ⟨tracked.shaped.alike moves.toAlike,moves.listed placed tracked.listed,fun action known idle => ?_⟩
  rw [moves.actionCount] at known
  have unmoved : t.action action = s.action action := by
    simp only [CompiledInputGraph.action,moves.actions_eq]
  have worth : t.valueOf (s.action action) = s.valueOf (s.action action) := by
    refine valueOf_congr rfl fun index member => ⟨moves.binding_definition index,fun _ => ?_⟩
    by_contra changed
    have marked := moves.marked index changed
    rw [(tracked.shaped.mem_bindings known member).2] at marked
    exact idle marked
  rw [Valued,unmoved,worth]
  exact tracked.valued action known fun dirty => idle (moves.dirty action dirty)

theorem length_dirty (tracked : Tracked s) : s.dirty.length ≤ maximumActions := by
  obtain ⟨identities,valid⟩ := tracked.shaped.valid
  have inside : s.dirtyActions ⊆ List.range s.actions.length := fun action dirty =>
    mem_range.mpr (tracked.listed.2 action dirty)
  have few : s.actions.length ≤ maximumActions := by simpa [definitions] using valid.few
  have counted := (subperm_of_subset tracked.listed.1 inside).length_le
  simp only [dirtyActions,length_map,length_range] at counted
  omega

theorem publishes_refreshAction (s : CompiledInputGraph V) (entry : DirtyAction) :
    Publishes 1 s (s.refreshAction entry) := by
  rw [refreshAction]
  split
  · exact publishes_publish ..
  · exact publishes_publish ..

theorem refreshActions_spec (tracked : Tracked s) :
    (∃ t, Publishes maximumActions s t ∧ s.refreshActions = { t with dirty := [] }) ∧
      ∀ action < s.actions.length, s.refreshActions.Valued action := by
  have sorted := perm_insertionSort (fun left right => (!s.publishedBefore right left) = true) s.dirty
  have publishes := foldl publishes_refreshAction
    (s.dirty.insertionSort fun left right => !s.publishedBefore right left) s
  constructor
  · refine ⟨_,{ publishes with transitions := publishes.transitions.trans ?_ },rfl⟩
    have few := length_dirty tracked
    have count := sorted.length_eq
    omega
  · intro action known
    refine valued_foldl DirtyAction.action (fun _ => True) (fun _ _ _ => trivial) ?_ _ trivial action ?_
    · intro s entry _
      rw [refreshAction]
      split
      · exact ⟨_,_,_,_,rfl,rfl⟩
      · exact ⟨_,_,_,_,rfl,rfl⟩
    · by_cases dirty : action ∈ s.dirtyActions
      · exact .inl ⟨(sorted.map DirtyAction.action).mem_iff.mpr dirty,known⟩
      · exact .inr (tracked.valued action known dirty)

theorem refreshActions_alike (tracked : Tracked s) : Alike s s.refreshActions := by
  obtain ⟨⟨t,publishes,refreshed⟩,-⟩ := refreshActions_spec tracked
  rw [refreshed]
  exact { publishes with }

def modifierCodes : List Nat := [306,305,304,303,308,307,310,309]

def heldModifiers (down : Nat → Bool) : BitVec 8 :=
  modifierCodes.foldl (fun held code => if down code then held ||| modifierBit code else held) 0

structure Sound (s : CompiledInputGraph V) : Prop where
  shaped : Shaped s
  held : s.modifiers = heldModifiers s.physicalDown
  settled : ∀ code, code ≠ pointerCode → s.SettledCode code
  valued : ∀ action < s.actions.length, s.Valued action
  clean : s.dirty = []

theorem Sound.tracked (sound : Sound s) : Tracked s := by
  have none : s.dirtyActions = [] := by rw [dirtyActions,sound.clean,map_nil]
  refine ⟨sound.shaped,?_,fun action known _ => sound.valued action known⟩
  rw [Listed,none]
  exact ⟨nodup_nil,fun _ dirty => absurd dirty not_mem_nil⟩

theorem Sound.recorded (sound : Sound s) (transitions : List (Transition V)) (same : t = { s with transitions }) :
    Sound t := by
  subst same
  have alike : Alike s { s with transitions } := ⟨rfl,rfl,rfl,rfl,rfl⟩
  refine ⟨sound.shaped.alike alike,sound.held,fun code key => ?_,fun action known => ?_,sound.clean⟩
  · exact .congr (sound.settled code key) fun index _ => ⟨rfl,rfl,rfl,rfl,rfl,rfl⟩
  · exact sound.valued action known

theorem refreshActions_sound (tracked : Tracked s) (held : s.modifiers = heldModifiers s.physicalDown)
    (settled : ∀ code, code ≠ pointerCode → s.SettledCode code) :
    Sound s.refreshActions ∧ s.refreshActions.transitions.length ≤ s.transitions.length + maximumActions := by
  obtain ⟨⟨t,publishes,refreshed⟩,valued⟩ := refreshActions_spec tracked
  have alike := refreshActions_alike tracked
  refine ⟨⟨tracked.shaped.alike alike,?_,?_,?_,?_⟩,?_⟩
  · rw [refreshed]
    exact publishes.modifiers.trans (held.trans (congrArg heldModifiers publishes.physicalDown.symm))
  · intro code key
    rw [refreshed]
    exact .congr (publishes.settledCode (settled code key)) fun index _ => ⟨rfl,rfl,rfl,rfl,rfl,rfl⟩
  · rwa [alike.actionCount]
  · rw [refreshed]
  · rw [refreshed]
    exact publishes.transitions

/-! ### The buttons -/

theorem Settled.moves (settled : s.SettledCode code) (moves : Moves indices s t)
    (apart : ∀ index ∈ s.buckets code, index ∉ indices) : t.SettledCode code := by
  rw [SettledCode,moves.buckets]
  exact .congr settled fun index member => moves.sameRow (apart index member)

theorem Shaped.apart (shaped : Shaped s) (apart : code ≠ other) :
    ∀ index ∈ s.buckets code, index ∉ s.buckets other := by
  intro index here there
  exact apart (((shaped.mem_buckets code index).mp here).2.symm.trans ((shaped.mem_buckets other index).mp there).2)

variable {step : CompiledInputGraph V → Nat → CompiledInputGraph V}

theorem moves_eligibility
    (steps : ∀ s index, ∃ eligible, step s index = s.setBinding index { s.binding index with eligible })
    (indices : List Nat) (s : CompiledInputGraph V) : Moves indices s (indices.foldl step s) := by
  induction indices generalizing s with
  | nil => exact .refl s
  | cons index rest ih =>
    obtain ⟨eligible,stepped⟩ := steps s index
    have one : Moves [index] s (step s index) := by
      rw [stepped]
      exact .store { s.binding index with eligible } rfl (.refl _) fun changed => absurd rfl changed
    exact one.append (ih (step s index))

theorem moves_revoke (s : CompiledInputGraph V) (indices : List Nat) : Moves indices s (s.revoke indices) :=
  moves_eligibility (fun _ _ => ⟨_,rfl⟩) indices s

theorem moves_arm (s : CompiledInputGraph V) (indices : List Nat) : Moves indices s (s.arm indices) :=
  moves_eligibility (fun _ _ => ⟨_,rfl⟩) indices s

theorem revoke_ineligible (inside : ∀ index ∈ indices, index < s.bindings.length) :
    ∀ index ∈ indices, ((s.revoke indices).binding index).eligible = false := by
  have kept : ∀ (indices : List Nat) (s : CompiledInputGraph V) (index : Nat), (s.binding index).eligible = false →
      ((s.revoke indices).binding index).eligible = false := by
    intro indices
    induction indices with
    | nil => exact fun _ _ idle => idle
    | cons first rest ih =>
      intro s index idle
      refine ih _ index ?_
      rw [binding_setBinding]
      split
      · rfl
      · exact idle
  induction indices generalizing s with
  | nil => exact fun _ member => absurd member not_mem_nil
  | cons first rest ih =>
    intro index member
    have count : (s.setBinding first { s.binding first with eligible := false }).bindings.length = s.bindings.length :=
      length_set
    rcases mem_cons.mp member with rfl | later
    · refine kept rest _ index ?_
      rw [binding_setBinding,if_pos ⟨rfl,inside index (.head _)⟩]
    · exact ih (fun other last => count ▸ inside other (.tail _ last)) index later

theorem modifierIndex_some (found : modifierIndex code = some bit) : code < physicalCodeCount ∧ bit < 8 := by
  unfold modifierIndex at found
  split at found
  all_goals first
    | cases found
      decide
    | cases found

theorem modifierBit_large (large : ¬code < physicalCodeCount) : modifierBit code = 0 := by
  rw [modifierBit]
  cases found : modifierIndex code with
  | none => rfl
  | some bit => exact absurd (modifierIndex_some found).1 large

theorem modifierBit_other (other : code ∉ modifierCodes) : modifierBit code = 0 := by
  rw [modifierBit]
  cases found : modifierIndex code with
  | none => rfl
  | some bit =>
    unfold modifierIndex at found
    split at found
    all_goals first
      | exact absurd (by decide) other
      | cases found

theorem heldModifiers_update (down : Nat → Bool) (code : Nat) (value : Bool) :
    heldModifiers (Function.update down code value) =
      if value then heldModifiers down ||| modifierBit code else heldModifiers down &&& ~~~modifierBit code := by
  by_cases known : code ∈ modifierCodes
  · simp only [modifierCodes,mem_cons,not_mem_nil,or_false] at known
    simp only [heldModifiers,modifierCodes,foldl_cons,foldl_nil]
    rcases known with rfl | rfl | rfl | rfl | rfl | rfl | rfl | rfl
    all_goals
      simp only [update_self,ne_eq,reduceEqDiff,not_false_eq_true,update_of_ne]
      generalize down 306 = a, down 305 = b, down 304 = c, down 303 = d, down 308 = e, down 307 = f, down 310 = g,
        down 309 = h
      revert a b c d e f g h value
      decide +kernel
  · have unread : heldModifiers (update down code value) = heldModifiers down := by
      refine foldl_ext _ _ _ fun held other member => ?_
      have apart : other ≠ code := fun same => known (same ▸ member)
      rw [update_of_ne apart]
    rw [unread,modifierBit_other known]
    cases value with
    | true => exact (BitVec.or_zero).symm
    | false => exact (BitVec.and_allOnes).symm

theorem chord_of_independent {row : BindingRow V}
    (others : ∀ j, j ≠ bit → t.modifiers.getLsbD j = s.modifiers.getLsbD j)
    (inexact : row.definition.exactModifiers = false) (unread : row.definition.modifiers.getLsbD bit = false) :
    t.chord row = s.chord row := by
  have same : ∀ mask : BitVec 8, t.modifiers &&& ~~~mask &&& row.definition.modifiers =
      s.modifiers &&& ~~~mask &&& row.definition.modifiers := by
    intro mask
    refine BitVec.eq_of_getLsbD_eq fun j _ => ?_
    simp only [BitVec.getLsbD_and]
    by_cases here : j = bit
    · rw [here,unread,Bool.and_false,Bool.and_false]
    · rw [others j here]
  simp only [chord,inexact,Bool.not_false,Bool.true_or,Bool.and_true,same]

theorem setDown_modifiers (s : CompiledInputGraph V) (code : Nat) (down : Bool) : (s.setDown code down).modifiers =
      if down then s.modifiers ||| modifierBit code else s.modifiers &&& ~~~modifierBit code := by
  have bit : (if code < physicalCodeCount then modifierBit code else 0) = modifierBit code := by
    split
    · rfl
    · rename_i large
      exact (modifierBit_large large).symm
  simp only [setDown,bit]

theorem setDown_held (held : s.modifiers = heldModifiers s.physicalDown) (code : Nat) (down : Bool) :
    (s.setDown code down).modifiers = heldModifiers (s.setDown code down).physicalDown := by
  rw [setDown_modifiers,held]
  exact (heldModifiers_update s.physicalDown code down).symm

theorem setDown_others (s : CompiledInputGraph V) (down : Bool) {j : Nat} (apart : modifierIndex code ≠ some j) :
    (s.setDown code down).modifiers.getLsbD j = s.modifiers.getLsbD j := by
  have clear : (modifierBit code).getLsbD j = false := by
    rw [modifierBit]
    cases found : modifierIndex code with
    | none => simp
    | some bit =>
      have other : j ≠ bit := fun same => apart (same ▸ found)
      dsimp only
      rw [BitVec.getLsbD_shiftLeft,BitVec.getLsbD_one]
      simp only [Bool.and_eq_false_imp,Bool.and_eq_true,decide_eq_true_eq,Bool.not_eq_true',decide_eq_false_iff_not]
      rintro ⟨-,above⟩ -
      omega
  rw [setDown_modifiers]
  cases down with
  | true => simp [clear]
  | false =>
    have masked : (s.modifiers &&& ~~~modifierBit code).getLsbD j =
        (s.modifiers.getLsbD j && (decide (j < 8) && !(modifierBit code).getLsbD j)) := by
      rw [BitVec.getLsbD_and,BitVec.getLsbD_not]
    by_cases inside : j < 8
    · rw [if_neg nofun,masked,clear,decide_eq_true inside,Bool.not_false,Bool.and_true,Bool.and_true]
    · simp only [BitVec.getLsbD_of_ge _ _ (Nat.le_of_not_lt inside)]

theorem alike_setDown (s : CompiledInputGraph V) (code : Nat) (down : Bool) : Alike s (s.setDown code down) :=
  ⟨rfl,rfl,rfl,rfl,rfl⟩

theorem tracked_setDown (tracked : Tracked s) (code : Nat) (down : Bool) : Tracked (s.setDown code down) :=
  ⟨tracked.shaped.alike (alike_setDown s code down),tracked.listed,tracked.valued⟩

theorem mem_dependentCodes (s : CompiledInputGraph V) (bit code : Nat) :
    code ∈ s.dependentCodes bit ↔ ∃ row ∈ s.bindings,
      (row.definition.exactModifiers ∨ row.definition.modifiers.getLsbD bit) ∧ codeOf row.definition = code := by
  simp only [dependentCodes,mem_eraseDups,mem_map,mem_filter,Bool.or_eq_true,and_assoc]

theorem settled_setDown (shaped : Shaped s) (down : Bool) (key : other ≠ pointerCode) (apart : other ≠ code)
    (settled : s.SettledCode other)
    (free : ∀ bit, modifierIndex code = some bit → other ∈ s.modifierBuckets bit → s.physicalDown other = false) :
    (s.setDown code down).SettledCode other := by
  have same := alike_setDown s code down
  have kept : (s.setDown code down).physicalDown other = s.physicalDown other := update_of_ne apart ..
  refine .congr settled fun index member => ?_
  have plan := same.binding_plan index
  obtain ⟨inside,coded⟩ := (shaped.mem_buckets other index).mp member
  refine ⟨?_,same.contextOf plan,same.consumes plan,rfl,rfl,rfl⟩
  have enabled : (s.setDown code down).enabled (s.binding index) = s.enabled (s.binding index) := same.enabled plan
  change (s.setDown code down).isMatched other (s.binding index) = s.isMatched other (s.binding index)
  cases held : s.physicalDown other with
  | false => simp only [isMatched,enabled,kept,held,beq_false_of_ne key,Bool.or_false,Bool.and_false,
      Bool.false_and]
  | true =>
    have chords : (s.setDown code down).chord (s.binding index) = s.chord (s.binding index) := by
      cases found : modifierIndex code with
      | none => exact chord_congr (BitVec.eq_of_getLsbD_eq fun j _ => setDown_others s down (by simp [found])) rfl
      | some bit =>
        have unlisted : other ∉ s.modifierBuckets bit := fun listed =>
          Bool.false_ne_true ((free bit found listed).symm.trans held)
        rw [shaped.modifierBuckets,mem_dependentCodes] at unlisted
        have row : s.binding index ∈ s.bindings := by
          rw [binding,getD_eq_getElem _ _ inside]
          exact getElem_mem inside
        have independent : ¬((s.binding index).definition.exactModifiers = true ∨
            (s.binding index).definition.modifiers.getLsbD bit = true) := fun depends =>
          unlisted ⟨s.binding index,row,depends,coded⟩
        rw [not_or,Bool.not_eq_true,Bool.not_eq_true] at independent
        refine chord_of_independent (fun j (other : j ≠ bit) => ?_) independent.1 independent.2
        refine setDown_others s down ?_
        rw [found]
        exact fun same => other (Option.some.inj same).symm
    simp only [isMatched,enabled,kept,chords]

theorem evaluate_after (armed : CompiledInputGraph V) (code : Nat) (reason : Reason) (shaped : Shaped s)
    (moves : Moves (s.buckets code) s armed)
    (taken : reason = .guiConsumed → ∀ index ∈ s.buckets code, (armed.binding index).eligible = false) :
    Moves (s.buckets code) s (armed.evaluate code reason).2 ∧
      (code ≠ pointerCode → (armed.evaluate code reason).2.SettledCode code) := by
  have places := (shaped.alike moves.toAlike).inPlace code
  have same : armed.buckets code = s.buckets code := congrFun moves.buckets code
  refine ⟨moves.trans (same ▸ evaluate_moves code reason places),fun key => evaluate_settled key places ?_⟩
  rwa [same]

structure Turn (code : Nat) (s t : CompiledInputGraph V) : Prop where
  moves : Moves (s.buckets code) s t
  settled : code ≠ pointerCode → t.SettledCode code

def cancellationOf (guiConsumed : Bool) : Reason := if guiConsumed then .guiConsumed else .released

theorem evaluateDependents_turn (shaped : Shaped found.2) (guiConsumed : Bool)
    (wanted : ¬(dependent = code ∨ found.2.physicalDown dependent = false)) :
    Turn dependent found.2 (evaluateDependents code guiConsumed (cancellationOf guiConsumed) found dependent).2 := by
  have step : (evaluateDependents code guiConsumed (cancellationOf guiConsumed) found dependent).2 =
      ((if guiConsumed then found.2.revoke (found.2.buckets dependent) else found.2).evaluate dependent
        (cancellationOf guiConsumed)).2 := by
    rw [evaluateDependents]
    dsimp only
    rw [if_neg wanted]
  have after := evaluate_after (if guiConsumed then found.2.revoke (found.2.buckets dependent) else found.2)
    dependent (cancellationOf guiConsumed) shaped ?_ ?_
  · rw [step]
    exact ⟨after.1,after.2⟩
  · cases guiConsumed with
    | true => exact moves_revoke ..
    | false => exact .refl _
  · cases guiConsumed with
    | true => exact fun _ => revoke_ineligible (shaped.inPlace dependent).inside
    | false => exact fun taken => absurd taken nofun

variable (guiConsumed : Bool)

theorem evaluateDependents_idle (reason : Reason) (idle : dependent = code ∨ found.2.physicalDown dependent = false) :
    evaluateDependents code guiConsumed reason found dependent = found := by
  exact if_pos idle

structure Pending (s : CompiledInputGraph V) (code : Nat) (rest : List Nat) (t : CompiledInputGraph V) : Prop where
  tracked : Tracked t
  physicalDown : t.physicalDown = s.physicalDown
  modifiers : t.modifiers = s.modifiers
  transitions : t.transitions = s.transitions
  settled : ∀ other, other ≠ pointerCode → (other ∉ rest ∨ other = code ∨ s.physicalDown other = false) →
    t.SettledCode other

theorem Pending.turn {u : CompiledInputGraph V} {rest : List Nat} (pending : Pending s code (dependent :: rest) t)
    (turn : Turn dependent t u) : Pending s code rest u where
  tracked := pending.tracked.moves turn.moves (pending.tracked.shaped.inPlace dependent).placed
  physicalDown := turn.moves.physicalDown.trans pending.physicalDown
  modifiers := turn.moves.modifiers.trans pending.modifiers
  transitions := turn.moves.transitions.trans pending.transitions
  settled := by
    intro other key free
    by_cases same : other = dependent
    · subst same
      exact turn.settled key
    · have before : t.SettledCode other := by
        refine pending.settled other key ?_
        rcases free with later | idle
        · exact .inl fun member => (mem_cons.mp member).elim same later
        · exact .inr idle
      exact .moves before turn.moves (pending.tracked.shaped.apart same)

theorem evaluateDependents_pending (rest : List Nat) (pending : Pending s code rest found.2) :
    Pending s code [] (rest.foldl (evaluateDependents code guiConsumed (cancellationOf guiConsumed)) found).2 := by
  induction rest generalizing found with
  | nil => exact pending
  | cons dependent rest ih =>
    refine ih ?_
    by_cases idle : dependent = code ∨ found.2.physicalDown dependent = false
    · rw [evaluateDependents_idle guiConsumed _ idle]
      refine { pending with settled := fun other key free => pending.settled other key ?_ }
      by_cases same : other = dependent
      · subst same
        rw [pending.physicalDown] at idle
        exact .inr idle
      · rcases free with later | still
        · exact .inl fun member => (mem_cons.mp member).elim same later
        · exact .inr still
    · exact pending.turn (evaluateDependents_turn pending.tracked.shaped guiConsumed idle)

def armed (s : CompiledInputGraph V) (code : Nat) (wasDown down isRepeat guiConsumed : Bool) : CompiledInputGraph V :=
  if !down || guiConsumed then s.revoke (s.buckets code)
  else if !wasDown && !isRepeat then s.arm (s.buckets code)
  else s

theorem moves_armed (s : CompiledInputGraph V) (code : Nat) (wasDown down isRepeat guiConsumed : Bool) :
    Moves (s.buckets code) s (s.armed code wasDown down isRepeat guiConsumed) := by
  rw [armed]
  split
  · exact moves_revoke ..
  · split
    · exact moves_arm ..
    · exact .refl s

theorem modifierIndex_small (code : Nat) :
    (if code < physicalCodeCount then modifierIndex code else none) = modifierIndex code := by
  split
  · rfl
  · rename_i large
    cases found : modifierIndex code with
    | none => rfl
    | some bit => exact absurd (modifierIndex_some found).1 large

def evaluatedButton (s : CompiledInputGraph V) (code : Nat) (down isRepeat guiConsumed : Bool) :
    Bool × CompiledInputGraph V :=
  ((s.setDown code down).armed code (s.physicalDown code) down isRepeat guiConsumed).evaluate code
    (cancellationOf guiConsumed)

theorem processButton_none (found : modifierIndex code = none) (s : CompiledInputGraph V)
    (down isRepeat guiConsumed : Bool) : (s.processButton code down isRepeat guiConsumed).2 =
      (s.evaluatedButton code down isRepeat guiConsumed).2.refreshActions := by
  have index := (modifierIndex_small code).trans found
  simp only [processButton,index]
  rfl

theorem processButton_some (found : modifierIndex code = some bit) (s : CompiledInputGraph V)
    (down isRepeat guiConsumed : Bool) : (s.processButton code down isRepeat guiConsumed).2 =
      ((((s.setDown code down).armed code (s.physicalDown code) down isRepeat guiConsumed).modifierBuckets bit).foldl
        (evaluateDependents code guiConsumed (cancellationOf guiConsumed))
        (s.evaluatedButton code down isRepeat guiConsumed)).2.refreshActions := by
  have index := (modifierIndex_small code).trans found
  simp only [processButton,index]
  rfl

theorem processButton_sound (sound : Sound s) (code : Nat) (down isRepeat guiConsumed : Bool) :
    Sound (s.processButton code down isRepeat guiConsumed).2 ∧
      (s.processButton code down isRepeat guiConsumed).2.transitions.length ≤
        s.transitions.length + maximumActions := by
  have tracked := tracked_setDown sound.tracked code down
  have moves := moves_armed (s.setDown code down) code (s.physicalDown code) down isRepeat guiConsumed
  obtain ⟨after,settled⟩ := evaluate_after _ code (cancellationOf guiConsumed) tracked.shaped moves (by
    cases guiConsumed with
    | false => exact fun taken => absurd taken nofun
    | true =>
      rw [armed,Bool.or_true,if_pos rfl]
      exact fun _ => revoke_ineligible (tracked.shaped.inPlace code).inside)
  have pending : ∀ rest, (∀ other bit, modifierIndex code = some bit → other ∈ s.modifierBuckets bit → other ∈ rest) →
      Pending (s.setDown code down) code rest (s.evaluatedButton code down isRepeat guiConsumed).2 := by
    intro rest listed
    refine ⟨tracked.moves after (tracked.shaped.inPlace code).placed,after.physicalDown,after.modifiers,
      after.transitions,fun other key free => ?_⟩
    by_cases same : other = code
    · subst same
      exact settled key
    · have before := settled_setDown sound.shaped down key same (sound.settled other key) ?_
      · exact .moves before after (tracked.shaped.apart same)
      · intro bit found dependent
        have kept : (s.setDown code down).physicalDown other = s.physicalDown other := update_of_ne same ..
        rcases free with outside | here | idle
        · exact absurd (listed other bit found dependent) outside
        · exact absurd here same
        · exact kept ▸ idle
  have finish : ∀ t, Pending (s.setDown code down) code [] t →
      Sound t.refreshActions ∧ t.refreshActions.transitions.length ≤ s.transitions.length + maximumActions := by
    intro t done
    have held : t.modifiers = heldModifiers t.physicalDown := by
      rw [done.modifiers,done.physicalDown]
      exact setDown_held sound.held code down
    have refreshed := refreshActions_sound done.tracked held fun other key =>
      done.settled other key (.inl not_mem_nil)
    rwa [done.transitions] at refreshed
  cases found : modifierIndex code with
  | none =>
    rw [processButton_none found]
    exact finish _ (pending [] fun other bit some => absurd (found.symm.trans some) nofun)
  | some bit =>
    rw [processButton_some found]
    refine finish _ (evaluateDependents_pending guiConsumed _ (pending _ ?_))
    intro other bit' some dependent
    obtain rfl : bit = bit' := Option.some.inj (found.symm.trans some)
    rwa [moves.modifierBuckets]

variable {d : BindingDefinition V}

theorem bucket_code (coded : bucket d = .ok code) :
    code < bucketCount ∧ (d.inputKind = .pointerDelta ↔ code = pointerCode) := by
  rw [bucket] at coded
  cases kind : d.inputKind with
  | pointerDelta =>
    rw [kind] at coded
    obtain rfl : pointerCode = code := Except.ok.inj coded
    exact ⟨by decide,fun _ => rfl,fun _ => rfl⟩
  | mouseButton =>
    rw [kind] at coded
    dsimp only at coded
    split at coded
    · rename_i few
      obtain rfl := Except.ok.inj coded
      refine ⟨?_,fun same => (by cases same),fun same => ?_⟩
      · simp only [bucketCount,pointerCode]
        omega
      · simp only [pointerCode] at same
        omega
    · cases coded
  | key =>
    rw [kind] at coded
    dsimp only at coded
    split at coded
    · cases coded
    · rename_i fine
      split at coded
      · cases coded
      · obtain rfl := Except.ok.inj coded
        rw [not_or,not_or,not_le] at fine
        refine ⟨?_,fun same => (by cases same),fun same => ?_⟩
        · simp only [bucketCount,pointerCode,mouseBase]
          omega
        · simp only [pointerCode,mouseBase] at same
          omega

theorem Shaped.code_pointer (shaped : Shaped s) (inside : index < s.bindings.length) :
    codeOf (s.binding index).definition < bucketCount ∧ ((s.binding index).definition.inputKind = .pointerDelta ↔
        codeOf (s.binding index).definition = pointerCode) := by
  obtain ⟨identities,valid⟩ := shaped.valid
  obtain ⟨-,code,coded⟩ := valid.bindings _ (mem_bindings_definitions inside)
  have code_eq : codeOf (s.binding index).definition = code := by
    rw [codeOf,coded]
    rfl
  rw [code_eq]
  exact bucket_code coded

/-- What changes only bindings of the pointer, and neither what is held nor what the actions are worth. -/
structure Pointed (s t : CompiledInputGraph V) : Prop extends Alike s t where
  physicalDown : t.physicalDown = s.physicalDown
  modifiers : t.modifiers = s.modifiers
  rest : ∀ index, index ∉ s.buckets pointerCode → t.binding index = s.binding index
  values : ∀ index, (t.action index).state.value = (s.action index).state.value ∧
    ((s.action index).state.down = ((s.action index).state.value != V.zero) →
      (t.action index).state.down = ((t.action index).state.value != V.zero))

theorem Pointed.sound (sound : Sound s) (pointed : Pointed s t) (clean : t.dirty = []) : Sound t := by
  refine ⟨sound.shaped.alike pointed.toAlike,?_,fun code key => ?_,fun action known => ?_,clean⟩
  · rw [pointed.modifiers,pointed.physicalDown]
    exact sound.held
  · rw [SettledCode,pointed.buckets]
    refine .congr (sound.settled code key) fun index member => ?_
    have unmoved := pointed.rest index (sound.shaped.apart key index member)
    have plan := pointed.binding_plan index
    exact ⟨isMatched_congr pointed.toAlike pointed.physicalDown pointed.modifiers code plan,pointed.contextOf plan,
      pointed.consumes plan,by rw [unmoved],by rw [unmoved],by rw [unmoved]⟩
  · rw [pointed.actionCount] at known
    have before := sound.valued action known
    have worth : t.valueOf (t.action action) = s.valueOf (s.action action) := by
      refine valueOf_congr (pointed.action_plan action) fun index member =>
        ⟨pointed.binding_definition index,fun button => ?_⟩
      have inside := (sound.shaped.mem_bindings known member).1
      rw [pointed.rest index]
      rw [sound.shaped.mem_buckets]
      exact fun found => button ((sound.shaped.code_pointer inside).2.mpr found.2)
    rw [Valued,worth,(pointed.values action).1]
    exact ⟨before.1,(pointed.values action).1 ▸ (pointed.values action).2 before.2⟩

theorem Shaped.few (shaped : Shaped s) : s.actions.length ≤ maximumActions := by
  obtain ⟨identities,valid⟩ := shaped.valid
  simpa [definitions] using valid.few

theorem values_publish (s : CompiledInputGraph V) (index : Nat) (x y : V.Scalar) (reason : Reason) (other : Nat) :
    let t := s.publish index (s.action index).state.value x y reason
    (t.action other).state.value = (s.action other).state.value ∧
      ((s.action other).state.down = ((s.action other).state.value != V.zero) →
        (t.action other).state.down = ((t.action other).state.value != V.zero)) := by
  intro t
  obtain ⟨apart,here⟩ := state_publish s index (s.action index).state.value x y reason other
  by_cases same : other = index
  · subst same
    by_cases inside : other < s.actions.length
    · obtain ⟨stored,down⟩ := here inside
      exact ⟨stored,fun _ => by rw [down,stored]⟩
    · have outside : ∀ u : CompiledInputGraph V, u.actions.length = s.actions.length → u.action other = default :=
        fun u count => by
          rw [action,getD_eq_getElem?_getD,getElem?_eq_none (by omega)]
          rfl
      have count := (publishes_publish s other (s.action other).state.value x y reason).actionCount
      rw [outside s rfl,outside t count]
      exact ⟨rfl,fun down => down⟩
  · rw [apart same]
    exact ⟨rfl,fun down => down⟩

theorem values_foldl {step : CompiledInputGraph V → α → CompiledInputGraph V} {place : α → Nat}
    (steps : ∀ s entry, ∃ x y reason,
      step s entry = s.publish (place entry) (s.action (place entry)).state.value x y reason) (entries : List α)
    (s : CompiledInputGraph V) (index : Nat) :
    ((entries.foldl step s).action index).state.value = (s.action index).state.value ∧
      ((s.action index).state.down = ((s.action index).state.value != V.zero) →
        ((entries.foldl step s).action index).state.down =
          (((entries.foldl step s).action index).state.value != V.zero)) := by
  induction entries generalizing s with
  | nil => exact ⟨rfl,fun down => down⟩
  | cons entry rest ih =>
    obtain ⟨x,y,reason,stepped⟩ := steps s entry
    have first := values_publish s (place entry) x y reason index
    obtain ⟨value,down⟩ := ih (step s entry)
    rw [stepped] at value down
    rw [foldl_cons,stepped]
    exact ⟨value.trans first.1,fun before => down (first.2 before)⟩

theorem movePointer_sound (sound : Sound s) (x y : V.Scalar) : Sound (s.movePointer x y).2 ∧
      (s.movePointer x y).2.transitions.length ≤ s.transitions.length + maximumActions := by
  have moves := evaluate_moves pointerCode .none (sound.shaped.inPlace pointerCode)
  have steps : ∀ s index, ∃ x' y' reason, moveAction x y s index =
      s.publish (id index) (s.action (id index)).state.value x' y' reason := fun s index => ⟨_,_,_,rfl⟩
  have single : ∀ s index, Publishes 1 s (moveAction x y s index) := fun s index => publishes_publish ..
  have publishes := foldl single (s.evaluate pointerCode .none).2.movedActions
    (s.evaluate pointerCode .none).2
  have values := values_foldl steps (s.evaluate pointerCode .none).2.movedActions (s.evaluate pointerCode .none).2
  have alike := moves.toAlike.trans publishes.toAlike
  constructor
  · refine Pointed.sound sound ⟨{ alike with },publishes.physicalDown.trans moves.physicalDown,
      publishes.modifiers.trans moves.modifiers,?_,
      ?_⟩ rfl
    · exact fun index outside => (publishes.binding index).trans (moves.rest index outside)
    · intro index
      have unmoved : (s.evaluate pointerCode .none).2.action index = s.action index := by
        simp only [action,moves.actions_eq]
      have kept := values index
      rwa [unmoved] at kept
  · have few := sound.shaped.few
    have moved : (s.evaluate pointerCode .none).2.movedActions.length ≤ s.actions.length := by
      refine (length_filter_le _ _).trans ?_
      rw [length_range,moves.actionCount]
    have recorded := publishes.transitions
    rw [moves.transitions] at recorded
    exact recorded.trans (by omega)

structure Stores (indices : List Nat) (s t : CompiledInputGraph V) : Prop where
  bindings : t.bindings.map (·.plan) = s.bindings.map (·.plan)
  rest : ∀ index, index ∉ indices → t.binding index = s.binding index
  others : ∃ bindings, t = { s with bindings }

theorem stores_foldl
    (steps : ∀ s index, ∃ row : BindingRow V, row.plan = (s.binding index).plan ∧ step s index = s.setBinding index row)
    (indices : List Nat) (s : CompiledInputGraph V) : Stores indices s (indices.foldl step s) := by
  induction indices generalizing s with
  | nil => exact ⟨rfl,fun _ _ => rfl,s.bindings,rfl⟩
  | cons first rest ih =>
    obtain ⟨row,plan,stepped⟩ := steps s first
    have onward := ih (step s first)
    rw [stepped] at onward
    rw [foldl_cons,stepped]
    refine ⟨onward.bindings.trans (alike_setBinding s first plan).bindings,fun index outside => ?_,?_⟩
    · rw [mem_cons,not_or] at outside
      rw [onward.rest index outside.2,binding_setBinding,if_neg fun same => outside.1 same.1.symm]
    · obtain ⟨bindings,same⟩ := onward.others
      exact ⟨bindings,same⟩

theorem endFrame_sound (sound : Sound s) : Sound s.endFrame ∧ s.endFrame.transitions = [] := by
  let blank (s : CompiledInputGraph V) (index : Nat) : BindingRow V :=
    { s.binding index with active := false, matched := false, suppressed := false, winningContext := {} }
  let halted : ActionRow V → ActionRow V := fun row =>
    if row.definition.valueType = ValueType.vector2 then
      { row with state := { row.state with x := V.zero, y := V.zero } }
    else row
  let still : CompiledInputGraph V := { s.clearTransitions with actions := s.actions.map halted }
  have stores : Stores (s.buckets pointerCode) still s.endFrame :=
    stores_foldl (fun s index => ⟨blank s index,rfl,rfl⟩) (s.buckets pointerCode) still
  have plans : ∀ row, (halted row).plan = row.plan ∧ (halted row).state.value = row.state.value ∧
      (halted row).state.down = row.state.down := by
    intro row
    simp only [halted]
    split
    · exact ⟨rfl,rfl,rfl⟩
    · exact ⟨rfl,rfl,rfl⟩
  have actions index : still.action index = halted (s.action index) := by
    have default_halted : halted default = default := by
      simp only [halted]
      split
      · rfl
      · rfl
    have mapped := getD_map s.actions default halted (n := index)
    rwa [default_halted] at mapped
  obtain ⟨bindings,whole⟩ := stores.others
  have final index : s.endFrame.action index = still.action index := by
    rw [whole]
    rfl
  constructor
  · refine Pointed.sound sound ⟨⟨?_,?_,?_,?_,stores.bindings⟩,?_,?_,stores.rest,fun index => ?_⟩ ?_
    all_goals try (rw [whole]; rfl)
    · rw [whole]
      refine .trans (map_map ..) (map_congr_left fun row _ => (plans row).1)
    · rw [final,actions,(plans _).2.1,(plans _).2.2]
      exact ⟨rfl,fun down => down⟩
    · rw [whole]
      exact sound.clean
  · rw [whole]
    rfl

theorem reset_sound (sound : Sound s) (cancellation : Reason) :
    Sound (s.reset cancellation) ∧ (s.reset cancellation).transitions.length ≤ maximumActions := by
  let blank : BindingRow V → BindingRow V := fun row => { definition := row.definition, action := row.action }
  let cleared : CompiledInputGraph V := { s.clearTransitions with
    physicalDown := fun _ => false
    modifiers := 0
    bindings := s.bindings.map blank }
  have rows index : cleared.binding index = blank (s.binding index) :=
    getD_map s.bindings default blank
  have alike : Alike s cleared := ⟨rfl,rfl,rfl,rfl,.trans (map_map ..) (map_congr_left fun _ _ => rfl)⟩
  have idle index : (cleared.binding index).active = false := by rw [rows]
  have single : ∀ t index, Publishes 1 t (publish t index V.zero V.zero V.zero cancellation) :=
    fun t index => publishes_publish ..
  have publishes := foldl single (.range s.actions.length) cleared
  have result : s.reset cancellation = { (List.range s.actions.length).foldl
      (fun t index => publish t index V.zero V.zero V.zero cancellation) cleared with dirty := [] } := rfl
  have whole : Alike s (s.reset cancellation) := by
    have both := alike.trans publishes.toAlike
    exact { both with }
  refine ⟨⟨sound.shaped.alike whole,?_,fun code key => ?_,fun action known => ?_,?_⟩,?_⟩
  · rw [result]
    exact publishes.modifiers.trans (.trans rfl (congrArg heldModifiers publishes.physicalDown.symm))
  · have settled : cleared.SettledCode code := by
      refine settled_of_ineligible _ fun index _ => ?_
      have unmatched : cleared.isMatched code (cleared.binding index) = false := by
        simp only [isMatched,beq_false_of_ne key,cleared,Bool.or_false,Bool.and_false,Bool.false_and]
      rw [unmatched,rows]
      exact ⟨rfl,rfl,rfl⟩
    exact .congr (publishes.settledCode settled) fun index _ => ⟨rfl,rfl,rfl,rfl,rfl,rfl⟩
  · rw [whole.actionCount] at known
    refine valued_foldl id (fun t => ∀ index, (t.binding index).active = false) ?_ ?_ _ idle action
      (.inl ⟨?_,known⟩)
    · intro t index inactive other
      rw [(single t index).binding]
      exact inactive other
    · exact fun t index inactive => ⟨_,_,_,_,(valueOf_inactive inactive _).symm,rfl⟩
    · rw [map_id]
      exact mem_range.mpr known
  · rw [result]
  · have few := sound.shaped.few
    have recorded := publishes.transitions
    rw [length_range] at recorded
    exact recorded.trans (by
      change 0 + s.actions.length ≤ maximumActions
      omega)

/-! ### Compilation -/

theorem publishes_releaseRemoved (s : CompiledInputGraph V) (new : Definitions V) :
    Publishes s.actions.length s (s.releaseRemoved new) := by
  have single : ∀ (t : CompiledInputGraph V) (index : Nat), Publishes 1 t
      (if new.actions.any (·.id == (t.action index).definition.id) then t
        else t.publish index V.zero V.zero V.zero .definitionChanged) := by
    intro t index
    split
    · exact .refl 1 t
    · exact publishes_publish ..
  have publishes := foldl single (.range s.actions.length) s
  rwa [length_range] at publishes

theorem carriedIndex_eq (carried : s.carriedIndex new d = some index) :
    (s.binding index).definition = d ∧ (s.action (s.binding index).action).definition = new.actionOf d ∧
      s.contextOf (s.binding index) = new.contextOf d := by
  have unchanged := (Option.filter_eq_some_iff.mp carried).2
  simpa only [isUnchanged,Bool.and_eq_true,beq_iff_eq,and_assoc] using unchanged

section
variable (s : CompiledInputGraph V)

variable (new : Definitions V)

variable (d : BindingDefinition V)

theorem nextBinding_plan : (s.nextBinding new d).plan = (d,new.actionIndex d.action) := by
  rw [nextBinding]
  cases carried : s.carriedIndex new d with
  | none => rfl
  | some index =>
    dsimp only [BindingRow.plan]
    rw [(carriedIndex_eq carried).1]

theorem nextBinding_action : (s.nextBinding new d).action = new.actionIndex d.action :=
  congrArg (·.2) (nextBinding_plan s new d)

theorem nextBinding_definition : (s.nextBinding new d).definition = d :=
  congrArg (·.1) (nextBinding_plan s new d)

end

namespace Replaced
variable (s : CompiledInputGraph V) (new : Definitions V) (identities : List ObjectId)

theorem bindingCount : (s.replaced new identities).bindings.length = new.bindings.length := length_map ..

theorem actionCount : (s.replaced new identities).actions.length = new.actions.length := by
  refine (length_map ..).trans ?_
  rw [length_range]

theorem binding (inside : index < new.bindings.length) :
    (s.replaced new identities).binding index = s.nextBinding new (new.bindings.getD index {}) := by
  have mapped : (s.replaced new identities).bindings = new.bindings.map (s.nextBinding new) := rfl
  have count : index < (new.bindings.map (s.nextBinding new)).length := by simpa using inside
  rw [CompiledInputGraph.binding,mapped,getD_eq_getElem _ _ count,getElem_map,getD_eq_getElem _ _ inside]

theorem action (inside : index < new.actions.length) :
    (s.replaced new identities).action index = s.nextAction new index := by
  have mapped : (s.replaced new identities).actions = (List.range new.actions.length).map (s.nextAction new) := rfl
  have count : index < ((List.range new.actions.length).map (s.nextAction new)).length := by simpa using inside
  rw [CompiledInputGraph.action,mapped,getD_eq_getElem _ _ count,getElem_map,getElem_range]

theorem binding_definition (inside : index < new.bindings.length) :
    ((s.replaced new identities).binding index).definition = new.bindings.getD index {} := by
  rw [binding s new identities inside,nextBinding_definition]

theorem definitions : (s.replaced new identities).definitions = new := by
  have actions : (s.replaced new identities).actions.map (·.definition) = new.actions := by
    refine ext_getElem ?_ fun index first second => ?_
    · rw [length_map,actionCount]
    · rw [getElem_map]
      have stored := action s new identities second
      rw [length_map] at first
      rw [CompiledInputGraph.action,getD_eq_getElem _ _ first] at stored
      rw [stored]
      exact getD_eq_getElem _ _ second
  have bindings : (s.replaced new identities).bindings.map (·.definition) = new.bindings := by
    have mapped : (s.replaced new identities).bindings = new.bindings.map (s.nextBinding new) := rfl
    rw [mapped,map_map]
    refine (map_congr_left fun d _ => ?_).trans (map_id _)
    exact nextBinding_definition s new d
  exact congrArg₂ (Definitions.mk new.contexts) actions bindings

variable {s new identities}

theorem placed (valid : new.Valid identities) : Placed (s.replaced new identities) := by
  refine ⟨⟨identities,?_⟩,fun a inside => ?_,fun i inside => ?_,fun a inside => ?_⟩
  · rwa [definitions]
  · rw [actionCount] at inside
    rw [action s new identities inside]
    rfl
  · rw [bindingCount] at inside
    rw [definitions,binding s new identities inside,nextBinding_action,nextBinding_definition]
  · rw [actionCount] at inside
    rw [definitions,action s new identities inside]
    rfl

end Replaced

theorem carries (shaped : Shaped s) (settled : s.hasLayoutChanged new = false)
    (kept : code ∉ s.changedCodes new identities) (inside : index < new.bindings.length)
    (listens : codeOf (s.binding index).definition = code ∨ codeOf (new.bindings.getD index {}) = code) :
    s.carriedIndex new (new.bindings.getD index {}) = some index := by
  have layout : s.bindings.map (·.definition.id) = new.bindings.map (·.id) := by
    simpa [hasLayoutChanged] using settled
  have count : s.bindings.length = new.bindings.length := by simpa using congrArg List.length layout
  have identity : ∀ i, (s.binding i).definition.id = (new.bindings.getD i {}).id := by
    intro i
    have same := congrArg (·.getD i ({} : BindingDefinition V).id) layout
    have first := getD_map s.bindings default (·.definition.id) (n := i)
    have second := getD_map new.bindings {} (fun d : BindingDefinition V => d.id) (n := i)
    exact first.symm.trans (same.trans second)
  have previous : s.previousIndex (new.bindings.getD index {}) = some index := by
    rw [previousIndex,findIdx?_eq_some_iff_getElem]
    refine ⟨count ▸ inside,?_,fun j before => ?_⟩
    · have here := identity index
      rw [binding,getD_eq_getElem _ _ (count ▸ inside)] at here
      exact beq_iff_eq.mpr here
    · intro same
      have there : j < s.bindings.length := by omega
      have equal := beq_iff_eq.mp same
      rw [← identity index] at equal
      have found : (s.binding j).definition.id = (s.binding index).definition.id := by
        rwa [binding,getD_eq_getElem _ _ there]
      have := shaped.distinct j there index (count ▸ inside) found
      omega
  rw [carriedIndex,previous]
  by_cases unchanged : s.isUnchanged new (s.binding index) (new.bindings.getD index {}) = true
  · rw [Option.filter_some,if_pos unchanged]
  · refine absurd ?_ kept
    refine mem_append_left _ (mem_append_left _ (mem_flatMap.mpr ⟨index,mem_range.mpr inside,?_⟩))
    simp only [changedCodesOf,previous,if_neg unchanged]
    refine mem_append_left _ ?_
    rw [mem_cons,mem_singleton]
    exact listens.imp Eq.symm Eq.symm

theorem replaced_row (shaped : Shaped s) (valid : new.Valid identities) (kept : code ∉ s.changedCodes new identities)
    (settled : s.hasLayoutChanged new = false) (inside : index < new.bindings.length)
    (listens : codeOf (s.binding index).definition = code ∨ codeOf (new.bindings.getD index {}) = code) :
    (∃ action, (s.replaced new identities).binding index = { s.binding index with action }) ∧
      ((s.replaced new identities).action ((s.replaced new identities).binding index).action).definition =
        (s.action (s.binding index).action).definition ∧
      (s.replaced new identities).contextOf ((s.replaced new identities).binding index) =
        s.contextOf (s.binding index) := by
  have placed := Replaced.placed (s := s) valid
  have carried := carries shaped settled kept inside listens
  obtain ⟨definition,action,context⟩ := carriedIndex_eq carried
  have row := Replaced.binding s new identities inside
  have here : index < (s.replaced new identities).bindings.length := by rwa [Replaced.bindingCount]
  refine ⟨⟨new.actionIndex (new.bindings.getD index {}).action,?_⟩,?_,?_⟩
  · rw [row,nextBinding,carried]
  · rw [action,← actions_definitions,Replaced.definitions,row,nextBinding_action]
    rfl
  · rw [placed.contextOf here,Replaced.definitions,Replaced.binding_definition s new identities inside,context]

theorem unbound_of_moved (moved : s.hasLayoutChanged new) (kept : code ∉ s.changedCodes new identities) :
    (∀ index < s.bindings.length, codeOf (s.binding index).definition ≠ code) ∧
      ∀ index < new.bindings.length, codeOf (new.bindings.getD index {}) ≠ code := by
  rw [changedCodes,if_pos moved,mem_append,not_or] at kept
  have free := kept.2
  rw [mem_append,not_or] at free
  constructor
  · intro index inside same
    refine free.1 (mem_map.mpr ⟨s.binding index,?_,same⟩)
    rw [binding,getD_eq_getElem _ _ inside]
    exact getElem_mem inside
  · intro index inside same
    refine free.2 (mem_map.mpr ⟨new.bindings.getD index {},?_,same⟩)
    rw [getD_eq_getElem _ _ inside]
    exact getElem_mem inside

theorem length_of_settled (settled : s.hasLayoutChanged new = false) : new.bindings.length = s.bindings.length := by
  have layout : s.bindings.map (·.definition.id) = new.bindings.map (·.id) := by
    simpa [hasLayoutChanged] using settled
  simpa using (congrArg List.length layout).symm

theorem sortedBucket_replaced (shaped : Shaped s) (valid : new.Valid identities)
    (kept : code ∉ s.changedCodes new identities) :
    (s.replaced new identities).sortedBucket code = s.sortedBucket code := by
  cases layout : s.hasLayoutChanged new with
  | true =>
    obtain ⟨old,fresh⟩ := unbound_of_moved layout kept
    have empty : s.sortedBucket code = [] := eq_nil_iff_forall_not_mem.mpr fun index member =>
      old index ((s.mem_sortedBucket code index).mp member).1 ((s.mem_sortedBucket code index).mp member).2
    rw [empty]
    refine eq_nil_iff_forall_not_mem.mpr fun index member => ?_
    obtain ⟨inside,coded⟩ := (mem_sortedBucket _ code index).mp member
    rw [Replaced.bindingCount] at inside
    rw [Replaced.binding_definition s new identities inside] at coded
    exact fresh index inside coded
  | false =>
    have count := length_of_settled layout
    refine sortedBucket_congr ((Replaced.bindingCount ..).trans count) (fun index inside => ?_) fun index inside coded
        => ?_
    · rw [Replaced.binding_definition s new identities (count ▸ inside)]
      constructor
      · intro coded
        have carried := carries shaped layout kept (count ▸ inside) (.inr coded)
        rwa [(carriedIndex_eq carried).1]
      · intro coded
        have carried := carries shaped layout kept (count ▸ inside) (.inl coded)
        rwa [← (carriedIndex_eq carried).1]
    · obtain ⟨⟨action,row⟩,-,context⟩ := replaced_row shaped valid kept layout (count ▸ inside) (.inl coded)
      exact ⟨by rw [row],context⟩

theorem replaced_shaped (shaped : Shaped s) (valid : new.Valid identities) : Shaped (s.replaced new identities) := by
  refine ⟨Replaced.placed valid,fun code => ?_,rfl⟩
  by_cases changed : code ∈ s.changedCodes new identities
  · have rebuilt : (s.replaced new identities).buckets code = (s.replaced new identities).sortedBucket code :=
      if_pos changed
    exact rebuilt
  · have kept : (s.replaced new identities).buckets code = s.buckets code := if_neg changed
    rw [kept,shaped.buckets,sortedBucket_replaced shaped valid changed]

theorem replaced_held (s : CompiledInputGraph V) (new : Definitions V) (identities : List ObjectId) :
    (s.replaced new identities).physicalDown = s.physicalDown ∧ (s.replaced new identities).modifiers = s.modifiers :=
  ⟨(publishes_releaseRemoved s new).physicalDown,(publishes_releaseRemoved s new).modifiers⟩

theorem replaced_settled (sound : Sound s) (valid : new.Valid identities) (key : code ≠ pointerCode)
    (kept : code ∉ s.changedCodes new identities) : (s.replaced new identities).SettledCode code := by
  have buckets : (s.replaced new identities).buckets code = s.buckets code := if_neg kept
  rw [SettledCode,buckets]
  refine .congr (sound.settled code key) fun index member => ?_
  obtain ⟨inside,coded⟩ := (sound.shaped.mem_buckets code index).mp member
  cases layout : s.hasLayoutChanged new with
  | true => exact absurd coded ((unbound_of_moved layout kept).1 index inside)
  | false =>
    have count := length_of_settled layout
    obtain ⟨⟨place,row⟩,defined,context⟩ :=
      replaced_row sound.shaped valid kept layout (count ▸ inside) (.inl coded)
    obtain ⟨down,modifiers⟩ := replaced_held s new identities
    have chord : (s.replaced new identities).chord ((s.replaced new identities).binding index) =
        s.chord (s.binding index) := by
      simp only [chord,modifiers,row]
    have definition : ((s.replaced new identities).binding index).definition = (s.binding index).definition := by
      rw [row]
    refine ⟨?_,context,?_,by rw [row],by rw [row],by rw [row]⟩
    · simp only [isMatched,enabled,defined,context,definition,down,chord]
    · simp only [consumes,context,definition]

theorem markAction_foldl (s : CompiledInputGraph V) (new : Definitions V) (indices : List Nat)
    (inside : ∀ index ∈ indices, index < t.actions.length) : Moves [] t (indices.foldl (s.markAction new) t) ∧
      ∀ index ∈ indices, index ∈ (indices.foldl (s.markAction new) t).dirtyActions := by
  induction indices generalizing t with
  | nil => exact ⟨.refl t,fun _ member => absurd member not_mem_nil⟩
  | cons index rest ih =>
    have one : Moves [] t (s.markAction new t index) := moves_markDirty _ _ _ _ (inside index (.head _))
    have marked : index ∈ (s.markAction new t index).dirtyActions := by
      rw [markAction,dirtyActions_markDirty]
      split
      · assumption
      · exact mem_append_right _ (mem_singleton_self _)
    obtain ⟨two,others⟩ := ih (t := s.markAction new t index) fun other later =>
      one.actionCount ▸ inside other (.tail _ later)
    refine ⟨one.trans two,fun other member => ?_⟩
    rcases mem_cons.mp member with rfl | later
    · exact two.dirty _ marked
    · exact others other later

theorem evaluateAll_alike (reason : Reason) (codes : List Nat) (tracked : Tracked s) :
    Alike s (s.evaluateAll reason codes) := by
  induction codes generalizing s with
  | nil => exact .refl s
  | cons code rest ih =>
    have moves := evaluate_moves code reason (tracked.shaped.inPlace code)
    exact moves.toAlike.trans (ih (tracked.moves moves (tracked.shaped.inPlace code).placed))

theorem evaluateAll_spec {reason : Reason} (claiming : reason ≠ .guiConsumed) (codes : List Nat) (tracked : Tracked s)
    (settled : ∀ code, code ≠ pointerCode → code ∉ codes → s.SettledCode code) : Tracked (s.evaluateAll reason codes) ∧
      (∀ code, code ≠ pointerCode → (s.evaluateAll reason codes).SettledCode code) ∧
      (s.evaluateAll reason codes).physicalDown = s.physicalDown ∧
      (s.evaluateAll reason codes).modifiers = s.modifiers ∧
      (s.evaluateAll reason codes).transitions = s.transitions := by
  induction codes generalizing s with
  | nil => exact ⟨tracked,fun code key => settled code key not_mem_nil,rfl,rfl,rfl⟩
  | cons code rest ih =>
    have moves := evaluate_moves code reason (tracked.shaped.inPlace code)
    obtain ⟨after,done,down,modifiers,transitions⟩ :=
      ih (tracked.moves moves (tracked.shaped.inPlace code).placed) (by
        intro other key later
        by_cases same : other = code
        · subst same
          exact evaluate_settled key (tracked.shaped.inPlace other) fun taken => absurd taken claiming
        · exact .moves (settled other key (not_mem_cons_of_ne_of_not_mem same later)) moves
            (tracked.shaped.apart same))
    exact ⟨after,done,down.trans moves.physicalDown,modifiers.trans moves.modifiers,
      transitions.trans moves.transitions⟩

def marked (s : CompiledInputGraph V) (new : Definitions V) (identities : List ObjectId) : CompiledInputGraph V :=
  (List.range (s.replaced new identities).actions.length).foldl (s.markAction new) (s.replaced new identities)

def evaluatedCodes (s : CompiledInputGraph V) (new : Definitions V) (identities : List ObjectId) : List Nat :=
  (List.range bucketCount).filter fun code => code ∈ s.changedCodes new identities && code != pointerCode

theorem rebuilt_eq (s : CompiledInputGraph V) (new : Definitions V) (identities : List ObjectId) :
    s.rebuilt new identities = ((s.marked new identities).evaluateAll .definitionChanged
      (s.evaluatedCodes new identities)).refreshActions := rfl

theorem mem_evaluatedCodes : code ∈ s.evaluatedCodes new identities ↔
      code < bucketCount ∧ code ∈ s.changedCodes new identities ∧ code ≠ pointerCode := by
  rw [evaluatedCodes,mem_filter,mem_range,Bool.and_eq_true,decide_eq_true_iff,bne_iff_ne]

-- Looking for a code among these would run through all the codes there are.
attribute [irreducible] evaluatedCodes

theorem moves_marked (s : CompiledInputGraph V) (new : Definitions V) (identities : List ObjectId) :
    Moves [] (s.replaced new identities) (s.marked new identities) ∧
      ∀ action < (s.replaced new identities).actions.length, action ∈ (s.marked new identities).dirtyActions := by
  obtain ⟨moves,dirty⟩ := markAction_foldl s new (.range (s.replaced new identities).actions.length)
    fun index member => mem_range.mp member
  exact ⟨moves,fun action known => dirty action (mem_range.mpr known)⟩

theorem tracked_marked (shaped : Shaped s) (valid : new.Valid identities) : Tracked (s.marked new identities) := by
  obtain ⟨moves,dirty⟩ := moves_marked s new identities
  refine ⟨(replaced_shaped shaped valid).alike moves.toAlike,moves.listed (fun _ member => absurd member
    not_mem_nil) ?_,?_⟩
  · exact ⟨nodup_nil,fun _ dirty => absurd dirty not_mem_nil⟩
  · intro action known idle
    rw [moves.actionCount] at known
    exact absurd (dirty action known) idle

theorem settled_marked (sound : Sound s) (valid : new.Valid identities) (key : code ≠ pointerCode)
    (unchanged : code ∉ s.evaluatedCodes new identities) : (s.marked new identities).SettledCode code := by
  refine .moves ?_ (moves_marked s new identities).1 fun _ _ => not_mem_nil
  by_cases inside : code < bucketCount
  · exact replaced_settled sound valid key fun member => unchanged (mem_evaluatedCodes.mpr ⟨inside,member,key⟩)
  · have shaped := replaced_shaped sound.shaped valid
    have empty : (s.replaced new identities).buckets code = [] :=
      eq_nil_iff_forall_not_mem.mpr fun index member => by
        obtain ⟨here,coded⟩ := (shaped.mem_buckets code index).mp member
        exact inside (coded ▸ (shaped.code_pointer here).1)
    rw [SettledCode,empty]
    trivial

theorem rebuilt_sound (sound : Sound s) (blank : s.transitions = []) (valid : new.Valid identities) :
    Sound (s.rebuilt new identities) ∧ (s.rebuilt new identities).transitions.length ≤ 2 * maximumActions ∧
      (s.rebuilt new identities).definitions = new := by
  obtain ⟨down,modifiers⟩ := replaced_held s new identities
  have moves := (moves_marked s new identities).1
  have tracked := tracked_marked sound.shaped valid
  obtain ⟨after,settled,downAfter,modifiersAfter,transitions⟩ := evaluateAll_spec
    (show Reason.definitionChanged ≠ .guiConsumed by decide) (s.evaluatedCodes new identities) tracked fun code key =>
        settled_marked sound valid key
  have held : ((s.marked new identities).evaluateAll .definitionChanged (s.evaluatedCodes new identities)).modifiers =
      heldModifiers ((s.marked new identities).evaluateAll .definitionChanged
        (s.evaluatedCodes new identities)).physicalDown := by
    rw [modifiersAfter,moves.modifiers,modifiers,downAfter,moves.physicalDown,down,sound.held]
  obtain ⟨refreshed,recorded⟩ := refreshActions_sound after held settled
  rw [rebuilt_eq]
  refine ⟨refreshed,?_,?_⟩
  · have few := sound.shaped.few
    have released : (s.replaced new identities).transitions.length ≤ s.actions.length := by
      have publishes := (publishes_releaseRemoved s new).transitions
      rwa [blank,length_nil,zero_add] at publishes
    rw [transitions,moves.transitions] at recorded
    omega
  · have evaluated := evaluateAll_alike .definitionChanged (s.evaluatedCodes new identities) tracked
    have whole := ((moves.toAlike.trans evaluated).trans (refreshActions_alike after)).definitions
    rwa [Replaced.definitions] at whole

theorem isSame_eq (same : s.isSame new) : s.definitions = new := by
  simp only [isSame,Bool.and_eq_true,beq_iff_eq] at same
  obtain ⟨⟨contexts,actions⟩,bindings⟩ := same
  rw [definitions,contexts,actions,bindings]

theorem cleared_sound (sound : Sound s) : Sound s.clearTransitions :=
  sound.recorded [] rfl

theorem compile_sound (sound : Sound s) (new : Definitions V) :
    Sound (s.compile new).2 ∧ (s.compile new).2.transitions.length ≤ 2 * maximumActions ∧
      (∀ message, (s.compile new).1 = .error message → (s.compile new).2 = { s with transitions := [] }) ∧
      ∀ changed, (s.compile new).1 = .ok changed → (s.compile new).2.definitions = new := by
  have cleared := cleared_sound sound
  rw [compile]
  cases passed : new.validate with
  | error message =>
    exact ⟨cleared,zero_le _,fun _ _ => rfl,fun _ refused => by cases refused⟩
  | ok identities =>
    dsimp only
    split
    · rename_i same
      exact ⟨cleared,zero_le _,fun _ refused => (by cases refused),fun _ _ => isSame_eq same⟩
    · obtain ⟨rebuilt,recorded,defined⟩ := rebuilt_sound cleared rfl (validate_ok passed)
      exact ⟨rebuilt,recorded,fun _ refused => (by cases refused),fun _ _ => defined⟩

theorem operate_sound (sound : Sound s) (operation : Operation V) :
    Sound (s.operate operation) ∧ (s.operate operation).transitions.length ≤ 2 * maximumActions := by
  have cleared := cleared_sound sound
  have none : Sound s.clearTransitions ∧ s.clearTransitions.transitions.length ≤ 2 * maximumActions :=
    ⟨cleared,zero_le _⟩
  have some : ∀ {t : CompiledInputGraph V}, Sound t ∧ t.transitions.length ≤ maximumActions →
      Sound t ∧ t.transitions.length ≤ 2 * maximumActions := fun done => ⟨done.1,done.2.trans (by decide)⟩
  have button code down isRepeat guiConsumed := some (by
    simpa [clearTransitions] using processButton_sound cleared code down isRepeat guiConsumed)
  cases operation with
  | compile new => exact ⟨(compile_sound sound new).1,(compile_sound sound new).2.1⟩
  | reset cancellation => exact some (reset_sound sound cancellation)
  | endFrame =>
    obtain ⟨after,empty⟩ := endFrame_sound sound
    exact ⟨after,by rw [operate,empty]; exact zero_le _⟩
  | processEvent event guiConsumed =>
    rw [operate]
    cases event with
    | focus focused =>
      cases focused with
      | true => exact none
      | false => exact some (reset_sound cleared .focusLost)
    | key logical pressed isRepeat =>
      rw [processEvent]
      split
      · exact none
      · exact button logical pressed isRepeat guiConsumed
    | gamepadButton gamepad pressed =>
      rw [processEvent]
      cases getGamepadKeyCode gamepad with
      | none => exact none
      | some code => exact button code pressed false guiConsumed
    | pointerButton mouse pressed =>
      rw [processEvent]
      split
      · exact none
      · exact button (mouseBase + mouse.number) pressed false guiConsumed
    | pointerMove x y =>
      rw [processEvent]
      split
      · exact none
      · exact some (by simpa [clearTransitions] using movePointer_sound cleared x y)
    | other => exact none

theorem sound_new : Sound ({} : CompiledInputGraph V) := by
  refine ⟨⟨⟨⟨[],?_⟩,?_,?_,?_⟩,fun _ => rfl,rfl⟩,rfl,fun _ _ => trivial,?_,rfl⟩
  · exact ⟨zero_le _,nodup_nil,fun _ => .rfl,fun _ member => absurd member not_mem_nil,
      fun _ member => absurd member not_mem_nil,fun _ member => absurd member not_mem_nil⟩
  all_goals exact fun _ inside => absurd inside (not_lt_zero _)

def after (operations : List (Operation V)) : CompiledInputGraph V := operations.foldl operate {}

theorem after_sound (operations : List (Operation V)) :
    Sound (after operations) ∧ (after operations).transitions.length ≤ 2 * maximumActions := by
  have onward : ∀ (operations : List (Operation V)) (s : CompiledInputGraph V),
      Sound s ∧ s.transitions.length ≤ 2 * maximumActions →
        Sound (operations.foldl operate s) ∧ (operations.foldl operate s).transitions.length ≤ 2 * maximumActions := by
    intro operations
    induction operations with
    | nil => exact fun _ start => start
    | cons operation rest ih => exact fun s start => ih _ (operate_sound start.1 operation)
  exact onward operations {} ⟨sound_new,zero_le _⟩

theorem Shaped.unique (first : Shaped s) (second : Shaped t) (same : t.definitions = s.definitions) :
    t.buckets = s.buckets ∧ t.modifierBuckets = s.modifierBuckets := by
  have bindings : t.bindings.map (·.definition) = s.bindings.map (·.definition) :=
    congrArg Definitions.bindings same
  have count : t.bindings.length = s.bindings.length := by simpa using congrArg List.length bindings
  have definition index : (t.binding index).definition = (s.binding index).definition := by
    rw [← bindings_definitions,← bindings_definitions,same]
  constructor
  · funext code
    rw [first.buckets,second.buckets]
    refine sortedBucket_congr count (fun index _ => by rw [definition]) fun index inside _ => ⟨definition index,?_⟩
    rw [first.contextOf inside,second.contextOf (count ▸ inside),same,definition]
  · rw [first.modifierBuckets,second.modifierBuckets]
    funext bit
    have filtered := congrArg (fun list => ((list.filter fun d : BindingDefinition V =>
      d.exactModifiers || d.modifiers.getLsbD bit).map codeOf).eraseDups) bindings
    simp only [filter_map,map_map] at filtered
    exact filtered

theorem Settled.row {winner : ObjectId} (settled : s.Settled code winner indices) (member : index ∈ indices) :
    ∃ winner, s.SettledRow code winner (s.binding index) := by
  induction indices generalizing winner with
  | nil => exact absurd member not_mem_nil
  | cons first rest ih =>
    rcases mem_cons.mp member with rfl | later
    · exact ⟨winner,settled.1⟩
    · exact ih settled.2 later

theorem Settled.winner {winner : ObjectId} (settled : s.Settled code winner indices) (valid : winner.isValid)
    (member : index ∈ indices) (active : (s.binding index).active) : (s.contextOf (s.binding index)).id = winner := by
  induction indices generalizing winner with
  | nil => exact absurd member not_mem_nil
  | cons first rest ih =>
    obtain ⟨here,onward⟩ := settled
    rcases mem_cons.mp member with rfl | later
    · have both := here.active.symm.trans active
      rw [Bool.and_eq_true] at both
      have ahead := here.ahead both.2 both.1
      rw [isBehind,valid,Bool.true_and] at ahead
      exact (bne_eq_false_iff_eq.mp ahead).symm
    · have kept : s.nextWinner code winner first = winner := by
        simp only [nextWinner]
        split
        · rename_i claims
          rw [Bool.and_eq_true,Bool.and_eq_true,Bool.and_eq_true] at claims
          have ahead := claims.1.1.2
          rw [Bool.not_eq_true',isBehind,valid,Bool.true_and] at ahead
          exact (bne_eq_false_iff_eq.mp ahead).symm
        · rfl
      rw [kept] at onward
      exact ih onward valid later

theorem higher_between (shaped : Shaped s) {first second third : Nat} (insideFirst : first < s.bindings.length)
    (insideThird : third < s.bindings.length) (above : s.higher first second) (below : s.higher second third)
    (same : (s.contextOf (s.binding first)).id = (s.contextOf (s.binding third)).id) :
    (s.contextOf (s.binding second)).id = (s.contextOf (s.binding first)).id := by
  obtain ⟨identities,valid⟩ := shaped.valid
  have context : s.contextOf (s.binding first) = s.contextOf (s.binding third) :=
    inj_on_of_nodup_map valid.contextsDistinct (shaped.mem_contexts insideFirst) (shaped.mem_contexts insideThird)
      same
  rw [higher_iff] at above below
  simp only [rank,Prod.Lex.toLex_lt_toLex,context] at above below ⊢
  rcases above with before | ⟨priority,before⟩
  · rcases below with after | ⟨priority,-⟩ <;> omega
  · rcases below with after | ⟨-,after⟩
    · omega
    · rcases before with before | ⟨equal,-⟩
      · rcases after with after | ⟨equal,-⟩
        · exact absurd (before.trans after) (lt_irrefl _)
        · exact absurd (equal ▸ before) (lt_irrefl _)
      · exact equal.symm

/-- A binding is not active behind one of another context that takes the input. -/
theorem Settled.unclaimed (shaped : Shaped s) {winner : ObjectId} (settled : s.Settled code winner indices)
    (inside : ∀ index ∈ indices, index < s.bindings.length)
    (sorted : indices.Pairwise fun left right => s.higher left right)
    (origin : winner.isValid → ∃ first < s.bindings.length,
      (s.contextOf (s.binding first)).id = winner ∧ ∀ index ∈ indices, s.higher first index)
    (member : index ∈ indices) (active : (s.binding index).active) (found : other ∈ indices)
    (above : s.higher other index) (matched : s.isMatched code (s.binding other))
    (modern : (s.contextOf (s.binding other)).legacyPassthrough = false) (takes : s.consumes (s.binding other)) :
    (s.contextOf (s.binding other)).id = (s.contextOf (s.binding index)).id := by
  induction indices generalizing winner with
  | nil => exact absurd member not_mem_nil
  | cons first rest ih =>
    obtain ⟨ahead,ordered⟩ := pairwise_cons.mp sorted
    have irreflexive : ∀ i, s.higher i i ≠ true := fun i same => lt_irrefl _ ((s.higher_iff i i).mp same)
    have asymmetric : ∀ i j, s.higher i j → s.higher j i ≠ true := fun i j one two =>
      lt_asymm ((s.higher_iff i j).mp one) ((s.higher_iff j i).mp two)
    rcases mem_cons.mp found with rfl | later
    · have behind : index ∈ rest := by
        rcases mem_cons.mp member with rfl | behind
        · exact absurd above (irreflexive _)
        · exact behind
      cases lost : s.isBehind winner (s.binding other) with
      | false =>
        have next : s.nextWinner code winner other = (s.contextOf (s.binding other)).id := by
          simp only [nextWinner,matched,lost,modern,takes,Bool.not_false,Bool.and_true,if_true]
        obtain ⟨identities,valid⟩ := shaped.valid
        have known := valid.contexts _ (shaped.mem_contexts (inside other (.head _)))
        have onward := settled.2
        rw [next] at onward
        exact (Settled.winner onward known behind active).symm
      | true =>
        -- Another binding of the winner's context is ahead of both.
        rw [isBehind,Bool.and_eq_true] at lost
        obtain ⟨origin,known,same,all⟩ := origin lost.1
        have won := Settled.winner settled lost.1 member active
        have between := higher_between shaped known (inside index member) (all other (.head _)) above
          (same.trans won.symm)
        rw [between,same,won]
    · have behind : index ∈ rest := by
        rcases mem_cons.mp member with rfl | behind
        · exact absurd above (asymmetric _ _ (ahead other later))
        · exact behind
      refine ih settled.2 (fun i last => inside i (.tail _ last)) ordered ?_ behind later
      intro valid
      by_cases moved : s.nextWinner code winner first = winner
      · rw [moved] at valid ⊢
        obtain ⟨origin,known,same,all⟩ := origin valid
        exact ⟨origin,known,same,fun i last => all i (.tail _ last)⟩
      · refine ⟨first,inside first (.head _),?_,ahead⟩
        have next : s.nextWinner code winner first = (s.contextOf (s.binding first)).id ∨
            s.nextWinner code winner first = winner := by
          simp only [nextWinner]
          split
          · exact .inl rfl
          · exact .inr rfl
        exact (next.resolve_right moved).symm

structure SameFlags (row row' : BindingRow V) : Prop where
  plan : row'.plan = row.plan
  matched : row'.matched = row.matched
  active : row'.active = row.active
  eligible : row'.eligible = row.eligible

theorem SettledRow.sameFlags (key : code ≠ pointerCode) {winner winner' : ObjectId} {row : BindingRow V}
    (settled : s.SettledRow code winner row) (near : winner' = winner ∨ winner'.isValid = false) :
    SameFlags row (s.evaluatedRow code winner' row) := by
  have stable := settledRow_evaluated s key winner' row
  have matchedSame : s.isMatched code (s.evaluatedRow code winner' row) = s.isMatched code row :=
    isMatched_congr (.refl s) rfl rfl code rfl
  have eligible : (s.evaluatedRow code winner' row).eligible = row.eligible := by
    simp only [evaluatedRow]
    cases entitled : row.eligible with
    | false => rw [Bool.false_and]
    | true =>
      cases matched : s.isMatched code row with
      | false =>
        have legacy := (settled.kept entitled).resolve_left (by rw [matched]; exact Bool.false_ne_true)
        simp only [legacy,Bool.false_and,Bool.not_true,Bool.and_false,Bool.or_false,Bool.not_false,Bool.and_true]
      | true =>
        have ahead := settled.ahead entitled matched
        rw [isBehind] at ahead
        have free : (winner'.isValid && winner' != (s.contextOf row).id) = false := by
          rcases near with rfl | invalid
          · exact ahead
          · rw [invalid,Bool.false_and]
        simp only [Bool.true_and,free,Bool.not_true,Bool.false_and,Bool.or_false,Bool.not_false]
  refine ⟨rfl,?_,?_,eligible⟩
  · rw [stable.matched,settled.matched,matchedSame]
  · rw [stable.active,matchedSame,eligible,settled.active]

theorem scan_stable (key : code ≠ pointerCode) (reason : Reason) (indices : List Nat) {winner : ObjectId}
    (scan : Scan V) (places : InPlace scan.graph indices) (settled : scan.graph.Settled code winner indices)
    (near : reason ≠ .guiConsumed ∧ scan.winner = winner ∨ reason = .guiConsumed ∧ scan.winner.isValid = false)
    (index : Nat) : SameFlags (scan.graph.binding index)
      ((indices.foldl (evaluateBinding code reason) scan).graph.binding index) := by
  induction indices generalizing scan winner with
  | nil => exact ⟨rfl,rfl,rfl,rfl⟩
  | cons first rest ih =>
    have one := moves_evaluateBinding code reason scan (places.placed first (.head _))
    have here := binding_evaluateBinding code reason scan (places.inside first (.head _))
    have fresh := (nodup_cons.mp places.nodup).1
    have flags : SameFlags (scan.graph.binding index) ((evaluateBinding code reason scan first).graph.binding
        index) := by
      by_cases same : index = first
      · subst same
        rw [here]
        exact settled.1.sameFlags key (near.imp And.right And.right)
      · rw [one.rest index fun member => same (mem_singleton.mp member)]
        exact ⟨rfl,rfl,rfl,rfl⟩
    have onward := ih (evaluateBinding code reason scan first)
      (places.tail.alike one.toAlike)
      (.congr settled.2 fun other later => one.sameRow fun member =>
        fresh (mem_singleton.mp member ▸ later)) (by
        rcases near with ⟨claiming,same⟩ | ⟨taken,invalid⟩
        · exact .inl ⟨claiming,by rw [winner_evaluateBinding code claiming,same]⟩
        · refine .inr ⟨taken,?_⟩
          have kept : (evaluateBinding code reason scan first).winner = scan.winner := by
            simp only [evaluateBinding,claimsInput,taken,bne_self_eq_false,Bool.and_false,Bool.false_and,
              Bool.false_eq_true,if_false]
          rw [kept]
          exact invalid)
    exact ⟨onward.plan.trans flags.plan,onward.matched.trans flags.matched,onward.active.trans flags.active,
      onward.eligible.trans flags.eligible⟩

theorem evaluateAll_stable (reason : Reason) (codes : List Nat) (keys : pointerCode ∉ codes) (tracked : Tracked s)
    (settled : ∀ code, code ≠ pointerCode → s.SettledCode code) (index : Nat) :
    ((s.evaluateAll reason codes).binding index).active = (s.binding index).active := by
  induction codes generalizing s with
  | nil => rfl
  | cons code rest ih =>
    rw [mem_cons,not_or] at keys
    have places := tracked.shaped.inPlace code
    have moves := evaluate_moves code reason places
    have same : ∀ index, SameFlags (s.binding index) ((s.evaluate code reason).2.binding index) := by
      refine scan_stable (.symm keys.1) reason (s.buckets code) ⟨s,{},false⟩ places
          (settled code (.symm keys.1)) ?_
      by_cases taken : reason = .guiConsumed
      · exact .inr ⟨taken,rfl⟩
      · exact .inl ⟨taken,rfl⟩
    have onward := ih keys.2 (tracked.moves moves places.placed) fun other key => by
      rw [SettledCode,moves.buckets]
      refine .congr (settled other key) fun index _ => ?_
      have flags := same index
      exact ⟨moves.isMatched other flags.plan,moves.contextOf flags.plan,moves.consumes flags.plan,flags.matched,
        flags.active,flags.eligible⟩
    exact onward.trans (same index).active

/-- What holds of a graph between operations. -/
structure Consistent (s : CompiledInputGraph V) : Prop where
  /-- A bucket has the bindings of its code, -/
  members : ∀ code index, index ∈ s.buckets code ↔
    index < s.bindings.length ∧ codeOf (s.binding index).definition = code
  /-- each once, and the higher one first. -/
  sorted : ∀ code, (s.buckets code).Pairwise fun left right => s.higher left right = true
  modifierBuckets : s.modifierBuckets = s.dependentCodes
  modifiers : s.modifiers = heldModifiers s.physicalDown
  listed : ∀ action < s.actions.length, (s.action action).bindings = (List.range s.bindings.length).filter
    fun index => (s.binding index).definition.action == (s.action action).definition.id
  value : ∀ action < s.actions.length, (s.action action).state.value = s.valueOf (s.action action)
  down : ∀ action < s.actions.length, (s.action action).state.down = (s.valueOf (s.action action) != V.zero)
  /-- An active binding is enabled, and held with its chord. -/
  active : ∀ index < s.bindings.length, (s.binding index).active = true →
    (s.binding index).definition.inputKind ≠ .pointerDelta → s.enabled (s.binding index) = true ∧
      s.physicalDown (codeOf (s.binding index).definition) = true ∧ s.chord (s.binding index) = true
  /-- No higher binding of another context that matches claims its code. -/
  unclaimed : ∀ index < s.bindings.length, (s.binding index).active = true →
    (s.binding index).definition.inputKind ≠ .pointerDelta → ∀ other < s.bindings.length,
      codeOf (s.binding other).definition = codeOf (s.binding index).definition → s.higher other index = true →
        (s.contextOf (s.binding other)).id ≠ (s.contextOf (s.binding index)).id →
          (s.contextOf (s.binding other)).legacyPassthrough = false →
            s.isMatched (codeOf (s.binding index).definition) (s.binding other) = true →
              s.consumes (s.binding other) = false
  /-- Evaluating the codes of the buttons once more changes nothing. -/
  stable : ∀ codes, pointerCode ∉ codes → ∀ reason index,
    ((s.evaluateAll reason codes).binding index).active = (s.binding index).active

theorem Shaped.listed (shaped : Shaped s) {action : Nat} (known : action < s.actions.length) :
    (s.action action).bindings = (List.range s.bindings.length).filter fun index =>
      (s.binding index).definition.action == (s.action action).definition.id := by
  obtain ⟨identities,valid⟩ := shaped.valid
  rw [shaped.bindings action known,bindingsOf]
  have count : s.definitions.bindings.length = s.bindings.length := length_map ..
  rw [count]
  refine filter_congr fun index member => ?_
  have inside := mem_range.mp member
  rw [bindings_definitions,Bool.eq_iff_iff,beq_iff_eq,beq_iff_eq]
  obtain ⟨⟨target,listed,same⟩,-⟩ := valid.bindings _ (mem_bindings_definitions inside)
  have found := getD_findIdx (p := (·.id == (s.binding index).definition.action))
    ⟨target,listed,beq_iff_eq.mpr same⟩ default
  have named : (s.action (s.definitions.actionIndex (s.binding index).definition.action)).definition.id =
      (s.binding index).definition.action := by
    rw [← actions_definitions]
    exact beq_iff_eq.mp found.2.2
  constructor
  · intro index_eq
    rw [← index_eq,named]
  · intro name
    have distinct : (s.definitions.actions.map (·.id)).Nodup :=
      (nodup_append.mp (nodup_append.mp valid.distinct).1).2.1
    have length : s.definitions.actions.length = s.actions.length := length_map ..
    refine getD_inj distinct default found.1 (length ▸ known) ?_
    rw [actions_definitions,actions_definitions]
    exact named.trans name

theorem Sound.consistent (sound : Sound s) : Consistent s where
  members := sound.shaped.mem_buckets
  sorted := fun code => by
    rw [sound.shaped.buckets]
    exact higher_sortedBucket s sound.shaped.distinct code
  modifierBuckets := sound.shaped.modifierBuckets
  modifiers := sound.held
  listed := fun _ known => sound.shaped.listed known
  value := fun action known => (sound.valued action known).1
  down := fun action known => (sound.valued action known).1 ▸ (sound.valued action known).2
  active := by
    intro index inside active button
    have key : codeOf (s.binding index).definition ≠ pointerCode := fun same =>
      button ((sound.shaped.code_pointer inside).2.mpr same)
    have row := (sound.settled _ key).row ((sound.shaped.mem_buckets _ index).mpr ⟨inside,rfl⟩)
    obtain ⟨winner,settled⟩ := row
    have matched := (Bool.and_eq_true _ _ ▸ settled.active.symm.trans active).1
    simp only [isMatched,beq_false_of_ne key,Bool.false_or,Bool.and_eq_true] at matched
    exact ⟨matched.1.1,matched.1.2,matched.2⟩
  unclaimed := by
    intro index inside active button other known coded above apart modern matched
    have key : codeOf (s.binding index).definition ≠ pointerCode := fun same =>
      button ((sound.shaped.code_pointer inside).2.mpr same)
    by_contra takes
    rw [Bool.not_eq_false] at takes
    refine apart (Settled.unclaimed sound.shaped (sound.settled _ key) (sound.shaped.inPlace _).inside ?_ ?_
      ((sound.shaped.mem_buckets _ index).mpr ⟨inside,rfl⟩) active
      ((sound.shaped.mem_buckets _ other).mpr ⟨known,coded⟩) above matched modern takes)
    · rw [sound.shaped.buckets]
      exact higher_sortedBucket s sound.shaped.distinct _
    · exact fun valid => absurd valid (by decide)
  stable := fun codes keys reason index => evaluateAll_stable reason codes keys sound.tracked sound.settled index

/-- After any operations the graph is consistent and has recorded no more transitions than there is room for; a
compilation that is refused changes nothing, and any other one leaves the definitions it is given, with the indexes
that a graph has that was not compiled before. -/
theorem graph_run (operations : List (Operation V)) (new : Definitions V) :
    Consistent (after operations) ∧ (after operations).transitions.length ≤ 2 * maximumActions ∧
      (∀ message, ((after operations).compile new).1 = .error message →
        ((after operations).compile new).2 = { after operations with transitions := [] }) ∧
      ∀ changed, ((after operations).compile new).1 = .ok changed →
        ((after operations).compile new).2.definitions = new ∧
          ((after operations).compile new).2.buckets = (({} : CompiledInputGraph V).compile new).2.buckets ∧
          ((after operations).compile new).2.modifierBuckets =
            (({} : CompiledInputGraph V).compile new).2.modifierBuckets := by
  obtain ⟨sound,recorded⟩ := after_sound operations
  obtain ⟨compiled,-,refused,accepted⟩ := compile_sound sound new
  refine ⟨sound.consistent,recorded,refused,fun changed done => ⟨accepted changed done,?_⟩⟩
  obtain ⟨fresh,-,-,defined⟩ := compile_sound (sound_new) new
  have valid : ∃ changed, (({} : CompiledInputGraph V).compile new).1 = .ok changed := by
    rw [compile] at done ⊢
    cases passed : new.validate with
    | error message =>
      rw [passed] at done
      cases done
    | ok identities =>
      dsimp only
      split
      · exact ⟨false,rfl⟩
      · exact ⟨true,rfl⟩
  obtain ⟨first,succeeded⟩ := valid
  exact Shaped.unique fresh.shaped compiled.shaped ((accepted changed done).trans (defined first succeeded).symm)

def wholeNumbers : InputNumbers where
  Scalar := Int
  decidableEq := inferInstance
  zero := 0
  one := 1
  isFinite := fun _ => true
  Total := Int
  nothing := 0
  add := fun total scale => total + scale
  addScaled := fun total delta factor => total + delta * factor
  isZero := fun total => total == 0
  clampUnit := fun total => max (-1) (min 1 total)
  moved := fun position total => position + total
  isZero_nothing := rfl
  clampUnit_nothing := rfl

def plainAndShifted : Definitions wholeNumbers where
  contexts := [{ id := ⟨1,1⟩, consume := true },{ id := ⟨2,1⟩, priority := 5, consume := true }]
  actions := [{ id := ⟨3,1⟩, context := ⟨1,1⟩ },{ id := ⟨4,1⟩, context := ⟨2,1⟩ }]
  bindings := [{ id := ⟨5,1⟩, action := ⟨3,1⟩, code := 97 },
    { id := ⟨6,1⟩, action := ⟨4,1⟩, code := 97, modifiers := 4#8 }]

-- With the modifier held, the key is taken from the plain binding.
example : ((after [.compile plainAndShifted,.processEvent (.key 304 true false) false,
    .processEvent (.key 97 true false) false]).bindings.map fun row => (row.active,row.suppressed)) =
      [(false,true),(true,false)] := by
  decide +kernel

end Gargantuan.CompiledInputGraph
