import Gargantuan.CharacterMaterialization

/-!
Who knows and who controls a character in the server's manager of characters.
Every operation of the manager is described by what it does to `knows` and to
`controllerOf`, and a controller always knows its character (`Owned`).
-/
namespace Gargantuan.CharacterNetwork.AuthoritativeCharacterNetwork
open SortedMap Option List AuthoritativePeer
variable {μ : Type}

def knows (n : AuthoritativeCharacterNetwork μ) (c : ConnectionId) (x : ObjectId) : Bool :=
  (n.peers.find? c).any fun p => p.materialized.contains x

def controllerOf (n : AuthoritativeCharacterNetwork μ) (x : ObjectId) : Option ConnectionId :=
  (n.characters.find? x).bind (·.controller)

def Owned (n : AuthoritativeCharacterNetwork μ) : Prop := ∀ x c, n.controllerOf x = some c → n.knows c x = true

variable {n m : AuthoritativeCharacterNetwork μ}

theorem knows_congr (same : m.peers = n.peers) (c : ConnectionId) (x : ObjectId) : m.knows c x = n.knows c x := by
  unfold knows
  rw [same]

theorem controllerOf_congr (same : m.characters = n.characters) (x : ObjectId) :
    m.controllerOf x = n.controllerOf x := by
  unfold controllerOf
  rw [same]

variable {c : ConnectionId}

theorem contains_of_knows {n : AuthoritativeCharacterNetwork μ} {x : ObjectId}
    (known : n.knows c x) : n.peers.contains c := by
  unfold knows at known
  unfold SortedMap.contains
  cases found : n.peers.find? c with
  | none => rw [found] at known; cases known
  | some p => rfl

section
variable (n : AuthoritativeCharacterNetwork μ)

theorem addPeer_characters (c : ConnectionId) : (n.addPeer c).characters = n.characters := by
  unfold addPeer
  split <;> rfl

theorem knows_addPeer (c d : ConnectionId) (x : ObjectId) : (n.addPeer c).knows d x = n.knows d x := by
  unfold addPeer
  split
  · next taken =>
    unfold knows
    rw [find?_insert]
    split
    · next same =>
      subst same
      simp only [SortedMap.contains,Bool.and_eq_true,Bool.not_eq_true',isSome_eq_false_iff,
        isNone_iff_eq_none] at taken
      rw [taken.2]
      rfl
    · rfl
  · rfl

theorem contains_addPeer {d : ConnectionId} (other : d ≠ c) :
    (n.addPeer c).peers.contains d = n.peers.contains d := by
  unfold addPeer
  split
  · unfold SortedMap.contains
    rw [find?_insert_of_ne _ _ other]
  · rfl

theorem registerCharacter_peers (x : ObjectId) (usable : Bool) : (n.registerCharacter x usable).peers = n.peers := by
  unfold registerCharacter
  split
  · rfl
  · dsimp only
    split
    · split <;> rfl
    · rfl

theorem controllerOf_registerCharacter (x y : ObjectId) (usable : Bool) :
    (n.registerCharacter x usable).controllerOf y = n.controllerOf y := by
  unfold registerCharacter
  split
  · rfl
  · dsimp only
    split
    · split
      · rfl
      · next absent =>
        unfold controllerOf
        rw [find?_insert]
        split
        · next same =>
          subst same
          simp only [SortedMap.contains,Bool.not_eq_true,isSome_eq_false_iff,isNone_iff_eq_none] at absent
          rw [absent]
          rfl
        · rfl
    · rfl

theorem markMaterialized_characters (c : ConnectionId) (x : ObjectId) (channel : StateChannelId) :
    (n.markMaterialized c x channel).characters = n.characters := by
  unfold markMaterialized
  split
  · rfl
  · dsimp only
    split <;> rfl

theorem knows_markMaterialized (c d : ConnectionId) (x y : ObjectId) (channel : StateChannelId) :
    (n.markMaterialized c x channel).knows d y = n.knows d y ∨
      d = c ∧ y = x ∧ (n.markMaterialized c x channel).knows d y := by
  unfold markMaterialized
  split
  · exact .inl rfl
  · next p found =>
    split
    · exact .inl rfl
    · unfold knows
      rw [find?_insert]
      by_cases here : d = c
      · subst here
        rw [found]
        by_cases same : y = x
        · subst same
          exact .inr ⟨rfl,rfl,by simp [SortedMap.contains]⟩
        · left
          simp [SortedMap.contains,change,find?_insert,same]
      · rw [if_neg here]
        exact .inl rfl

theorem contains_markMaterialized (c d : ConnectionId) (x : ObjectId) (channel : StateChannelId) :
    (n.markMaterialized c x channel).peers.contains d = n.peers.contains d := by
  unfold markMaterialized
  split
  · rfl
  · next p found =>
    split
    · rfl
    · unfold SortedMap.contains
      rw [find?_insert]
      split
      · next same =>
        subst same
        rw [found]
        rfl
      · rfl

theorem knows_forget {x y : ObjectId} (p : AuthoritativePeer) :
    (p.forget x).materialized.contains y = (p.materialized.contains y && decide (y ≠ x)) := by
  unfold forget
  split
  · simp only [SortedMap.contains,find?_erase]
    by_cases same : y = x <;> simp [same]
  · next absent =>
    by_cases same : y = x
    · subst same
      simp [absent]
    · simp [same]

theorem knows_insert_forget {p : AuthoritativePeer} (found : n.peers.find? c = some p) (x : ObjectId)
    (d : ConnectionId) (y : ObjectId) :
    knows { n with peers := n.peers.insert c (p.forget x) } d y = (n.knows d y && !decide (d = c ∧ y = x)) := by
  unfold knows
  rw [find?_insert]
  by_cases here : d = c
  · subst here
    rw [if_pos rfl,found]
    simp only [any_some,knows_forget]
    by_cases same : y = x <;> simp [same]
  · rw [if_neg here]
    simp [here]

theorem controllerOf_advanceState (x y : ObjectId) : (n.advanceState x).controllerOf y = n.controllerOf y := by
  unfold advanceState controllerOf
  rw [find?_modify]
  split
  · next same =>
    cases n.characters.find? y <;> rfl
  · rfl

end

section
variable [CharacterMotion μ] (accepts : ConnectionId → CharacterMessage μ → Bool) (n : AuthoritativeCharacterNetwork μ)

variable (c : ConnectionId)

theorem queue_characters (message : CharacterMessage μ) : (queue accepts n c message).2.characters = n.characters := by
  unfold queue
  split <;> rfl

variable {tick : Nat}

theorem controllerOf_revokeControl (x y : ObjectId) (positive : tick ≠ 0) :
    (revokeControl accepts n x tick).controllerOf y = if y = x then none else n.controllerOf y := by
  unfold revokeControl
  split
  · next absent =>
    split
    · next same =>
      subst same
      unfold controllerOf
      rw [absent]
      rfl
    · rfl
  · next found stored =>
    split
    · next free =>
      split
      · next same =>
        subst same
        unfold controllerOf
        rwa [stored]
      · rfl
    · rw [if_neg positive]
      unfold controllerOf
      rw [find?_insert]
      split <;> rfl

theorem knows_revokeControl (x : ObjectId) (tick : Nat) (c : ConnectionId) (y : ObjectId) :
    (revokeControl accepts n x tick).knows c y = n.knows c y :=
  knows_congr (revokeControl_peers accepts n x tick) c y

variable (xs : List ObjectId)

theorem controllerOf_revokeAll (positive : tick ≠ 0) (y : ObjectId) :
    (xs.foldl (fun n x => revokeControl accepts n x tick) n).controllerOf y =
      if y ∈ xs then none else n.controllerOf y := by
  induction xs generalizing n with
  | nil => simp
  | cons x rest ih =>
    rw [foldl_cons,ih,controllerOf_revokeControl accepts n x y positive]
    by_cases later : y ∈ rest
    · simp [later]
    · by_cases same : y = x <;> simp [later,same]

theorem revokeAll_peers (tick : Nat) : (xs.foldl (fun n x => revokeControl accepts n x tick) n).peers = n.peers := by
  induction xs generalizing n with
  | nil => rfl
  | cons x rest ih => rw [foldl_cons,ih,revokeControl_peers]

theorem removePeer_peers (tick : Nat) : (removePeer accepts n c tick).peers = n.peers.erase c := by
  unfold removePeer
  split
  · dsimp only
    rw [revokeAll_peers]
  · next absent =>
    simp only [SortedMap.contains,Bool.not_eq_true,isSome_eq_false_iff,isNone_iff_eq_none] at absent
    rw [erase_of_absent absent]

theorem controllerOf_removePeer (owned : n.Owned) (c : ConnectionId) (positive : tick ≠ 0) (y : ObjectId) :
    (removePeer accepts n c tick).controllerOf y = if n.controllerOf y = some c then none else n.controllerOf y := by
  unfold removePeer
  split
  · dsimp only
    refine (controllerOf_revokeAll accepts n _ positive y).trans ?_
    have controlled : y ∈ (n.characters.entries.filter fun e => e.2.controller = some c).map Prod.fst ↔
        n.controllerOf y = some c := by
      unfold controllerOf
      constructor
      · intro member
        obtain ⟨⟨z,found⟩,listed,rfl⟩ := mem_map.mp member
        rw [mem_filter,decide_eq_true_eq] at listed
        rw [find?_eq_some.mpr listed.1]
        exact listed.2
      · intro controls
        obtain ⟨found,stored,controller⟩ := bind_eq_some_iff.mp controls
        refine mem_map.mpr ⟨(y,found),?_,rfl⟩
        rw [mem_filter,decide_eq_true_eq]
        exact ⟨find?_eq_some.mp stored,controller⟩
    by_cases controls : n.controllerOf y = some c
    · rw [if_pos (controlled.mpr controls),if_pos controls]
    · rw [if_neg (mt controlled.mp controls),if_neg controls]
  · next absent =>
    split
    · next controls => exact absurd (contains_of_knows (owned y c controls)) absent
    · rfl

section
variable (x : ObjectId)

theorem unregisterCharacter_gone (positive : tick ≠ 0)
    (gone : (unregisterCharacter accepts n x tick).characters.contains x = false)
    (registered : n.characters.contains x) :
    (∀ c y, (unregisterCharacter accepts n x tick).knows c y = (n.knows c y && decide (y ≠ x))) ∧
      (∀ y, (unregisterCharacter accepts n x tick).controllerOf y = if y = x then none else n.controllerOf y) ∧
      ∀ c, (unregisterCharacter accepts n x tick).peers.contains c = n.peers.contains c := by
  unfold unregisterCharacter at gone ⊢
  split
  · next refused =>
    rw [if_pos refused,registered] at gone
    cases gone
  · dsimp only
    refine ⟨?_,?_,?_⟩
    · intro c y
      unfold knows
      rw [find?_mapValues,revokeControl_peers]
      cases n.peers.find? c with
      | none => rfl
      | some p => exact knows_forget p
    · intro y
      have revoked := controllerOf_revokeControl accepts n x y positive
      unfold controllerOf at revoked ⊢
      rw [find?_erase]
      split
      · rfl
      · next other => rw [revoked,if_neg other]
    · intro c
      unfold SortedMap.contains
      rw [find?_mapValues,revokeControl_peers]
      cases n.peers.find? c <;> rfl

/-- A connection that forgets a character loses control of it; an operation that fails changes nothing. -/
theorem markUnmaterialized_effect : markUnmaterialized accepts n c x = n ∨ (n.knows c x ∧
        (∀ d y, (markUnmaterialized accepts n c x).knows d y = (n.knows d y && !decide (d = c ∧ y = x))) ∧
        (∀ y, (markUnmaterialized accepts n c x).controllerOf y =
          if y = x ∧ n.controllerOf x = some c then none else n.controllerOf y) ∧
        ∀ d, (markUnmaterialized accepts n c x).peers.contains d = n.peers.contains d) := by
  unfold markUnmaterialized
  split
  · exact .inl rfl
  · next p found =>
    split
    · exact .inl rfl
    · next may =>
      simp only [Bool.or_eq_true,not_or,Bool.not_eq_true] at may
      right
      have known : n.knows c x := by
        unfold knows
        rw [found]
        simpa using may.2
      have present : ∀ d, (n.peers.insert c (p.forget x)).contains d = n.peers.contains d := by
        intro d
        unfold SortedMap.contains
        rw [find?_insert]
        split
        · next same =>
          subst same
          rw [found]
          rfl
        · rfl
      refine ⟨known,?_⟩
      have positive : max n.lastAuthoritativeTick 1 ≠ 0 := by omega
      split
      · next character stored =>
        have controller : n.controllerOf x = character.controller := by
          unfold controllerOf
          rw [stored]
          rfl
        split
        · next controls =>
          refine ⟨?_,?_,?_⟩
          · intro d y
            rw [knows_revokeControl]
            exact knows_insert_forget n found x d y
          · intro y
            rw [controllerOf_revokeControl accepts _ x y positive,controller,controls]
            simp only [and_true]
            rfl
          · intro d
            rw [revokeControl_peers]
            exact present d
        · next other =>
          refine ⟨knows_insert_forget n found x,?_,present⟩
          intro y
          rw [controller,if_neg (fun both => other both.2)]
          rfl
      · next absent =>
        refine ⟨knows_insert_forget n found x,?_,present⟩
        intro y
        have free : n.controllerOf x = none := by
          unfold controllerOf
          rw [absent]
          rfl
        rw [free,if_neg (fun both => nomatch both.2)]
        rfl

theorem bindControl_peers (tick : Nat) : (bindControl accepts n c x tick).peers = n.peers := by
  unfold bindControl
  split
  · rfl
  · split
    · split
      · rfl
      · dsimp only
        split
        · split
          · exact (queue_peers accepts _ _ _).trans (revokeControl_peers accepts n x tick)
          · exact (queue_peers accepts _ _ _).trans (revokeControl_peers accepts n x tick)
        · exact revokeControl_peers accepts n x tick
    · rfl

theorem controllerOf_bindControl (positive : tick ≠ 0) : bindControl accepts n c x tick = n ∨
      (n.knows c x ∧ (∀ y, y ≠ x → (bindControl accepts n c x tick).controllerOf y = n.controllerOf y) ∧
        ((bindControl accepts n c x tick).controllerOf x = some c ∨
          (bindControl accepts n c x tick).controllerOf x = none)) := by
  unfold bindControl
  split
  · exact .inl rfl
  · next p found =>
    split
    · next channel known =>
      rw [if_neg positive]
      right
      have revoked := fun y => controllerOf_revokeControl accepts n x y positive
      constructor
      · unfold knows SortedMap.contains
        rw [found]
        simp [known]
      · dsimp only
        split
        · next epoch stored =>
          split
          · constructor
            · intro y other
              have same := revoked y
              rw [if_neg other] at same
              unfold controllerOf at same ⊢
              rw [queue_characters]
              rwa [find?_insert_of_ne _ _ other]
            · left
              unfold controllerOf
              rw [queue_characters]
              rw [find?_insert_self]
              rfl
          · constructor
            · intro y other
              have same := revoked y
              rw [if_neg other] at same
              unfold controllerOf at same ⊢
              rwa [find?_insert_of_ne _ _ other]
            · right
              unfold controllerOf
              rw [find?_insert_self]
              rfl
        · constructor
          · intro y other
            have same := revoked y
            rwa [if_neg other] at same
          · right
            have same := revoked x
            rwa [if_pos rfl] at same
    · exact .inl rfl

end

theorem publishFrame_effect (tick : Nat) (selected : List (ObjectId × Snapshot μ)) :
    (∀ d y, (publishFrame accepts n c tick selected).knows d y = n.knows d y) ∧
      (∀ y, (publishFrame accepts n c tick selected).controllerOf y = n.controllerOf y) ∧
      ∀ d, (publishFrame accepts n c tick selected).peers.contains d = n.peers.contains d := by
  unfold publishFrame
  split
  · exact ⟨fun _ _ => rfl,fun _ => rfl,fun _ => rfl⟩
  · next p found =>
    dsimp only
    split
    · exact ⟨fun _ _ => rfl,fun _ => rfl,fun _ => rfl⟩
    · refine ⟨?_,fun y => controllerOf_congr (queue_characters accepts n c _) y,?_⟩
      · intro d y
        unfold knows
        rw [find?_insert]
        split
        · next same =>
          subst same
          rw [found]
          rfl
        · rfl
      · intro d
        unfold SortedMap.contains
        rw [find?_insert]
        split
        · next same =>
          subst same
          rw [found]
          rfl
        · rfl

end
end Gargantuan.CharacterNetwork.AuthoritativeCharacterNetwork
