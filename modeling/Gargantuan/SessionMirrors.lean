import Gargantuan.SessionGraph

/-!
The synchronization of the gameplay graph, turn by turn. What one peer's turn
does to the managers concerns that peer alone, except that binding a character
to it takes the character from its controller (`Bound`). So every record that a
turn made exact stays exact to the end, if no two ready peers dispute a character
(`Progress.turns`).
-/
namespace Gargantuan.GameSession
open SortedMap List Option Authority
open CharacterNetwork

variable {x : ObjectId}

theorem mem_eraseObject {y : ObjectId} {l : List ObjectId} : y ∈ eraseObject x l ↔ y ∈ l ∧ y ≠ x := by
  simp [eraseObject]

variable {c : ConnectionId}

namespace Remotes

def Registered (m : Remotes) : Prop := ∀ c, ∀ x ∈ m.published c, x ∈ m.remotes

/-- A change of the manager that concerns one peer only. -/
structure Local (c : ConnectionId) (m n : Remotes) : Prop where
  remotes : n.remotes = m.remotes
  published : ∀ d, d ≠ c → n.published d = m.published d
  contains : ∀ d, n.peers.contains d = m.peers.contains d
  registered : m.Registered → n.Registered

namespace Local
variable {c : ConnectionId} {m n k : Remotes}

theorem refl (c : ConnectionId) (m : Remotes) : Local c m m := ⟨rfl,fun _ _ => rfl,fun _ => rfl,id⟩

theorem trans (first : Local c m n) (second : Local c n k) : Local c m k where
  remotes := second.remotes.trans first.remotes
  published := fun d other => (second.published d other).trans (first.published d other)
  contains := fun d => (second.contains d).trans (first.contains d)
  registered := fun was => second.registered (first.registered was)

end Local

theorem published_insert (m : Remotes) (c : ConnectionId) (peer : RemotePeer) (d : ConnectionId) :
    published { m with peers := m.peers.insert c peer } d =
      if d = c then peer.publishedRemotes else m.published d := by
  unfold published
  rw [find?_insert]
  split <;> rfl

theorem published_of_find {m : Remotes} {peer : RemotePeer} (found : m.peers.find? c = some peer) :
    m.published c = peer.publishedRemotes := by
  unfold published
  rw [found]
  rfl

theorem local_insert {m : Remotes} {peer next : RemotePeer} (found : m.peers.find? c = some peer)
    (known : ∀ x ∈ next.publishedRemotes, x ∈ peer.publishedRemotes ∨ x ∈ m.remotes) :
    Local c m { m with peers := m.peers.insert c next } where
  remotes := rfl
  published := by
    intro d other
    rw [published_insert,if_neg other]
  contains := by
    intro d
    unfold SortedMap.contains
    rw [find?_insert]
    split
    · next same =>
      subst same
      rw [found]
      rfl
    · rfl
  registered := by
    intro registered d x member
    rw [published_insert] at member
    split at member
    · rcases known x member with was | listed
      · exact registered c x (by rw [published_of_find found]; exact was)
      · exact listed
    · exact registered d x member

variable (m : Remotes)

theorem markMaterialized_local (view : List ObjectId) (c : ConnectionId) (x : ObjectId) :
    Local c m (m.markMaterialized view c x).2 ∧ (m.markMaterialized view c x).2.published c = m.published c := by
  unfold markMaterialized
  split
  · exact ⟨.refl c m,rfl⟩
  · next peer found =>
    split
    · exact ⟨.refl c m,rfl⟩
    · refine ⟨local_insert found fun x member => .inl member,?_⟩
      rw [published_insert,if_pos rfl,published_of_find found]

theorem markUnmaterialized_local (c : ConnectionId) (x : ObjectId) : Local c m (m.markUnmaterialized c x).2 ∧
      (m.Registered → ∀ y, y ∈ (m.markUnmaterialized c x).2.published c ↔ y ∈ m.published c ∧ y ≠ x) := by
  unfold markUnmaterialized
  split
  · next absent =>
    refine ⟨.refl c m,fun _ y => ?_⟩
    simp [published,absent]
  · next peer found =>
    split
    · refine ⟨local_insert found ?_,?_⟩
      · intro y member
        exact .inl (mem_eraseObject.mp member).1
      · intro _ y
        rw [published_insert,if_pos rfl,published_of_find found]
        exact mem_eraseObject
    · next other =>
      refine ⟨local_insert found fun x member => .inl member,?_⟩
      intro registered y
      rw [published_insert,if_pos rfl,published_of_find found]
      constructor
      · intro member
        refine ⟨member,?_⟩
        rintro rfl
        exact other ⟨registered c y (by rw [published_of_find found]; exact member),member⟩
      · exact And.left

theorem publishRemote_local (view : List ObjectId) (c : ConnectionId) (x : ObjectId) :
    Local c m (m.publishRemote view c x).2 ∧ ∀ y, y ∈ (m.publishRemote view c x).2.published c ↔
        y ∈ m.published c ∨ y = x ∧ (m.publishRemote view c x).1 := by
  unfold publishRemote
  split
  · exact ⟨.refl c m,fun y => by simp⟩
  · next peer found =>
    split
    · exact ⟨.refl c m,fun y => by simp⟩
    · next seen =>
      simp only [Bool.or_eq_true,decide_eq_true_eq,not_or,not_not] at seen
      dsimp only
      split
      · next already =>
        refine ⟨local_insert found fun x member => .inl member,?_⟩
        intro y
        rw [published_insert,if_pos rfl,published_of_find found]
        constructor
        · exact .inl
        · rintro (member | ⟨rfl,-⟩)
          · exact member
          · exact already
      · split
        · exact ⟨.refl c m,fun y => by simp⟩
        · refine ⟨local_insert found ?_,?_⟩
          · intro y member
            rcases mem_append.mp member with was | added
            · exact .inl was
            · rw [mem_singleton.mp added]
              exact .inr seen.1
          · intro y
            rw [published_insert,published_of_find found]
            simp

end Remotes

namespace Session

theorem unmarkRemotes_local (c : ConnectionId) (xs : List ObjectId) (start : Bool × Remotes) :
    Remotes.Local c start.2 (unmarkRemotes c xs start).2 ∧
      (start.2.Registered → ∀ y, y ∈ (unmarkRemotes c xs start).2.published c ↔ y ∈ start.2.published c ∧ y ∉ xs) := by
  induction xs generalizing start with
  | nil => exact ⟨.refl c start.2,fun _ y => by simp [unmarkRemotes]⟩
  | cons x rest ih =>
    obtain ⟨once,without⟩ := Remotes.markUnmaterialized_local start.2 c x
    obtain ⟨later,gone⟩ := ih (start.1 && (start.2.markUnmaterialized c x).1,(start.2.markUnmaterialized c x).2)
    refine ⟨once.trans later,?_⟩
    intro registered y
    have both := gone (once.registered registered) y
    rw [without registered y] at both
    refine both.trans ?_
    simp only [mem_cons,not_or]
    tauto

theorem publishRemotes_local (view : List ObjectId) (c : ConnectionId) (xs : List ObjectId) (start : Bool × Remotes) :
    Remotes.Local c start.2 (publishRemotes view c xs start).2 ∧ ((publishRemotes view c xs start).1 → start.1 ∧
        ∀ y, y ∈ (publishRemotes view c xs start).2.published c ↔ y ∈ start.2.published c ∨ y ∈ xs) := by
  induction xs generalizing start with
  | nil => exact ⟨.refl c start.2,fun healthy => ⟨healthy,fun y => by simp [publishRemotes]⟩⟩
  | cons x rest ih =>
    obtain ⟨once,same⟩ := Remotes.markMaterialized_local start.2 view c x
    unfold publishRemotes
    rw [foldl_cons]
    dsimp only
    split
    · obtain ⟨twice,added⟩ := Remotes.publishRemote_local (start.2.markMaterialized view c x).2 view c x
      generalize (start.2.markMaterialized view c x).2.publishRemote view c x = published at twice added
      obtain ⟨later,all⟩ := ih (start.1 && published.1,published.2)
      refine ⟨(once.trans twice).trans later,?_⟩
      intro healthy
      obtain ⟨before,members⟩ := all healthy
      simp only [Bool.and_eq_true] at before
      refine ⟨before.1,?_⟩
      intro y
      refine (members y).trans ?_
      rw [added y,same]
      simp only [before.2,and_true,mem_cons]
      tauto
    · obtain ⟨later,all⟩ := ih (false,(start.2.markMaterialized view c x).2)
      refine ⟨once.trans later,?_⟩
      intro healthy
      exact absurd (all healthy).1 nofun

end Session

variable {tick : Nat}

section
variable {μ : Type} {n m k : AuthoritativeCharacterNetwork μ} {c : ConnectionId}

/-- A change of the manager that takes nothing from the other connections. -/
structure Sparing (c : ConnectionId) (n m : AuthoritativeCharacterNetwork μ) : Prop where
  knows : ∀ d, d ≠ c → ∀ x, m.knows d x = n.knows d x
  gains : ∀ d, d ≠ c → ∀ x, m.controllerOf x = some d → n.controllerOf x = some d
  keeps : ∀ d, d ≠ c → ∀ x, n.controllerOf x = some d → m.controllerOf x = some d
  contains : ∀ d, m.peers.contains d = n.peers.contains d
  owned : n.Owned → m.Owned

namespace Sparing

theorem refl (c : ConnectionId) (n : AuthoritativeCharacterNetwork μ) : Sparing c n n :=
  ⟨fun _ _ _ => rfl,fun _ _ _ => id,fun _ _ _ => id,fun _ => rfl,id⟩

theorem trans (first : Sparing c n m) (second : Sparing c m k) : Sparing c n k where
  knows := fun d other x => (second.knows d other x).trans (first.knows d other x)
  gains := fun d other x has => first.gains d other x (second.gains d other x has)
  keeps := fun d other x has => second.keeps d other x (first.keeps d other x has)
  contains := fun d => (second.contains d).trans (first.contains d)
  owned := fun was => second.owned (first.owned was)

end Sparing

theorem markMaterialized_sparing (n : AuthoritativeCharacterNetwork μ) (c : ConnectionId) (x : ObjectId) :
    Sparing c n (markMaterialized n c x).2 ∧
      (∀ y, (markMaterialized n c x).2.controllerOf y = n.controllerOf y) ∧
      ((markMaterialized n c x).1 → ∀ y,
        (markMaterialized n c x).2.knows c y ↔ n.knows c y ∨ y = x) := by
  have controllers : ∀ y, (n.markMaterialized c x (characterStateChannel x)).controllerOf y = n.controllerOf y :=
    AuthoritativeCharacterNetwork.controllerOf_congr (AuthoritativeCharacterNetwork.markMaterialized_characters n c x _)
  have known := fun d y => n.knows_markMaterialized c d x y (characterStateChannel x)
  refine ⟨⟨?_,?_,?_,?_,?_⟩,controllers,?_⟩
  · intro d other y
    rcases known d y with same | ⟨rfl,-⟩
    · exact same
    · exact absurd rfl other
  · intro d _ y has
    exact controllers y ▸ has
  · intro d _ y has
    exact (controllers y).trans has
  · intro d
    exact n.contains_markMaterialized c d x _
  · intro owned y d has
    have before := owned y d ((controllers y).symm.trans has)
    rcases known d y with same | ⟨-,-,now⟩
    · exact same.trans before
    · exact now
  · intro marked y
    simp only [markMaterialized,Bool.and_eq_true] at marked
    rcases known c y with same | ⟨-,rfl,now⟩
    · show (n.markMaterialized c x (characterStateChannel x)).knows c y = true ↔ _
      rw [same]
      constructor
      · exact .inl
      · rintro (before | rfl)
        · exact before
        · exact same.symm.trans marked.2
    · exact ⟨fun _ => .inr rfl,fun _ => now⟩

variable [CharacterMotion μ] (accepts : ConnectionId → CharacterMessage μ → Bool)

theorem markUnmaterialized_sparing (n : AuthoritativeCharacterNetwork μ) (c : ConnectionId) (x : ObjectId) :
    Sparing c n (markUnmaterialized accepts n c x).2 ∧
      (∀ y, y ≠ x → (markUnmaterialized accepts n c x).2.controllerOf y = n.controllerOf y) ∧
      (∀ y, y ≠ x → (markUnmaterialized accepts n c x).2.knows c y = n.knows c y) ∧
      ((markUnmaterialized accepts n c x).1 →
        (markUnmaterialized accepts n c x).2.knows c x = false) := by
  unfold markUnmaterialized
  rcases AuthoritativeCharacterNetwork.markUnmaterialized_effect accepts n c x with
    same | ⟨known,knows,controllers,contains⟩
  · rw [same]
    exact ⟨.refl c n,fun _ _ => rfl,fun _ _ => rfl,fun both => by simp at both⟩
  · refine ⟨⟨?_,?_,?_,contains,?_⟩,?_,?_,?_⟩
    · intro d other y
      rw [knows d y]
      simp [other]
    · intro d _ y has
      rw [controllers y] at has
      split at has
      · cases has
      · exact has
    · intro d other y has
      rw [controllers y,if_neg]
      · exact has
      · rintro ⟨rfl,controls⟩
        rw [has] at controls
        exact other (some.inj controls)
    · intro owned y d has
      rw [controllers y] at has
      split at has
      · cases has
      · next keeps =>
        rw [knows d y,owned y d has]
        have other : ¬ (d = c ∧ y = x) := by
          rintro ⟨rfl,rfl⟩
          exact keeps ⟨rfl,has⟩
        simp [other]
    · intro y other
      rw [controllers y,if_neg (fun both => other both.1)]
    · intro y other
      rw [knows c y]
      simp [other]
    · intro _
      rw [knows c x]
      simp

theorem revokeControl_sparing (owned : n.Owned) (controls : n.controllerOf x = some c)
    (positive : tick ≠ 0) : Sparing c n (revokeControl accepts n x tick).2 ∧
      ∀ y, (revokeControl accepts n x tick).2.controllerOf y = if y = x then none else n.controllerOf y := by
  have controllers := fun y => AuthoritativeCharacterNetwork.controllerOf_revokeControl accepts n x y positive
  have knows := AuthoritativeCharacterNetwork.knows_revokeControl accepts n x tick
  refine ⟨⟨fun d _ y => knows d y,?_,?_,?_,?_⟩,controllers⟩
  · intro d _ y has
    have same := controllers y
    split at same
    · exact absurd (has.symm.trans same) nofun
    · exact same.symm.trans has
  · intro d other y has
    refine (controllers y).trans ?_
    rw [if_neg]
    · exact has
    · rintro rfl
      rw [controls] at has
      exact other (some.inj has).symm
  · intro d
    show (AuthoritativeCharacterNetwork.revokeControl accepts n x tick).peers.contains d = _
    rw [AuthoritativeCharacterNetwork.revokeControl_peers]
  · intro _ y d has
    have same := controllers y
    split at same
    · exact absurd (has.symm.trans same) nofun
    · exact (knows d y).trans (owned y d (same.symm.trans has))

end

namespace Session
section
variable {μ : Type} {c : ConnectionId}

theorem markCharacters_sparing (c : ConnectionId) (xs : List ObjectId) (start : Called μ) :
    Sparing c start.2 (markCharacters c xs start).2 ∧
      (∀ y, (markCharacters c xs start).2.controllerOf y = start.2.controllerOf y) ∧
      ((markCharacters c xs start).1 → start.1 ∧
        ∀ y, (markCharacters c xs start).2.knows c y ↔ start.2.knows c y ∨ y ∈ xs) := by
  induction xs generalizing start with
  | nil => exact ⟨.refl c start.2,fun _ => rfl,fun healthy => ⟨healthy,fun y => by simp [markCharacters]⟩⟩
  | cons x rest ih =>
    obtain ⟨once,controllers,added⟩ := markMaterialized_sparing start.2 c x
    obtain ⟨later,controllers',all⟩ :=
      ih (start.1 && (markMaterialized start.2 c x).1,(markMaterialized start.2 c x).2)
    refine ⟨once.trans later,fun y => (controllers' y).trans (controllers y),?_⟩
    intro healthy
    obtain ⟨before,members⟩ := all healthy
    simp only [Bool.and_eq_true] at before
    refine ⟨before.1,?_⟩
    intro y
    refine (members y).trans ?_
    rw [added before.2 y,mem_cons]
    tauto

variable [CharacterMotion μ] (accepts : ConnectionId → CharacterMessage μ → Bool)

/-- The characters that leave are unknown to the peer, and its record of the one it controls follows. -/
theorem unmarkCharacters_sparing (c : ConnectionId) (xs : List ObjectId) (start : Called μ × Option ObjectId) :
    Sparing c start.1.2 (unmarkCharacters accepts c xs start).1.2 ∧
      (∀ y, y ∉ xs → (unmarkCharacters accepts c xs start).1.2.controllerOf y = start.1.2.controllerOf y) ∧
      (∀ y, y ∉ xs → (unmarkCharacters accepts c xs start).1.2.knows c y = start.1.2.knows c y) ∧
      ((unmarkCharacters accepts c xs start).1.1 → start.1.1 ∧
        (∀ y ∈ xs, (unmarkCharacters accepts c xs start).1.2.knows c y = false) ∧
        ∀ y, (unmarkCharacters accepts c xs start).2 = some y ↔ start.2 = some y ∧ y ∉ xs) := by
  induction xs generalizing start with
  | nil =>
    refine ⟨.refl c start.1.2,fun _ _ => rfl,fun _ _ => rfl,fun healthy => ⟨healthy,by simp,?_⟩⟩
    intro y
    simp [unmarkCharacters]
  | cons x rest ih =>
    obtain ⟨once,controllers,known,gone⟩ := markUnmaterialized_sparing accepts start.1.2 c x
    generalize markedIs : markUnmaterialized accepts start.1.2 c x = marked at once controllers known gone
    obtain ⟨later,controllers',known',all⟩ := ih ((start.1.1 && marked.1,marked.2),
      if marked.1 && decide (start.2 = some x) then none else start.2)
    have unfolds : unmarkCharacters accepts c (x :: rest) start = unmarkCharacters accepts c rest
        ((start.1.1 && marked.1,marked.2),if marked.1 && decide (start.2 = some x) then none else start.2) := by
      unfold unmarkCharacters
      rw [foldl_cons,markedIs]
    rw [unfolds]
    refine ⟨once.trans later,?_,?_,?_⟩
    · intro y outside
      rw [mem_cons,not_or] at outside
      exact (controllers' y outside.2).trans (controllers y outside.1)
    · intro y outside
      rw [mem_cons,not_or] at outside
      exact (known' y outside.2).trans (known y outside.1)
    · intro healthy
      obtain ⟨before,left,held⟩ := all healthy
      simp only [Bool.and_eq_true] at before
      refine ⟨before.1,?_,?_⟩
      · intro y member
        by_cases listed : y ∈ rest
        · exact left y listed
        · have same : y = x := by
            rcases mem_cons.mp member with same | listed'
            · exact same
            · exact absurd listed' listed
          subst same
          exact (known' y listed).trans (gone before.2)
      · intro y
        rw [held y,before.2]
        by_cases here : start.2 = some x
        · simp only [here,decide_true,Bool.and_self,if_true]
          simp
          rintro rfl
          simp
        · simp only [here,decide_false,Bool.and_false,Bool.false_eq_true,if_false,mem_cons,not_or]
          constructor
          · rintro ⟨is,outside⟩
            refine ⟨is,?_,outside⟩
            rintro rfl
            exact here is
          · rintro ⟨is,-,outside⟩
            exact ⟨is,outside⟩

end

/-! ### The turn of a peer -/

section
variable {μ : Type}

structure Elsewhere (c : ConnectionId) (s t : Session μ) : Prop where
  peers : ∀ d, d ≠ c → t.peers.find? d = s.peers.find? d
  failures : ∀ d, d ≠ c → (d ∈ t.pendingPeerFailures ↔ d ∈ s.pendingPeerFailures)
  relevance : t.relevance = s.relevance
  replication : t.replication = s.replication
  characters : t.serverCharacters = s.serverCharacters
  remoteObjects : t.serverRemoteObjects = s.serverRemoteObjects
  currentTick : t.currentTick = s.currentTick
  sessionFailure : t.pendingSessionFailure = s.pendingSessionFailure

namespace Elsewhere
variable {c : ConnectionId} {s t : Session μ}

theorem refl (c : ConnectionId) (s : Session μ) : Elsewhere c s s :=
  ⟨fun _ _ => rfl,fun _ _ => .rfl,rfl,rfl,rfl,rfl,rfl,rfl⟩

theorem setPeer (elsewhere : Elsewhere c s t) (peer : Peer) : Elsewhere c s (t.setPeer c peer) :=
  { elsewhere with
    peers := fun d other => (find?_insert_of_ne _ _ other).trans (elsewhere.peers d other) }

theorem mem_fail {d : ConnectionId} : d ∈ (t.fail c).pendingPeerFailures ↔ d ∈ t.pendingPeerFailures ∨ d = c := by
  unfold Session.fail
  split
  · constructor
    · exact .inl
    · rintro (member | rfl)
      · exact member
      · assumption
  · simp

theorem fail (elsewhere : Elsewhere c s t) : Elsewhere c s (t.fail c) :=
  { elsewhere with
    failures := by
      intro d other
      rw [mem_fail,elsewhere.failures d other]
      simp [other] }

end Elsewhere

def Takes (world : World) (c : ConnectionId) (peer : Peer) (characters : List ObjectId) (x : ObjectId) : Prop :=
  world.character c = some x ∧ x ∈ characters ∧ peer.controlledCharacter ≠ some x

/-- What a peer's record says once its turn succeeded. -/
structure Served (world : World) (c : ConnectionId) (peer : Peer) (n : AuthoritativeCharacterNetwork μ) : Prop where
  control : ∀ x, peer.controlledCharacter = some x ↔ n.controllerOf x = some c
  wanted : ∀ x, peer.controlledCharacter = some x → world.character c = some x
  given : ∀ x, world.character c = some x → x ∈ peer.materializedCharacters → peer.controlledCharacter = some x

structure Bound (world : World) (c : ConnectionId) (peer : Peer) (characters : List ObjectId)
    (n m : AuthoritativeCharacterNetwork μ) : Prop where
  knows : ∀ d, d ≠ c → ∀ x, m.knows d x = n.knows d x
  gains : ∀ d, d ≠ c → ∀ x, m.controllerOf x = some d → n.controllerOf x = some d
  keeps : ∀ d, d ≠ c → ∀ x, n.controllerOf x = some d → m.controllerOf x = some d ∨ Takes world c peer characters x
  contains : ∀ d, m.peers.contains d = n.peers.contains d
  owned : n.Owned → m.Owned

variable {c : ConnectionId} {n : AuthoritativeCharacterNetwork μ} {characters : List ObjectId} {world : World}

variable {peer : Peer} {m : AuthoritativeCharacterNetwork μ}

theorem Bound.of_sparing {k : AuthoritativeCharacterNetwork μ} (first : Sparing c n m)
    (second : Bound world c peer characters m k) : Bound world c peer characters n k where
  knows := fun d other x => (second.knows d other x).trans (first.knows d other x)
  gains := fun d other x has => first.gains d other x (second.gains d other x has)
  keeps := fun d other x has => second.keeps d other x (first.keeps d other x has)
  contains := fun d => (second.contains d).trans (first.contains d)
  owned := fun was => second.owned (first.owned was)

theorem Bound.sparing (sparing : Sparing c n m) :
    Bound world c peer characters n m where
  knows := sparing.knows
  gains := sparing.gains
  keeps := fun d other x has => .inl (sparing.keeps d other x has)
  contains := sparing.contains
  owned := sparing.owned

variable [CharacterMotion μ] (accepts : ConnectionId → CharacterMessage μ → Bool)

theorem bindControl_bound (takes : Takes world c peer characters x) (positive : tick ≠ 0) :
    Bound world c peer characters n (bindControl accepts n c x tick).2 ∧
      (∀ d y, (bindControl accepts n c x tick).2.knows d y = n.knows d y) ∧
      ∀ y, y ≠ x → (bindControl accepts n c x tick).2.controllerOf y = n.controllerOf y := by
  have known : ∀ d y, (AuthoritativeCharacterNetwork.bindControl accepts n c x tick).knows d y = n.knows d y :=
    AuthoritativeCharacterNetwork.knows_congr (AuthoritativeCharacterNetwork.bindControl_peers accepts n c x tick)
  show Bound world c peer characters n (.bindControl accepts n c x tick) ∧ _
  rcases AuthoritativeCharacterNetwork.controllerOf_bindControl accepts n c x positive with
    same | ⟨knows,others,bound⟩
  · refine ⟨?_,known,?_⟩
    · rw [same]
      exact .sparing (.refl c n)
    · intro y _
      show (AuthoritativeCharacterNetwork.bindControl accepts n c x tick).controllerOf y = _
      rw [same]
  · refine ⟨⟨fun d _ y => known d y,?_,?_,?_,?_⟩,known,others⟩
    · intro d other y has
      by_cases here : y = x
      · subst here
        rcases bound with mine | free
        · rw [mine] at has
          exact absurd (some.inj has).symm other
        · rw [free] at has
          cases has
      · rwa [← others y here]
    · intro d _ y has
      by_cases here : y = x
      · subst here
        exact .inr takes
      · left
        rwa [others y here]
    · intro d
      rw [AuthoritativeCharacterNetwork.bindControl_peers]
    · intro owned y d has
      rw [known d y]
      by_cases here : y = x
      · subst here
        rcases bound with mine | free
        · rw [mine] at has
          cases has
          exact knows
        · rw [free] at has
          cases has
      · exact owned y d (by rw [← others y here]; exact has)

theorem revokeHeld_spec {held : Option ObjectId} (owned : n.Owned)
    (exact : ∀ x, held = some x ↔ n.controllerOf x = some c) (positive : tick ≠ 0) :
    (revokeHeld accepts n held tick).1 ∧ Sparing c n (revokeHeld accepts n held tick).2 ∧
      (∀ d x, (revokeHeld accepts n held tick).2.knows d x = n.knows d x) ∧
      ∀ x, (revokeHeld accepts n held tick).2.controllerOf x ≠ some c := by
  cases held with
  | none =>
    refine ⟨rfl,.refl c n,fun _ _ => rfl,?_⟩
    intro x controls
    cases (exact x).mpr controls
  | some x =>
    have controls := (exact x).mp rfl
    obtain ⟨sparing,controllers⟩ := revokeControl_sparing accepts owned controls positive
    refine ⟨?_,sparing,AuthoritativeCharacterNetwork.knows_revokeControl accepts n x tick,?_⟩
    · show ((n.controllerOf x).isSome && tick != 0) = true
      simp [controls,positive]
    · intro y still
      have same := still.symm.trans (controllers y)
      split at same
      · cases same
      · next other =>
        have held := (exact y).mpr same.symm
        exact other (some.inj held).symm

theorem synchronizeControl_spec (s : Session μ) (world : World) (peer : Peer) {view : List ObjectId}
    (owned : s.authority.Owned) (seen : ∀ x ∈ peer.materializedCharacters, x ∈ view)
    (exact : ∀ x, peer.controlledCharacter = some x ↔ s.authority.controllerOf x = some c) :
    Elsewhere c s (synchronizeControl accepts s world c peer view) ∧
      (synchronizeControl accepts s world c peer view).remotes = s.remotes ∧
      (∀ d x, (synchronizeControl accepts s world c peer view).authority.knows d x = s.authority.knows d x) ∧
      Bound world c peer peer.materializedCharacters s.authority
        (synchronizeControl accepts s world c peer view).authority ∧
      ∃ later, (synchronizeControl accepts s world c peer view).peers.find? c = some later ∧
        later.phase = peer.phase ∧ later.materializedCharacters = peer.materializedCharacters ∧
        later.materializedRemotes = peer.materializedRemotes ∧
        (c ∉ (synchronizeControl accepts s world c peer view).pendingPeerFailures →
          Served world c later (synchronizeControl accepts s world c peer view).authority) := by
  have positive : s.tick ≠ 0 := by
    unfold Session.tick
    omega
  unfold synchronizeControl
  split
  · next same =>
    refine ⟨(Elsewhere.refl c s).setPeer peer,rfl,fun _ _ => rfl,.sparing (.refl c _),peer,
      find?_insert_self _ _ _,rfl,rfl,rfl,fun _ => ⟨exact,?_,?_⟩⟩
    · intro x holds
      rw [same,holds]
    · intro x wants _
      rw [← same,wants]
  · next differs =>
    obtain ⟨succeeded,sparing,known,free⟩ := revokeHeld_spec accepts owned exact positive
    generalize revokeHeld accepts s.authority peer.controlledCharacter s.tick = revoked
      at succeeded sparing known free
    dsimp only
    rw [if_neg (by simp [succeeded])]
    have freed : Elsewhere c s
        ({ s with authority := revoked.2 }.setPeer c { peer with controlledCharacter := none }) :=
      { Elsewhere.refl c s with peers := fun d other => find?_insert_of_ne _ _ other }
    have unheld : ∀ x, (none : Option ObjectId) = some x ↔ revoked.2.controllerOf x = some c :=
      fun x => ⟨fun absurd => (nomatch absurd),fun controls => absurd controls (free x)⟩
    split
    · next unwanted =>
      refine ⟨freed,rfl,known,.sparing sparing,{ peer with controlledCharacter := none },
        find?_insert_self _ _ _,rfl,rfl,rfl,fun _ => ⟨unheld,?_,?_⟩⟩
      · intro x holds
        cases holds
      · intro x wants
        rw [unwanted] at wants
        cases wants
    · next x wanted =>
      split
      · next materialized =>
        have takes : Takes world c peer peer.materializedCharacters x :=
          ⟨wanted,materialized.2,fun already => differs (wanted.trans already.symm)⟩
        obtain ⟨bound,knows,others⟩ := bindControl_bound accepts takes positive
        have whole := Bound.of_sparing sparing bound
        have knowing := fun d y => (knows d y).trans (known d y)
        generalize boundIs : bindControl accepts revoked.2 c x s.tick = called at bound knows others whole knowing
        have called_is : bindControl accepts
            ({ s with authority := revoked.2 }.setPeer c { peer with controlledCharacter := none }).authority c x s.tick =
              called := boundIs
        rw [called_is]
        split
        · next success =>
          refine ⟨{ freed with
              peers := fun d other => (find?_insert_of_ne _ _ other).trans (freed.peers d other) },
            rfl,knowing,whole,{ peer with controlledCharacter := some x },find?_insert_self _ _ _,
            rfl,rfl,rfl,fun _ => ⟨?_,?_,?_⟩⟩
          · have controls : called.2.controllerOf x = some c := by
              rw [← boundIs] at success ⊢
              simp only [bindControl,Bool.and_eq_true,decide_eq_true_eq] at success
              exact success.2
            intro y
            constructor
            · intro holds
              cases holds
              exact controls
            · intro has
              by_cases here : y = x
              · rw [here]
              · exact absurd ((others y here).symm.trans has) (free y)
          · intro y holds
            exact wanted.trans holds
          · intro y wants _
            exact wanted.symm.trans wants
        · refine ⟨{ freed with failures := ?_ },rfl,knowing,whole,{ peer with controlledCharacter := none },
            find?_insert_self _ _ _,rfl,rfl,rfl,absurd ?_⟩
          · intro d other
            refine Elsewhere.mem_fail.trans ?_
            simp [other,Session.setPeer]
          · exact Elsewhere.mem_fail.mpr (.inr rfl)
      · next unmaterialized =>
        refine ⟨freed,rfl,known,.sparing sparing,{ peer with controlledCharacter := none },
          find?_insert_self _ _ _,rfl,rfl,rfl,fun _ => ⟨unheld,?_,?_⟩⟩
        · intro y holds
          cases holds
        · intro y wants has
          have same : x = y := some.inj (wanted.symm.trans wants)
          subst same
          exact absurd ⟨seen x has,has⟩ unmaterialized

end

section
variable {μ : Type}

structure Waiting (s : Session μ) (world : World) (c : ConnectionId) (peer : Peer) (view : List ObjectId) : Prop where
  characters : ∀ x, x ∈ peer.materializedCharacters ↔ s.authority.knows c x = true
  owns : ∀ x, s.authority.controllerOf x = some c → peer.controlledCharacter = some x
  held : ∀ x, peer.controlledCharacter = some x →
    x ∈ peer.materializedCharacters ∧ (s.authority.controllerOf x = some c ∨ x ∉ desiredCharacters s world c peer view)
  covers : ∀ x ∈ s.remotes.published c, x ∈ peer.materializedRemotes
  kept : ∀ x ∈ peer.materializedRemotes, x ∈ s.serverRemoteObjects → x ∈ view → x ∈ s.remotes.published c

/-- The record of a peer after a turn that did not fail. -/
structure Exact (s : Session μ) (world : World) (c : ConnectionId) (peer : Peer) : Prop where
  characters : ∀ x, x ∈ peer.materializedCharacters ↔ s.authority.knows c x = true
  remotes : ∀ x, x ∈ peer.materializedRemotes ↔ x ∈ s.remotes.published c
  served : Served world c peer s.authority

variable {view : List ObjectId} {s : Session μ} {c : ConnectionId} {world : World}

theorem mem_desiredRemotes : x ∈ desiredRemotes s view ↔ x ∈ s.serverRemoteObjects ∧ x ∈ view := by
  simp [desiredRemotes]

variable {peer : Peer}

theorem publish_exact (registered : s.remotes.Registered) (waiting : Waiting s world c peer view)
    {published : Bool × Remotes}
    (publishedIs : publishRemotes view c ((desiredRemotes s view).filter fun x => decide (x ∉ peer.materializedRemotes))
      (unmarkRemotes c (peer.materializedRemotes.filter fun x => decide (x ∉ desiredRemotes s view))
        (true,s.remotes)) = published) : Remotes.Local c s.remotes published.2 ∧
      (published.1 → ∀ x, x ∈ desiredRemotes s view ↔ x ∈ published.2.published c) := by
  obtain ⟨unmarked,left⟩ := unmarkRemotes_local c
    (peer.materializedRemotes.filter fun x => decide (x ∉ desiredRemotes s view)) (true,s.remotes)
  obtain ⟨linked,added⟩ := publishRemotes_local view c
    ((desiredRemotes s view).filter fun x => decide (x ∉ peer.materializedRemotes))
    (unmarkRemotes c (peer.materializedRemotes.filter fun x => decide (x ∉ desiredRemotes s view)) (true,s.remotes))
  rw [publishedIs] at linked added
  refine ⟨unmarked.trans linked,?_⟩
  intro healthy x
  rw [(added healthy).2 x,left registered x]
  simp only [mem_filter,decide_eq_true_eq]
  constructor
  · intro desired
    by_cases recorded : x ∈ peer.materializedRemotes
    · left
      obtain ⟨listed,seen⟩ := mem_desiredRemotes.mp desired
      exact ⟨waiting.kept x recorded listed seen,fun both => both.2 desired⟩
    · exact .inr ⟨desired,recorded⟩
  · rintro (⟨was,stays⟩ | ⟨desired,-⟩)
    · by_contra undesired
      exact stays ⟨waiting.covers x was,undesired⟩
    · exact desired

variable [CharacterMotion μ] (accepts : ConnectionId → CharacterMessage μ → Bool)

theorem mark_exact (owned : s.authority.Owned) (waiting : Waiting s world c peer view)
    {left : Called μ × Option ObjectId} (leftIs : unmarkCharacters accepts c
      (peer.materializedCharacters.filter fun x => decide (x ∉ desiredCharacters s world c peer view))
      ((true,s.authority),peer.controlledCharacter) = left) {marked : Called μ}
    (markedIs : markCharacters c ((desiredCharacters s world c peer view).filter fun x =>
      decide (x ∉ peer.materializedCharacters)) left.1 = marked) : Sparing c s.authority marked.2 ∧ (marked.1 →
        (∀ x, x ∈ desiredCharacters s world c peer view ↔ marked.2.knows c x) ∧
        (∀ x, left.2 = some x ↔ marked.2.controllerOf x = some c) ∧
        ∀ x ∈ desiredCharacters s world c peer view, left.2 = some x ↔ peer.controlledCharacter = some x) := by
  obtain ⟨sparing,stays,known,gone⟩ := unmarkCharacters_sparing accepts c
    (peer.materializedCharacters.filter fun x => decide (x ∉ desiredCharacters s world c peer view))
    ((true,s.authority),peer.controlledCharacter)
  rw [leftIs] at sparing stays known gone
  obtain ⟨marking,controllers,added⟩ := markCharacters_sparing c
    ((desiredCharacters s world c peer view).filter fun x => decide (x ∉ peer.materializedCharacters)) left.1
  rw [markedIs] at marking controllers added
  refine ⟨sparing.trans marking,?_⟩
  intro healthy
  obtain ⟨before,members⟩ := added healthy
  obtain ⟨-,unknown,held⟩ := gone before
  simp only [mem_filter,decide_eq_true_eq] at stays known unknown held members
  refine ⟨?_,?_,?_⟩
  · intro x
    rw [members x]
    constructor
    · intro desired
      by_cases recorded : x ∈ peer.materializedCharacters
      · left
        rw [known x (fun both => both.2 desired)]
        exact (waiting.characters x).mp recorded
      · exact .inr ⟨desired,recorded⟩
    · rintro (knows | ⟨desired,-⟩)
      · by_contra undesired
        by_cases recorded : x ∈ peer.materializedCharacters
        · rw [unknown x ⟨recorded,undesired⟩] at knows
          cases knows
        · rw [known x (fun both => recorded both.1)] at knows
          exact recorded ((waiting.characters x).mpr knows)
      · exact desired
  · intro x
    rw [held x,controllers x]
    constructor
    · rintro ⟨holds,outside⟩
      rw [stays x outside]
      obtain ⟨recorded,controls | leaves⟩ := waiting.held x holds
      · exact controls
      · exact absurd ⟨recorded,leaves⟩ outside
    · intro controls
      have outside : ¬ (x ∈ peer.materializedCharacters ∧ x ∉ desiredCharacters s world c peer view) := by
        intro leaving
        have knows := sparing.owned owned x c controls
        rw [unknown x leaving] at knows
        cases knows
      exact ⟨waiting.owns x ((stays x outside).symm.trans controls),outside⟩
  · intro x desired
    rw [held x]
    constructor
    · exact And.left
    · exact fun holds => ⟨holds,fun both => both.2 desired⟩

theorem synchronizePeer_spec (found : s.peers.find? c = some peer) (owned : s.authority.Owned)
    (registered : s.remotes.Registered) (waiting : Waiting s world c peer view) :
    Elsewhere c s (synchronizePeer accepts s world c peer view) ∧
      Remotes.Local c s.remotes (synchronizePeer accepts s world c peer view).remotes ∧
      Bound world c peer (desiredCharacters s world c peer view) s.authority
        (synchronizePeer accepts s world c peer view).authority ∧
      ∃ later, (synchronizePeer accepts s world c peer view).peers.find? c = some later ∧ later.phase = peer.phase ∧
        (c ∉ (synchronizePeer accepts s world c peer view).pendingPeerFailures →
          later.materializedCharacters = desiredCharacters s world c peer view ∧
          Exact (synchronizePeer accepts s world c peer view) world c later) := by
  unfold synchronizePeer
  dsimp only
  generalize publishedIs : publishRemotes view c ((desiredRemotes s view).filter fun x =>
    decide (x ∉ peer.materializedRemotes)) (unmarkRemotes c (peer.materializedRemotes.filter fun x =>
      decide (x ∉ desiredRemotes s view)) (true,s.remotes)) = published
  obtain ⟨linked,remotes⟩ := publish_exact registered waiting publishedIs
  generalize leftIs : unmarkCharacters accepts c
    (peer.materializedCharacters.filter fun x => decide (x ∉ desiredCharacters s world c peer view))
    ((true,s.authority),peer.controlledCharacter) = left
  generalize markedIs : markCharacters c ((desiredCharacters s world c peer view).filter fun x =>
    decide (x ∉ peer.materializedCharacters)) left.1 = marked
  obtain ⟨sparing,characters⟩ := mark_exact accepts owned waiting leftIs markedIs
  have linkedElsewhere : Elsewhere c s { s with remotes := published.2 } :=
    ⟨fun _ _ => rfl,fun _ _ => .rfl,rfl,rfl,rfl,rfl,rfl,rfl⟩
  split
  · exact ⟨linkedElsewhere.fail,linked,.sparing (.refl c _),peer,found,rfl,
      fun healthy => absurd (Elsewhere.mem_fail.mpr (.inr rfl)) healthy⟩
  · next remotesHealthy =>
    have known : Elsewhere c s { s with remotes := published.2, authority := marked.2 } :=
      ⟨fun _ _ => rfl,fun _ _ => .rfl,rfl,rfl,rfl,rfl,rfl,rfl⟩
    split
    · exact ⟨(known.setPeer _).fail,linked,.sparing sparing,_,find?_insert_self _ _ _,rfl,
        fun healthy => absurd (Elsewhere.mem_fail.mpr (.inr rfl)) healthy⟩
    · next charactersHealthy =>
      simp only [Bool.not_eq_true,Bool.not_eq_false'] at remotesHealthy charactersHealthy
      obtain ⟨knows,control,same⟩ := characters charactersHealthy
      have seen : ∀ x ∈ desiredCharacters s world c peer view, x ∈ view := by
        intro x desired
        simp only [desiredCharacters,mem_filter,Bool.and_eq_true,decide_eq_true_eq] at desired
        exact desired.2.1.2
      obtain ⟨controlled,sameRemotes,sameKnows,bound,later,stored,phase,laterCharacters,laterRemotes,served⟩ :=
        synchronizeControl_spec accepts { s with remotes := published.2, authority := marked.2 } world
          { peer with
            materializedRemotes := desiredRemotes s view, controlledCharacter := left.2
            materializedCharacters := desiredCharacters s world c peer view }
          (sparing.owned owned) seen control
      generalize synchronizeControl accepts { s with remotes := published.2, authority := marked.2 } world c
        { peer with
          materializedRemotes := desiredRemotes s view, controlledCharacter := left.2
          materializedCharacters := desiredCharacters s world c peer view } view = t at *
      refine ⟨?_,?_,?_,later,stored,phase,?_⟩
      · exact { controlled with }
      · rwa [sameRemotes]
      · refine .of_sparing sparing { bound with keeps := ?_ }
        intro d other x has
        rcases bound.keeps d other x has with keeps | ⟨wants,desired,unheld⟩
        · exact .inl keeps
        · exact .inr ⟨wants,desired,fun holds => unheld ((same x desired).mpr holds)⟩
      · intro healthy
        refine ⟨laterCharacters,?_,?_,served healthy⟩
        · intro x
          rw [laterCharacters,sameKnows]
          exact knows x
        · intro x
          rw [laterRemotes,sameRemotes]
          exact remotes remotesHealthy x

end

section
variable {μ : Type}

def disputes (s : Session μ) (world : World) (c : ConnectionId) (peer : Peer) (view : List ObjectId) (d : ConnectionId)
    (other : Peer) (otherView : List ObjectId) : Bool :=
  (world.character c).any fun x =>
    decide (x ∈ desiredCharacters s world c peer view) && decide (peer.controlledCharacter ≠ some x) &&
      decide (x ∈ desiredCharacters s world d other otherView) &&
      ((decide (d < c) && decide (world.character d = some x)) ||
        (decide (c < d) && decide (other.controlledCharacter = some x)))

def viewOf (s : Session μ) (c : ConnectionId) : List ObjectId := (s.replication.find? c).getD []

def undisputed (s : Session μ) (world : World) : Bool :=
  s.peers.entries.all fun e => s.peers.entries.all fun f =>
    decide (e.2.phase ≠ .ready) || decide (f.2.phase ≠ .ready) ||
      !disputes s world e.1 e.2 (s.viewOf e.1) f.1 f.2 (s.viewOf f.1)

def keepsPublished (s : Session μ) : Bool :=
  s.peers.entries.all fun e =>
    decide (e.2.phase ≠ .ready) || e.2.materializedRemotes.all fun x =>
      decide (x ∉ s.serverRemoteObjects) || decide (x ∉ s.viewOf e.1) || decide (x ∈ s.remotes.published e.1)

variable {c : ConnectionId} {s : Session μ} {view : List ObjectId} {world : World} {start : Session μ}

theorem viewOf_of_find (found : s.replication.find? c = some view) : s.viewOf c = view := by
  unfold viewOf
  rw [found]
  rfl

variable {peer : Peer}

theorem undisputed_apart (agreed : s.undisputed world) {d : ConnectionId} {other : Peer}
    {otherView : List ObjectId} (found : s.peers.find? c = some peer) (ready : peer.phase = .ready)
    (viewed : s.replication.find? c = some view) (found' : s.peers.find? d = some other)
    (ready' : other.phase = .ready) (viewed' : s.replication.find? d = some otherView)
    (takes : Takes world c peer (desiredCharacters s world c peer view) x)
    (desired : x ∈ desiredCharacters s world d other otherView) :
    (d < c → world.character d ≠ some x) ∧ (c < d → other.controlledCharacter ≠ some x) := by
  have one := all_eq_true.mp agreed _ (find?_eq_some.mp found)
  have both := all_eq_true.mp one _ (find?_eq_some.mp found')
  obtain ⟨wants,has,unheld⟩ := takes
  simp only [disputes,viewOf_of_find viewed,viewOf_of_find viewed',wants,any_some,has,desired,unheld,ready,
    ready',ne_eq,not_true_eq_false,not_false_eq_true,decide_false,decide_true,Bool.false_or,Bool.true_and,
    Bool.not_eq_true',Bool.or_eq_false_iff,Bool.and_eq_false_iff,decide_eq_false_iff_not] at both
  constructor
  · intro before
    rcases both.1 with later | unwanted
    · exact absurd before later
    · exact unwanted
  · intro behind
    rcases both.2 with earlier | free
    · exact absurd behind earlier
    · exact free

theorem desiredCharacters_congr {t : Session μ} (relevance : t.relevance = s.relevance)
    (characters : t.serverCharacters = s.serverCharacters) (world : World) (c : ConnectionId) (peer : Peer)
    (view : List ObjectId) : desiredCharacters t world c peer view = desiredCharacters s world c peer view := by
  unfold desiredCharacters
  rw [relevance,characters]

/-- The session while the peers have their turns; `rest` are those that have not had theirs. -/
structure Progress (world : World) (start : Session μ) (rest : List ConnectionId) (s : Session μ) : Prop where
  relevance : s.relevance = start.relevance
  replication : s.replication = start.replication
  characters : s.serverCharacters = start.serverCharacters
  remoteObjects : s.serverRemoteObjects = start.serverRemoteObjects
  sessionFailure : s.pendingSessionFailure = start.pendingSessionFailure
  absent : ∀ c, start.peers.find? c = none → s.peers.find? c = none
  phases : ∀ c peer, start.peers.find? c = some peer → ∃ later, s.peers.find? c = some later ∧ later.phase = peer.phase
  untouched : ∀ c peer, start.peers.find? c = some peer → c ∈ rest ∨ peer.phase ≠ .ready → s.peers.find? c = some peer
  known : ∀ c, s.authority.peers.contains c = start.authority.peers.contains c
  linked : ∀ c, s.remotes.peers.contains c = start.remotes.peers.contains c
  owned : s.authority.Owned
  registered : s.remotes.Registered
  waiting : ∀ c ∈ rest, ∀ peer view, start.peers.find? c = some peer → peer.phase = .ready →
    start.replication.find? c = some view → Waiting s world c peer view
  done : ∀ c, c ∉ rest → ∀ peer, s.peers.find? c = some peer → peer.phase = .ready → c ∉ s.pendingPeerFailures →
    Exact s world c peer ∧ ∃ before view, start.peers.find? c = some before ∧ start.replication.find? c = some view ∧
      peer.materializedCharacters = desiredCharacters start world c before view

variable {rest : List ConnectionId}

theorem Progress.ready {world : World} {start s : Session μ}
    (progress : Progress world start rest s) (found : s.peers.find? c = some peer)
    (ready : peer.phase = .ready) : ∃ before, start.peers.find? c = some before ∧ before.phase = .ready := by
  cases before : start.peers.find? c with
  | none =>
    rw [progress.absent c before] at found
    cases found
  | some first =>
    obtain ⟨later,stored,phase⟩ := progress.phases c first before
    rw [found] at stored
    cases stored
    exact ⟨first,rfl,phase.symm.trans ready⟩

theorem Progress.skip (progress : Progress world start (c :: rest) s)
    (unready : ∀ peer, start.peers.find? c = some peer → peer.phase ≠ .ready) : Progress world start rest s :=
  { progress with
    untouched := by
      intro d peer found which
      exact progress.untouched d peer found (which.imp_left (mem_cons_of_mem c))
    waiting := fun d member => progress.waiting d (mem_cons_of_mem c member)
    done := by
      intro d outside peer found ready
      by_cases here : d = c
      · subst here
        obtain ⟨before,started,readied⟩ := progress.ready found ready
        exact absurd readied (unready before started)
      · refine progress.done d ?_ peer found ready
        rw [mem_cons,not_or]
        exact ⟨here,outside⟩ }

variable [CharacterMotion μ] (accepts : ConnectionId → CharacterMessage μ → Bool)

theorem Progress.turn (progress : Progress world start (c :: rest) s)
    (agreed : start.undisputed world) (found : start.peers.find? c = some peer)
    (ready : peer.phase = .ready) (viewed : start.replication.find? c = some view) (fresh : c ∉ rest)
    (earlier : ∀ d, start.peers.contains d → d ∉ c :: rest → d < c) (later : ∀ d ∈ rest, c < d) :
    Progress world start rest (synchronizePeer accepts s world c peer view) := by
  have same : desiredCharacters s world c peer view = desiredCharacters start world c peer view :=
    desiredCharacters_congr progress.relevance progress.characters world c peer view
  have stored := progress.untouched c peer found (.inl (.head _))
  obtain ⟨elsewhere,linked,bound,own,storedOwn,phase,healthy⟩ := synchronizePeer_spec accepts stored
    progress.owned progress.registered (progress.waiting c (.head _) peer view found ready viewed)
  generalize synchronizePeer accepts s world c peer view = t at *
  have desires : ∀ d (other : Peer) (otherView : List ObjectId),
      desiredCharacters t world d other otherView = desiredCharacters start world d other otherView := fun d other v =>
    desiredCharacters_congr (elsewhere.relevance.trans progress.relevance)
      (elsewhere.characters.trans progress.characters) world d other v
  rw [same] at bound healthy
  refine {
    relevance := elsewhere.relevance.trans progress.relevance
    replication := elsewhere.replication.trans progress.replication
    characters := elsewhere.characters.trans progress.characters
    remoteObjects := elsewhere.remoteObjects.trans progress.remoteObjects
    sessionFailure := elsewhere.sessionFailure.trans progress.sessionFailure
    absent := ?_, phases := ?_, untouched := ?_
    known := fun d => (bound.contains d).trans (progress.known d)
    linked := fun d => (linked.contains d).trans (progress.linked d)
    owned := bound.owned progress.owned
    registered := linked.registered progress.registered
    waiting := ?_, done := ?_ }
  · intro d missing
    have other : d ≠ c := by
      rintro rfl
      rw [found] at missing
      cases missing
    rw [elsewhere.peers d other]
    exact progress.absent d missing
  · intro d before stored'
    by_cases here : d = c
    · subst here
      rw [found] at stored'
      cases stored'
      exact ⟨own,storedOwn,phase⟩
    · rw [elsewhere.peers d here]
      exact progress.phases d before stored'
  · intro d before stored' which
    have other : d ≠ c := by
      rintro rfl
      rw [found] at stored'
      cases stored'
      rcases which with member | unready
      · exact fresh member
      · exact unready ready
    rw [elsewhere.peers d other]
    exact progress.untouched d before stored' (which.imp_left (mem_cons_of_mem c))
  · intro d member before otherView stored' ready' viewed'
    have other : d ≠ c := by
      rintro rfl
      exact fresh member
    have waits := progress.waiting d (mem_cons_of_mem c member) before otherView stored' ready' viewed'
    refine ⟨?_,?_,?_,?_,?_⟩
    · intro x
      rw [bound.knows d other x]
      exact waits.characters x
    · exact fun x controls => waits.owns x (bound.gains d other x controls)
    · intro x holds
      obtain ⟨recorded,controls | leaves⟩ := waits.held x holds
      · refine ⟨recorded,?_⟩
        rcases bound.keeps d other x controls with keeps | takes
        · exact .inl keeps
        · right
          rw [desires]
          intro desired
          exact (undisputed_apart agreed found ready viewed stored' ready' viewed' takes desired).2 (later d member) holds
      · refine ⟨recorded,.inr ?_⟩
        rwa [desires,← desiredCharacters_congr progress.relevance progress.characters]
    · intro x
      rw [linked.published d other]
      exact waits.covers x
    · intro x recorded listed seen
      rw [linked.published d other]
      exact waits.kept x recorded (elsewhere.remoteObjects ▸ listed) seen
  · intro d outside last stored' ready' unfailed
    by_cases here : d = c
    · subst here
      rw [storedOwn] at stored'
      cases stored'
      obtain ⟨characters,exact⟩ := healthy unfailed
      exact ⟨exact,peer,view,found,viewed,characters⟩
    · rw [elsewhere.peers d here] at stored'
      rw [elsewhere.failures d here] at unfailed
      have passed : d ∉ c :: rest := by
        rw [mem_cons,not_or]
        exact ⟨here,outside⟩
      obtain ⟨exact,before,otherView,first,viewed',characters⟩ := progress.done d passed last stored' ready' unfailed
      refine ⟨⟨?_,?_,⟨?_,exact.served.wanted,exact.served.given⟩⟩,before,otherView,first,viewed',characters⟩
      · intro x
        rw [bound.knows d here x]
        exact exact.characters x
      · intro x
        rw [linked.published d here]
        exact exact.remotes x
      · intro x
        rw [exact.served.control x]
        constructor
        · intro controls
          rcases bound.keeps d here x controls with keeps | takes
          · exact keeps
          · exfalso
            obtain ⟨first',started,readied⟩ := progress.ready stored' ready'
            rw [first] at started
            cases started
            have desired : x ∈ desiredCharacters start world d before otherView := by
              rw [← characters]
              exact (exact.characters x).mpr (progress.owned x d controls)
            have sooner : d < c := earlier d (by unfold SortedMap.contains; rw [first]; rfl) passed
            exact (undisputed_apart agreed found ready viewed first readied viewed' takes desired).1 sooner
              (exact.served.wanted x ((exact.served.control x).mpr controls))
        · exact bound.gains d here x

theorem Progress.turns (agreed : start.undisputed world)
    (viewed : ∀ c peer, start.peers.find? c = some peer → peer.phase = .ready →
      ∃ view, start.replication.find? c = some view) (rest : List ConnectionId) :
    ∀ s, Progress world start rest s → rest.Pairwise (· < ·) →
      (∀ d, start.peers.contains d → d ∉ rest → ∀ c ∈ rest, d < c) →
      Progress world start [] (synchronizePeers accepts world rest s) := by
  induction rest with
  | nil => exact fun s progress _ _ => progress
  | cons c rest ih =>
    intro s progress sorted earlier
    obtain ⟨later,sorted'⟩ := pairwise_cons.mp sorted
    have fresh : c ∉ rest := fun member => lt_irrefl c (later c member)
    have earlier' : ∀ d, start.peers.contains d → d ∉ rest → ∀ e ∈ rest, d < e := by
      intro d known outside e member
      by_cases here : d = c
      · exact here ▸ later e member
      · refine earlier d known ?_ e (mem_cons_of_mem c member)
        rw [mem_cons,not_or]
        exact ⟨here,outside⟩
    unfold synchronizePeers
    split
    · next peer view found seen =>
      cases started : start.peers.find? c with
      | none =>
        rw [progress.absent c started] at found
        cases found
      | some first =>
        have same := progress.untouched c first started (.inl (.head _))
        rw [found] at same
        cases same
        rw [progress.replication] at seen
        split
        · next ready =>
          exact ih _ (progress.turn accepts agreed started ready seen fresh
            (fun d known outside => earlier d known outside c (.head _)) later) sorted' earlier'
        · next unready =>
          refine ih _ (progress.skip ?_) sorted' earlier'
          intro peer' found'
          rw [started] at found'
          cases found'
          exact unready
    · next nothing =>
      refine ih _ (progress.skip ?_) sorted' earlier'
      intro peer started ready
      obtain ⟨view,seen⟩ := viewed c peer started ready
      have stored := progress.untouched c peer started (.inl (.head _))
      exact nothing peer view stored (progress.replication ▸ seen)

end

end Session
end Gargantuan.GameSession
