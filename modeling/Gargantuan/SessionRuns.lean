import Gargantuan.SessionMirrors

/-!
Runs of a server session. Between two synchronizations a healthy ready peer's
record of its characters and of the one it controls is exact, and its record of
the Remotes covers what is published (`Sound`); a synchronization without
disputes makes all of it exact (`synchronized_run`). A peer that is gone is known
to no manager.
-/
namespace Gargantuan.GameSession
open SortedMap List Option Remotes Session.Elsewhere
open CharacterNetwork
namespace Session

section
variable {μ : Type}

structure Mirrored (s : Session μ) (c : ConnectionId) (peer : Peer) : Prop where
  characters : ∀ x, x ∈ peer.materializedCharacters ↔ s.authority.knows c x = true
  control : ∀ x, peer.controlledCharacter = some x ↔ s.authority.controllerOf x = some c
  covers : ∀ x ∈ s.remotes.published c, x ∈ peer.materializedRemotes

structure Sound (s : Session μ) : Prop where
  owned : s.authority.Owned
  registered : s.remotes.Registered
  known : ∀ c, s.authority.peers.contains c = true → ∃ peer, s.peers.find? c = some peer ∧ peer.phase = .ready
  linked : ∀ c, s.remotes.peers.contains c = true → ∃ peer, s.peers.find? c = some peer ∧ peer.phase = .ready
  relevant : ∀ c, s.relevance.contains c = true → s.peers.contains c = true
  replicated : ∀ c, s.replication.contains c = true → s.peers.contains c = true
  viewed : ∀ c peer, s.peers.find? c = some peer → peer.phase ≠ .transportConnected → s.replication.contains c = true
  blank : ∀ c peer, s.peers.find? c = some peer → peer.phase ≠ .ready →
    peer.controlledCharacter = none ∧ peer.materializedCharacters = [] ∧ peer.materializedRemotes = []
  mirrored : ∀ c peer, s.peers.find? c = some peer → peer.phase = .ready → c ∉ s.pendingPeerFailures →
    Mirrored s c peer

variable {s : Session μ} {c : ConnectionId}

theorem Sound.start (world : World) (sound : Sound s) (drained : s.pendingPeerFailures = [])
    (kept : s.keepsPublished) : Progress world s s.peers.keys s where
  relevance := rfl
  replication := rfl
  characters := rfl
  remoteObjects := rfl
  sessionFailure := rfl
  absent := fun _ missing => missing
  phases := fun _ peer found => ⟨peer,found,rfl⟩
  untouched := fun _ _ found _ => found
  known := fun _ => rfl
  linked := fun _ => rfl
  owned := sound.owned
  registered := sound.registered
  waiting := by
    intro c _ peer view found ready viewed
    have mirrored := sound.mirrored c peer found ready (by rw [drained]; exact not_mem_nil)
    refine ⟨mirrored.characters,fun x => (mirrored.control x).mpr,?_,mirrored.covers,?_⟩
    · intro x holds
      have controls := (mirrored.control x).mp holds
      exact ⟨(mirrored.characters x).mpr (sound.owned x c controls),.inl controls⟩
    · intro x recorded listed seen
      have all := all_eq_true.mp kept _ (find?_eq_some.mp found)
      simp only [ready,ne_eq,not_true_eq_false,decide_false,Bool.false_or] at all
      have one := all_eq_true.mp all x recorded
      rw [viewOf_of_find viewed] at one
      simpa [listed,seen] using one
  done := by
    intro c outside peer found
    exact absurd (SortedMap.mem_keys.mpr ⟨peer,found⟩) outside

theorem Progress.sound {world : World} {t : Session μ} (sound : Sound s) (progress : Progress world s [] t) :
    Sound t := by
  have present : ∀ c peer, s.peers.find? c = some peer → peer.phase = .ready →
      ∃ later, t.peers.find? c = some later ∧ later.phase = .ready := by
    intro c peer found ready
    obtain ⟨later,stored,phase⟩ := progress.phases c peer found
    exact ⟨later,stored,phase.trans ready⟩
  have contained : ∀ c, s.peers.contains c → t.peers.contains c := by
    intro c known
    obtain ⟨peer,found⟩ := contains_iff.mp known
    obtain ⟨later,stored,-⟩ := progress.phases c peer found
    exact contains_iff.mpr ⟨later,stored⟩
  refine ⟨progress.owned,progress.registered,?_,?_,?_,?_,?_,?_,?_⟩
  · intro c known
    obtain ⟨peer,found,ready⟩ := sound.known c (progress.known c ▸ known)
    exact present c peer found ready
  · intro c linked
    obtain ⟨peer,found,ready⟩ := sound.linked c (progress.linked c ▸ linked)
    exact present c peer found ready
  · intro c relevant
    exact contained c (sound.relevant c (progress.relevance ▸ relevant))
  · intro c replicated
    exact contained c (sound.replicated c (progress.replication ▸ replicated))
  · intro c later stored hello
    rw [progress.replication]
    cases found : s.peers.find? c with
    | none =>
      rw [progress.absent c found] at stored
      cases stored
    | some peer =>
      obtain ⟨same,stored',phase⟩ := progress.phases c peer found
      rw [stored] at stored'
      cases stored'
      exact sound.viewed c peer found (phase ▸ hello)
  · intro c later stored unready
    cases found : s.peers.find? c with
    | none =>
      rw [progress.absent c found] at stored
      cases stored
    | some peer =>
      obtain ⟨same,stored',phase⟩ := progress.phases c peer found
      rw [stored] at stored'
      cases stored'
      have same := progress.untouched c peer found (.inr (phase ▸ unready))
      rw [stored] at same
      cases same
      exact sound.blank c later found unready
  · intro c peer stored ready healthy
    obtain ⟨exact,-⟩ := progress.done c not_mem_nil peer stored ready healthy
    exact ⟨exact.characters,exact.served.control,fun x => (exact.remotes x).mpr⟩

/-- What the records of a peer say, without what is only needed for the next frame. -/
def record (peer : Peer) : PeerPhase × Option ObjectId × List ObjectId × List ObjectId :=
  (peer.phase,peer.controlledCharacter,peer.materializedCharacters,peer.materializedRemotes)

/-- A step that leaves the records and the characters alone and publishes nothing new. -/
theorem Sound.relax {t : Session μ} (sound : Sound s)
    (peers : ∀ d, (t.peers.find? d).map record = (s.peers.find? d).map record)
    (knows : ∀ d x, t.authority.knows d x = s.authority.knows d x)
    (controllers : ∀ x, t.authority.controllerOf x = s.authority.controllerOf x)
    (known : ∀ d, t.authority.peers.contains d = s.authority.peers.contains d) (registered : t.remotes.Registered)
    (linked : ∀ d, t.remotes.peers.contains d → s.remotes.peers.contains d)
    (published : ∀ d, ∀ x ∈ t.remotes.published d, x ∈ s.remotes.published d)
    (relevant : ∀ d, t.relevance.contains d = s.relevance.contains d)
    (replicated : ∀ d, t.replication.contains d = s.replication.contains d)
    (failures : ∀ d ∈ s.pendingPeerFailures, d ∈ t.pendingPeerFailures) : Sound t := by
  have forward : ∀ d peer, s.peers.find? d = some peer → ∃ later, t.peers.find? d = some later ∧ record later = record peer := by
    intro d peer found
    have same := peers d
    rwa [found,map_some,map_eq_some_iff] at same
  have backward : ∀ d later, t.peers.find? d = some later → ∃ peer, s.peers.find? d = some peer ∧ record peer = record later := by
    intro d later stored
    have same := (peers d).symm
    rwa [stored,map_some,map_eq_some_iff] at same
  have contained : ∀ d, s.peers.contains d → t.peers.contains d := by
    intro d has
    obtain ⟨peer,found⟩ := contains_iff.mp has
    obtain ⟨later,stored,-⟩ := forward d peer found
    exact contains_iff.mpr ⟨later,stored⟩
  refine ⟨?_,registered,?_,?_,?_,?_,?_,?_,?_⟩
  · intro x d controls
    rw [knows]
    exact sound.owned x d (controllers x ▸ controls)
  · intro d has
    obtain ⟨peer,found,ready⟩ := sound.known d (known d ▸ has)
    obtain ⟨later,stored,same⟩ := forward d peer found
    exact ⟨later,stored,(congrArg Prod.fst same).trans ready⟩
  · intro d has
    obtain ⟨peer,found,ready⟩ := sound.linked d (linked d has)
    obtain ⟨later,stored,same⟩ := forward d peer found
    exact ⟨later,stored,(congrArg Prod.fst same).trans ready⟩
  · exact fun d has => contained d (sound.relevant d (relevant d ▸ has))
  · exact fun d has => contained d (sound.replicated d (replicated d ▸ has))
  · intro d later stored hello
    obtain ⟨peer,found,same⟩ := backward d later stored
    rw [replicated]
    exact sound.viewed d peer found fun was => hello ((congrArg Prod.fst same).symm.trans was)
  · intro d later stored unready
    obtain ⟨peer,found,same⟩ := backward d later stored
    have blank := sound.blank d peer found fun was => unready ((congrArg Prod.fst same).symm.trans was)
    simp only [record,Prod.mk.injEq] at same
    rwa [← same.2.1,← same.2.2.1,← same.2.2.2]
  · intro d later stored ready healthy
    obtain ⟨peer,found,same⟩ := backward d later stored
    simp only [record,Prod.mk.injEq] at same
    have mirrored := sound.mirrored d peer found (same.1.trans ready) (fun failed => healthy (failures d failed))
    refine ⟨?_,?_,?_⟩
    · intro x
      rw [← same.2.2.1,knows]
      exact mirrored.characters x
    · intro x
      rw [← same.2.1,controllers]
      exact mirrored.control x
    · intro x member
      rw [← same.2.2.2]
      exact mirrored.covers x (published d x member)

theorem Sound.setUnready (sound : Sound s) {next : Peer}
    (before : ∀ peer, s.peers.find? c = some peer → peer.phase ≠ .ready) (unready : next.phase ≠ .ready)
    (blank : next.controlledCharacter = none ∧ next.materializedCharacters = [] ∧ next.materializedRemotes = [])
    (viewed : next.phase ≠ .transportConnected → s.replication.contains c) : Sound (s.setPeer c next) := by
  have elsewhere : ∀ d peer, s.peers.find? d = some peer → peer.phase = .ready →
      (s.setPeer c next).peers.find? d = some peer := by
    intro d peer found ready
    refine (find?_insert_of_ne _ _ ?_).trans found
    rintro rfl
    exact before peer found ready
  have contained : ∀ d, s.peers.contains d → (s.setPeer c next).peers.contains d := by
    intro d has
    unfold SortedMap.contains setPeer at *
    rw [find?_insert]
    split
    · rfl
    · exact has
  have cases : ∀ d peer, (s.setPeer c next).peers.find? d = some peer → d = c ∧ peer = next ∨ s.peers.find? d = some peer := by
    intro d peer stored
    change (s.peers.insert c next).find? d = some peer at stored
    rw [find?_insert] at stored
    split at stored
    · next here => exact .inl ⟨here,(Option.some.inj stored).symm⟩
    · exact .inr stored
  refine ⟨sound.owned,sound.registered,?_,?_,fun d has => contained d (sound.relevant d has),
    fun d has => contained d (sound.replicated d has),?_,?_,?_⟩
  · intro d has
    obtain ⟨peer,found,ready⟩ := sound.known d has
    exact ⟨peer,elsewhere d peer found ready,ready⟩
  · intro d has
    obtain ⟨peer,found,ready⟩ := sound.linked d has
    exact ⟨peer,elsewhere d peer found ready,ready⟩
  · intro d peer stored hello
    rcases cases d peer stored with ⟨rfl,rfl⟩ | found
    · exact viewed hello
    · exact sound.viewed d peer found hello
  · intro d peer stored notReady
    rcases cases d peer stored with ⟨rfl,rfl⟩ | found
    · exact blank
    · exact sound.blank d peer found notReady
  · intro d peer stored ready healthy
    rcases cases d peer stored with ⟨rfl,rfl⟩ | found
    · exact absurd ready unready
    · have mirrored := sound.mirrored d peer found ready healthy
      exact ⟨mirrored.characters,mirrored.control,mirrored.covers⟩

structure Apart (c : ConnectionId) (s : Session μ) : Prop where
  owned : s.authority.Owned
  registered : s.remotes.Registered
  known : ∀ d, d ≠ c → s.authority.peers.contains d = true → ∃ peer, s.peers.find? d = some peer ∧ peer.phase = .ready
  linked : ∀ d, d ≠ c → s.remotes.peers.contains d = true → ∃ peer, s.peers.find? d = some peer ∧ peer.phase = .ready
  relevant : ∀ d, d ≠ c → s.relevance.contains d = true → s.peers.contains d = true
  replicated : ∀ d, d ≠ c → s.replication.contains d = true → s.peers.contains d = true
  viewed : ∀ d, d ≠ c → ∀ peer, s.peers.find? d = some peer → peer.phase ≠ .transportConnected →
    s.replication.contains d = true
  blank : ∀ d, d ≠ c → ∀ peer, s.peers.find? d = some peer → peer.phase ≠ .ready →
    peer.controlledCharacter = none ∧ peer.materializedCharacters = [] ∧ peer.materializedRemotes = []
  mirrored : ∀ d, d ≠ c → ∀ peer, s.peers.find? d = some peer → peer.phase = .ready → d ∉ s.pendingPeerFailures →
    Mirrored s d peer

theorem Sound.apart (sound : Sound s) (c : ConnectionId) : Apart c s where
  owned := sound.owned
  registered := sound.registered
  known := fun d _ => sound.known d
  linked := fun d _ => sound.linked d
  relevant := fun d _ => sound.relevant d
  replicated := fun d _ => sound.replicated d
  viewed := fun d _ => sound.viewed d
  blank := fun d _ => sound.blank d
  mirrored := fun d _ => sound.mirrored d

/-- A step that concerns one peer: the managers treat the others as before. -/
theorem Apart.change {t : Session μ} (apart : Apart c s) (peers : ∀ d, d ≠ c → t.peers.find? d = s.peers.find? d)
    (owned : t.authority.Owned) (knows : ∀ d, d ≠ c → ∀ x, t.authority.knows d x = s.authority.knows d x)
    (controllers : ∀ d, d ≠ c → ∀ x, t.authority.controllerOf x = some d ↔ s.authority.controllerOf x = some d)
    (known : ∀ d, d ≠ c → t.authority.peers.contains d = s.authority.peers.contains d)
    (registered : t.remotes.Registered) (linked : ∀ d, d ≠ c → t.remotes.peers.contains d = s.remotes.peers.contains d)
    (published : ∀ d, d ≠ c → t.remotes.published d = s.remotes.published d)
    (relevance : ∀ d, d ≠ c → t.relevance.contains d = s.relevance.contains d)
    (replication : ∀ d, d ≠ c → t.replication.contains d = s.replication.contains d)
    (failures : ∀ d, d ≠ c → d ∈ s.pendingPeerFailures → d ∈ t.pendingPeerFailures) : Apart c t where
  owned := owned
  registered := registered
  known := by
    intro d other has
    rw [peers d other]
    exact apart.known d other (known d other ▸ has)
  linked := by
    intro d other has
    rw [peers d other]
    exact apart.linked d other (linked d other ▸ has)
  relevant := by
    intro d other has
    unfold SortedMap.contains
    rw [peers d other]
    exact apart.relevant d other (relevance d other ▸ has)
  replicated := by
    intro d other has
    unfold SortedMap.contains
    rw [peers d other]
    exact apart.replicated d other (replication d other ▸ has)
  viewed := by
    intro d other peer stored hello
    rw [replication d other]
    exact apart.viewed d other peer (peers d other ▸ stored) hello
  blank := by
    intro d other peer stored
    exact apart.blank d other peer (peers d other ▸ stored)
  mirrored := by
    intro d other peer stored ready healthy
    have mirrored := apart.mirrored d other peer (peers d other ▸ stored) ready
      (fun failed => healthy (failures d other failed))
    refine ⟨?_,?_,?_⟩
    · intro x
      rw [knows d other]
      exact mirrored.characters x
    · intro x
      rw [controllers d other]
      exact mirrored.control x
    · rw [published d other]
      exact mirrored.covers

theorem Apart.gone (apart : Apart c s) (peers : s.peers.find? c = none) (known : s.authority.peers.contains c = false)
    (linked : s.remotes.peers.contains c = false) (relevance : s.relevance.contains c = false)
    (replication : s.replication.contains c = false) : Sound s := by
  have apartFrom : ∀ d peer, s.peers.find? d = some peer → d ≠ c := by
    rintro d peer found rfl
    rw [peers] at found
    cases found
  refine ⟨apart.owned,apart.registered,?_,?_,?_,?_,fun d peer found => apart.viewed d (apartFrom d peer found) peer found,
    fun d peer found => apart.blank d (apartFrom d peer found) peer found,
    fun d peer found => apart.mirrored d (apartFrom d peer found) peer found⟩
  · intro d has
    refine apart.known d ?_ has
    rintro rfl
    rw [known] at has
    cases has
  · intro d has
    refine apart.linked d ?_ has
    rintro rfl
    rw [linked] at has
    cases has
  · intro d has
    refine apart.relevant d ?_ has
    rintro rfl
    rw [relevance] at has
    cases has
  · intro d has
    refine apart.replicated d ?_ has
    rintro rfl
    rw [replication] at has
    cases has

theorem Apart.whole (apart : Apart c s) {peer : Peer} (found : s.peers.find? c = some peer)
    (ready : peer.phase = .ready) (viewed : s.replication.contains c) (mirrored : Mirrored s c peer) : Sound s := by
  have here : ∀ d other, s.peers.find? d = some other → d = c → other = peer := by
    rintro d other found' rfl
    exact Option.some.inj (found'.symm.trans found)
  have present : s.peers.contains c := contains_iff.mpr ⟨peer,found⟩
  refine ⟨apart.owned,apart.registered,?_,?_,?_,?_,?_,?_,?_⟩
  · intro d has
    by_cases same : d = c
    · exact ⟨peer,same ▸ found,ready⟩
    · exact apart.known d same has
  · intro d has
    by_cases same : d = c
    · exact ⟨peer,same ▸ found,ready⟩
    · exact apart.linked d same has
  · intro d has
    by_cases same : d = c
    · exact same ▸ present
    · exact apart.relevant d same has
  · intro d has
    by_cases same : d = c
    · exact same ▸ present
    · exact apart.replicated d same has
  · intro d other stored hello
    by_cases same : d = c
    · exact same ▸ viewed
    · exact apart.viewed d same other stored hello
  · intro d other stored unready
    by_cases same : d = c
    · rw [here d other stored same] at unready
      exact absurd ready unready
    · exact apart.blank d same other stored unready
  · intro d other stored ready' healthy
    by_cases same : d = c
    · rw [here d other stored same]
      exact same ▸ mirrored
    · exact apart.mirrored d same other stored ready' healthy

variable [CharacterMotion μ] (accepts : ConnectionId → CharacterMessage μ → Bool)

theorem synchronizeServerGraph_progress {world : World} (sound : Sound s) (drained : s.pendingPeerFailures = [])
    (kept : s.keepsPublished) (agreed : s.undisputed world) :
    Progress world s [] (synchronizeServerGraph accepts s world) := by
  refine .turns accepts agreed ?_ s.peers.keys s (sound.start world drained kept) ?_ ?_
  · intro c peer found ready
    have has := sound.viewed c peer found (by rw [ready]; decide)
    exact isSome_iff_exists.mp has
  · exact pairwise_map.mpr s.peers.sorted
  · intro d known outside
    exact absurd (contains_iff_mem_keys.mp known) outside

theorem contains_erase {ν : Type} (m : SortedMap ConnectionId ν) (c d : ConnectionId) :
    (m.erase c).contains d = (m.contains d && decide (d ≠ c)) := by
  unfold SortedMap.contains
  rw [find?_erase]
  by_cases same : d = c <;> simp [same]

theorem contains_insert {ν : Type} (m : SortedMap ConnectionId ν) (c d : ConnectionId) (x : ν) :
    (m.insert c x).contains d = (decide (d = c) || m.contains d) := by
  unfold SortedMap.contains
  rw [find?_insert]
  by_cases same : d = c <;> simp [same]

theorem published_erase (m : Remotes) (c d : ConnectionId) :
    published { m with peers := m.peers.erase c } d = if d = c then [] else m.published d := by
  unfold published
  rw [find?_erase]
  by_cases same : d = c <;> simp [same]

theorem erase_registered {m : Remotes} (registered : m.Registered) (c : ConnectionId) :
    Remotes.Registered { m with peers := m.peers.erase c } := by
  intro d x member
  rw [published_erase] at member
  split at member
  · cases member
  · exact registered d x member

theorem Apart.tearDownPeer (apart : Apart c s) {peer : Peer} (found : s.peers.find? c = some peer) :
    Sound (tearDownPeer accepts s c) := by
  have positive : s.tick ≠ 0 := by
    unfold Session.tick
    omega
  have removed := AuthoritativeCharacterNetwork.removePeer_peers accepts s.authority c s.tick
  have controllers := AuthoritativeCharacterNetwork.controllerOf_removePeer accepts s.authority apart.owned c positive
  have knows : ∀ d, d ≠ c → ∀ x,
      (AuthoritativeCharacterNetwork.removePeer accepts s.authority c s.tick).knows d x = s.authority.knows d x := by
    intro d other x
    unfold AuthoritativeCharacterNetwork.knows
    rw [removed,find?_erase,if_neg other]
  have others : ∀ d, d ≠ c → ∀ x, (AuthoritativeCharacterNetwork.removePeer accepts s.authority c s.tick).controllerOf x =
      some d ↔ s.authority.controllerOf x = some d := by
    intro d other x
    rw [controllers x]
    split
    · next controls =>
      rw [controls]
      simp [Ne.symm other]
    · exact .rfl
  unfold Session.tearDownPeer
  rw [found]
  refine Apart.gone (apart.change ?_ ?_ knows others ?_ (erase_registered apart.registered c) ?_ ?_ ?_ ?_
    fun _ _ failed => failed) ?_ ?_ ?_ ?_ ?_
  · intro d other
    exact (find?_erase _ _ _).trans (if_neg other)
  · intro x d controls
    by_cases same : d = c
    · subst same
      rw [controllers x] at controls
      split at controls
      · cases controls
      · next unowned => exact absurd controls unowned
    · rw [knows d same]
      exact apart.owned x d ((others d same x).mp controls)
  · intro d other
    rw [removed,contains_erase]
    simp [other]
  · intro d other
    exact (contains_erase _ _ _).trans (by simp [other])
  · intro d other
    exact (published_erase _ _ _).trans (if_neg other)
  · intro d other
    exact (contains_erase _ _ _).trans (by simp [other])
  · intro d other
    exact (contains_erase _ _ _).trans (by simp [other])
  · exact find?_erase_self _ _
  · show (AuthoritativeCharacterNetwork.removePeer accepts s.authority c s.tick).peers.contains c = false
    rw [removed,contains_erase]
    simp
  · exact (contains_erase _ _ _).trans (by simp)
  · exact (contains_erase _ _ _).trans (by simp)
  · exact (contains_erase _ _ _).trans (by simp)

theorem Sound.tearDownPeer (sound : Sound s) (c : ConnectionId) : Sound (tearDownPeer accepts s c) := by
  cases found : s.peers.find? c with
  | none =>
    unfold Session.tearDownPeer
    rwa [found]
  | some peer => exact (sound.apart c).tearDownPeer accepts found

theorem Sound.onConnected (sound : Sound s) (c : ConnectionId) : Sound (onConnected accepts s c) := by
  unfold Session.onConnected
  split
  · exact sound.tearDownPeer accepts c
  · split
    · exact sound
    · next absent =>
      refine sound.setUnready ?_ nofun ⟨rfl,rfl,rfl⟩ fun hello => absurd rfl hello
      intro peer found
      exact absurd (contains_iff.mpr ⟨peer,found⟩) absent

theorem Sound.acceptServerPeer (sound : Sound s) (c : ConnectionId) (taken : Bool) (candidates : List ObjectId) :
    Sound (acceptServerPeer accepts s c taken candidates) := by
  unfold Session.acceptServerPeer
  split
  · exact sound
  · next peer found =>
    split
    · exact sound.tearDownPeer accepts c
    · next may =>
      simp only [Bool.or_eq_true,decide_eq_true_eq,not_or,ne_eq,not_not] at may
      have present : s.peers.contains c := contains_iff.mpr ⟨peer,found⟩
      have added : Sound { s with
          relevance := s.relevance.insert c candidates, replication := s.replication.insert c [] } := by
        refine ⟨sound.owned,sound.registered,sound.known,sound.linked,?_,?_,?_,sound.blank,?_⟩
        · intro d has
          rw [contains_insert,Bool.or_eq_true,decide_eq_true_eq] at has
          rcases has with rfl | has
          · exact present
          · exact sound.relevant d has
        · intro d has
          rw [contains_insert,Bool.or_eq_true,decide_eq_true_eq] at has
          rcases has with rfl | has
          · exact present
          · exact sound.replicated d has
        · intro d other stored hello
          rw [contains_insert,sound.viewed d other stored hello,Bool.or_true]
        · intro d other stored ready healthy
          have mirrored := sound.mirrored d other stored ready healthy
          exact ⟨mirrored.characters,mirrored.control,mirrored.covers⟩
      have blank := sound.blank c peer found (by rw [may.1]; decide)
      refine added.setUnready ?_ nofun blank fun _ => by simp [contains_insert]
      intro other stored
      have same : other = peer := Option.some.inj (stored.symm.trans found)
      rw [same,may.1]
      decide

omit [CharacterMotion μ] in
theorem Sound.bootstrapped (sound : Sound s) (c : ConnectionId) : Sound (s.bootstrapped c) := by
  unfold Session.bootstrapped
  split
  · exact sound
  · next peer found =>
    split
    · next pending =>
      refine sound.setUnready ?_ nofun (sound.blank c peer found (by rw [pending]; decide)) fun _ =>
        sound.viewed c peer found (by rw [pending]; decide)
      intro other stored
      have same : other = peer := Option.some.inj (stored.symm.trans found)
      rw [same,pending]
      decide
    · exact sound

variable (view : List ObjectId)

theorem markAll_local (c : ConnectionId) (xs : List ObjectId) (m : Remotes) :
    Remotes.Local c m (markAll view c xs m).2 ∧ (markAll view c xs m).2.published c = m.published c := by
  induction xs generalizing m with
  | nil => exact ⟨.refl c m,rfl⟩
  | cons x rest ih =>
    obtain ⟨once,same⟩ := markMaterialized_local m view c x
    unfold markAll
    dsimp only
    split
    · obtain ⟨later,same'⟩ := ih (m.markMaterialized view c x).2
      exact ⟨once.trans later,same'.trans same⟩
    · exact ⟨once,same⟩

theorem published_insert_blank {m : Remotes} (absent : m.peers.contains c = false) (d : ConnectionId) :
    published { m with peers := m.peers.insert c {} } d = m.published d := by
  rw [published_insert]
  split
  · next same =>
    subst same
    unfold SortedMap.contains at absent
    rw [isSome_eq_false_iff,isNone_iff_eq_none] at absent
    unfold published
    rw [absent]
    rfl
  · rfl

theorem Sound.readyServerPeer (sound : Sound s) (c : ConnectionId) (matching taken : Bool) :
    Sound (readyServerPeer accepts s c matching taken) := by
  unfold Session.readyServerPeer
  split
  · exact sound
  · next peer found =>
    split
    · exact sound.tearDownPeer accepts c
    · next may =>
      simp only [Bool.or_eq_true,decide_eq_true_eq,not_or,ne_eq,not_not] at may
      split
      · exact sound.tearDownPeer accepts c
      · next free =>
        simp only [Bool.or_eq_true,not_or,Bool.not_eq_true] at free
        have inserted : ∀ d, d ≠ c → (s.remotes.peers.insert c {}).contains d = s.remotes.peers.contains d := by
          intro d other
          rw [contains_insert]
          simp [other]
        have registered : Remotes.Registered { s.remotes with peers := s.remotes.peers.insert c {} } := by
          intro d x member
          rw [published_insert_blank free.2] at member
          exact sound.registered d x member
        have noControl : ∀ x, s.authority.controllerOf x ≠ some c := by
          intro x controls
          obtain ⟨ready,stored,isReady⟩ := sound.known c
            (AuthoritativeCharacterNetwork.contains_of_knows (sound.owned x c controls))
          rw [found] at stored
          cases stored
          rw [may.1] at isReady
          cases isReady
        have noKnowledge : ∀ x, s.authority.knows c x = false := by
          intro x
          rw [Bool.eq_false_iff]
          intro knows
          obtain ⟨ready,stored,isReady⟩ := sound.known c (AuthoritativeCharacterNetwork.contains_of_knows knows)
          rw [found] at stored
          cases stored
          rw [may.1] at isReady
          cases isReady
        dsimp only
        split
        · refine Apart.tearDownPeer accepts ((sound.apart c).change (fun _ _ => rfl) sound.owned (fun _ _ _ => rfl)
            (fun _ _ _ => .rfl) (fun _ _ => rfl) registered inserted (fun d _ => published_insert_blank free.2 d)
            (fun _ _ => rfl) (fun _ _ => rfl) fun _ _ failed => failed) found
        · generalize knownIs : (s.replication.find? c).getD [] = known
          obtain ⟨marked,same⟩ := markAll_local known c known
            { s.remotes with peers := s.remotes.peers.insert c {} }
          generalize markAll known c known { s.remotes with peers := s.remotes.peers.insert c {} } = result at marked same ⊢
          have knows := s.authority.knows_addPeer c
          have controllers : ∀ x, (s.authority.addPeer c).controllerOf x = s.authority.controllerOf x :=
            AuthoritativeCharacterNetwork.controllerOf_congr (s.authority.addPeer_characters c)
          have apart : Apart c ({ s with authority := s.authority.addPeer c, remotes := result.2 }.setPeer c
              { peer with phase := .ready, remoteMaterializedObjects := known }) := by
            refine (sound.apart c).change ?_ ?_ (fun d _ x => knows d x) ?_ ?_ (marked.registered registered) ?_ ?_
              (fun _ _ => rfl) (fun _ _ => rfl) fun _ _ failed => failed
            · intro d other
              exact find?_insert_of_ne _ _ other
            · intro x d controls
              exact (knows d x).trans (sound.owned x d ((controllers x).symm.trans controls))
            · intro d _ x
              exact Eq.congr_left (controllers x)
            · intro d other
              exact s.authority.contains_addPeer other
            · intro d other
              exact (marked.contains d).trans (inserted d other)
            · intro d other
              exact (marked.published d other).trans (published_insert_blank free.2 d)
          have stored := find?_insert_self s.peers c
            { peer with phase := .ready, remoteMaterializedObjects := known }
          split
          · refine apart.whole stored rfl (sound.viewed c peer found (by rw [may.1]; decide)) ⟨?_,?_,?_⟩
            · intro x
              have blank := (sound.blank c peer found (by rw [may.1]; decide)).2.1
              show x ∈ peer.materializedCharacters ↔ (s.authority.addPeer c).knows c x = true
              rw [blank,knows,noKnowledge]
              simp
            · intro x
              have blank := (sound.blank c peer found (by rw [may.1]; decide)).1
              show peer.controlledCharacter = some x ↔ (s.authority.addPeer c).controllerOf x = some c
              rw [blank,controllers]
              simp [noControl]
            · intro x member
              have member' : x ∈ result.2.published c := member
              have nothing : s.remotes.published c = [] := by
                have absent := free.2
                unfold SortedMap.contains at absent
                rw [isSome_eq_false_iff,isNone_iff_eq_none] at absent
                unfold published
                rw [absent]
                rfl
              rw [same,published_insert_blank free.2,nothing] at member'
              cases member'
          · exact apart.tearDownPeer accepts stored

theorem markPublished_local (c : ConnectionId) (xs : List ObjectId) (m : Remotes) (held : List ObjectId) :
    Remotes.Local c m (markPublished view c xs m held).2.1 ∧
      (markPublished view c xs m held).2.1.published c = m.published c := by
  induction xs generalizing m held with
  | nil => exact ⟨.refl c m,rfl⟩
  | cons x rest ih =>
    obtain ⟨once,same⟩ := markMaterialized_local m view c x
    unfold markPublished
    dsimp only
    split
    · exact ih m held
    · split
      · obtain ⟨later,same'⟩ := ih (m.markMaterialized view c x).2 (held ++ [x])
        exact ⟨once.trans later,same'.trans same⟩
      · exact ⟨once,same⟩

theorem unmarkUnknown_local (c : ConnectionId) (xs : List ObjectId) (m : Remotes)
    (held : List ObjectId) (registered : m.Registered) : Remotes.Local c m (unmarkUnknown view c xs m held).2.1 ∧
      ∀ y ∈ (unmarkUnknown view c xs m held).2.1.published c, y ∈ m.published c := by
  induction xs generalizing m held with
  | nil => exact ⟨.refl c m,fun _ member => member⟩
  | cons x rest ih =>
    obtain ⟨once,left⟩ := markUnmaterialized_local m c x
    unfold unmarkUnknown
    dsimp only
    split
    · exact ih m held registered
    · split
      · obtain ⟨later,fewer⟩ := ih (m.markUnmaterialized c x).2 (eraseObject x held) (once.registered registered)
        exact ⟨once.trans later,fun y member => ((left registered y).mp (fewer y member)).1⟩
      · exact ⟨once,fun y member => ((left registered y).mp member).1⟩

omit [CharacterMotion μ] in
theorem Sound.applyServerRemoteMaterialization (sound : Sound s) (c : ConnectionId) (published known : List ObjectId) :
    Sound (s.applyServerRemoteMaterialization c published known) := by
  unfold Session.applyServerRemoteMaterialization
  split
  · next peer view found viewed =>
    have replicated : ∀ d, (s.replication.insert c known).contains d = s.replication.contains d := by
      intro d
      rw [contains_insert]
      by_cases here : d = c
      · subst here
        simp [SortedMap.contains,viewed]
      · simp [here]
    dsimp only
    split
    · exact sound.relax (fun _ => rfl) (fun _ _ => rfl) (fun _ => rfl) (fun _ => rfl) sound.registered (fun _ has => has)
        (fun _ _ member => member) (fun _ => rfl) replicated fun _ failed => failed
    · obtain ⟨marked,same⟩ := markPublished_local known c published s.remotes peer.remoteMaterializedObjects
      generalize markPublished known c published s.remotes peer.remoteMaterializedObjects = first at marked same ⊢
      have remotes : ∀ result, (if first.1 then unmarkUnknown known c first.2.2 first.2.1 first.2.2 else first) = result →
          Remotes.Local c s.remotes result.2.1 ∧ ∀ y ∈ result.2.1.published c, y ∈ s.remotes.published c := by
        rintro result rfl
        split
        · obtain ⟨unmarked,fewer⟩ := unmarkUnknown_local known c first.2.2 first.2.1 first.2.2
            (marked.registered sound.registered)
          exact ⟨marked.trans unmarked,fun y member => same ▸ fewer y member⟩
        · exact ⟨marked,fun y member => same ▸ member⟩
      generalize resultIs : (if first.1 then unmarkUnknown known c first.2.2 first.2.1 first.2.2 else first) = result
      obtain ⟨linked,fewer⟩ := remotes result resultIs
      have recorded : Sound ({ s with replication := s.replication.insert c known, remotes := result.2.1 }.setPeer c
          { peer with remoteMaterializedObjects := result.2.2 }) := by
        refine sound.relax ?_ (fun _ _ => rfl) (fun _ => rfl) (fun _ => rfl) (linked.registered sound.registered) ?_ ?_
          (fun _ => rfl) replicated fun _ failed => failed
        · intro d
          show ((s.peers.insert c _).find? d).map record = _
          rw [find?_insert]
          split
          · next here =>
            subst here
            rw [found]
            rfl
          · rfl
        · intro d has
          exact linked.contains d ▸ has
        · intro d y member
          by_cases here : d = c
          · subst here
            exact fewer y member
          · exact linked.published d here ▸ member
      split
      · exact recorded
      · exact recorded.relax (fun _ => rfl) (fun _ _ => rfl) (fun _ => rfl) (fun _ => rfl) recorded.registered
          (fun _ has => has) (fun _ _ member => member) (fun _ => rfl) (fun _ => rfl)
          fun d failed => Elsewhere.mem_fail.mpr (.inl failed)
  · exact sound

omit [CharacterMotion μ] in
theorem Sound.registerCharacter (sound : Sound s) (x : ObjectId) : Sound (s.registerCharacter x) := by
  have knows := AuthoritativeCharacterNetwork.knows_congr (s.authority.registerCharacter_peers x true)
  have controllers := fun y => s.authority.controllerOf_registerCharacter x y true
  have known : ∀ d, (s.authority.registerCharacter x true).peers.contains d = s.authority.peers.contains d := by
    intro d
    rw [s.authority.registerCharacter_peers]
  unfold Session.registerCharacter
  split
  · exact sound
  · dsimp only
    split
    · exact sound.relax (fun _ => rfl) knows controllers known sound.registered (fun _ has => has)
        (fun _ _ member => member) (fun _ => rfl) (fun _ => rfl) fun _ failed => failed
    · exact sound.relax (fun _ => rfl) knows controllers known sound.registered (fun _ has => has)
        (fun _ _ member => member) (fun _ => rfl) (fun _ => rfl) fun _ failed => failed

omit [CharacterMotion μ] in
theorem Sound.registerRemote (sound : Sound s) (x : ObjectId) : Sound (s.registerRemote x) := by
  unfold Session.registerRemote
  split
  · exact sound
  · dsimp only
    split
    · refine sound.relax (fun _ => rfl) (fun _ _ => rfl) (fun _ => rfl) (fun _ => rfl) ?_ ?_ ?_ (fun _ => rfl)
        (fun _ => rfl) fun _ failed => failed
      · intro d y member
        unfold Remotes.registerRemote at member ⊢
        split
        · next taken =>
          rw [if_pos taken] at member
          exact mem_append_left _ (sound.registered d y member)
        · next refused =>
          rw [if_neg refused] at member
          exact sound.registered d y member
      · intro d has
        unfold Remotes.registerRemote at has
        split at has <;> exact has
      · intro d y member
        unfold Remotes.registerRemote at member
        split at member <;> exact member
    · exact sound.relax (fun _ => rfl) (fun _ _ => rfl) (fun _ => rfl) (fun _ => rfl) sound.registered (fun _ has => has)
        (fun _ _ member => member) (fun _ => rfl) (fun _ => rfl) fun _ failed => failed

omit [CharacterMotion μ] in
theorem Sound.mapPeers {t : Session μ} (sound : Sound s) {f : Peer → Peer}
    (peers : t.peers = s.peers.mapValues fun _ p => f p) (phase : ∀ p, (f p).phase = p.phase)
    (blank : ∀ p, p.controlledCharacter = none ∧ p.materializedCharacters = [] ∧ p.materializedRemotes = [] →
      (f p).controlledCharacter = none ∧ (f p).materializedCharacters = [] ∧ (f p).materializedRemotes = [])
    (owned : t.authority.Owned) (registered : t.remotes.Registered)
    (known : ∀ d, t.authority.peers.contains d = s.authority.peers.contains d)
    (linked : ∀ d, t.remotes.peers.contains d = s.remotes.peers.contains d) (relevance : t.relevance = s.relevance)
    (replication : t.replication = s.replication) (failures : t.pendingPeerFailures = s.pendingPeerFailures)
    (mirrored : ∀ d p, Mirrored s d p → Mirrored t d (f p)) : Sound t := by
  have forward : ∀ d p, s.peers.find? d = some p → t.peers.find? d = some (f p) := by
    intro d p found
    rw [peers,find?_mapValues,found]
    rfl
  have backward : ∀ d q, t.peers.find? d = some q → ∃ p, s.peers.find? d = some p ∧ f p = q := by
    intro d q stored
    rwa [peers,find?_mapValues,map_eq_some_iff] at stored
  have contained : ∀ d, s.peers.contains d → t.peers.contains d := by
    intro d has
    obtain ⟨p,found⟩ := contains_iff.mp has
    exact contains_iff.mpr ⟨f p,forward d p found⟩
  refine ⟨owned,registered,?_,?_,?_,?_,?_,?_,?_⟩
  · intro d has
    obtain ⟨p,found,ready⟩ := sound.known d (known d ▸ has)
    exact ⟨f p,forward d p found,(phase p).trans ready⟩
  · intro d has
    obtain ⟨p,found,ready⟩ := sound.linked d (linked d ▸ has)
    exact ⟨f p,forward d p found,(phase p).trans ready⟩
  · exact fun d has => contained d (sound.relevant d (relevance ▸ has))
  · exact fun d has => contained d (sound.replicated d (replication ▸ has))
  · intro d q stored hello
    obtain ⟨p,found,rfl⟩ := backward d q stored
    rw [replication]
    exact sound.viewed d p found fun was => hello ((phase p).trans was)
  · intro d q stored unready
    obtain ⟨p,found,rfl⟩ := backward d q stored
    exact blank p (sound.blank d p found fun was => unready ((phase p).trans was))
  · intro d q stored ready healthy
    obtain ⟨p,found,rfl⟩ := backward d q stored
    exact mirrored d p (sound.mirrored d p found ((phase p).symm.trans ready) (failures ▸ healthy))

theorem Sound.unregisterCharacter (sound : Sound s) (x : ObjectId) :
    (unregisterCharacter accepts s x).pendingSessionFailure ∨ Sound (unregisterCharacter accepts s x) := by
  have positive : s.tick ≠ 0 := by
    unfold Session.tick
    omega
  unfold Session.unregisterCharacter
  split
  · dsimp only
    split
    · next retired =>
      right
      simp only [Bool.and_eq_true,Bool.not_eq_true'] at retired
      obtain ⟨knows,controllers,known⟩ :=
        AuthoritativeCharacterNetwork.unregisterCharacter_gone accepts s.authority x positive retired.2 retired.1
      refine sound.mapPeers rfl (fun _ => rfl) ?_ ?_ sound.registered known (fun _ => rfl) rfl rfl
        rfl ?_
      · rintro p ⟨control,characters,remotes⟩
        simp [forgetCharacter,control,characters,remotes,eraseObject]
      · intro y d controls
        rw [controllers y] at controls
        split at controls
        · cases controls
        · next other =>
          rw [knows d y,sound.owned y d controls]
          simp [other]
      · intro d p mirrored
        refine ⟨?_,?_,mirrored.covers⟩
        · intro y
          show y ∈ eraseObject x p.materializedCharacters ↔ _
          rw [mem_eraseObject,mirrored.characters y,knows d y]
          simp
        · intro y
          show (if p.controlledCharacter = some x then none else p.controlledCharacter) = some y ↔ _
          rw [controllers y]
          by_cases same : y = x
          · subst same
            rw [if_pos rfl]
            split
            · simp
            · next other => exact ⟨fun holds => absurd holds other,fun never => by cases never⟩
          · rw [if_neg same,← mirrored.control y]
            split
            · next holds =>
              rw [holds]
              simp [Ne.symm same]
            · exact .rfl
    · exact .inl rfl
  · exact .inr sound

omit [CharacterMotion μ] in
theorem Sound.unregisterRemote (sound : Sound s) (x : ObjectId) :
    (s.unregisterRemote x).pendingSessionFailure ∨ Sound (s.unregisterRemote x) := by
  unfold Session.unregisterRemote
  split
  · dsimp only
    split
    · next retired =>
      right
      have published : ∀ d y, y ∈ (s.remotes.unregisterRemote x).2.published d ↔ y ∈ s.remotes.published d ∧ y ≠ x := by
        intro d y
        unfold Remotes.unregisterRemote at retired ⊢
        split at retired
        · next listed =>
          rw [if_pos listed]
          unfold Remotes.published
          rw [find?_mapValues]
          cases s.remotes.peers.find? d with
          | none => simp
          | some peer => exact mem_eraseObject
        · cases retired
      have remotes : ∀ y, y ∈ (s.remotes.unregisterRemote x).2.remotes ↔ y ∈ s.remotes.remotes ∧ y ≠ x := by
        intro y
        unfold Remotes.unregisterRemote at retired ⊢
        split at retired
        · next listed =>
          rw [if_pos listed]
          exact mem_eraseObject
        · cases retired
      have linked : ∀ d, (s.remotes.unregisterRemote x).2.peers.contains d = s.remotes.peers.contains d := by
        intro d
        unfold Remotes.unregisterRemote
        split
        · unfold SortedMap.contains
          rw [find?_mapValues]
          cases s.remotes.peers.find? d <;> rfl
        · rfl
      refine sound.mapPeers rfl (fun _ => rfl) ?_ sound.owned ?_ (fun _ => rfl) linked rfl rfl rfl ?_
      · rintro p ⟨control,characters,held⟩
        simp [forgetRemote,control,characters,held,eraseObject]
      · intro d y member
        obtain ⟨was,other⟩ := (published d y).mp member
        exact (remotes y).mpr ⟨sound.registered d y was,other⟩
      · intro d p mirrored
        refine ⟨mirrored.characters,mirrored.control,?_⟩
        intro y member
        obtain ⟨was,other⟩ := (published d y).mp member
        exact mem_eraseObject.mpr ⟨mirrored.covers y was,other⟩
    · exact .inl rfl
  · exact .inr sound

theorem Sound.unregisterServerObject (sound : Sound s) (x : ObjectId) :
    (unregisterServerObject accepts s x).pendingSessionFailure ∨ Sound (unregisterServerObject accepts s x) := by
  unfold Session.unregisterServerObject
  dsimp only
  split
  · next failed => exact .inl failed
  · next alive =>
    rcases sound.unregisterCharacter accepts x with failed | retired
    · exact absurd failed alive
    · exact retired.unregisterRemote x

theorem Sound.drained (sound : Sound s) (c : ConnectionId) :
    Sound (Session.tearDownPeer accepts
      { s with pendingPeerFailures := s.pendingPeerFailures.filter fun d => decide (d ≠ c) } c) := by
  have failures : ∀ d, d ≠ c → d ∈ s.pendingPeerFailures → d ∈ s.pendingPeerFailures.filter fun d => decide (d ≠ c) := by
    intro d other failed
    exact mem_filter.mpr ⟨failed,decide_eq_true other⟩
  have apart : Apart c { s with pendingPeerFailures := s.pendingPeerFailures.filter fun d => decide (d ≠ c) } :=
    (sound.apart c).change (fun _ _ => rfl) sound.owned (fun _ _ _ => rfl) (fun _ _ _ => .rfl) (fun _ _ => rfl)
      sound.registered (fun _ _ => rfl) (fun _ _ => rfl) (fun _ _ => rfl) (fun _ _ => rfl) failures
  cases found : s.peers.find? c with
  | some peer => exact apart.tearDownPeer accepts found
  | none =>
    have absent : ∀ has : ∃ peer, s.peers.find? c = some peer ∧ peer.phase = .ready, False := by
      rintro ⟨peer,stored,-⟩
      rw [found] at stored
      cases stored
    have missing : s.peers.contains c ≠ true := by
      intro has
      obtain ⟨peer,stored⟩ := contains_iff.mp has
      rw [found] at stored
      cases stored
    unfold Session.tearDownPeer
    simp only [found]
    refine apart.gone found ?_ ?_ ?_ ?_
    · exact Bool.eq_false_iff.mpr fun has => absent (sound.known c has)
    · exact Bool.eq_false_iff.mpr fun has => absent (sound.linked c has)
    · exact Bool.eq_false_iff.mpr fun has => missing (sound.relevant c has)
    · exact Bool.eq_false_iff.mpr fun has => missing (sound.replicated c has)

end
end Session

section
variable {μ : Type} [CharacterMotion μ]

/-- A synchronization in which nobody disputes a character and every recorded Remote that its peer knows is published. -/
def settles (s : Session μ) (input : Input μ) : Bool :=
  match input.event with
  | .synchronized world => s.keepsPublished && s.undisputed world
  | _ => true

variable {s : Session μ}

/-- One step keeps what lies between two synchronizations, unless the session fails. -/
theorem step_sound {t : Session μ} {input : Input μ} (settled : settles s input) (sound : s.Sound)
    (stepped : step s input = some t) : t.pendingSessionFailure ∨ t.Sound := by
  unfold step at stepped
  split at stepped
  · cases stepped
  · unfold settles at settled
    split at stepped
    · cases stepped
      exact .inr (sound.onConnected _ _)
    · cases stepped
      exact .inr (sound.acceptServerPeer _ _ _ _)
    · cases stepped
      exact .inr (sound.bootstrapped _)
    · cases stepped
      exact .inr (sound.readyServerPeer _ _ _ _)
    · cases stepped
      exact .inr (sound.applyServerRemoteMaterialization _ _ _)
    · next c candidates _ =>
      split at stepped
      · next has =>
        cases stepped
        right
        refine sound.relax (fun _ => rfl) (fun _ _ => rfl) (fun _ => rfl) (fun _ => rfl) sound.registered
          (fun _ has => has) (fun _ _ member => member) ?_ (fun _ => rfl) fun _ failed => failed
        intro d
        rw [Session.contains_insert]
        by_cases here : d = c
        · subst here
          simp [has]
        · simp [here]
      · cases stepped
    · cases stepped
      exact .inr (sound.registerCharacter _)
    · cases stepped
      exact .inr (sound.registerRemote _)
    · cases stepped
      exact sound.unregisterServerObject _ _
    · next c selected _ =>
      cases stepped
      obtain ⟨knows,controllers,known⟩ :=
        AuthoritativeCharacterNetwork.publishFrame_effect input.accepts s.authority c s.tick selected
      exact .inr (sound.relax (fun _ => rfl) knows controllers known sound.registered (fun _ has => has)
        (fun _ _ member => member) (fun _ => rfl) (fun _ => rfl) fun _ failed => failed)
    · next x _ =>
      cases stepped
      exact .inr (sound.relax (fun _ => rfl) (fun _ _ => rfl) (s.authority.controllerOf_advanceState x) (fun _ => rfl)
        sound.registered (fun _ has => has) (fun _ _ member => member) (fun _ => rfl) (fun _ => rfl)
        fun _ failed => failed)
    · cases stepped
      exact .inr (sound.relax (fun _ => rfl) (fun _ _ => rfl) (fun _ => rfl) (fun _ => rfl) sound.registered
        (fun _ has => has) (fun _ _ member => member) (fun _ => rfl) (fun _ => rfl) fun _ failed => failed)
    · next c _ =>
      cases stepped
      right
      refine sound.relax (fun _ => rfl) (fun _ _ => rfl) (fun _ => rfl) (fun _ => rfl)
        (Session.erase_registered sound.registered c) ?_ ?_ (fun _ => rfl) (fun _ => rfl)
        fun d failed => mem_fail.mpr (.inl failed)
      · intro d has
        have erased := (Session.contains_erase s.remotes.peers c d).symm.trans has
        exact (Bool.and_eq_true_iff.mp erased).1
      · intro d x member
        have erased : x ∈ if d = c then [] else s.remotes.published d := Session.published_erase s.remotes c d ▸ member
        split at erased
        · cases erased
        · exact erased
    · cases stepped
      exact .inr (sound.relax (fun _ => rfl) (fun _ _ => rfl) (fun _ => rfl) (fun _ => rfl) sound.registered
        (fun _ has => has) (fun _ _ member => member) (fun _ => rfl) (fun _ => rfl)
        fun d failed => mem_fail.mpr (.inl failed))
    · split at stepped
      · cases stepped
        exact .inr (sound.drained _ _)
      · cases stepped
    · cases stepped
      exact .inr (sound.tearDownPeer _ _)
    · next world event =>
      rw [event] at settled
      split at stepped
      · next drained =>
        cases stepped
        right
        simp only [Bool.and_eq_true] at settled
        have progress := Session.synchronizeServerGraph_progress input.accepts sound (isEmpty_iff.mp drained)
          settled.1 settled.2
        exact progress.sound sound
      · cases stepped

omit [CharacterMotion μ] in
theorem initial_sound : ({} : Session μ).Sound := by
  have nothing : ∀ c (x : ObjectId), x ∉ ({} : Session μ).remotes.published c := fun c x => not_mem_nil
  refine ⟨?_,fun c x member => absurd member (nothing c x),?_,?_,?_,?_,?_,?_,?_⟩
  · intro x c controls
    cases controls
  · intro c known
    cases known
  · intro c linked
    cases linked
  · intro c relevant
    cases relevant
  · intro c replicated
    cases replicated
  · intro c peer found
    cases found
  · intro c peer found
    cases found
  · intro c peer found
    cases found

theorem run_sound {inputs : List (Input μ)}
    (meets : RunMeets step (fun s input => settles s input) {} inputs) (reached : run step {} inputs = some s) :
    s.pendingSessionFailure ∨ s.Sound := by
  have preserved : ∀ (s : Session μ) (input : Input μ) t, settles s input = true → (s.pendingSessionFailure = true ∨ s.Sound) →
      step s input = some t → t.pendingSessionFailure = true ∨ t.Sound := by
    intro s input t settled was stepped
    rcases was with failed | sound
    · unfold step at stepped
      rw [if_pos failed] at stepped
      cases stepped
    · exact step_sound settled sound stepped
  exact run_preserves_where preserved (.inr initial_sound) meets reached

structure Session.Unknown (s : Session μ) (c : ConnectionId) : Prop where
  authority : s.authority.peers.contains c = false
  control : ∀ x, s.authority.controllerOf x ≠ some c
  remotes : s.remotes.peers.contains c = false
  relevance : s.relevance.contains c = false
  replication : s.replication.contains c = false

omit [CharacterMotion μ] in
theorem Session.Sound.unknown (sound : s.Sound) {c : ConnectionId} (gone : s.peers.find? c = none) :
    s.Unknown c := by
  have unready : ¬ ∃ peer, s.peers.find? c = some peer ∧ peer.phase = .ready := by
    rintro ⟨peer,found,-⟩
    rw [gone] at found
    cases found
  have missing : s.peers.contains c ≠ true := by
    intro has
    obtain ⟨peer,found⟩ := contains_iff.mp has
    rw [gone] at found
    cases found
  have authority : s.authority.peers.contains c = false := Bool.eq_false_iff.mpr fun has => unready (sound.known c has)
  refine ⟨authority,?_,?_,?_,?_⟩
  · intro x controls
    rw [AuthoritativeCharacterNetwork.contains_of_knows (sound.owned x c controls)] at authority
    cases authority
  · exact Bool.eq_false_iff.mpr fun has => unready (sound.linked c has)
  · exact Bool.eq_false_iff.mpr fun has => missing (sound.relevant c has)
  · exact Bool.eq_false_iff.mpr fun has => missing (sound.replicated c has)

/-- What is right after a synchronization, and what is always. -/
structure Contract (inputs : List (Input μ)) (s : Session μ) : Prop where
  exact : ∀ before world accepts, inputs = before ++ [{ event := .synchronized world, accepts }] →
    ∀ c peer, s.peers.find? c = some peer → peer.phase = .ready → c ∉ s.pendingPeerFailures → s.Exact world c peer
  unknown : s.pendingSessionFailure = false → ∀ c, s.peers.find? c = none → s.Unknown c

/-- In a run whose synchronizations all settle, each makes the records of the healthy ready peers exact, and no manager
    knows a peer that is gone. -/
theorem synchronized_run {s : Session μ} {inputs : List (Input μ)}
    (meets : RunMeets step (fun s input => settles s input = true) {} inputs) (reached : run step {} inputs = some s) :
    Contract inputs s := by
  constructor
  · rintro before world accepts rfl c peer found ready healthy
    obtain ⟨middle,first,last⟩ := run_append_eq_some.mp reached
    obtain ⟨earlier,settled,-⟩ := meets.split first
    obtain ⟨t,stepped,done⟩ := run_cons_eq_some.mp last
    cases done
    rcases run_sound earlier first with failed | sound
    · unfold step at stepped
      rw [if_pos failed] at stepped
      cases stepped
    · unfold step at stepped
      split at stepped
      · cases stepped
      · dsimp only at stepped
        split at stepped
        · next drained =>
          cases stepped
          simp only [settles,Bool.and_eq_true] at settled
          have progress := Session.synchronizeServerGraph_progress accepts sound (isEmpty_iff.mp drained)
            settled.1 settled.2
          exact (progress.done c not_mem_nil peer found ready healthy).1
        · cases stepped
  · intro alive c gone
    rcases run_sound meets reached with failed | sound
    · rw [failed] at alive
      cases alive
    · exact sound.unknown gone

end

section
local instance : CharacterMotion Unit := ⟨fun _ => true,fun _ => true,id⟩

/-- A peer joins and knows two characters with their root part and a Remote. -/
def join (c : ConnectionId) : List (Event Unit) :=
  [.connected c,.hello c true [⟨1,1⟩,⟨2,1⟩],.frame c [] [⟨1,1⟩,⟨2,1⟩,⟨3,1⟩,⟨4,1⟩],.bootstrapped c,
    .clientReady c true true]

/-- The first peer's player names the first character, the second one's a given one. -/
def naming (second : ObjectId) : World :=
  { rootPart := fun _ => some ⟨4,1⟩, character := fun c => some (if c = ⟨1,1⟩ then ⟨1,1⟩ else second) }

def twoPeers (second : ObjectId) : List (Input Unit) :=
  let objects : List (Event Unit) := [.characterAdded ⟨1,1⟩,.characterAdded ⟨2,1⟩,.remoteAdded ⟨3,1⟩]
  let events := objects ++ join ⟨1,1⟩ ++ join ⟨2,1⟩ ++ [Event.synchronized (naming second)]
  events.map fun event => { event }

def remoteReturns : List (Input Unit) :=
  twoPeers ⟨2,1⟩ ++ [{ event := .frame ⟨1,1⟩ [] [⟨1,1⟩,⟨2,1⟩,⟨4,1⟩] },
    { event := .frame ⟨1,1⟩ [⟨3,1⟩] [⟨1,1⟩,⟨2,1⟩,⟨3,1⟩,⟨4,1⟩] },{ event := .synchronized (naming ⟨2,1⟩) }]

theorem synchronized_two_peers :
    ∃ s, run step {} (twoPeers ⟨2, 1⟩) = some s ∧ Contract (twoPeers ⟨2, 1⟩) s ∧
      (s.peers.find? ⟨1, 1⟩).map (·.controlledCharacter) = some (some ⟨1, 1⟩) ∧
      (s.peers.find? ⟨2, 1⟩).map (·.controlledCharacter) = some (some ⟨2, 1⟩) := by
  have controls : (run step {} (twoPeers ⟨2,1⟩)).map (fun s =>
      ((s.peers.find? ⟨1,1⟩).map (·.controlledCharacter),(s.peers.find? ⟨2,1⟩).map (·.controlledCharacter))) =
      some (some (some ⟨1,1⟩),some (some ⟨2,1⟩)) := by
    decide +kernel
  obtain ⟨s,reached,same⟩ := map_eq_some_iff.mp controls
  simp only [Prod.mk.injEq] at same
  exact ⟨s,reached,synchronized_run (by decide +kernel) reached,same⟩

/-- Two players of one character: the first peer is recorded to control it, but the second one does. And a Remote that
    left and came back is recorded for a peer to which it is not published. -/
theorem records_diverge :
    (∃ s peer, run step {} (twoPeers ⟨1, 1⟩) = some s ∧ s.peers.find? ⟨1, 1⟩ = some peer ∧ peer.phase = .ready ∧
      ⟨1, 1⟩ ∉ s.pendingPeerFailures ∧ peer.controlledCharacter = some ⟨1, 1⟩ ∧
      s.authority.controllerOf ⟨1, 1⟩ = some ⟨2, 1⟩) ∧
    ∃ s peer, run step {} remoteReturns = some s ∧ s.peers.find? ⟨1, 1⟩ = some peer ∧ peer.phase = .ready ∧
      ⟨1, 1⟩ ∉ s.pendingPeerFailures ∧ ⟨3, 1⟩ ∈ peer.materializedRemotes ∧ ⟨3, 1⟩ ∉ s.remotes.published ⟨1, 1⟩ := by
  have one : (run step {} (twoPeers ⟨1,1⟩)).any (fun s => (s.peers.find? ⟨1,1⟩).any fun peer =>
      decide (peer.phase = .ready ∧ ⟨1,1⟩ ∉ s.pendingPeerFailures ∧ peer.controlledCharacter = some ⟨1,1⟩ ∧
        s.authority.controllerOf ⟨1,1⟩ = some ⟨2,1⟩)) = true := by
    decide +kernel
  have two : (run step {} remoteReturns).any (fun s => (s.peers.find? ⟨1,1⟩).any fun peer =>
      decide (peer.phase = .ready ∧ ⟨1,1⟩ ∉ s.pendingPeerFailures ∧ ⟨3,1⟩ ∈ peer.materializedRemotes ∧
        ⟨3,1⟩ ∉ s.remotes.published ⟨1,1⟩)) = true := by
    decide +kernel
  constructor
  · obtain ⟨s,reached,rest⟩ := (any_eq_true _ _).mp one
    obtain ⟨peer,found,holds⟩ := (any_eq_true _ _).mp rest
    exact ⟨s,peer,reached,found,of_decide_eq_true holds⟩
  · obtain ⟨s,reached,rest⟩ := (any_eq_true _ _).mp two
    obtain ⟨peer,found,holds⟩ := (any_eq_true _ _).mp rest
    exact ⟨s,peer,reached,found,of_decide_eq_true holds⟩

end
end Gargantuan.GameSession
