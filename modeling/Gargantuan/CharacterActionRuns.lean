import Gargantuan.CharacterActions
import Gargantuan.Runs

/-!
What the server and the client of one connection keep of the requests between them.
The requests of a control epoch are processed and answered in order. As long as the
server's own actions are in line with the last resolved one, a published state has
resolved exactly what was processed before it.
-/
namespace Gargantuan.CharacterActions
open SortedMap List CharacterState Client MonotonicSequence CharacterActionRequest
open CharacterNetwork

def Taken (next e : CharacterControlEpoch) : Prop := 0 < e.toNat ∧ (next.isValid = true → e.toNat < next.toNat)

theorem takeSequence_fresh {next next' : CharacterControlEpoch} {taken : Option CharacterControlEpoch}
    (took : takeSequence next = (taken,next')) : (∀ e, Taken next e → Taken next' e ∧ e ≠ taken.getD {}) ∧
      ∀ e, taken = some e → e.isValid ∧ Taken next' e := by
  unfold takeSequence at took
  split_ifs at took with valid
  · cases took
    have positive := isValid_iff.mp valid
    have later : ∀ e : CharacterControlEpoch, 0 < e.toNat → e.toNat ≤ next.toNat → Taken (next.tryNext.getD {}) e := by
      intro e valid' small
      refine ⟨valid',?_⟩
      intro more
      cases stepped : next.tryNext with
      | none =>
        rw [stepped] at more
        cases more
      | some after =>
        have larger := (tryNext_toNat stepped).2
        rw [Option.getD_some]
        omega
    constructor
    · intro e given
      have below := given.2 valid
      refine ⟨later e given.1 below.le,?_⟩
      rintro rfl
      exact lt_irrefl _ below
    · intro e same
      cases same
      exact ⟨valid,later next positive le_rfl⟩
  · cases took
    refine ⟨?_,fun e same => by cases same⟩
    intro e given
    refine ⟨given,?_⟩
    rintro rfl
    exact absurd given.1 nofun

def requestNumbers (x : ObjectId) (e : CharacterControlEpoch) (l : List CharacterActionRequest) :
    List CharacterActionSequence :=
  (l.filter fun q => q.character = x ∧ q.controlEpoch = e).map CharacterActionRequest.actionSequence

def resultNumbers (x : ObjectId) (e : CharacterControlEpoch) (l : List CharacterActionResult) :
    List CharacterActionSequence :=
  (l.filter fun r => r.character = x ∧ r.controlEpoch = e).map CharacterActionResult.actionSequence

@[simp] theorem requestNumbers_append (x : ObjectId) (e : CharacterControlEpoch) (l l' : List CharacterActionRequest) :
    requestNumbers x e (l ++ l') = requestNumbers x e l ++ requestNumbers x e l' := by
  simp [requestNumbers]

@[simp] theorem resultNumbers_append (x : ObjectId) (e : CharacterControlEpoch) (l l' : List CharacterActionResult) :
    resultNumbers x e (l ++ l') = resultNumbers x e l ++ resultNumbers x e l' := by
  simp [resultNumbers]

theorem requestNumbers_concat (x : ObjectId) (e : CharacterControlEpoch) (l : List CharacterActionRequest)
    (q : CharacterActionRequest) : requestNumbers x e (l ++ [q]) =
      requestNumbers x e l ++ if q.character = x ∧ q.controlEpoch = e then [q.actionSequence] else [] := by
  by_cases own : q.character = x ∧ q.controlEpoch = e
  · simp [requestNumbers,own]
  · simp [requestNumbers,own]

variable {e : CharacterControlEpoch} {x : ObjectId} {l : List CharacterActionRequest}

theorem requestNumbers_eq_nil (none : ∀ q ∈ l, q.character = x → q.controlEpoch ≠ e) : requestNumbers x e l = [] := by
  rw [requestNumbers,map_eq_nil_iff,filter_eq_nil_iff]
  intro q member
  simp only [decide_eq_true_eq,not_and]
  exact none q member

theorem resultNumbers_eq_nil {l : List CharacterActionResult} (none : ∀ r ∈ l, r.character = x → r.controlEpoch ≠ e) :
    resultNumbers x e l = [] := by
  rw [resultNumbers,map_eq_nil_iff,filter_eq_nil_iff]
  intro r member
  simp only [decide_eq_true_eq,not_and]
  exact none r member

theorem mem_requestNumbers {n : CharacterActionSequence} (member : n ∈ requestNumbers x e l) :
    ∃ q ∈ l, q.character = x ∧ q.controlEpoch = e ∧ q.actionSequence = n := by
  obtain ⟨q,inside,same⟩ := mem_map.mp member
  obtain ⟨listed,which⟩ := mem_filter.mp inside
  obtain ⟨character,epoch⟩ := of_decide_eq_true which
  exact ⟨q,listed,character,epoch,same⟩

theorem resultNumbers_flatMap {α : Type} {parts : List α} {f : α → List CharacterActionResult} {a : α}
    (distinct : parts.Nodup) (member : a ∈ parts) (others : ∀ b ∈ parts, b ≠ a → resultNumbers x e (f b) = []) :
    resultNumbers x e (parts.flatMap f) = resultNumbers x e (f a) := by
  induction parts with
  | nil => cases member
  | cons b rest ih =>
    obtain ⟨fresh,distinct'⟩ := nodup_cons.mp distinct
    rw [flatMap_cons,resultNumbers_append]
    by_cases here : b = a
    · subst here
      have nothing : resultNumbers x e (rest.flatMap f) = [] := by
        apply resultNumbers_eq_nil
        intro r inside character epoch
        obtain ⟨other,later,listed⟩ := mem_flatMap.mp inside
        have apart : other ≠ b := by
          rintro rfl
          exact fresh later
        have empty := others other (.tail _ later) apart
        rw [resultNumbers,map_eq_nil_iff,filter_eq_nil_iff] at empty
        exact empty r listed (decide_eq_true ⟨character,epoch⟩)
      rw [nothing,append_nil]
    · have later : a ∈ rest := (mem_cons.mp member).resolve_left (Ne.symm here)
      rw [others b (.head _) here]
      exact ih distinct' later fun other inside => others other (.tail _ inside)

structure Serves (calm : Prop) (s : CharacterState) (l : List CharacterActionRequest) (r : CharacterState.Served) :
    Prop where
  epoch : r.state.controlEpoch = s.controlEpoch
  controller : r.state.controller = s.controller
  received : r.state.lastReceivedAction = s.lastReceivedAction
  grows : calm → s.resolvedAction.toNat ≤ r.state.resolvedAction.toNat
  covers : ∀ q ∈ r.processed, q ∈ l ∧ q.actionSequence.toNat ≤ r.state.resolvedAction.toNat
  bounded : ∀ n, s.resolvedAction.toNat ≤ n → (∀ q ∈ l, q.actionSequence.toNat ≤ n) → r.state.resolvedAction.toNat ≤ n
  answers : ∀ a ∈ r.results, ∃ q ∈ l, a.character = q.character ∧ a.controlEpoch = q.controlEpoch
  inTurn : ∀ x e, resultNumbers x e r.results <+: requestNumbers x e l
  complete : r.refused = false → ∀ x e, resultNumbers x e r.results = requestNumbers x e l

theorem resolve_fields (s : CharacterState) (q : CharacterActionRequest) (action : Option CharacterActionState)
    (tick : Nat) :
    (s.resolve q action tick).controlEpoch = s.controlEpoch ∧ (s.resolve q action tick).controller = s.controller ∧
      (s.resolve q action tick).lastReceivedAction = s.lastReceivedAction ∧
      (s.resolve q action tick).resolvedAction = q.actionSequence := by
  cases action <;> exact ⟨rfl,rfl,rfl,rfl⟩

variable {actions : ActionTable} {s : CharacterState} {input : StepInput} {tick : Nat}

theorem serveRequests_serves {calm : Prop}
    (sorted : l.Pairwise fun a b => a.actionSequence.toNat < b.actionSequence.toNat)
    (above : calm → ∀ q ∈ l, s.resolvedAction.toNat < q.actionSequence.toNat) :
    Serves calm s l (serveRequests actions input tick s l) := by
  induction l generalizing s calm with
  | nil =>
    refine ⟨rfl,rfl,rfl,fun _ => le_rfl,?_,fun n small _ => small,?_,fun x e => prefix_refl _,fun _ x e => rfl⟩
    · intro q member
      cases member
    · intro a member
      cases member
  | cons q rest ih =>
    obtain ⟨first,sorted'⟩ := pairwise_cons.mp sorted
    rw [serveRequests]
    generalize acceptedAction actions input tick q = action
    obtain ⟨epoch,controller,received,resolved⟩ := resolve_fields s q action tick
    have newer : calm → s.resolvedAction.toNat < q.actionSequence.toNat := fun still => above still q (.head _)
    have whole : ∀ x e, requestNumbers x e (q :: rest) = requestNumbers x e [q] ++ requestNumbers x e rest :=
      fun x e => requestNumbers_append x e [q] rest
    split_ifs with queued
    · -- behind a request that was resolved the others are above it
      have more : Serves True (s.resolve q action tick) rest _ := ih sorted' (by rw [resolved]; exact fun _ => first)
      have grows := more.grows trivial
      rw [resolved] at grows
      have numbers : ∀ (l : List CharacterActionResult) x e,
          resultNumbers x e (resultOf q action :: l) = requestNumbers x e [q] ++ resultNumbers x e l := by
        intro l x e
        have split := resultNumbers_append x e [resultOf q action] l
        rw [singleton_append] at split
        by_cases own : q.character = x ∧ q.controlEpoch = e
        · simp [resultNumbers,requestNumbers,resultOf,own]
        · simp [resultNumbers,requestNumbers,resultOf,own]
      refine ⟨more.epoch.trans epoch,more.controller.trans controller,more.received.trans received,?_,?_,?_,?_,?_,
        ?_⟩
      · exact fun still => (newer still).le.trans grows
      · intro p member
        rcases mem_cons.mp member with rfl | later
        · exact ⟨.head _,grows⟩
        · obtain ⟨listed,small⟩ := more.covers p later
          exact ⟨.tail _ listed,small⟩
      · intro n _ all
        refine more.bounded n ?_ fun p later => all p (.tail _ later)
        rw [resolved]
        exact all q (.head _)
      · intro a member
        rcases mem_cons.mp member with rfl | later
        · exact ⟨q,.head _,rfl,rfl⟩
        · obtain ⟨p,listed,same⟩ := more.answers a later
          exact ⟨p,.tail _ listed,same⟩
      · intro x e
        rw [numbers,whole]
        exact (prefix_append_right_inj _).mpr (more.inTurn x e)
      · intro taken x e
        rw [numbers,whole,more.complete taken x e]
    · refine ⟨epoch,controller,received,?_,?_,?_,?_,fun x e => List.nil_prefix,fun taken => by cases taken⟩
      · rw [resolved]
        exact fun still => (newer still).le
      · intro p member
        rw [mem_singleton.mp member]
        refine ⟨.head _,?_⟩
        rw [resolved]
      · intro n _ all
        rw [resolved]
        exact all q (.head _)
      · intro a member
        cases member

theorem advanceAction_fields (s : CharacterState) (actions : ActionTable) (fails : Bool) (tick : Nat) :
    (s.advanceAction actions fails tick).controlEpoch = s.controlEpoch ∧
      (s.advanceAction actions fails tick).controller = s.controller ∧
      (s.advanceAction actions fails tick).lastReceivedAction = s.lastReceivedAction ∧
      (s.advanceAction actions fails tick).resolvedAction = s.resolvedAction ∧
      (s.advanceAction actions fails tick).pendingActions = s.pendingActions := by
  unfold advanceAction
  split
  · exact ⟨rfl,rfl,rfl,rfl,rfl⟩
  split
  · exact ⟨rfl,rfl,rfl,rfl,rfl⟩
  split_ifs <;> exact ⟨rfl,rfl,rfl,rfl,rfl⟩

theorem serve_serves {calm : Prop}
    (sorted : s.pendingActions.Pairwise fun a b => a.actionSequence.toNat < b.actionSequence.toNat)
    (above : calm → ∀ q ∈ s.pendingActions, s.resolvedAction.toNat < q.actionSequence.toNat) :
    Serves calm s s.pendingActions (s.serve actions input tick x) ∧
      (s.serve actions input tick x).state.pendingActions = [] := by
  have served : Serves calm s s.pendingActions (serveRequests actions input tick s s.pendingActions) :=
    serveRequests_serves sorted above
  unfold serve
  generalize serveRequests actions input tick s s.pendingActions = r at served
  obtain ⟨epoch,controller,received,resolved,pending⟩ :=
    advanceAction_fields { r.state with pendingActions := [] } actions (input.motionFails x) tick
  refine ⟨⟨epoch.trans served.epoch,controller.trans served.controller,received.trans served.received,?_,?_,?_,
    served.answers,served.inTurn,served.complete⟩,pending⟩
  · rw [resolved]
    exact served.grows
  · rw [resolved]
    exact served.covers
  · rw [resolved]
    exact served.bounded

/-! ### What holds of the server and of the way to it -/

variable {q : CharacterActionRequest}

section
variable {μ : Type} {setup : Setup} {calm : Prop}

structure CharacterSound (setup : Setup) (calm : Prop) (y : System μ) (n : Nat) (x : ObjectId) (s : CharacterState) :
    Prop where
  own : ∀ q ∈ s.pendingActions, q.character = x ∧ q.controlEpoch = s.controlEpoch
  sorted : s.pendingActions.Pairwise fun a b => a.actionSequence.toNat < b.actionSequence.toNat
  above : calm → ∀ q ∈ s.pendingActions, s.resolvedAction.toNat < q.actionSequence.toNat
  below : ∀ q ∈ s.pendingActions, q.actionSequence.toNat ≤ s.lastReceivedAction.toNat
  free : s.controller = none → s.pendingActions = []
  known : calm → s.controller ≠ none → s.resolvedAction.toNat ≤ s.lastReceivedAction.toNat
  epoch : s.controller ≠ none → s.controlEpoch.isValid = true
  taken : s.controlEpoch.isValid = true → Taken y.nextControlEpoch s.controlEpoch
  granted : (x,s.controlEpoch) ∈ y.granted ↔ s.controller = some setup.connection
  ahead : s.controller = some setup.connection → ∀ q ∈ y.toServer, s.lastReceivedAction.toNat < q.actionSequence.toNat
  received : s.controller = some setup.connection → s.lastReceivedAction.toNat ≤ n
  published : calm → ∀ p ∈ y.published, p.state.character = x → p.state.controlEpoch = s.controlEpoch →
    p.state.resolvedAction.toNat ≤ s.resolvedAction.toNat
  positive : ∀ q ∈ s.pendingActions, 0 < q.actionSequence.toNat
  processed : calm → ∀ q ∈ y.processed, q.character = x → q.controlEpoch = s.controlEpoch →
    0 < q.actionSequence.toNat ∧ q.actionSequence.toNat ≤ s.resolvedAction.toNat
  admitted : ∀ q ∈ y.admitted, q.character = x → q.controlEpoch = s.controlEpoch →
    q.actionSequence.toNat ≤ s.lastReceivedAction.toNat
  answered : y.refused = false → requestNumbers x s.controlEpoch y.admitted =
    resultNumbers x s.controlEpoch y.results ++ s.pendingActions.map CharacterActionRequest.actionSequence
  served : ∃ before, requestNumbers x s.controlEpoch y.admitted =
    before ++ s.pendingActions.map CharacterActionRequest.actionSequence ∧
      (resultNumbers x s.controlEpoch y.results).Sublist before

structure ServerSound (setup : Setup) (calm : Prop) (y : System μ) (n : Nat) : Prop where
  characters : ∀ x s, y.characters.find? x = some s → CharacterSound setup calm y n x s
  grantedTaken : ∀ g ∈ y.granted, Taken y.nextControlEpoch g.2
  publishedTaken : ∀ p ∈ y.published, Taken y.nextControlEpoch p.state.controlEpoch
  processedTaken : ∀ q ∈ y.processed, Taken y.nextControlEpoch q.controlEpoch
  admittedTaken : ∀ q ∈ y.admitted, Taken y.nextControlEpoch q.controlEpoch
  linked : calm → ∀ p ∈ y.published, (p.state.character,p.state.controlEpoch) ∈ y.granted →
    p.state.resolvedAction.toNat ≤ n ∧ ∀ q ∈ y.toServer, p.state.resolvedAction.toNat < q.actionSequence.toNat
  built : calm → ∀ p ∈ y.published, ∀ q ∈ p.processed, q.character = p.state.character →
    q.controlEpoch = p.state.controlEpoch →
      0 < q.actionSequence.toNat ∧ q.actionSequence.toNat ≤ p.state.resolvedAction.toNat
  monotone : calm → y.published.Pairwise fun p p' => p.state.character = p'.state.character →
    p.state.controlEpoch = p'.state.controlEpoch → p.state.resolvedAction.toNat ≤ p'.state.resolvedAction.toNat
  flying : y.toServer.Pairwise fun a b => a.actionSequence.toNat < b.actionSequence.toNat
  issued : ∀ q ∈ y.toServer, 0 < q.actionSequence.toNat ∧ q.actionSequence.toNat ≤ n
  increasing : ∀ x e, (requestNumbers x e y.admitted).Pairwise fun a b => a.toNat < b.toNat
  inOrder : y.refused = false → ∀ x e, resultNumbers x e y.results <+: requestNumbers x e y.admitted
  once : ∀ x e, (resultNumbers x e y.results).Sublist (requestNumbers x e y.admitted)

variable {n : Nat} {s : CharacterState} {x : ObjectId} {y : System μ}

structure Rebinding (setup : Setup) (y y' : System μ) (x : ObjectId) (s : CharacterState) : Prop where
  characters : y'.characters = y.characters.insert x s
  later : ∀ e, Taken y.nextControlEpoch e → Taken y'.nextControlEpoch e ∧ e ≠ s.controlEpoch
  taken : s.controlEpoch.isValid = true → Taken y'.nextControlEpoch s.controlEpoch
  pending : s.pendingActions = []
  bound : s.controller ≠ none → s.controlEpoch.isValid = true ∧ s.resolvedAction.toNat = 0 ∧
    s.lastReceivedAction.toNat = 0
  granted : ∀ g, g ∈ y'.granted ↔ g ∈ y.granted ∨ s.controller = some setup.connection ∧ g = (x,s.controlEpoch)
  toServer : y'.toServer = y.toServer
  published : y'.published = y.published
  processed : y'.processed = y.processed
  admitted : y'.admitted = y.admitted
  results : y'.results = y.results
  refused : y'.refused = y.refused

section Rebinding
variable {y' : System μ}

theorem Rebinding.character (r : Rebinding setup y y' x s) (sound : ServerSound setup calm y n) :
    CharacterSound setup calm y' n x s := by
  have nothing : requestNumbers x s.controlEpoch y.admitted = [] := by
    apply requestNumbers_eq_nil
    intro q member _
    exact (r.later _ (sound.admittedTaken q member)).2
  have pending := r.pending
  refine ⟨?_,?_,?_,?_,fun _ => pending,?_,fun controlled => (r.bound controlled).1,r.taken,?_,?_,?_,?_,?_,
    ?_,?_,?_,?_⟩
  · simp [pending]
  · simp [pending]
  · simp [pending]
  · simp [pending]
  · intro _ controlled
    have zero := (r.bound controlled).2
    omega
  · rw [r.granted]
    constructor
    · rintro (before | ⟨controlled,-⟩)
      · exact absurd rfl (r.later _ (sound.grantedTaken _ before)).2
      · exact controlled
    · intro controlled
      exact .inr ⟨controlled,rfl⟩
  · intro controlled q member
    rw [r.toServer] at member
    have zero := (r.bound (by rw [controlled]; simp)).2.2
    have positive := (sound.issued q member).1
    omega
  · intro controlled
    have zero := (r.bound (by rw [controlled]; simp)).2.2
    omega
  · intro _ p member _ epoch
    rw [r.published] at member
    exact absurd epoch (r.later _ (sound.publishedTaken p member)).2
  · simp [pending]
  · intro _ q member _ epoch
    rw [r.processed] at member
    exact absurd epoch (r.later _ (sound.processedTaken q member)).2
  · intro q member _ epoch
    rw [r.admitted] at member
    exact absurd epoch (r.later _ (sound.admittedTaken q member)).2
  · intro none
    rw [r.refused] at none
    have order := sound.inOrder none x s.controlEpoch
    rw [nothing,prefix_nil] at order
    rw [r.admitted,r.results,nothing,order,pending]
    rfl
  · have order := sound.once x s.controlEpoch
    rw [nothing] at order
    refine ⟨[],?_,?_⟩
    · rw [r.admitted,nothing,pending]
      rfl
    · rwa [r.results]

theorem Rebinding.beside (r : Rebinding setup y y' x s) {z : ObjectId} {other : CharacterState} (here : z ≠ x)
    (before : CharacterSound setup calm y n z other) : CharacterSound setup calm y' n z other := by
  refine { before with
    taken := ?_
    granted := ?_
    ahead := by rw [r.toServer]; exact before.ahead
    published := by rw [r.published]; exact before.published
    processed := by rw [r.processed]; exact before.processed
    admitted := by rw [r.admitted]; exact before.admitted
    answered := by rw [r.refused,r.admitted,r.results]; exact before.answered
    served := by rw [r.admitted,r.results]; exact before.served }
  · intro valid
    exact (r.later _ (before.taken valid)).1
  · rw [r.granted,before.granted]
    constructor
    · rintro (held | ⟨-,same⟩)
      · exact held
      · exact absurd (congrArg Prod.fst same) here
    · exact .inl

theorem ServerSound.rebind (sound : ServerSound setup calm y n) (r : Rebinding setup y y' x s) :
    ServerSound setup calm y' n := by
  refine ⟨?_,?_,?_,?_,?_,?_,?_,?_,?_,?_,?_,?_,?_⟩
  · intro z other found
    rw [r.characters,find?_insert] at found
    split_ifs at found with here
    · cases found
      exact here ▸ r.character sound
    · exact r.beside here (sound.characters z other found)
  · intro g member
    rcases (r.granted g).mp member with before | ⟨controlled,rfl⟩
    · exact (r.later _ (sound.grantedTaken g before)).1
    · exact r.taken (r.bound (by rw [controlled]; simp)).1
  · rw [r.published]
    exact fun p member => (r.later _ (sound.publishedTaken p member)).1
  · rw [r.processed]
    exact fun q member => (r.later _ (sound.processedTaken q member)).1
  · rw [r.admitted]
    exact fun q member => (r.later _ (sound.admittedTaken q member)).1
  · rw [r.published,r.toServer]
    intro still p member held
    rcases (r.granted _).mp held with before | ⟨-,same⟩
    · exact sound.linked still p member before
    · exact absurd (congrArg Prod.snd same) (r.later _ (sound.publishedTaken p member)).2
  · rw [r.published]
    exact sound.built
  · rw [r.published]
    exact sound.monotone
  · rw [r.toServer]
    exact sound.flying
  · rw [r.toServer]
    exact sound.issued
  · rw [r.admitted]
    exact sound.increasing
  · rw [r.refused,r.results,r.admitted]
    exact sound.inOrder
  · rw [r.results,r.admitted]
    exact sound.once

end Rebinding

section
variable (sound : ServerSound setup calm y n)
include sound

theorem revokeControl_sound (x : ObjectId) (tick : Nat) (queued : Bool) :
    ServerSound setup calm (y.revokeControl setup x tick queued) n := by
  unfold System.revokeControl
  cases found : y.characters.find? x with
  | none => exact sound
  | some s =>
    dsimp only
    cases held : s.controller with
    | none => exact sound
    | some d =>
      split_ifs with untimed
      · exact sound
      have fresh := takeSequence_fresh (Prod.mk.eta (p := takeSequence y.nextControlEpoch)).symm
      refine sound.rebind ⟨rfl,fresh.1,?_,rfl,?_,?_,rfl,rfl,rfl,rfl,rfl,rfl⟩
      · intro valid
        cases taken : (takeSequence y.nextControlEpoch).1 with
        | none =>
          simp only [taken] at valid
          cases valid
        | some e => exact (fresh.2 e taken).2
      · intro controlled
        exact absurd rfl controlled
      · intro g
        constructor
        · exact .inl
        · rintro (before | ⟨never,-⟩)
          · exact before
          · cases never

theorem ServerSound.forget (x : ObjectId) :
    ServerSound setup calm { y with characters := y.characters.erase x } n := by
  refine { sound with characters := ?_ }
  intro z s found
  rw [find?_erase] at found
  split_ifs at found
  have before := sound.characters z s found
  exact { before with }

theorem ServerSound.advance {next : CharacterControlEpoch}
    (later : ∀ e, Taken y.nextControlEpoch e → Taken next e) :
    ServerSound setup calm { y with nextControlEpoch := next } n := by
  refine { sound with
    characters := ?_
    grantedTaken := fun g member => later _ (sound.grantedTaken g member)
    publishedTaken := fun p member => later _ (sound.publishedTaken p member)
    processedTaken := fun q member => later _ (sound.processedTaken q member)
    admittedTaken := fun q member => later _ (sound.admittedTaken q member) }
  intro z s found
  have before := sound.characters z s found
  exact { before with taken := fun valid => later _ (before.taken valid) }

theorem registerCharacter_sound (x : ObjectId) : ServerSound setup calm (y.registerCharacter x) n := by
  unfold System.registerCharacter
  split
  · exact sound
  · next e next took =>
    have fresh := takeSequence_fresh took
    split_ifs with known
    · exact sound.advance fun e given => (fresh.1 e given).1
    · refine sound.rebind ⟨rfl,fresh.1,?_,rfl,?_,?_,rfl,rfl,rfl,rfl,rfl,rfl⟩
      · intro _
        exact (fresh.2 e rfl).2
      · intro controlled
        exact absurd rfl controlled
      · intro g
        constructor
        · exact .inl
        · rintro (before | ⟨never,-⟩)
          · exact before
          · cases never

theorem bindControl_sound (d : ConnectionId) (x : ObjectId)
    (channel : StateChannelId) (tick : Nat) (bindable queued : Bool) :
    ServerSound setup calm (y.bindControl setup d x channel tick bindable queued) n := by
  unfold System.bindControl
  by_cases refused : tick = 0 ∨ bindable = false ∨ y.characters.contains x = false
  · rwa [if_pos refused]
  rw [if_neg refused]
  have revoked := revokeControl_sound sound x tick queued
  dsimp only
  generalize y.revokeControl setup x tick queued = r at revoked ⊢
  split
  · exact revoked
  · exact revoked
  · next s e next found took =>
    have fresh := takeSequence_fresh took
    have valid := (fresh.2 e rfl).1
    split_ifs with unsent own
    · refine revoked.rebind ⟨rfl,fresh.1,fun _ => (fresh.2 e rfl).2,rfl,?_,?_,rfl,rfl,rfl,rfl,rfl,rfl⟩
      · intro controlled
        exact absurd rfl controlled
      · intro g
        constructor
        · exact .inl
        · rintro (before | ⟨never,-⟩)
          · exact before
          · cases never
    · refine revoked.rebind ⟨rfl,fresh.1,fun _ => (fresh.2 e rfl).2,rfl,?_,?_,rfl,rfl,rfl,rfl,rfl,rfl⟩
      · intro _
        exact ⟨valid,rfl,rfl⟩
      · intro g
        rw [mem_cons]
        constructor
        · rintro (rfl | before)
          · exact .inr ⟨congrArg some own,rfl⟩
          · exact .inl before
        · rintro (before | ⟨-,same⟩)
          · exact .inr before
          · exact .inl same
    · refine revoked.rebind ⟨rfl,fresh.1,fun _ => (fresh.2 e rfl).2,rfl,?_,?_,rfl,rfl,rfl,rfl,rfl,rfl⟩
      · intro _
        exact ⟨valid,rfl,rfl⟩
      · intro g
        constructor
        · exact .inl
        · rintro (before | ⟨same,-⟩)
          · exact before
          · exact absurd (Option.some.inj same) own

theorem ServerSound.setCharacter (holds : CharacterSound setup calm y n x s) :
    ServerSound setup calm (y.setCharacter x s) n := by
  refine { sound with characters := ?_ }
  intro z other found
  change (y.characters.insert x s).find? z = some other at found
  rw [find?_insert] at found
  have kept : CharacterSound setup calm y n z other := by
    split_ifs at found with here
    · cases found
      rwa [here]
    · exact sound.characters z other found
  exact { kept with }

end

def startsInLine (y : System μ) (x : ObjectId) : Bool :=
  (y.characters.find? x).all fun s =>
    decide (s.controller = none) && decide (s.resolvedAction.toNat ≤ s.nextServerAction.toNat)

theorem startServerAction_sound (sound : ServerSound setup calm y n) (inLine : calm → startsInLine y x)
    (token tick : Nat) : ServerSound setup calm (y.startServerAction setup x token tick) n := by
  unfold System.startServerAction
  split
  · next s definition found _ =>
    have settled : calm → s.controller = none ∧ s.resolvedAction.toNat ≤ s.nextServerAction.toNat := by
      intro still
      simpa [startsInLine,found] using inLine still
    split_ifs with untimed
    · exact sound
    apply sound.setCharacter
    have before := sound.characters x s found
    unfold startServerAction
    split_ifs with late
    · exact before
    refine { before with
      above := ?_
      known := fun still controlled => absurd (settled still).1 controlled
      published := ?_
      processed := ?_ }
    · intro still q member
      rw [before.free (settled still).1] at member
      cases member
    · intro still p member character epoch
      exact (before.published still p member character epoch).trans (settled still).2
    · intro still q member character epoch
      obtain ⟨positive,small⟩ := before.processed still q member character epoch
      exact ⟨positive,small.trans (settled still).2⟩
  · exact sound

section Admission
variable {d : ConnectionId} {request : CharacterActionRequest}

theorem CharacterState.of_admits (valid : 0 < request.actionSequence.toNat) (admitted : s.admits d request) :
    s.controller = some d ∧ s.controlEpoch = request.controlEpoch ∧
      s.lastReceivedAction.toNat < request.actionSequence.toNat := by
  simp only [admits,Bool.and_eq_true,decide_eq_true_eq,Bool.or_eq_true,Bool.not_eq_true'] at admitted
  obtain ⟨⟨⟨controller,epoch⟩,newer⟩,-⟩ := admitted
  refine ⟨controller,epoch,?_⟩
  rcases newer with invalid | newer
  · have zero : ¬ 0 < s.lastReceivedAction.toNat := by
      rw [← isValid_iff,invalid]
      exact nofun
    omega
  · exact (isNewerThan_iff.mp newer).2

theorem CharacterSound.withRequest (before : CharacterSound setup calm y n request.character s)
    (valid : 0 < request.actionSequence.toNat) (controlled : s.controller ≠ none)
    (epoch : s.controlEpoch = request.controlEpoch)
    (larger : s.lastReceivedAction.toNat < request.actionSequence.toNat)
    (next : s.controller = some setup.connection → request.actionSequence.toNat ≤ n ∧
      ∀ q ∈ y.toServer, request.actionSequence.toNat < q.actionSequence.toNat) :
    CharacterSound setup calm { y with admitted := y.admitted ++ [request] } n request.character
      (s.withRequest request) := by
  have resolved : calm → s.resolvedAction.toNat ≤ s.lastReceivedAction.toNat := fun still =>
    before.known still controlled
  have listed : ∀ q, q ∈ (s.withRequest request).pendingActions → q ∈ s.pendingActions ∨ q = request := by
    intro q member
    rcases mem_append.mp member with old | new
    · exact .inl old
    · exact .inr (mem_singleton.mp new)
  refine ⟨?_,?_,?_,?_,fun none => absurd none controlled,fun still _ => (resolved still).trans larger.le,
    before.epoch,before.taken,before.granted,fun own => (next own).2,fun own => (next own).1,before.published,?_,
    before.processed,?_,?_,?_⟩
  · intro q member
    rcases listed q member with old | rfl
    · exact before.own q old
    · exact ⟨rfl,epoch.symm⟩
  · refine pairwise_append.mpr ⟨before.sorted,pairwise_singleton _ _,?_⟩
    intro a old b new
    rw [mem_singleton.mp new]
    exact (before.below a old).trans_lt larger
  · intro still q member
    rcases listed q member with old | rfl
    · exact before.above still q old
    · exact (resolved still).trans_lt larger
  · intro q member
    rcases listed q member with old | rfl
    · exact (before.below q old).trans larger.le
    · exact le_rfl
  · intro q member
    rcases listed q member with old | rfl
    · exact before.positive q old
    · exact valid
  · intro q member character epoch'
    rcases mem_append.mp member with old | new
    · exact (before.admitted q old character epoch').trans larger.le
    · rw [mem_singleton.mp new]
      exact le_rfl
  · intro none
    change requestNumbers request.character s.controlEpoch (y.admitted ++ [request]) =
      resultNumbers request.character s.controlEpoch y.results ++
        (s.pendingActions ++ [request]).map actionSequence
    rw [requestNumbers_concat,before.answered none,if_pos ⟨rfl,epoch.symm⟩]
    simp
  · obtain ⟨answered,whole,order⟩ := before.served
    refine ⟨answered,?_,order⟩
    change requestNumbers request.character s.controlEpoch (y.admitted ++ [request]) =
      answered ++ (s.pendingActions ++ [request]).map actionSequence
    rw [requestNumbers_concat,whole,if_pos ⟨rfl,epoch.symm⟩]
    simp

theorem CharacterSound.beside (kept : CharacterSound setup calm y n x s) (other : x ≠ request.character) :
    CharacterSound setup calm { y with admitted := y.admitted ++ [request] } n x s := by
  have same : requestNumbers x s.controlEpoch (y.admitted ++ [request]) = requestNumbers x s.controlEpoch y.admitted := by
    rw [requestNumbers_concat,if_neg fun both => other both.1.symm,append_nil]
  refine { kept with admitted := ?_, answered := same ▸ kept.answered, served := same ▸ kept.served }
  intro q member character epoch
  rcases mem_append.mp member with old | new
  · exact kept.admitted q old character epoch
  · rw [mem_singleton.mp new] at character
    exact absurd character.symm other

theorem handleRequest_sound (sound : ServerSound setup calm y n) (valid : 0 < request.actionSequence.toNat)
    (next : d = setup.connection → request.actionSequence.toNat ≤ n ∧
      ∀ q ∈ y.toServer, request.actionSequence.toNat < q.actionSequence.toNat) :
    ServerSound setup calm (y.handleRequest d request) n := by
  unfold System.handleRequest
  cases found : y.characters.find? request.character with
  | none => exact sound
  | some s =>
    dsimp only
    split_ifs with admitted
    · have before := sound.characters _ s found
      obtain ⟨controller,epoch,larger⟩ := of_admits valid admitted
      have controlled : s.controller ≠ none := by
        rw [controller]
        exact nofun
      have own := before.withRequest valid controlled epoch larger fun own =>
        next (Option.some.inj (controller.symm.trans own))
      refine { sound with characters := ?_, admittedTaken := ?_, increasing := ?_, inOrder := ?_, once := ?_ }
      · intro z other found'
        change (y.characters.insert request.character (s.withRequest request)).find? z = some other at found'
        rw [find?_insert] at found'
        split_ifs at found' with here
        · cases found'
          rw [here]
          exact { own with }
        · exact { (sound.characters z other found').beside here with }
      · intro q member
        rcases mem_append.mp member with old | new
        · exact sound.admittedTaken q old
        · rw [mem_singleton.mp new,← epoch]
          exact before.taken (before.epoch controlled)
      · intro z e
        rw [requestNumbers_concat]
        refine pairwise_append.mpr ⟨sound.increasing z e,?_,?_⟩
        · split_ifs
          · exact pairwise_singleton _ _
          · exact .nil
        · intro a old b new
          split_ifs at new with same
          · rw [mem_singleton.mp new]
            obtain ⟨q,inside,character,epoch',rfl⟩ := mem_requestNumbers old
            have small := before.admitted q inside (character.trans same.1.symm)
              (epoch'.trans (same.2.symm.trans epoch.symm))
            omega
          · cases new
      · intro none z e
        rw [requestNumbers_concat]
        exact (sound.inOrder none z e).trans (prefix_append _ _)
      · intro z e
        rw [requestNumbers_concat]
        exact (sound.once z e).trans (sublist_append_left _ _)
    · exact sound

end Admission

theorem publishState_sound (sound : ServerSound setup calm y n) (x : ObjectId) (snapshot : Snapshot μ) :
    ServerSound setup calm (y.publishState x snapshot) n := by
  unfold System.publishState
  cases found : y.characters.find? x with
  | none => exact sound
  | some s =>
    dsimp only
    split_ifs with unset
    · exact sound
    have valid : s.controlEpoch.isValid := by simpa using unset
    have own := sound.characters x s found
    have cases_ : ∀ (p q : Published μ), p ∈ y.published ++ [q] → p ∈ y.published ∨ p = q := by
      intro p q member
      rcases mem_append.mp member with old | new
      · exact .inl old
      · exact .inr (mem_singleton.mp new)
    refine { sound with characters := ?_, publishedTaken := ?_, linked := ?_, built := ?_, monotone := ?_ }
    · intro z other found'
      have kept := sound.characters z other found'
      refine { kept with published := ?_ }
      intro still p member character epoch
      rcases cases_ p _ member with old | rfl
      · exact kept.published still p old character epoch
      · change x = z at character
        subst character
        rw [found] at found'
        cases found'
        exact le_rfl
    · intro p member
      rcases cases_ p _ member with old | rfl
      · exact sound.publishedTaken p old
      · exact own.taken valid
    · intro still p member held
      rcases cases_ p _ member with old | rfl
      · exact sound.linked still p old held
      · have controlled := own.granted.mp held
        have known := own.known still (by rw [controlled]; simp)
        refine ⟨known.trans (own.received controlled),?_⟩
        intro q flying
        exact known.trans_lt (own.ahead controlled q flying)
    · intro still p member
      rcases cases_ p _ member with old | rfl
      · exact sound.built still p old
      · exact own.processed still
    · intro still
      refine pairwise_append.mpr ⟨sound.monotone still,pairwise_singleton _ _,?_⟩
      intro p old p' new character epoch
      rw [mem_singleton.mp new] at character epoch ⊢
      exact own.published still p old character epoch

theorem nodup_entries {κ ν : Type} [LinearOrder κ] (m : SortedMap κ ν) : m.entries.Nodup :=
  List.Pairwise.imp (fun {a b} less same => by rw [same] at less; exact lt_irrefl _ less) m.sorted

variable {input : StepInput}

theorem mem_served {e : ObjectId × CharacterState.Served} (member : e ∈ y.served setup tick input) :
    ∃ x s, y.characters.find? x = some s ∧ e = (x,s.serve setup.serverActions input tick x) := by
  obtain ⟨entry,stored,rfl⟩ := mem_map.mp member
  exact ⟨entry.1,entry.2,find?_eq_some.mpr stored,rfl⟩

section
variable (sound : ServerSound setup calm y n)
include sound

theorem serves_of_sound (tick : Nat) (input : StepInput) (found : y.characters.find? x = some s) :
    Serves calm s s.pendingActions (s.serve setup.serverActions input tick x) ∧
      (s.serve setup.serverActions input tick x).state.pendingActions = [] := by
  have own := sound.characters x s found
  exact serve_serves own.sorted own.above

theorem mem_step_processed (member : q ∈ (y.served setup tick input).flatMap fun e => e.2.processed) :
    ∃ s, y.characters.find? q.character = some s ∧ q ∈ s.pendingActions ∧ q.controlEpoch = s.controlEpoch ∧
      q.actionSequence.toNat ≤ (s.serve setup.serverActions input tick q.character).state.resolvedAction.toNat := by
  obtain ⟨e,inside,within⟩ := mem_flatMap.mp member
  obtain ⟨x,s,found,rfl⟩ := mem_served inside
  obtain ⟨pending,small⟩ := (serves_of_sound sound tick input found).1.covers q within
  obtain ⟨rfl,epoch⟩ := (sound.characters x s found).own q pending
  exact ⟨s,found,pending,epoch,small⟩

theorem step_resultNumbers (tick : Nat) (input : StepInput)
    (found : y.characters.find? x = some s) (e : CharacterControlEpoch) :
    resultNumbers x e ((y.served setup tick input).flatMap fun e => e.2.results) =
      resultNumbers x e (s.serve setup.serverActions input tick x).results := by
  rw [System.served,flatMap_map]
  have stored : (x,s) ∈ y.characters.entries := find?_eq_some.mp found
  refine resultNumbers_flatMap (nodup_entries y.characters) stored ?_
  rintro ⟨z,other⟩ inside apart
  have found' : y.characters.find? z = some other := find?_eq_some.mpr inside
  apply resultNumbers_eq_nil
  intro r member character _
  obtain ⟨q,pending,same,-⟩ := (serves_of_sound sound tick input found').1.answers r member
  have own := ((sound.characters z other found').own q pending).1
  have here : z = x := by rw [← own,← same,character]
  subst here
  rw [found] at found'
  cases found'
  exact apart rfl

end

theorem requestNumbers_own {l : List CharacterActionRequest} (own : ∀ q ∈ l, q.character = x ∧ q.controlEpoch = e) :
    requestNumbers x e l = l.map actionSequence := by
  rw [requestNumbers,filter_eq_self.mpr]
  intro q member
  exact decide_eq_true (own q member)

section Step
variable (tick : Nat) (input : StepInput)

private theorem step_taken (none : (y.refused || (y.served setup tick input).any fun e => e.2.refused) = false) :
    y.refused = false ∧ ∀ x s, y.characters.find? x = some s →
      (s.serve setup.serverActions input tick x).refused = false := by
  rw [Bool.or_eq_false_iff,any_eq_false] at none
  refine ⟨none.1,?_⟩
  intro x s found
  have stored : (x,s.serve setup.serverActions input tick x) ∈ y.served setup tick input :=
    mem_map.mpr ⟨(x,s),find?_eq_some.mp found,rfl⟩
  simpa using none.2 _ stored

variable (sound : ServerSound setup calm y n)
include sound

theorem step_answers (none : (y.refused || (y.served setup tick input).any fun e => e.2.refused) = false)
    (found : y.characters.find? x = some s) : requestNumbers x s.controlEpoch y.admitted =
      resultNumbers x s.controlEpoch (y.results ++ (y.served setup tick input).flatMap fun e => e.2.results) := by
  obtain ⟨before,all⟩ := step_taken tick input none
  have own := sound.characters x s found
  rw [resultNumbers_append,step_resultNumbers sound tick input found,
    (serves_of_sound sound tick input found).1.complete (all x s found),requestNumbers_own own.own]
  exact own.answered before

theorem step_inTurn (found : y.characters.find? x = some s) : (resultNumbers x s.controlEpoch
      (y.results ++ (y.served setup tick input).flatMap fun e => e.2.results)).Sublist
        (requestNumbers x s.controlEpoch y.admitted) := by
  have own := sound.characters x s found
  obtain ⟨before,whole,order⟩ := own.served
  rw [resultNumbers_append,step_resultNumbers sound tick input found,whole,← requestNumbers_own own.own]
  exact order.append ((serves_of_sound sound tick input found).1.inTurn x s.controlEpoch).sublist

theorem step_elsewhere {e : CharacterControlEpoch} (apart : ∀ s, y.characters.find? x = some s → e ≠ s.controlEpoch) :
    resultNumbers x e (y.results ++ (y.served setup tick input).flatMap fun e => e.2.results) =
      resultNumbers x e y.results := by
  have nothing : resultNumbers x e ((y.served setup tick input).flatMap fun e => e.2.results) = [] := by
    apply resultNumbers_eq_nil
    rintro r member character rfl
    obtain ⟨part,inside,within⟩ := mem_flatMap.mp member
    obtain ⟨z,s,found,rfl⟩ := mem_served inside
    obtain ⟨q,pending,same,epoch⟩ := (serves_of_sound sound tick input found).1.answers r within
    obtain ⟨here,current⟩ := (sound.characters z s found).own q pending
    have listed : z = x := by rw [← here,← same,character]
    exact apart s (listed ▸ found) (epoch.trans current)
  rw [resultNumbers_append,nothing,append_nil]

theorem step_character (found : y.characters.find? x = some s)
    (timed : tick ≠ 0) : CharacterSound setup calm (y.step setup tick input) n x
      (s.serve setup.serverActions input tick x).state := by
  have own := sound.characters x s found
  obtain ⟨serves,cleared⟩ := serves_of_sound sound tick input found
  rw [System.step,if_neg timed]
  refine ⟨?_,?_,?_,?_,fun _ => cleared,?_,?_,?_,?_,?_,?_,?_,?_,?_,?_,?_,?_⟩
  · rw [cleared]
    exact fun q member => by cases member
  · rw [cleared]
    exact .nil
  · rw [cleared]
    exact fun _ q member => by cases member
  · rw [cleared]
    exact fun q member => by cases member
  · rw [serves.controller,serves.received]
    intro still controlled
    exact serves.bounded _ (own.known still controlled) own.below
  · rw [serves.controller,serves.epoch]
    exact own.epoch
  · rw [serves.epoch]
    exact own.taken
  · rw [serves.epoch,serves.controller]
    exact own.granted
  · rw [serves.controller,serves.received]
    exact own.ahead
  · rw [serves.controller,serves.received]
    exact own.received
  · rw [serves.epoch]
    intro still p member character epoch
    exact (own.published still p member character epoch).trans (serves.grows still)
  · rw [cleared]
    exact fun q member => by cases member
  · rw [serves.epoch]
    intro still q member character epoch
    rcases mem_append.mp member with old | new
    · obtain ⟨positive,small⟩ := own.processed still q old character epoch
      exact ⟨positive,small.trans (serves.grows still)⟩
    · obtain ⟨s',found',pending,-,small⟩ := mem_step_processed sound new
      rw [character] at found' small
      rw [found] at found'
      cases found'
      exact ⟨own.positive q pending,small⟩
  · rw [serves.epoch,serves.received]
    exact own.admitted
  · rw [serves.epoch,cleared,map_nil,append_nil]
    intro none
    exact step_answers tick input sound none found
  · rw [serves.epoch,cleared]
    exact ⟨requestNumbers x s.controlEpoch y.admitted,(append_nil _).symm,step_inTurn tick input sound found⟩

end Step

section
variable (sound : ServerSound setup calm y n)
include sound

theorem step_sound (tick : Nat) (input : StepInput) : ServerSound setup calm (y.step setup tick input) n := by
  by_cases untimed : tick = 0
  · rwa [System.step,if_pos untimed]
  have characters := fun x s found => step_character tick input sound (x := x) (s := s) found untimed
  rw [System.step,if_neg untimed] at characters ⊢
  refine { sound with characters := ?_, processedTaken := ?_, inOrder := ?_, once := ?_ }
  · intro x s' found'
    rw [find?_mapValues] at found'
    obtain ⟨s,found,rfl⟩ := Option.map_eq_some_iff.mp found'
    exact characters x s found
  · intro q member
    rcases mem_append.mp member with old | new
    · exact sound.processedTaken q old
    · obtain ⟨s,found,pending,epoch,-⟩ := mem_step_processed sound new
      have own := sound.characters _ s found
      rw [epoch]
      apply own.taken
      apply own.epoch
      intro free
      rw [own.free free] at pending
      cases pending
  · intro none x e
    obtain ⟨before,-⟩ := step_taken tick input none
    by_cases here : ∃ s, y.characters.find? x = some s ∧ e = s.controlEpoch
    · obtain ⟨s,found,rfl⟩ := here
      simp only [step_answers tick input sound none found,prefix_refl]
    · rw [step_elsewhere tick input sound fun s found same => here ⟨s,found,same⟩]
      exact sound.inOrder before x e
  · intro x e
    by_cases here : ∃ s, y.characters.find? x = some s ∧ e = s.controlEpoch
    · obtain ⟨s,found,rfl⟩ := here
      exact step_inTurn tick input sound found
    · rw [step_elsewhere tick input sound fun s found same => here ⟨s,found,same⟩]
      exact sound.once x e

theorem ServerSound.arrived
    {rest : List CharacterActionRequest} (flying : y.toServer = q :: rest) :
    ServerSound setup calm { y with toServer := rest } n := by
  have fewer : ∀ p ∈ rest, p ∈ y.toServer := by
    intro p member
    rw [flying]
    exact mem_cons_of_mem q member
  have sorted := sound.flying
  rw [flying] at sorted
  refine { sound with
    characters := ?_
    linked := ?_
    flying := (pairwise_cons.mp sorted).2
    issued := fun p member => sound.issued p (fewer p member) }
  · intro x s found
    have own := sound.characters x s found
    exact { own with ahead := fun controlled p member => own.ahead controlled p (fewer p member) }
  · intro still p member held
    obtain ⟨small,all⟩ := sound.linked still p member held
    exact ⟨small,fun r inside => all r (fewer r inside)⟩

theorem ServerSound.sent {n' : Nat} (more : n ≤ n')
    {requests : List CharacterActionRequest}
    (sorted : requests.Pairwise fun a b => a.actionSequence.toNat < b.actionSequence.toNat)
    (newer : ∀ q ∈ requests, n < q.actionSequence.toNat ∧ q.actionSequence.toNat ≤ n') (c : Client μ) :
    ServerSound setup calm { y with client := c, toServer := y.toServer ++ requests } n' := by
  refine { sound with characters := ?_, linked := ?_, flying := ?_, issued := ?_ }
  · intro x s found
    have own := sound.characters x s found
    refine { own with ahead := ?_, received := fun controlled => (own.received controlled).trans more }
    intro controlled q member
    rcases mem_append.mp member with old | new
    · exact own.ahead controlled q old
    · exact (own.received controlled).trans_lt (newer q new).1
  · intro still p member held
    obtain ⟨small,all⟩ := sound.linked still p member held
    refine ⟨small.trans more,?_⟩
    intro q inside
    rcases mem_append.mp inside with old | new
    · exact all q old
    · exact small.trans_lt (newer q new).1
  · refine pairwise_append.mpr ⟨sound.flying,sorted,?_⟩
    intro a old b new
    exact (sound.issued a old).2.trans_lt (newer b new).1
  · intro q member
    rcases mem_append.mp member with old | new
    · exact ⟨(sound.issued q old).1,(sound.issued q old).2.trans more⟩
    · have after := newer q new
      exact ⟨by omega,after.2⟩

end

def Client.issued (c : Client μ) : Nat := if c.nextAction.isValid then c.nextAction.toNat - 1 else maximumTick

structure ClientSound (actions : ActionTable) (granted : List (ObjectId × CharacterControlEpoch))
    (published : List (Published μ)) (c : Client μ) : Prop where
  control : ∀ t, c.control = some t → (t.character,t.controlEpoch) ∈ granted
  pendingControl : ∀ t, c.pendingControl = some t → (t.character,t.controlEpoch) ∈ granted
  ascending : c.pendingActions.Pairwise fun a b => a.sequence.toNat < b.sequence.toNat
  issued : ∀ a ∈ c.pendingActions, a.sequence.toNat ≤ c.issued
  registered : ∀ a, c.predictedAction = some a → (actions.find? a.actionToken).isSome = true
  waiting : ∀ x s, c.waitingState x = some s →
    ∃ p ∈ published, p.state.character = x ∧ s = { p.state with activeAction := s.activeAction }

section Client
variable {actions : ActionTable} {granted granted' : List (ObjectId × CharacterControlEpoch)}
  {published published' : List (Published μ)} {c c' : Client μ}

section
variable (sound : ClientSound actions granted published c)
include sound

theorem ClientSound.mono (more : ∀ g ∈ granted, g ∈ granted')
    (later : ∀ p ∈ published, p ∈ published') : ClientSound actions granted' published' c := by
  refine ⟨fun t held => more _ (sound.control t held),fun t held => more _ (sound.pendingControl t held),
    sound.ascending,sound.issued,sound.registered,?_⟩
  intro x s found
  obtain ⟨p,member,same⟩ := sound.waiting x s found
  exact ⟨p,later p member,same⟩

theorem ClientSound.congr (control : c'.control = none ∨ c'.control = c.control ∨ c'.control = c.pendingControl)
    (pendingControl : c'.pendingControl = none ∨ c'.pendingControl = c.pendingControl)
    (pending : c'.pendingActions.Sublist c.pendingActions) (next : c'.nextAction = c.nextAction)
    (predicted : c'.predictedAction = none ∨ c'.predictedAction = c.predictedAction)
    (waiting : ∀ x s, c'.waitingState x = some s → c.waitingState x = some s) :
    ClientSound actions granted published c' := by
  have same : c'.issued = c.issued := by rw [Client.issued,Client.issued,next]
  refine ⟨?_,?_,sound.ascending.sublist pending,?_,?_,fun x s found => sound.waiting x s (waiting x s found)⟩
  · intro t held
    rcases control with gone | kept | moved
    · rw [gone] at held
      cases held
    · exact sound.control t (kept ▸ held)
    · exact sound.pendingControl t (moved ▸ held)
  · intro t held
    rcases pendingControl with gone | kept
    · rw [gone] at held
      cases held
    · exact sound.pendingControl t (kept ▸ held)
  · intro a member
    rw [same]
    exact sound.issued a (pending.subset member)
  · intro a held
    rcases predicted with gone | kept
    · rw [gone] at held
      cases held
    · exact sound.registered a (kept ▸ held)

theorem handleControl_client {t : CharacterControlTransition}
    (held : t.bound → (t.character,t.controlEpoch) ∈ granted) :
    ClientSound actions granted published (c.handleControl t) := by
  unfold handleControl
  dsimp only
  split_ifs with unbound unknown stale known
  · exact sound
  · exact sound.congr (.inl rfl) (.inl rfl) (nil_sublist _) rfl (.inl rfl) fun _ _ found => found
  · exact sound
  · have bound : t.bound := by simpa using unbound
    have free : ClientSound actions granted published
        { c with lastControlEpoch := t.controlEpoch, pendingActions := [], lastActionResult := {} } :=
      sound.congr (.inr (.inl rfl)) (.inr rfl) (nil_sublist _) rfl (.inr rfl) fun _ _ found => found
    refine ⟨?_,?_,free.ascending,free.issued,?_,free.waiting⟩
    · intro t' same
      cases same
      exact held bound
    · intro t' same
      cases same
    · intro a same
      cases same
  · have bound : t.bound := by simpa using unbound
    have free : ClientSound actions granted published
        { c with lastControlEpoch := t.controlEpoch, pendingActions := [], lastActionResult := {} } :=
      sound.congr (.inr (.inl rfl)) (.inr rfl) (nil_sublist _) rfl (.inr rfl) fun _ _ found => found
    refine { free with pendingControl := ?_ }
    intro t' same
    cases same
    exact held bound

end

theorem waitingState_insert {r : Replica μ} {z : ObjectId} {s : CharacterAuthoritativeState μ}
    (found : ({ c with replicas := c.replicas.insert x r }).waitingState z = some s) :
    (z = x ∧ r.pendingState = some s) ∨ c.waitingState z = some s := by
  unfold waitingState at found ⊢
  rw [find?_insert] at found
  split_ifs at found with here
  · exact .inl ⟨here,found⟩
  · exact .inr found

theorem markMaterialized_client (sound : ClientSound actions granted published c) (x : ObjectId) :
    ClientSound actions granted published (c.markMaterialized x) := by
  have waiting : ∀ z s, ({ c with replicas := c.replicas.insert x {} }).waitingState z = some s →
      c.waitingState z = some s := by
    intro z s found
    rcases waitingState_insert found with ⟨-,blank⟩ | before
    · cases blank
    · exact before
  unfold markMaterialized
  split_ifs
  · exact sound
  · exact sound.congr (.inr (.inr rfl)) (.inl rfl) (.refl _) rfl (.inl rfl) waiting
  · exact sound.congr (.inr (.inl rfl)) (.inr rfl) (.refl _) rfl (.inr rfl) waiting

theorem markUnmaterialized_client (sound : ClientSound actions granted published c) (x : ObjectId) :
    ClientSound actions granted published (c.markUnmaterialized x) := by
  have waiting : ∀ z s, ({ c with replicas := c.replicas.erase x }).waitingState z = some s →
      c.waitingState z = some s := by
    intro z s found
    unfold waitingState at found ⊢
    rw [find?_erase] at found
    split_ifs at found
    · cases found
    · exact found
  unfold markUnmaterialized
  split_ifs
  · exact sound.congr (.inl rfl) (.inr rfl) (.refl _) rfl (.inl rfl) waiting
  · exact sound.congr (.inr (.inl rfl)) (.inr rfl) (.refl _) rfl (.inr rfl) waiting

theorem findPending_eq_some {sequence : CharacterActionSequence} {l front back : List PendingAction}
    {found : PendingAction} (taken : findPending sequence l = some (front,found,back)) :
    l = front ++ found :: back ∧ found.sequence = sequence := by
  induction l generalizing front with
  | nil => cases taken
  | cons a rest ih =>
    rw [findPending] at taken
    split_ifs at taken with here
    · cases taken
      exact ⟨rfl,here⟩
    · obtain ⟨⟨front',found',back'⟩,inner,same⟩ := Option.map_eq_some_iff.mp taken
      cases same
      obtain ⟨split,number⟩ := ih inner
      exact ⟨by rw [split]; rfl,number⟩

theorem handleResult_pending (actions : ActionTable) (c : Client μ) (result : CharacterActionResult) :
    (c.handleResult actions result).pendingActions = c.pendingActions ∨
      ∃ front found back, c.pendingActions = front ++ found :: back ∧ found.sequence = result.actionSequence ∧
        (c.handleResult actions result).pendingActions = front ++ back := by
  unfold handleResult
  split
  · exact .inl rfl
  split
  · exact .inl rfl
  split
  · exact .inl rfl
  · next front found back taken =>
    obtain ⟨whole,number⟩ := findPending_eq_some taken
    split_ifs
    · exact .inl rfl
    · refine .inr ⟨front,found,back,whole,number,?_⟩
      split
      · split_ifs <;> rfl
      · rfl
    · exact .inr ⟨front,found,back,whole,number,rfl⟩

theorem recognises_registered {action : CharacterActionState} (known : actions.recognises action) :
    (actions.find? action.actionToken).isSome := by
  obtain ⟨definition,found,-⟩ := (Option.any_eq_true _ _).mp known
  rw [found]
  rfl

theorem handleResult_client (sound : ClientSound actions granted published c) (result : CharacterActionResult) :
    ClientSound actions granted published (c.handleResult actions result) := by
  unfold handleResult
  split
  · exact sound
  split
  · exact sound
  split
  · exact sound
  · next front found back taken =>
    obtain ⟨whole,number⟩ := findPending_eq_some taken
    have fewer : (front ++ back).Sublist c.pendingActions := by
      rw [whole]
      exact (List.Sublist.refl front).append (sublist_cons_self found back)
    have kept : ClientSound actions granted published
        { c with pendingActions := front ++ back, lastActionResult := result.actionSequence } :=
      sound.congr (.inr (.inl rfl)) (.inr rfl) fewer rfl (.inr rfl) fun _ _ found => found
    split_ifs
    · exact sound
    · split
      · next action _ =>
        split_ifs with taken'
        · refine { kept with registered := ?_ }
          intro a same
          cases same
          exact recognises_registered (Bool.and_eq_true_iff.mp taken').2
        · exact kept.congr (.inr (.inl rfl)) (.inr rfl) (.refl _) rfl (.inl rfl) fun _ _ found => found
      · exact kept.congr (.inr (.inl rfl)) (.inr rfl) (.refl _) rfl (.inl rfl) fun _ _ found => found
    · exact kept

theorem handleState_client (sound : ClientSound actions granted published c) {p : Published μ} (sent : p ∈ published)
    (reliable : Bool) : ClientSound actions granted published (c.handleState actions p.state reliable) := by
  -- Whatever becomes of the state, only a replica changes, and what waits for it was published.
  have stored : ∀ r : Replica μ, (∀ s, r.pendingState = some s →
      ∃ p' ∈ published, p'.state.character = p.state.character ∧ s = { p'.state with activeAction := s.activeAction }) →
      ClientSound actions granted published { c with replicas := c.replicas.insert p.state.character r } := by
    intro r waits
    refine { sound with waiting := ?_ }
    intro z s found
    rcases waitingState_insert found with ⟨rfl,fresh⟩ | before
    · exact waits s fresh
    · exact sound.waiting z s before
  unfold handleState
  split
  · exact sound
  next replica found =>
  have waits : ∀ s, replica.pendingState = some s →
      ∃ p' ∈ published, p'.state.character = p.state.character ∧ s = { p'.state with activeAction := s.activeAction } := by
    intro s held
    refine sound.waiting _ s ?_
    rwa [waitingState,found]
  have itself : ∀ s, some p.state = some s →
      ∃ p' ∈ published, p'.state.character = p.state.character ∧ s = { p'.state with activeAction := s.activeAction } := by
    intro s same
    cases same
    exact ⟨p,sent,rfl,rfl⟩
  split
  · exact sound
  split
  · split
    · exact stored _ waits
    · exact sound
  split
  · next waiting held =>
    split
    · split
      · refine stored _ ?_
        intro s same
        cases same
        obtain ⟨p',member,character,equal⟩ := waits waiting held
        refine ⟨p',member,character,?_⟩
        rw [equal]
      · exact sound
    · exact stored _ itself
  · exact stored _ itself

/-- Only the prediction and its progress may change. -/
structure Predicts (c c' : Client μ) : Prop where
  same : ∃ tick, c' = { c with predictedAction := c'.predictedAction, lastActionEvaluationTick := tick }
  action : c'.predictedAction = none ∨ c'.predictedAction = c.predictedAction

theorem predict_predicts (actions : ActionTable) (c : Client μ) (command : CharacterInputCommand) (movement : Movement) :
    Predicts c (c.predict actions command movement).1 := by
  unfold predict
  split
  · exact ⟨⟨_,rfl⟩,.inr rfl⟩
  unfold predictAction
  split
  · exact ⟨⟨_,rfl⟩,.inr rfl⟩
  split
  · exact ⟨⟨_,rfl⟩,.inr rfl⟩
  split
  · exact ⟨⟨_,rfl⟩,.inl rfl⟩
  split
  · exact ⟨⟨_,rfl⟩,.inr rfl⟩
  split
  · exact ⟨⟨_,rfl⟩,.inl rfl⟩
  · exact ⟨⟨_,rfl⟩,.inr rfl⟩

end Client
end
end Gargantuan.CharacterActions
