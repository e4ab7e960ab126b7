import Gargantuan.RenderDirtyAccumulator
import Mathlib.Algebra.Order.BigOperators.Group.List

/-!
What becomes of the marks. A watch keeps, beside the accumulator, the marks that were made and
the batches that were captured. Each mark is kept under a version: the one that its entry gets,
or that of the failure by which it is dropped. As long as no consumer of its scope has
acknowledged that version before, every capture covers it until one that came after it is
acknowledged (`marks_run`).
-/
namespace Gargantuan.RenderDirtyAccumulator
open SortedMap Option Nat Entry
variable {κ : Type} [LinearOrder κ]

/-! ### The watch -/

inductive Change (κ : Type) where
  | object (object : κ) (domains : RenderUpdateDomain)
  | ui
deriving DecidableEq

structure Marked (κ : Type) where
  scope : κ
  change : Change κ
  version : Nat
  dropped : Bool
deriving DecidableEq

/-- A batch and how many marks had been made when it was captured. -/
structure Captured (κ : Type) where
  batch : RenderDirtyBatch κ
  position : Nat

/-- The accumulator with its past. For a consumer of a scope it is known since which mark it relies on the scope: since it
    captured the scope first, or since the capture of the newest batch of it that it has acknowledged. -/
structure Watch (κ : Type) [LinearOrder κ] where
  accumulator : RenderDirtyAccumulator κ := {}
  marked : List (Marked κ) := []
  captured : List (Captured κ) := []
  since : Nat → κ → Option Nat := fun _ _ => none

inductive Event (κ : Type) where
  | mark (scope object : κ) (domains : RenderUpdateDomain) (bytes : Nat)
  | markUi (scope : κ) (bytes : Nat)
  | requestFullResync (scope : κ) (diagnostic : String)
  | createConsumer
  | releaseConsumer (consumer : Nat) (scope : Option κ)
  | capture (scope : κ) (consumer : Nat)
  | acknowledge (index : Nat)

def scopeOf (d : RenderDirtyAccumulator κ) (scope : κ) : ScopeState κ := (d.scopes.find? scope).getD {}

def heard (s : ScopeState κ) (consumer : Nat) : Nat := (s.consumerVersions.find? consumer).getD 0

def globalHeard (d : RenderDirtyAccumulator κ) (consumer : Nat) : Nat :=
  (d.consumerGlobalVersions.find? consumer).getD 0

def failureVersion (s : ScopeState κ) : Nat := if s.fullResyncVersion = 0 then s.nextVersion else s.fullResyncVersion

def globalVersion (d : RenderDirtyAccumulator κ) : Nat :=
  if isPending d then d.globalFailureVersion else d.nextGlobalVersion

def versionOf (limits : RenderDirtyLimits) (object : κ) (s : ScopeState κ) : Nat :=
  if isFull limits s object then failureVersion s else s.nextVersion

def keep (limits : RenderDirtyLimits) (d : RenderDirtyAccumulator κ) (scope : κ) (change : Change κ)
    (version : ScopeState κ → Nat) : Marked κ :=
  if hasPlace limits d scope then ⟨scope,change,version (scopeOf d scope),false⟩
  else ⟨scope,change,globalVersion d,true⟩

def Watch.hear (w : Watch κ) (b : Captured κ) : Watch κ :=
  { w with
    since := fun c k =>
      if c = b.batch.consumer ∧ k = b.batch.scope then (w.since c k).map (max b.position) else w.since c k }

def watch (limits : RenderDirtyLimits) (w : Watch κ) : Event κ → Option (Watch κ)
  | .mark scope object domains bytes =>
    if domains = 0 then some w
    else
      some { w with
        accumulator := w.accumulator.mark limits scope object domains bytes
        marked := w.marked ++ [keep limits w.accumulator scope (.object object domains) (versionOf limits object)] }
  | .markUi scope bytes =>
    some { w with
      accumulator := w.accumulator.markUi limits scope bytes
      marked := w.marked ++ [keep limits w.accumulator scope .ui ScopeState.nextVersion] }
  | .requestFullResync scope diagnostic =>
    some { w with accumulator := w.accumulator.requestFullResync limits scope diagnostic }
  | .createConsumer => some { w with accumulator := (w.accumulator.createConsumer limits).2 }
  | .releaseConsumer consumer scope =>
    some { w with
      accumulator := w.accumulator.releaseConsumer consumer scope
      since := fun c k => if c = consumer ∧ releases scope k = true then none else w.since c k }
  | .capture scope consumer =>
    (w.accumulator.capture limits scope consumer).map fun taken =>
      { w with
        accumulator := taken.2
        captured := w.captured ++ [⟨taken.1,w.marked.length⟩]
        since := fun c k =>
          if c = consumer ∧ k = scope ∧ w.since c k = none then some w.marked.length else w.since c k }
  | .acknowledge index =>
    w.captured[index]?.map fun b => { w.hear b with accumulator := w.accumulator.acknowledge b.batch }

def Watch.owed (w : Watch κ) (consumer : Nat) : List (Marked κ) :=
  (w.marked.zipIdx.filter fun m => (w.since consumer m.1.scope).any fun since => decide (since ≤ m.2)).map Prod.fst

def Covers (batch : RenderDirtyBatch κ) : Change κ → Prop
  | .object object domains => batch.fullResyncRequired = true ∨
      ∃ r ∈ batch.records, r.object = object ∧ domains ||| r.domains = r.domains
  | .ui => batch.fullResyncRequired = true ∨ batch.uiDirty = true

instance (batch : RenderDirtyBatch κ) : (change : Change κ) → Decidable (Covers batch change)
  | .object _ _ => inferInstanceAs (Decidable (_ ∨ ∃ r ∈ batch.records, _ ∧ _))
  | .ui => inferInstanceAs (Decidable (_ ∨ _))

/-- No consumer that relies on the scope has acknowledged the version under which a mark is kept. -/
def IsNews (limits : RenderDirtyLimits) (w : Watch κ) (scope : κ) (version : ScopeState κ → Nat) : Prop :=
  if hasPlace limits w.accumulator scope then
    ∀ e ∈ (scopeOf w.accumulator scope).consumerVersions.entries, e.2 < version (scopeOf w.accumulator scope)
  else
    ∀ e ∈ w.accumulator.consumerGlobalVersions.entries, w.since e.1 scope ≠ none → e.2 < globalVersion w.accumulator

def IsCountable (s : ScopeState κ) (object : κ) (domains : RenderUpdateDomain) (bytes : Nat) : Prop :=
  let e := (s.entries.find? object).getD {}
  s.estimatedDeformableBytes - e.estimatedDeformableBytes + entryBytes e domains bytes ≤ maximumSize

def IsTimely (w : Watch κ) (b : Captured κ) : Prop :=
  (∀ m ∈ (w.hear b).owed b.batch.consumer, (m.dropped = true → b.batch.globalCaptureVersion < m.version) ∧
    (m.dropped = false → m.scope = b.batch.scope → b.batch.captureVersion < m.version)) ∧
  let s := scopeOf w.accumulator b.batch.scope
  ∀ e ∈ w.accumulator.consumerGlobalVersions.entries, ∀ m ∈ w.owed e.1,
    m.dropped = false → m.scope = b.batch.scope → s.consumerVersions.find? e.1 = none →
      minimumAcknowledged (s.consumerVersions.insert b.batch.consumer
        (max (heard s b.batch.consumer) b.batch.captureVersion)) < m.version

def Admissible (limits : RenderDirtyLimits) (w : Watch κ) : Event κ → Prop
  | .mark scope object domains bytes => domains = 0 ∨
      (IsNews limits w scope (versionOf limits object) ∧ (isFull limits (scopeOf w.accumulator scope) object ∨
          IsCountable (scopeOf w.accumulator scope) object domains bytes))
  | .markUi scope _ => IsNews limits w scope ScopeState.nextVersion
  | .releaseConsumer consumer scope =>
      ∀ e ∈ w.accumulator.consumerGlobalVersions.entries, e.1 ≠ consumer → ∀ m ∈ w.owed e.1,
        m.dropped = false → releases scope m.scope = true →
          ∃ other ∈ (scopeOf w.accumulator m.scope).consumerVersions.entries, other.1 ≠ consumer
  | .acknowledge index => ∀ b ∈ w.captured[index]?, IsTimely w b
  | .requestFullResync _ _ | .createConsumer | .capture _ _ => True

instance (limits : RenderDirtyLimits) (w : Watch κ) (scope : κ) (version : ScopeState κ → Nat) :
    Decidable (IsNews limits w scope version) :=
  inferInstanceAs (Decidable (if hasPlace limits w.accumulator scope then
      ∀ e ∈ (scopeOf w.accumulator scope).consumerVersions.entries, e.2 < _
    else ∀ e ∈ w.accumulator.consumerGlobalVersions.entries, w.since e.1 scope ≠ none → e.2 < _))

instance (w : Watch κ) (b : Captured κ) : Decidable (IsTimely w b) :=
  inferInstanceAs (Decidable ((∀ m ∈ _, (_ → _) ∧ (_ → _ → _)) ∧ ∀ e ∈ _, ∀ m ∈ _, _ → _ → _ → _))

instance (limits : RenderDirtyLimits) (w : Watch κ) : (e : Event κ) → Decidable (Admissible limits w e)
  | .mark _ _ _ _ => inferInstanceAs (Decidable (_ ∨ (_ ∧ (_ ∨ _ ≤ _))))
  | .markUi _ _ => inferInstanceAs (Decidable (IsNews _ _ _ _))
  | .releaseConsumer _ _ => inferInstanceAs (Decidable (∀ e ∈ _, _ → ∀ m ∈ _, _ → _ → ∃ other ∈ _, _))
  | .acknowledge _ => inferInstanceAs (Decidable (∀ b ∈ _, IsTimely w b))
  | .requestFullResync _ _ | .createConsumer | .capture _ _ => isTrue trivial

/-! ### One scope -/

def Kept (s : ScopeState κ) (m : Marked κ) : Prop :=
  (s.fullResyncVersion ≠ 0 ∧ m.version ≤ s.fullResyncVersion) ∨
    match m.change with
    | .object object domains =>
      ∃ e, s.entries.find? object = some e ∧ domains ||| e.domains = e.domains ∧ m.version ≤ e.version
    | .ui => m.version ≤ s.uiVersion

structure Bounded (s : ScopeState κ) : Prop where
  next : 0 < s.nextVersion
  entries : ∀ o e, s.entries.find? o = some e → e.version ≤ s.nextVersion
  ui : s.uiVersion ≤ s.nextVersion
  bytes : s.estimatedDeformableBytes = s.entries.total Entry.estimatedDeformableBytes

structure Carries (s t : ScopeState κ) : Prop where
  failure : s.fullResyncVersion ≠ 0 → t.fullResyncVersion = s.fullResyncVersion
  entries : ∀ o e, s.entries.find? o = some e →
    ∃ e', t.entries.find? o = some e' ∧ e.version ≤ e'.version ∧ e.domains ||| e'.domains = e'.domains
  ui : s.uiVersion ≤ t.uiVersion
  heard : ∀ c, heard t c = heard s c

section
variable {limits : RenderDirtyLimits} {s t u : ScopeState κ}

theorem Carries.refl : Carries s s :=
  ⟨fun _ => rfl,fun _ e found => ⟨e,found,le_rfl,BitVec.or_self⟩,le_rfl,fun _ => rfl⟩

theorem Carries.trans (first : Carries s t) (second : Carries t u) : Carries s u := by
  refine ⟨?_,?_,first.ui.trans second.ui,fun c => (second.heard c).trans (first.heard c)⟩
  · intro failed
    have same := first.failure failed
    exact (second.failure (same ▸ failed)).trans same
  · intro o e found
    obtain ⟨e',found',version,domains⟩ := first.entries o e found
    obtain ⟨e'',found'',version',domains'⟩ := second.entries o e' found'
    refine ⟨e'',found'',version.trans version',?_⟩
    rw [← domains',← BitVec.or_assoc,domains]

variable {m : Marked κ} {bytes : Nat} {domains : RenderUpdateDomain}

theorem Kept.carry (kept : Kept s m) (carries : Carries s t) : Kept t m := by
  rcases kept with ⟨failed,version⟩ | kept
  · left
    rw [carries.failure failed]
    exact ⟨failed,version⟩
  · right
    cases change : m.change with
    | object object domains =>
      rw [change] at kept
      obtain ⟨e,found,within,version⟩ := kept
      obtain ⟨e',found',later,domains'⟩ := carries.entries object e found
      refine ⟨e',found',?_,version.trans later⟩
      rw [← domains',← BitVec.or_assoc,within]
    | ui =>
      rw [change] at kept
      exact kept.trans carries.ui

/-- What changes is not about the marks. -/
structure Advances (s t : ScopeState κ) : Prop where
  next : s.nextVersion ≤ t.nextVersion
  failure : s.fullResyncVersion ≠ 0 → t.fullResyncVersion = s.fullResyncVersion
  entries : t.entries = s.entries
  ui : t.uiVersion = s.uiVersion
  consumers : t.consumerVersions = s.consumerVersions
  bytes : t.estimatedDeformableBytes = s.estimatedDeformableBytes

theorem Advances.carries (advances : Advances s t) : Carries s t := by
  refine ⟨advances.failure,?_,advances.ui.ge,fun c => by rw [heard,advances.consumers,heard]⟩
  intro o e found
  rw [advances.entries]
  exact ⟨e,found,le_rfl,BitVec.or_self⟩

theorem Advances.bounded (advances : Advances s t) (bounded : Bounded s) : Bounded t := by
  refine ⟨bounded.next.trans_le advances.next,?_,?_,?_⟩
  · intro o e found
    rw [advances.entries] at found
    exact (bounded.entries o e found).trans advances.next
  · rw [advances.ui]
    exact bounded.ui.trans advances.next
  · rw [advances.bytes,advances.entries]
    exact bounded.bytes

theorem markFailure_advances (limits : RenderDirtyLimits) (s : ScopeState κ) (diagnostic : String) :
    Advances s (markFailure limits s diagnostic) := by
  unfold markFailure
  dsimp only
  constructor <;> split_ifs <;> simp_all

theorem markFailure_version (s : ScopeState κ) (diagnostic : String) :
    (markFailure limits s diagnostic).fullResyncVersion = failureVersion s := by
  unfold markFailure failureVersion
  dsimp only
  split_ifs <;> simp_all

theorem failureVersion_pos (bounded : Bounded s) : 0 < failureVersion s := by
  have next := bounded.next
  unfold failureVersion
  split_ifs <;> omega

theorem advanceVersion_advances (limits : RenderDirtyLimits) (s : ScopeState κ) :
    Advances s (advanceVersion limits s).2 := by
  unfold advanceVersion
  split_ifs
  · exact markFailure_advances limits s _
  · exact ⟨le_succ _,fun _ => rfl,rfl,rfl,rfl,rfl⟩

theorem advanceVersion_version (limits : RenderDirtyLimits) (s : ScopeState κ) :
    (advanceVersion limits s).1 = s.nextVersion := by
  unfold advanceVersion
  split_ifs with exhausted
  · -- The exhausted version does not advance any further.
    unfold markFailure
    dsimp only
    split_ifs <;> simp_all
  · rfl

variable (entries : SortedMap κ Entry)

theorem total_insert_entry (o : κ) (e : Entry) :
    (entries.insert o e).total estimatedDeformableBytes + ((entries.find? o).getD {}).estimatedDeformableBytes =
      entries.total estimatedDeformableBytes + e.estimatedDeformableBytes := by
  cases found : entries.find? o with
  | none => exact total_insert_new _ found e
  | some known => exact total_insert _ found e

theorem le_total_entry (o : κ) :
    ((entries.find? o).getD {}).estimatedDeformableBytes ≤ entries.total estimatedDeformableBytes := by
  have sum : _ + _ = _ + 0 := total_insert_entry entries o {}
  omega

theorem scopeBytes_add {e : Entry} (within : e.estimatedDeformableBytes ≤ s.estimatedDeformableBytes)
    (countable : s.estimatedDeformableBytes - e.estimatedDeformableBytes + bytes ≤ maximumSize) :
    scopeBytes s e bytes + e.estimatedDeformableBytes = s.estimatedDeformableBytes + bytes := by
  unfold scopeBytes sizeSub
  rw [if_pos within,if_neg (by omega)]
  omega

theorem touch_entries (s : ScopeState κ) (object : κ) (e : Entry) (domains : RenderUpdateDomain) (bytes : Nat) :
    (touch limits s object e domains bytes).entries =
      s.entries.insert object ⟨e.domains ||| domains,entryBytes e domains bytes,s.nextVersion⟩ := by
  unfold touch
  dsimp only
  rw [advanceVersion_version]

theorem touch_version (s : ScopeState κ) (object : κ) (e : Entry) (domains : RenderUpdateDomain) (bytes : Nat) :
    (touch limits s object e domains bytes).entries.find? object =
      some ⟨e.domains ||| domains,entryBytes e domains bytes,s.nextVersion⟩ := by
  rw [touch_entries,find?_insert_self]

variable {object : κ}

theorem touch_bytes (bounded : Bounded s) (countable : IsCountable s object domains bytes) :
    (touch limits s object ((s.entries.find? object).getD {}) domains bytes).estimatedDeformableBytes =
      (touch limits s object ((s.entries.find? object).getD {}) domains bytes).entries.total
        estimatedDeformableBytes := by
  have counted : (touch limits s object ((s.entries.find? object).getD {}) domains bytes).estimatedDeformableBytes =
      scopeBytes s ((s.entries.find? object).getD {}) (entryBytes ((s.entries.find? object).getD {}) domains bytes) :=
    (advanceVersion_advances limits _).bytes
  have within := bounded.bytes ▸ le_total_entry s.entries object
  have added := scopeBytes_add within countable
  have sum := total_insert_entry s.entries object ⟨((s.entries.find? object).getD {}).domains ||| domains,
    entryBytes ((s.entries.find? object).getD {}) domains bytes,s.nextVersion⟩
  have known := bounded.bytes
  rw [counted,touch_entries]
  dsimp only at sum
  omega

theorem touch_carries (bounded : Bounded s) (object : κ) (domains : RenderUpdateDomain) (bytes : Nat) :
    Carries s (touch limits s object ((s.entries.find? object).getD {}) domains bytes) := by
  have advances := advanceVersion_advances limits { s with
    estimatedDeformableBytes := scopeBytes s ((s.entries.find? object).getD {})
      (entryBytes ((s.entries.find? object).getD {}) domains bytes) }
  refine ⟨advances.failure,?_,advances.ui.ge,fun c => by rw [heard,touch,advances.consumers,heard]⟩
  intro o e found
  by_cases same : o = object
  · subst same
    refine ⟨_,touch_version s o _ domains bytes,bounded.entries o e found,?_⟩
    rw [found,getD_some,← BitVec.or_assoc,BitVec.or_self]
  · refine ⟨e,?_,le_rfl,BitVec.or_self⟩
    rwa [touch_entries,find?_insert_of_ne _ _ same]

theorem touch_bounded (bounded : Bounded s) (countable : IsCountable s object domains bytes) :
    Bounded (touch limits s object ((s.entries.find? object).getD {}) domains bytes) := by
  have advances := advanceVersion_advances limits { s with
    estimatedDeformableBytes := scopeBytes s ((s.entries.find? object).getD {})
      (entryBytes ((s.entries.find? object).getD {}) domains bytes) }
  refine ⟨bounded.next.trans_le advances.next,?_,?_,touch_bytes bounded countable⟩
  · intro o e found
    by_cases same : o = object
    · subst same
      rw [touch_version,some_inj] at found
      rw [← found]
      exact advances.next
    · rw [touch_entries,find?_insert_of_ne _ _ same] at found
      exact (bounded.entries o e found).trans advances.next
  · exact (advances.ui.le.trans bounded.ui).trans advances.next

structure Keeps (s t : ScopeState κ) (m : Marked κ) : Prop where
  carries : Carries s t
  bounded : Bounded t
  kept : Kept t m

theorem Keeps.advance (keeps : Keeps s t m) (advances : Advances t u) : Keeps s u m :=
  ⟨keeps.carries.trans advances.carries,advances.bounded keeps.bounded,keeps.kept.carry advances.carries⟩

theorem markObject_keeps (bounded : Bounded s)
    (countable : isFull limits s object ∨ IsCountable s object domains bytes) (scope : κ) (dropped : Bool) :
    Keeps s (markObject limits object domains bytes s)
      ⟨scope,.object object domains,versionOf limits object s,dropped⟩ := by
  unfold markObject versionOf
  by_cases full : isFull limits s object
  · rw [if_pos full,if_pos full]
    have advances := markFailure_advances limits s
      "Render dirty distinct-object limit exceeded; partial publication was suppressed"
    refine ⟨advances.carries,advances.bounded bounded,.inl ?_⟩
    rw [markFailure_version]
    exact ⟨(failureVersion_pos bounded).ne',le_rfl⟩
  · rw [if_neg full,if_neg full]
    have countable := countable.resolve_left full
    have keeps : Keeps s (touch limits s object ((s.entries.find? object).getD {}) domains bytes)
        ⟨scope,.object object domains,s.nextVersion,dropped⟩ := by
      refine ⟨touch_carries bounded object domains bytes,touch_bounded bounded countable,.inr ?_⟩
      refine ⟨_,touch_version s object _ domains bytes,?_,le_rfl⟩
      rw [BitVec.or_comm,BitVec.or_assoc,BitVec.or_self]
    dsimp only
    split_ifs
    · exact keeps.advance (markFailure_advances limits _ _)
    · exact keeps

theorem markUiBytes_keeps (bounded : Bounded s) (bytes : Nat) (scope : κ) (dropped : Bool) :
    Keeps s (markUiBytes limits bytes s) ⟨scope,.ui,s.nextVersion,dropped⟩ := by
  have advances := advanceVersion_advances limits { s with estimatedUiBytes := bytes }
  have version := advanceVersion_version limits { s with estimatedUiBytes := bytes }
  have start : Bounded { s with estimatedUiBytes := bytes } :=
    { bounded with }
  have after := advances.bounded start
  have keeps : Keeps s { (advanceVersion limits { s with estimatedUiBytes := bytes }).2 with
      uiVersion := (advanceVersion limits { s with estimatedUiBytes := bytes }).1 }
      ⟨scope,.ui,s.nextVersion,dropped⟩ := by
    refine ⟨⟨advances.failure,advances.carries.entries,?_,advances.carries.heard⟩,
      ⟨after.next,after.entries,?_,after.bytes⟩,.inr ?_⟩
    · exact bounded.ui.trans version.ge
    · exact version.le.trans advances.next
    · exact version.ge
  unfold markUiBytes
  split_ifs
  · exact keeps.advance (markFailure_advances limits _ _)
  · exact keeps

theorem foldl_min_le (l : List (Nat × Nat)) (least : Nat) :
    l.foldl (fun least e => min least e.2) least ≤ least ∧ ∀ e ∈ l, l.foldl (fun least e => min least e.2) least ≤ e.2 := by
  induction l generalizing least with
  | nil => exact ⟨le_rfl,fun _ member => absurd member List.not_mem_nil⟩
  | cons e rest ih =>
    obtain ⟨first,others⟩ := ih (min least e.2)
    refine ⟨first.trans (min_le_left _ _),?_⟩
    intro e' member
    rcases List.mem_cons.mp member with rfl | member
    · exact first.trans (min_le_right _ _)
    · exact others e' member

theorem minimumAcknowledged_le {versions : SortedMap Nat Nat} {version : Nat} (consumer : Nat)
    (found : versions.find? consumer = some version) : minimumAcknowledged versions ≤ version :=
  (foldl_min_le versions.entries maximumVersion).2 _ (find?_eq_some.mp found)

omit [LinearOrder κ] in
theorem foldl_sizeSub {f : Entry → Nat} (p : κ × Entry → Bool) (l : List (κ × Entry)) (rest : Nat) :
    (l.filter p).foldl (fun bytes e => sizeSub bytes (f e.2)) ((l.map fun e => f e.2).sum + rest) =
      ((l.filter fun e => !p e).map fun e => f e.2).sum + rest := by
  induction l generalizing rest with
  | nil => rfl
  | cons e l ih =>
    rw [List.map_cons,List.sum_cons]
    by_cases gone : p e = true
    · rw [List.filter_cons_of_pos gone,List.filter_cons_of_neg (by simp [gone]),List.foldl_cons]
      have here : sizeSub (f e.2 + (l.map fun e => f e.2).sum + rest) (f e.2) = (l.map fun e => f e.2).sum + rest := by
        unfold sizeSub
        rw [if_pos (by omega)]
        omega
      rw [here]
      exact ih rest
    · rw [List.filter_cons_of_neg gone,List.filter_cons_of_pos (by simp [gone]),List.map_cons,List.sum_cons]
      have moved := ih (f e.2 + rest)
      rw [show f e.2 + (l.map fun e => f e.2).sum + rest = (l.map fun e => f e.2).sum + (f e.2 + rest) by omega,moved]
      omega

theorem forget_bounded (bounded : Bounded s) (least : Nat) : Bounded (forget s least) := by
  refine ⟨bounded.next,?_,?_,?_⟩
  · intro o e found
    have known : (s.entries.find? o).filter (fun e => decide (least < e.version)) = some e :=
      (find?_filter ..).symm.trans found
    exact bounded.entries o e (filter_eq_some_iff.mp known).1
  · unfold forget
    dsimp only
    split_ifs
    · exact zero_le _
    · exact bounded.ui
  · have sum := foldl_sizeSub (f := estimatedDeformableBytes) (fun e => decide (e.2.version ≤ least))
      s.entries.entries 0
    rw [add_zero,add_zero] at sum
    unfold forget
    rw [bounded.bytes]
    refine sum.trans ?_
    simp only [SortedMap.total,SortedMap.filter,← decide_not,not_le]

theorem Kept.forget {least : Nat} (kept : Kept s m) (news : least < m.version) : Kept (forget s least) m := by
  rcases kept with ⟨failed,version⟩ | kept
  · left
    have resynced : ¬ (s.fullResyncVersion ≠ 0 ∧ s.fullResyncVersion ≤ least) := fun seen => by omega
    unfold RenderDirtyAccumulator.forget
    dsimp only
    rw [if_neg resynced]
    exact ⟨failed,version⟩
  · right
    cases change : m.change with
    | object object domains =>
      rw [change] at kept
      obtain ⟨e,found,within,version⟩ := kept
      refine ⟨e,?_,within,version⟩
      refine (find?_filter ..).trans ?_
      rw [found,filter_some_pos (by simpa using news.trans_le version)]
    | ui =>
      rw [change] at kept
      have drawn : ¬ (s.uiVersion ≠ 0 ∧ s.uiVersion ≤ least) := fun seen => by
        omega
      unfold RenderDirtyAccumulator.forget
      dsimp only
      rwa [if_neg drawn]

theorem acknowledgeVersion_bounded (bounded : Bounded s) (consumer version : Nat) :
    Bounded (acknowledgeVersion s consumer version) := by
  unfold acknowledgeVersion
  cases s.consumerVersions.find? consumer with
  | none => exact bounded
  | some known =>
    exact forget_bounded (s := { s with consumerVersions := s.consumerVersions.insert consumer (max known version) })
      { bounded with } _

theorem heard_acknowledgeVersion (s : ScopeState κ) (consumer version c : Nat) :
    heard (acknowledgeVersion s consumer version) c ≤
      if c = consumer then max (heard s consumer) version else heard s c := by
  unfold acknowledgeVersion
  cases found : s.consumerVersions.find? consumer with
  | none =>
    split_ifs with same
    · rw [same]
      exact le_max_left _ _
    · exact le_rfl
  | some known =>
    have here : heard s consumer = known := by rw [heard,found,getD_some]
    have after : heard (forget { s with consumerVersions := s.consumerVersions.insert consumer (max known version) }
        (minimumAcknowledged (s.consumerVersions.insert consumer (max known version)))) c =
        ((s.consumerVersions.insert consumer (max known version)).find? c).getD 0 := rfl
    rw [after,find?_insert,here]
    split_ifs
    · exact le_rfl
    · exact le_rfl

theorem Kept.acknowledge {consumer version c : Nat} (kept : Kept s m)
    (lower : heard (acknowledgeVersion s consumer version) c < m.version) (apart : s.consumerVersions.find? c = none →
      minimumAcknowledged (s.consumerVersions.insert consumer (max (heard s consumer) version)) < m.version) :
    Kept (acknowledgeVersion s consumer version) m := by
  unfold acknowledgeVersion at lower ⊢
  cases found : s.consumerVersions.find? consumer with
  | none => exact kept
  | some known =>
    rw [found] at lower
    have here : heard s consumer = known := by rw [heard,found,getD_some]
    refine .forget (s := { s with
      consumerVersions := s.consumerVersions.insert consumer (max known version) }) kept ?_
    cases joined : s.consumerVersions.find? c with
    | none =>
      rw [← here]
      exact apart joined
    | some own =>
      have lower : ((s.consumerVersions.insert consumer (max known version)).find? c).getD 0 < m.version := lower
      refine lt_of_le_of_lt (minimumAcknowledged_le c ?_) lower
      rw [find?_insert,joined]
      split_ifs
      · rfl
      · rfl

theorem join_carries (s : ScopeState κ) (consumer : Nat) : Carries s (join s consumer) := by
  unfold join
  split_ifs with joined
  · exact .refl
  · refine ⟨fun _ => rfl,Carries.refl.entries,le_rfl,fun c => ?_⟩
    have absent : s.consumerVersions.find? consumer = none := by
      rwa [SortedMap.contains,Bool.not_eq_true,isSome_eq_false_iff,isNone_iff_eq_none] at joined
    rw [heard,heard,find?_insert]
    split_ifs with same
    · rw [same,absent]
      rfl
    · rfl

theorem join_bounded (bounded : Bounded s) (consumer : Nat) : Bounded (join s consumer) := by
  unfold join
  split_ifs
  · exact bounded
  · exact { bounded with }

end

/-! ### The accumulator -/

variable {released : Option κ}

section
variable {limits : RenderDirtyLimits} {d e : RenderDirtyAccumulator κ} {m : Marked κ} {scope k : κ} {c consumer : Nat}
  {change : ScopeState κ → ScopeState κ}

def Safe (d : RenderDirtyAccumulator κ) (c : Nat) (m : Marked κ) : Prop :=
  if m.dropped = true then globalHeard d c < m.version ∧ m.version ≤ d.globalFailureVersion
  else heard (scopeOf d m.scope) c < m.version ∧ Kept (scopeOf d m.scope) m

structure Fit (d : RenderDirtyAccumulator κ) : Prop where
  bounded : ∀ k, Bounded (scopeOf d k)
  global : d.globalFailureVersion ≤ d.nextGlobalVersion

/-- Nothing is forgotten, and nobody has acknowledged more. -/
structure Extends (d e : RenderDirtyAccumulator κ) : Prop where
  failure : d.globalFailureVersion ≤ e.globalFailureVersion
  heard : ∀ c, globalHeard e c ≤ globalHeard d c
  registered : ∀ c, d.consumerGlobalVersions.contains c = true → e.consumerGlobalVersions.contains c = true
  scopes : ∀ k, Carries (scopeOf d k) (scopeOf e k)

theorem Safe.extend (safe : Safe d c m) (grows : Extends d e) : Safe e c m := by
  unfold Safe at safe ⊢
  split_ifs at safe ⊢ with dropped
  · exact ⟨(grows.heard c).trans_lt safe.1,safe.2.trans grows.failure⟩
  · refine ⟨?_,safe.2.carry (grows.scopes m.scope)⟩
    rw [(grows.scopes m.scope).heard]
    exact safe.1

theorem bounded_blank : Bounded ({} : ScopeState κ) :=
  ⟨one_pos,fun _ _ found => (some_ne_none _ found.symm).elim,zero_le _,rfl⟩

theorem scopeOf_insert (d : RenderDirtyAccumulator κ) (scope k : κ) (s : ScopeState κ) :
    scopeOf { d with scopes := d.scopes.insert scope s } k = if k = scope then s else scopeOf d k := by
  rw [scopeOf,find?_insert]
  split_ifs
  · rfl
  · rfl

variable {s : ScopeState κ}

theorem insert_extends (carries : Carries (scopeOf d scope) s) :
    Extends d { d with scopes := d.scopes.insert scope s } := by
  refine ⟨le_rfl,fun _ => le_rfl,fun _ => id,fun k => ?_⟩
  rw [scopeOf_insert]
  split_ifs with same
  · rwa [same]
  · exact .refl

theorem insert_fit (scope : κ) (fit : Fit d) (bounded : Bounded s) :
    Fit { d with scopes := d.scopes.insert scope s } := by
  refine ⟨fun k => ?_,fit.global⟩
  rw [scopeOf_insert]
  split_ifs
  · exact bounded
  · exact fit.bounded k

theorem markGlobalFailure_extends (fit : Fit d) : Extends d d.markGlobalFailure ∧ Fit d.markGlobalFailure ∧
      d.markGlobalFailure.globalFailureVersion = globalVersion d := by
  unfold markGlobalFailure globalVersion
  split_ifs
  · exact ⟨⟨le_rfl,fun _ => le_rfl,fun _ => id,fun _ => .refl⟩,fit,rfl⟩
  · exact ⟨⟨fit.global,fun _ => le_rfl,fun _ => id,fun _ => .refl⟩,⟨fit.bounded,le_rfl⟩,rfl⟩
  · exact ⟨⟨fit.global,fun _ => le_rfl,fun _ => id,fun _ => .refl⟩,⟨fit.bounded,le_succ _⟩,rfl⟩

theorem withScope_of_hasPlace (place : hasPlace limits d scope) :
    withScope limits d scope change = { d with scopes := d.scopes.insert scope (change (scopeOf d scope)) } := by
  unfold withScope scopeOf
  cases found : d.scopes.find? scope with
  | some s => rfl
  | none =>
    have absent : ¬ d.scopes.contains scope := by rw [SortedMap.contains,found]; exact Bool.false_ne_true
    rw [if_neg (not_le.mpr (place.resolve_left absent))]
    rfl

theorem withScope_of_not_hasPlace (full : ¬ hasPlace limits d scope) :
    withScope limits d scope change = d.markGlobalFailure := by
  rw [hasPlace,not_or,not_lt] at full
  unfold withScope
  cases found : d.scopes.find? scope with
  | some s => exact absurd (contains_iff.mpr ⟨s,found⟩) full.1
  | none => exact if_pos full.2

theorem withScope_extends (limits : RenderDirtyLimits) (change : ScopeState κ → ScopeState κ) (fit : Fit d)
    (carries : Carries (scopeOf d scope) (change (scopeOf d scope))) (bounded : Bounded (change (scopeOf d scope))) :
    Extends d (withScope limits d scope change) ∧ Fit (withScope limits d scope change) := by
  by_cases place : hasPlace limits d scope
  · rw [withScope_of_hasPlace place]
    exact ⟨insert_extends carries,insert_fit scope fit bounded⟩
  · rw [withScope_of_not_hasPlace place]
    obtain ⟨grows,fit',_⟩ := markGlobalFailure_extends fit
    exact ⟨grows,fit'⟩

theorem find?_releaseConsumer (positive : consumer ≠ 0) (released : Option κ) :
    (d.releaseConsumer consumer released).scopes.find? k =
      ((d.scopes.find? k).map fun s =>
        if releases released k then { s with consumerVersions := s.consumerVersions.erase consumer } else s).filter
        fun s => !(releases released k && s.consumerVersions.isEmpty) := by
  unfold releaseConsumer
  rw [if_neg positive]
  rw [find?_filter,find?_mapValues]

theorem bounded_releaseConsumer (fit : Fit d) (released : Option κ) : Fit (d.releaseConsumer consumer released) := by
  by_cases positive : consumer = 0
  · rwa [releaseConsumer,if_pos positive]
  · refine ⟨fun k => ?_,?_⟩
    · rw [scopeOf,find?_releaseConsumer positive]
      cases found : d.scopes.find? k with
      | none => exact bounded_blank
      | some s =>
        have bounded : Bounded s := by
          have bounded := fit.bounded k
          rwa [scopeOf,found] at bounded
        rw [map_some,filter_some]
        split_ifs
        · exact { bounded with }
        · exact bounded_blank
        · exact bounded
        · exact bounded_blank
    · rw [releaseConsumer,if_neg positive]
      exact fit.global

theorem Safe.release (safe : Safe d c m) (other : ¬ (c = consumer ∧ releases released m.scope))
    (stays : m.dropped = false → releases released m.scope →
      ∃ other ∈ (scopeOf d m.scope).consumerVersions.entries, other.1 ≠ consumer) :
    Safe (d.releaseConsumer consumer released) c m := by
  by_cases positive : consumer = 0
  · rwa [releaseConsumer,if_pos positive]
  · unfold Safe at safe ⊢
    split_ifs at safe ⊢ with dropped
    · rw [releaseConsumer,if_neg positive]
      refine ⟨?_,safe.2⟩
      have same : globalHeard (d.releaseConsumer consumer released) c = globalHeard d c := by
        rw [globalHeard,releaseConsumer,if_neg positive]
        split_ifs with all
        · have others : c ≠ consumer := fun same => other ⟨same,by simp [releases,all]⟩
          rw [find?_erase,if_neg others,globalHeard]
        · rfl
      rw [releaseConsumer,if_neg positive] at same
      rw [same]
      exact safe.1
    · rw [scopeOf] at safe ⊢
      rw [find?_releaseConsumer positive]
      by_cases about : releases released m.scope = true
      · have others : c ≠ consumer := fun same => other ⟨same,about⟩
        obtain ⟨o,member,apart⟩ := stays (by simpa using dropped) about
        rw [scopeOf] at member
        cases found : d.scopes.find? m.scope with
        | none =>
          rw [found] at member
          exact absurd member List.not_mem_nil
        | some s =>
          rw [found,getD_some] at member safe
          have inhabited : (s.consumerVersions.erase consumer).isEmpty = false := by
            have left : o ∈ (s.consumerVersions.erase consumer).entries :=
              List.mem_filter.mpr ⟨member,by simpa using apart⟩
            rw [SortedMap.isEmpty,List.isEmpty_eq_false_iff]
            exact List.ne_nil_of_mem left
          rw [map_some,if_pos about,filter_some_pos (by simp [inhabited]),getD_some]
          refine ⟨?_,safe.2⟩
          rw [heard,find?_erase,if_neg others]
          exact safe.1
      · cases found : d.scopes.find? m.scope with
        | none =>
          rwa [found] at safe
        | some s =>
          rw [found] at safe
          rwa [map_some,if_neg about,filter_some_pos (by simp [about])]

theorem acknowledge_fit (fit : Fit d) (batch : RenderDirtyBatch κ) : Fit (d.acknowledge batch) := by
  unfold acknowledge
  cases d.consumerGlobalVersions.find? batch.consumer with
  | none => exact fit
  | some version =>
    cases found : d.scopes.find? batch.scope with
    | none => exact ⟨fit.bounded,fit.global⟩
    | some s =>
      have bounded : Bounded s := by
        have bounded := fit.bounded batch.scope
        rwa [scopeOf,found] at bounded
      have after := insert_fit batch.scope fit
        (acknowledgeVersion_bounded bounded batch.consumer batch.captureVersion)
      exact ⟨after.bounded,after.global⟩

section
variable (batch : RenderDirtyBatch κ)

theorem globalHeard_acknowledge : globalHeard (d.acknowledge batch) c ≤
      if c = batch.consumer then max (globalHeard d c) batch.globalCaptureVersion else globalHeard d c := by
  have own (version : Nat) (found : d.consumerGlobalVersions.find? batch.consumer = some version) :
      ((d.consumerGlobalVersions.insert batch.consumer (max version batch.globalCaptureVersion)).find? c).getD 0 =
        if c = batch.consumer then max (globalHeard d c) batch.globalCaptureVersion else globalHeard d c := by
    rw [find?_insert,globalHeard]
    split_ifs with same
    · rw [same,found]
      rfl
    · rfl
  unfold acknowledge
  cases found : d.consumerGlobalVersions.find? batch.consumer with
  | none =>
    split_ifs
    · exact le_max_left _ _
    · exact le_rfl
  | some version =>
    cases d.scopes.find? batch.scope with
    | none => exact (own version found).le
    | some s => exact (own version found).le

theorem failure_acknowledge : (d.acknowledge batch).globalFailureVersion = d.globalFailureVersion := by
  unfold acknowledge
  cases d.consumerGlobalVersions.find? batch.consumer with
  | none => rfl
  | some version => cases d.scopes.find? batch.scope <;> rfl

theorem registered_acknowledge (registered : d.consumerGlobalVersions.contains c) :
    (d.acknowledge batch).consumerGlobalVersions.contains c := by
  have own (version : Nat) : (d.consumerGlobalVersions.insert batch.consumer version).contains c := by
    rw [SortedMap.contains,find?_insert]
    split_ifs
    · rfl
    · exact registered
  unfold acknowledge
  cases d.consumerGlobalVersions.find? batch.consumer with
  | none => exact registered
  | some version => cases d.scopes.find? batch.scope <;> exact own _

theorem scopeOf_acknowledge (k : κ) : scopeOf (d.acknowledge batch) k = scopeOf d k ∨
      k = batch.scope ∧ scopeOf (d.acknowledge batch) k =
        acknowledgeVersion (scopeOf d k) batch.consumer batch.captureVersion := by
  unfold acknowledge
  cases d.consumerGlobalVersions.find? batch.consumer with
  | none => exact .inl rfl
  | some version =>
    cases found : d.scopes.find? batch.scope with
    | none => exact .inl rfl
    | some s =>
      by_cases same : k = batch.scope
      · refine .inr ⟨same,?_⟩
        have here : scopeOf d k = s := by rw [same,scopeOf,found,getD_some]
        rw [here,same,scopeOf]
        rw [find?_insert_self,getD_some]
      · left
        rw [scopeOf,scopeOf]
        rw [find?_insert_of_ne _ _ same]

end

theorem Safe.acknowledge (safe : Safe d c m) {batch : RenderDirtyBatch κ}
    (own : c = batch.consumer → (m.dropped → batch.globalCaptureVersion < m.version) ∧
      (m.dropped = false → m.scope = batch.scope → batch.captureVersion < m.version))
    (apart : m.dropped = false → m.scope = batch.scope → (scopeOf d batch.scope).consumerVersions.find? c = none →
      minimumAcknowledged ((scopeOf d batch.scope).consumerVersions.insert batch.consumer
        (max (heard (scopeOf d batch.scope) batch.consumer) batch.captureVersion)) < m.version) :
    Safe (d.acknowledge batch) c m := by
  unfold Safe at safe ⊢
  split_ifs at safe ⊢ with dropped
  · rw [failure_acknowledge]
    refine ⟨(globalHeard_acknowledge batch).trans_lt ?_,safe.2⟩
    split_ifs with same
    · exact max_lt safe.1 ((own same).1 dropped)
    · exact safe.1
  · have kept : m.dropped = false := by simpa using dropped
    rcases scopeOf_acknowledge batch m.scope with unchanged | ⟨here,changed⟩
    · rwa [unchanged]
    · have lower : heard (acknowledgeVersion (scopeOf d m.scope) batch.consumer batch.captureVersion) c < m.version := by
        refine (heard_acknowledgeVersion _ _ _ _).trans_lt ?_
        split_ifs with same
        · rw [← same]
          exact max_lt safe.1 ((own same).2 kept here)
        · exact safe.1
      rw [changed]
      refine ⟨lower,safe.2.acknowledge lower ?_⟩
      intro absent
      rw [here] at absent ⊢
      exact apart kept here absent

end

/-! ### What is owed -/

section
variable {limits : RenderDirtyLimits} {w : Watch κ} {d e : RenderDirtyAccumulator κ} {m : Marked κ} {scope k : κ}
  {c consumer : Nat}

theorem mem_owed : m ∈ w.owed c ↔ ∃ i b, w.marked[i]? = some m ∧ w.since c m.scope = some b ∧ b ≤ i := by
  unfold Watch.owed
  rw [List.mem_map]
  constructor
  · rintro ⟨⟨m',i⟩,member,rfl⟩
    obtain ⟨indexed,later⟩ := List.mem_filter.mp member
    cases known : w.since c m'.scope with
    | none =>
      rw [known] at later
      cases later
    | some b =>
      rw [known] at later
      exact ⟨i,b,List.mk_mem_zipIdx_iff_getElem?.mp indexed,rfl,of_decide_eq_true later⟩
  · rintro ⟨i,b,indexed,known,later⟩
    refine ⟨(m,i),List.mem_filter.mpr ⟨List.mk_mem_zipIdx_iff_getElem?.mpr indexed,?_⟩,rfl⟩
    rw [known]
    exact decide_eq_true later

structure Sound (w : Watch κ) : Prop where
  fit : Fit w.accumulator
  registered : ∀ c k, w.since c k ≠ none → w.accumulator.consumerGlobalVersions.contains c = true
  safe : ∀ c, ∀ m ∈ w.owed c, Safe w.accumulator c m

theorem Sound.relied (sound : Sound w) (member : m ∈ w.owed c) : w.accumulator.consumerGlobalVersions.contains c := by
  obtain ⟨_,b,_,known,_⟩ := mem_owed.mp member
  exact sound.registered c m.scope (fun absent => some_ne_none b (known.symm.trans absent))

theorem Sound.extend (sound : Sound w) (grows : Extends w.accumulator e) (fit : Fit e) :
    Sound { w with accumulator := e } :=
  ⟨fit,fun c k known => grows.registered c (sound.registered c k known),
    fun c m member => (sound.safe c m member).extend grows⟩

theorem owed_append {last : Marked κ} (member : m ∈ { w with accumulator := d, marked := w.marked ++ [last] }.owed c) :
    m ∈ w.owed c ∨ m = last ∧ w.since c m.scope ≠ none := by
  obtain ⟨i,b,indexed,known,later⟩ := mem_owed.mp member
  by_cases before : i < w.marked.length
  · rw [List.getElem?_append_left before] at indexed
    exact .inl (mem_owed.mpr ⟨i,b,indexed,known,later⟩)
  · rw [List.getElem?_append_right (not_lt.mp before)] at indexed
    have same := List.mem_singleton.mp (List.mem_of_getElem? indexed)
    exact .inr ⟨same,fun absent => some_ne_none b (known.symm.trans absent)⟩

variable {change : ScopeState κ → ScopeState κ} {version : ScopeState κ → Nat}

theorem keep_safe {mark : Change κ}
    (sound : Sound w) (keeps : Keeps (scopeOf w.accumulator scope) (change (scopeOf w.accumulator scope))
      ⟨scope,mark,version (scopeOf w.accumulator scope),false⟩)
    (positive : 0 < version (scopeOf w.accumulator scope)) (news : IsNews limits w scope version)
    (relied : w.since c scope ≠ none) :
    Safe (withScope limits w.accumulator scope change) c (keep limits w.accumulator scope mark version) := by
  unfold IsNews at news
  unfold keep
  by_cases place : hasPlace limits w.accumulator scope
  · rw [if_pos place] at news ⊢
    rw [withScope_of_hasPlace place]
    unfold Safe
    rw [if_neg nofun,scopeOf_insert,if_pos rfl]
    refine ⟨?_,keeps.kept⟩
    rw [keeps.carries.heard,heard]
    cases joined : (scopeOf w.accumulator scope).consumerVersions.find? c with
    | none => exact positive
    | some known => exact news _ (find?_eq_some.mp joined)
  · rw [if_neg place] at news ⊢
    rw [withScope_of_not_hasPlace place]
    unfold Safe
    obtain ⟨grows,_,version⟩ := markGlobalFailure_extends sound.fit
    obtain ⟨known,found⟩ := contains_iff.mp (sound.registered c scope relied)
    refine ⟨(grows.heard c).trans_lt ?_,version.ge⟩
    rw [globalHeard,found]
    exact news _ (find?_eq_some.mp found) relied

theorem Sound.mark {mark : Change κ}
    (sound : Sound w) (keeps : Keeps (scopeOf w.accumulator scope) (change (scopeOf w.accumulator scope))
      ⟨scope,mark,version (scopeOf w.accumulator scope),false⟩)
    (positive : 0 < version (scopeOf w.accumulator scope)) (news : IsNews limits w scope version) :
    Sound { w with
      accumulator := withScope limits w.accumulator scope change
      marked := w.marked ++ [keep limits w.accumulator scope mark version] } := by
  obtain ⟨grows,fit⟩ := withScope_extends limits change sound.fit keeps.carries keeps.bounded
  refine ⟨fit,fun c k known => grows.registered c (sound.registered c k known),?_⟩
  intro c m member
  rcases owed_append member with before | ⟨rfl,relied⟩
  · exact (sound.safe c m before).extend grows
  · have here : (keep limits w.accumulator scope mark version).scope = scope := by
      unfold keep
      split_ifs
      · rfl
      · rfl
    rw [here] at relied
    exact keep_safe sound keeps positive news relied

theorem createConsumer_extends (limits : RenderDirtyLimits) (fit : Fit d) :
    Extends d (d.createConsumer limits).2 ∧ Fit (d.createConsumer limits).2 := by
  unfold createConsumer
  split_ifs
  · exact ⟨⟨le_rfl,fun _ => le_rfl,fun _ => id,fun _ => .refl⟩,fit⟩
  · exact ⟨⟨le_rfl,fun _ => le_rfl,fun _ => id,fun _ => .refl⟩,⟨fit.bounded,fit.global⟩⟩
  · refine ⟨⟨le_rfl,fun c => ?_,fun c registered => ?_,fun _ => .refl⟩,⟨fit.bounded,fit.global⟩⟩
    · rw [globalHeard,find?_insert]
      split_ifs
      · exact zero_le _
      · exact le_rfl
    · rw [SortedMap.contains,find?_insert]
      split_ifs
      · rfl
      · exact registered

theorem Sound.release (sound : Sound w)
    (stays : ∀ e ∈ w.accumulator.consumerGlobalVersions.entries, e.1 ≠ consumer → ∀ m ∈ w.owed e.1,
      m.dropped = false → releases released m.scope →
        ∃ other ∈ (scopeOf w.accumulator m.scope).consumerVersions.entries, other.1 ≠ consumer) :
    Sound { w with
      accumulator := w.accumulator.releaseConsumer consumer released
      since := fun c k => if c = consumer ∧ releases released k = true then none else w.since c k } := by
  refine ⟨bounded_releaseConsumer sound.fit released,?_,?_⟩
  · intro c k relied
    by_cases leaves : c = consumer ∧ releases released k = true
    · exact absurd (if_pos leaves) relied
    · dsimp only at relied
      rw [if_neg leaves] at relied
      have registered := sound.registered c k relied
      unfold releaseConsumer
      split_ifs with absent all
      · exact registered
      · have other : c ≠ consumer := fun same => leaves ⟨same,by simp [releases,all]⟩
        rwa [SortedMap.contains,find?_erase,if_neg other]
      · exact registered
  · intro c m member
    obtain ⟨i,b,indexed,known,later⟩ := mem_owed.mp member
    by_cases leaves : c = consumer ∧ releases released m.scope = true
    · exact absurd (known.symm.trans (if_pos leaves)) (some_ne_none b)
    · dsimp only at known
      rw [if_neg leaves] at known
      have before : m ∈ w.owed c := mem_owed.mpr ⟨i,b,indexed,known,later⟩
      obtain ⟨version,found⟩ := contains_iff.mp (sound.relied before)
      refine (sound.safe c m before).release leaves ?_
      intro kept about
      exact stays _ (find?_eq_some.mp found) (fun same => leaves ⟨same,about⟩) m before kept about

variable {batch : RenderDirtyBatch κ}

theorem capture_extends (fit : Fit d) (taken : d.capture limits scope consumer = some (batch,e)) :
    Extends d e ∧ Fit e ∧ d.consumerGlobalVersions.contains consumer := by
  unfold capture at taken
  cases found : d.consumerGlobalVersions.find? consumer with
  | none =>
    rw [found] at taken
    cases taken
  | some version =>
    rw [found] at taken
    have registered := contains_iff.mpr ⟨version,found⟩
    split_ifs at taken with place
    · cases taken
      exact ⟨insert_extends (join_carries _ consumer),insert_fit scope fit (join_bounded (fit.bounded scope) consumer),
        registered⟩
    · cases taken
      obtain ⟨grows,fit',_⟩ := markGlobalFailure_extends fit
      exact ⟨grows,fit',registered⟩

theorem Sound.capture (sound : Sound w)
    (taken : w.accumulator.capture limits scope consumer = some (batch,e)) (captured : List (Captured κ)) :
    Sound { w with
      accumulator := e
      captured := captured
      since := fun c k =>
        if c = consumer ∧ k = scope ∧ w.since c k = none then some w.marked.length else w.since c k } := by
  obtain ⟨grows,fit,registered⟩ := capture_extends sound.fit taken
  refine ⟨fit,?_,?_⟩
  · intro c k relied
    by_cases first : c = consumer ∧ k = scope ∧ w.since c k = none
    · rw [first.1]
      exact grows.registered consumer registered
    · dsimp only at relied
      rw [if_neg first] at relied
      exact grows.registered c (sound.registered c k relied)
  · intro c m member
    obtain ⟨i,b,indexed,known,later⟩ := mem_owed.mp member
    dsimp only at known
    split_ifs at known with first
    · -- Nothing has been marked since.
      obtain ⟨within,_⟩ := List.getElem?_eq_some_iff.mp indexed
      have length : w.marked.length = b := Option.some.inj known
      have within : i < w.marked.length := within
      omega
    · exact (sound.safe c m (mem_owed.mpr ⟨i,b,indexed,known,later⟩)).extend grows

theorem owed_hear {b : Captured κ} (member : m ∈ (w.hear b).owed c) : m ∈ w.owed c := by
  obtain ⟨i,since,indexed,known,later⟩ := mem_owed.mp member
  unfold Watch.hear at known
  dsimp only at known
  split_ifs at known with own
  · obtain ⟨before,known,same⟩ := map_eq_some_iff.mp known
    exact mem_owed.mpr ⟨i,before,indexed,known,((le_max_right _ _).trans same.le).trans later⟩
  · exact mem_owed.mpr ⟨i,since,indexed,known,later⟩

theorem Sound.acknowledge {b : Captured κ} (sound : Sound w) (timely : IsTimely w b) :
    Sound { w.hear b with accumulator := w.accumulator.acknowledge b.batch } := by
  refine ⟨acknowledge_fit sound.fit b.batch,?_,?_⟩
  · intro c k relied
    refine registered_acknowledge b.batch (sound.registered c k ?_)
    intro absent
    refine relied ?_
    unfold Watch.hear
    dsimp only
    rw [absent]
    split_ifs
    · rfl
    · rfl
  · intro c m member
    have before := owed_hear member
    obtain ⟨version,found⟩ := contains_iff.mp (sound.relied before)
    refine (sound.safe c m before).acknowledge ?_ ?_
    · intro own
      rw [own] at member
      exact timely.1 m member
    · exact timely.2 _ (find?_eq_some.mp found) m before

theorem watch_sound {v : Watch κ} {event : Event κ} (admissible : Admissible limits w event) (sound : Sound w)
    (stepped : watch limits w event = some v) : Sound v := by
  cases event with
  | mark scope object domains bytes =>
    unfold watch at stepped
    dsimp only at stepped
    split_ifs at stepped with none
    · cases stepped
      exact sound
    · cases stepped
      obtain ⟨news,countable⟩ := admissible.resolve_left none
      have bounded := sound.fit.bounded scope
      rw [mark,if_neg none]
      refine sound.mark (markObject_keeps bounded countable scope false) ?_ news
      unfold versionOf
      split_ifs
      · exact failureVersion_pos bounded
      · exact bounded.next
  | markUi scope bytes =>
    cases stepped
    have bounded := sound.fit.bounded scope
    exact sound.mark (markUiBytes_keeps bounded bytes scope false) bounded.next admissible
  | requestFullResync scope diagnostic =>
    cases stepped
    have advances := markFailure_advances limits (scopeOf w.accumulator scope) diagnostic
    obtain ⟨grows,fit⟩ := withScope_extends limits (fun s => markFailure limits s diagnostic) sound.fit advances.carries
      (advances.bounded (sound.fit.bounded scope))
    exact sound.extend grows fit
  | createConsumer =>
    cases stepped
    obtain ⟨grows,fit⟩ := createConsumer_extends limits sound.fit
    exact sound.extend grows fit
  | releaseConsumer consumer released =>
    cases stepped
    exact sound.release admissible
  | capture scope consumer =>
    obtain ⟨⟨batch,e⟩,taken,shape⟩ := map_eq_some_iff.mp stepped
    cases shape
    exact sound.capture taken _
  | acknowledge index =>
    obtain ⟨b,found,shape⟩ := map_eq_some_iff.mp stepped
    cases shape
    exact sound.acknowledge (admissible b found)

theorem Sound.covers (sound : Sound w) (relied : w.since c scope ≠ none) :
    ∃ batch e, w.accumulator.capture limits scope c = some (batch,e) ∧
      ∀ m ∈ w.owed c, m.scope = scope → Covers batch m.change := by
  obtain ⟨version,found⟩ := contains_iff.mp (sound.registered c scope relied)
  have resynced {batch : RenderDirtyBatch κ} (required : batch.fullResyncRequired = true) (change : Change κ) :
      Covers batch change := by
    cases change with
    | object object domains => exact .inl required
    | ui => exact .inl required
  unfold RenderDirtyAccumulator.capture
  rw [found]
  split_ifs with place
  · refine ⟨_,_,rfl,?_⟩
    rintro m member rfl
    have safe := sound.safe c m member
    unfold Safe at safe
    split_ifs at safe with dropped
    · have global : version < w.accumulator.globalFailureVersion := by
        rw [globalHeard,found] at safe
        exact safe.1.trans_le safe.2
      exact resynced (by simp [batchOf,global]) m.change
    · have joined := join_carries (scopeOf w.accumulator m.scope) c
      have lower := safe.1
      rw [← joined.heard] at lower
      rcases safe.2.carry joined with ⟨_,failed⟩ | kept
      · refine resynced ?_ m.change
        unfold batchOf
        rw [Bool.or_eq_true]
        exact .inr (decide_eq_true (lower.trans_le failed))
      · cases change : m.change with
        | object object domains =>
          rw [change] at kept
          obtain ⟨entry,here,within,later⟩ := kept
          refine .inr ⟨⟨object,entry.domains,entry.estimatedDeformableBytes,entry.version⟩,?_,rfl,within⟩
          refine List.mem_map.mpr ⟨(object,entry),List.mem_filter.mpr ⟨find?_eq_some.mp here,?_⟩,rfl⟩
          exact decide_eq_true (lower.trans_le later)
        | ui =>
          rw [change] at kept
          exact .inr (decide_eq_true (lower.trans_le kept))
  · refine ⟨_,_,rfl,?_⟩
    intro m _ _
    exact resynced rfl m.change

theorem sound_new : Sound ({} : Watch κ) := by
  refine ⟨⟨fun _ => bounded_blank,zero_le _⟩,fun _ _ relied => absurd rfl relied,?_⟩
  intro c m member
  obtain ⟨_,_,indexed,_⟩ := mem_owed.mp member
  cases indexed

/-- Whoever has captured a scope captures every change that it has not acknowledged, and the bytes of every scope are
    those of its entries, so that none are subtracted which were not counted. -/
theorem marks_run (limits : RenderDirtyLimits) {events : List (Event κ)} {w : Watch κ}
    (admissible : RunMeets (watch limits) (Admissible limits) {} events)
    (reached : run (watch limits) {} events = some w) :
    (∀ c scope, w.since c scope ≠ none → ∃ batch d, w.accumulator.capture limits scope c = some (batch, d) ∧
      ∀ m ∈ w.owed c, m.scope = scope → Covers batch m.change) ∧
    ∀ scope s, w.accumulator.scopes.find? scope = some s →
      s.estimatedDeformableBytes = s.entries.total Entry.estimatedDeformableBytes ∧
      ∀ gone : List (κ × Entry), gone.Sublist s.entries.entries →
        (gone.map fun e => e.2.estimatedDeformableBytes).sum ≤ s.estimatedDeformableBytes := by
  have sound : Sound w :=
    run_preserves_where (fun _ _ _ => watch_sound) sound_new admissible reached
  refine ⟨fun c scope relied => sound.covers relied,?_⟩
  intro scope s found
  have bounded := sound.fit.bounded scope
  rw [scopeOf,found] at bounded
  refine ⟨bounded.bytes,fun gone among => ?_⟩
  have bytes : s.estimatedDeformableBytes = s.entries.total Entry.estimatedDeformableBytes := bounded.bytes
  rw [bytes]
  exact (among.map _).sum_le_sum fun _ _ => zero_le _

/-- A batch is acknowledged after another mark. -/
def lateMark : List (Event Nat) :=
  [.createConsumer,.capture 0 1,.mark 0 7 1 0,.markUi 0 10,.capture 0 1,.mark 0 8 2 0,.acknowledge 1]

theorem marks_kept : ∃ w, run (watch {}) {} lateMark = some w ∧ w.owed 1 = [⟨0, .object 8 2, 3, false⟩] ∧
    ∃ batch d, w.accumulator.capture {} 0 1 = some (batch, d) ∧ ∀ m ∈ w.owed 1, m.scope = 0 → Covers batch m.change := by
  obtain ⟨w,reached⟩ : ∃ w, run (watch {}) {} lateMark = some w :=
    isSome_iff_exists.mp (show (run (watch {}) ({} : Watch Nat) lateMark).isSome = true by decide +kernel)
  have owed : ((run (watch {}) {} lateMark).map fun w => w.owed 1) = some [⟨0,.object 8 2,3,false⟩] := by
    decide +kernel
  have relied : ((run (watch {}) {} lateMark).map fun w => decide (w.since 1 0 = none)) = some false := by decide +kernel
  rw [reached] at owed relied
  have relied := of_decide_eq_false (Option.some.inj relied)
  exact ⟨w,reached,Option.some.inj owed,(marks_run {} (by decide +kernel) reached).1 1 0 relied⟩

/-- There is a place for one object only. -/
def oneObject : RenderDirtyLimits := { maximumDistinctObjects := 1 }

/-- The second object is dropped, and so is the third after the failure of the second is in a batch. -/
def droppedTwice : List (Event Nat) :=
  [.createConsumer,.capture 0 1,.mark 0 7 1 0,.mark 0 8 1 0,.capture 0 1,.mark 0 9 1 0,.acknowledge 1]

theorem marks_lost : ∃ w, run (watch oneObject) {} droppedTwice = some w ∧
    ∃ batch d, w.accumulator.capture oneObject 0 1 = some (batch, d) ∧
      ∃ m ∈ w.owed 1, m.scope = 0 ∧ ¬ Covers batch m.change := by
  have lost : ((run (watch oneObject) {} droppedTwice).bind fun w =>
      (w.accumulator.capture oneObject 0 1).map fun taken =>
        decide (∃ m ∈ w.owed 1, m.scope = 0 ∧ ¬ Covers taken.1 m.change)) = some true := by decide +kernel
  obtain ⟨w,reached,lost⟩ := bind_eq_some_iff.mp lost
  obtain ⟨⟨batch,d⟩,taken,lost⟩ := map_eq_some_iff.mp lost
  exact ⟨w,reached,batch,d,taken,of_decide_eq_true lost⟩

end
end Gargantuan.RenderDirtyAccumulator
