import Gargantuan.ResidencyDemandRequests
import Gargantuan.Runs
import Mathlib.Data.List.Induction

/-!
Runs of the policy. A sweep of a focus changes its candidates and what it contributes to the units
together (`At`), and what is stored of it then says the same (`Whole`). With the books of the
demands and the log of the accepted calls this holds in every state that is reached.
-/
namespace Gargantuan.ResidencyDemandPolicy
open SortedMap List Buckets Prod
variable {κ : Type} [LinearOrder κ] [Inhabited κ] {G : ResidencyGeometry} {Cursor : Type} {m : Setting κ G Cursor}

def Indexed (candidates : SortedMap Nat (Candidate G.Distance)) : Prop :=
  ∀ unit c, candidates.find? unit = some c → c.index = unit

def contributionOf (f : Focus G Cursor) : SortedMap Nat (Candidate G.Distance) := if f.attached then f.committed else ∅

def contribution (s : ResidencyDemandPolicy κ G Cursor) (id : ResidencyFocusId) : SortedMap Nat
    (Candidate G.Distance) :=
  ((s.focuses.find? id).map contributionOf).getD ∅

structure Whole (m : Setting κ G Cursor) (s : ResidencyDemandPolicy κ G Cursor) : Prop where
  tidy : Tidy m s
  attached : ∀ unit id, focusAt s unit id = (contribution s id).find? unit
  indexed : ∀ id f, s.focuses.find? id = some f → Indexed f.committed ∧ Indexed f.working

structure At (m : Setting κ G Cursor) (s : ResidencyDemandPolicy κ G Cursor) (id : ResidencyFocusId)
    (f : Focus G Cursor) :
    Prop where
  tidy : Tidy m s
  others : ∀ other, other ≠ id → ∀ unit, focusAt s unit other = (contribution s other).find? unit
  own : ∀ unit, focusAt s unit id = (contributionOf f).find? unit
  indexed : ∀ id f, s.focuses.find? id = some f → Indexed f.committed ∧ Indexed f.working
  ownIndexed : Indexed f.committed ∧ Indexed f.working

/-- The books are kept, and what else there is stays as it is. -/
structure Recast (m : Setting κ G Cursor) (s t : ResidencyDemandPolicy κ G Cursor) : Prop where
  tidy : Tidy m t
  focuses : t.focuses = s.focuses
  last : t.lastTick = s.lastTick
  stopped : t.stopped = s.stopped
  requested : ∀ unit, isRequested t unit = isRequested s unit

structure Steady (s t : ResidencyDemandPolicy κ G Cursor) : Prop where
  last : t.lastTick = s.lastTick
  stopped : t.stopped = s.stopped
  requested : ∀ unit, isRequested t unit = isRequested s unit

variable {s t u : ResidencyDemandPolicy κ G Cursor} {id : ResidencyFocusId} {f g : Focus G Cursor} {tick : Nat}

theorem Recast.refl (tidy : Tidy m s) : Recast m s s := ⟨tidy,rfl,rfl,rfl,fun _ => rfl⟩

theorem Recast.trans (first : Recast m s t) (second : Recast m t u) : Recast m s u :=
  ⟨second.tidy,second.focuses.trans first.focuses,second.last.trans first.last,second.stopped.trans first.stopped,
    fun unit => (second.requested unit).trans (first.requested unit)⟩

theorem Recast.steady (recast : Recast m s t) : Steady s t := ⟨recast.last,recast.stopped,recast.requested⟩

theorem Steady.refl (s : ResidencyDemandPolicy κ G Cursor) : Steady s s := ⟨rfl,rfl,fun _ => rfl⟩

theorem Steady.trans (first : Steady s t) (second : Steady t u) : Steady s u :=
  ⟨second.last.trans first.last,second.stopped.trans first.stopped,
    fun unit => (second.requested unit).trans (first.requested unit)⟩

theorem changeContribution_recast (tidy : Tidy m s) (now : tick = s.lastTick) (id : ResidencyFocusId)
    (value : Candidate G.Distance) (add : Bool) : Recast m s (changeContribution m s id value add tick) := by
  obtain ⟨focuses,last,stopped⟩ := changeContribution_keeps m s id value add tick
  exact ⟨tidy.changeContribution now id value add,focuses,last,stopped,
    isRequested_changeContribution m s id value add tick⟩

variable {unit : Nat} {candidates : SortedMap Nat (Candidate G.Distance)}

theorem index_candidateFor {wasDesired : Bool} {c : Candidate G.Distance}
    (found : candidateFor m f unit wasDesired = some c) : c.index = unit := by
  obtain ⟨e,_,found⟩ := Option.bind_eq_some_iff.mp found
  obtain ⟨bounds,_,found⟩ := Option.bind_eq_some_iff.mp found
  dsimp only at found
  split_ifs at found <;> rw [← Option.some.inj found]

theorem Indexed.insert (indexed : Indexed candidates) (c : Candidate G.Distance) :
    Indexed (candidates.insert c.index c) := by
  intro unit value found
  rw [find?_insert] at found
  split_ifs at found with same
  · rw [← Option.some.inj found,same]
  · exact indexed unit value found

theorem Indexed.erase (indexed : Indexed candidates) (unit : Nat) : Indexed (candidates.erase unit) := by
  intro other value found
  rw [find?_erase] at found
  split_ifs at found
  exact indexed other value found

theorem indexed_empty : Indexed (∅ : SortedMap Nat (Candidate G.Distance)) := by
  intro unit c found
  cases found

variable {kept : Retained κ G}

theorem Indexed.retain (indexed : Indexed kept.1) (c : Candidate G.Distance) : Indexed (retain m kept c).1 := by
  unfold ResidencyDemandPolicy.retain
  cases kept.1.find? c.index with
  | some found =>
    dsimp only
    split_ifs
    · exact indexed.insert c
    · exact indexed
  | none =>
    split_ifs
    · exact indexed.insert c
    · cases kept.2.entries.getLast? with
      | none => exact indexed
      | some worst =>
        dsimp only
        split_ifs
        · exact (indexed.erase _).insert c
        · exact indexed

theorem Indexed.consider (indexed : Indexed kept.1) (f : Focus G Cursor) (unit : Nat) :
    Indexed (consider m f kept unit).1 := by
  unfold ResidencyDemandPolicy.consider
  cases candidateFor m f unit (f.committed.contains unit) with
  | none => exact indexed
  | some c => exact indexed.retain c

theorem foldl_keeps {α β : Type} (holds : β → Prop) {step : β → α → β} (keep : ∀ b a, holds b → holds (step b a))
    (items : List α) (b : β) (start : holds b) : holds (items.foldl step b) := by
  induction items generalizing b with
  | nil => exact start
  | cons x rest ih => exact ih (step b x) (keep b x start)

section
variable (indexed : Indexed f.working)
include indexed

theorem indexed_revalidateWorking : Indexed (revalidateWorking m f) := by
  refine foldl_keeps Indexed (fun working e indexed => ?_) _ _ indexed
  cases found : candidateFor m f e.1 (f.committed.contains e.1) with
  | none => exact indexed.erase e.1
  | some c =>
    rw [← index_candidateFor found]
    exact indexed.insert c

theorem indexed_replacement : Indexed (replacement m f) := by
  unfold replacement
  split_ifs
  · exact foldl_keeps (fun kept : Retained κ G => Indexed kept.1)
      (fun _ e indexed => .retain indexed e.2) _ _ indexed
  · exact indexed

theorem indexed_page (units : List Nat) : Indexed (units.foldl (consider m f) (f.working,ranksOf m f.working)).1 :=
  foldl_keeps (fun kept : Retained κ G => Indexed kept.1)
    (fun _ unit indexed => .consider indexed f unit) _ _ indexed

end

/-! ### Sweeps -/

theorem findIn_of_nodup {ν : Type} {x : ν} {rest : List (Nat × ν)} (apart : (((unit,x) :: rest).map fst).Nodup) :
    SortedMap.findIn unit rest = none ∧ (rest.map fst).Nodup := by
  obtain ⟨fresh,apart⟩ := nodup_cons.mp apart
  refine ⟨?_,apart⟩
  cases found : SortedMap.findIn unit rest with
  | none => rfl
  | some y => exact absurd (mem_map_of_mem (mem_of_findIn found)) fresh

theorem revalidateCommitted_spec (tick : Nat) (f : Focus G Cursor) (id : ResidencyFocusId)
    (entries : List (Nat × Candidate G.Distance)) (committed : SortedMap Nat (Candidate G.Distance))
    (s : ResidencyDemandPolicy κ G Cursor) (own : ∀ e ∈ entries, e.2.index = e.1) (apart : (entries.map fst).Nodup)
    (now : tick = s.lastTick) (tidy : Tidy m s) : Recast m s (revalidateCommitted m f id tick entries committed s).2 ∧
      (∀ unit, (revalidateCommitted m f id tick entries committed s).1.find? unit =
        if (SortedMap.findIn unit entries).isSome then candidateFor m f unit true else committed.find? unit) ∧
      ∀ unit other, focusAt (revalidateCommitted m f id tick entries committed s).2 unit other =
        if f.attached = true ∧ other = id ∧ (SortedMap.findIn unit entries).isSome = true then candidateFor m f unit
            true else focusAt s unit other := by
  induction entries generalizing committed s with
  | nil => exact ⟨.refl tidy,fun _ => rfl,fun _ _ => by simp [revalidateCommitted,SortedMap.findIn]⟩
  | cons e rest ih =>
    obtain ⟨unit,current⟩ := e
    obtain ⟨fresh,apart⟩ := findIn_of_nodup apart
    have index : current.index = unit := own _ (.head _)
    have changed (value : Candidate G.Distance) (add : Bool) :
        Recast m s (if f.attached then changeContribution m s id value add tick else s) := by
      split_ifs
      · exact changeContribution_recast tidy now id value add
      · exact .refl tidy
    have moved (value : Candidate G.Distance) (add : Bool) (same : value.index = unit) (v : Nat)
        (other : ResidencyFocusId) :
        focusAt (if f.attached then changeContribution m s id value add tick else s) v other =
          if f.attached = true ∧ v = unit ∧ other = id then (if add then some value else none) else focusAt s v
              other := by
      by_cases attached : f.attached = true
      · rw [if_pos attached,focusAt_changeContribution,same]
        simp [attached]
      · rw [if_neg attached,if_neg (by simp [attached])]
    unfold revalidateCommitted
    cases found : candidateFor m f unit true with
    | none =>
      obtain ⟨recast,candidates,units⟩ := ih (committed.erase unit) _ (fun e member => own e (mem_cons_of_mem _
          member))
        apart (now.trans (changed current false).last.symm) (changed current false).tidy
      refine ⟨(changed current false).trans recast,fun v => ?_,fun v other => ?_⟩
      · rw [candidates,find?_erase,SortedMap.findIn]
        by_cases same : v = unit
        · subst same
          simp [fresh,found]
        · simp [same]
      · rw [units,moved current false index,SortedMap.findIn]
        by_cases same : v = unit
        · subst same
          by_cases here : f.attached = true ∧ other = id
          · simp [fresh,here.1,here.2,found]
          · rw [if_neg fun within => here ⟨within.1,within.2.1⟩,if_neg fun within => here ⟨within.1,within.2.2⟩,
              if_neg fun within => here ⟨within.1,within.2.1⟩]
        · simp [same]
    | some c =>
      obtain ⟨recast,candidates,units⟩ := ih (committed.insert unit c) _
          (fun e member => own e (.tail _ member))
        apart (now.trans (changed c true).last.symm) (changed c true).tidy
      refine ⟨(changed c true).trans recast,fun v => ?_,fun v other => ?_⟩
      · rw [candidates,find?_insert,SortedMap.findIn]
        by_cases same : v = unit
        · subst same
          simp [fresh,found]
        · simp [same]
      · rw [units,moved c true (index_candidateFor found),SortedMap.findIn]
        by_cases same : v = unit
        · subst same
          by_cases here : f.attached = true ∧ other = id
          · simp [fresh,here.1,here.2,found]
          · rw [if_neg fun within => here ⟨within.1,within.2.1⟩,if_neg fun within => here ⟨within.1,within.2.2⟩,
              if_neg fun within => here ⟨within.1,within.2.1⟩]
        · simp [same]

theorem detach_spec (id : ResidencyFocusId) (tick : Nat) (keep : Nat → Bool) (entries : List (Nat × Candidate
    G.Distance)) (s : ResidencyDemandPolicy κ G Cursor)
    (own : ∀ e ∈ entries, e.2.index = e.1) (now : tick = s.lastTick) (tidy : Tidy m s) :
    let t := entries.foldl (fun s e => if keep e.1 then s else changeContribution m s id e.2 false tick) s
    Recast m s t ∧ ∀ unit other, focusAt t unit other =
      if other = id ∧ (SortedMap.findIn unit entries).isSome = true ∧ keep unit = false then none else focusAt s unit
          other := by
  induction entries generalizing s with
  | nil => exact ⟨.refl tidy,fun _ _ => by simp [SortedMap.findIn]⟩
  | cons e rest ih =>
    obtain ⟨unit,current⟩ := e
    have index : current.index = unit := own _ (.head _)
    have owned := fun e member => own e (.tail _ member)
    rw [foldl_cons]
    cases kept : keep unit with
    | true =>
      rw [if_pos rfl]
      obtain ⟨recast,units⟩ := ih s owned now tidy
      refine ⟨recast,fun v other => ?_⟩
      rw [units,SortedMap.findIn]
      by_cases same : v = unit
      · subst same
        simp [kept]
      · simp [same]
    | false =>
      rw [if_neg Bool.false_ne_true]
      have changed := changeContribution_recast tidy now id current false
      obtain ⟨recast,units⟩ := ih _ owned (now.trans changed.last.symm) changed.tidy
      refine ⟨changed.trans recast,fun v other => ?_⟩
      rw [units,focusAt_changeContribution,index,SortedMap.findIn]
      by_cases same : v = unit
      · subst same
        by_cases mine : other = id <;> simp [mine,kept]
      · simp [same]

theorem attach_spec (id : ResidencyFocusId) (tick : Nat) (entries : List (Nat × Candidate G.Distance))
    (s : ResidencyDemandPolicy κ G Cursor)
    (own : ∀ e ∈ entries, e.2.index = e.1) (apart : (entries.map fst).Nodup) (now : tick = s.lastTick)
    (tidy : Tidy m s) :
    let t := entries.foldl (fun s e => changeContribution m s id e.2 true tick) s
    Recast m s t ∧ ∀ unit other, focusAt t unit other =
      if other = id then (SortedMap.findIn unit entries).or (focusAt s unit other) else focusAt s unit other := by
  induction entries generalizing s with
  | nil => exact ⟨.refl tidy,fun _ _ => by simp [SortedMap.findIn]⟩
  | cons e rest ih =>
    obtain ⟨unit,current⟩ := e
    obtain ⟨absent,apart⟩ := findIn_of_nodup apart
    have index : current.index = unit := own _ (.head _)
    have changed := changeContribution_recast tidy now id current true
    obtain ⟨recast,units⟩ := ih _ (fun e member => own e (.tail _ member)) apart
      (now.trans changed.last.symm) changed.tidy
    rw [foldl_cons]
    refine ⟨changed.trans recast,fun v other => ?_⟩
    rw [units,focusAt_changeContribution,index,SortedMap.findIn]
    by_cases same : v = unit
    · subst same
      by_cases mine : other = id <;> simp [mine,absent]
    · by_cases mine : other = id <;> simp [mine,same]

theorem own_of_indexed (indexed : Indexed candidates) : ∀ e ∈ candidates.entries, e.2.index = e.1 :=
  fun e member => indexed e.1 e.2 (find?_eq_some.mpr member)

theorem At.store (here : At m s id f) (t : ResidencyDemandPolicy κ G Cursor) (tidy : Tidy m t)
    (demands : t.demands = s.demands) (focuses : t.focuses = s.focuses.insert id f) : Whole m t := by
  refine ⟨tidy,fun unit other => ?_,fun other g found => ?_⟩
  · have same : focusAt t unit other = focusAt s unit other := by rw [focusAt,focusAt,demands]
    rw [same,contribution,focuses,find?_insert]
    by_cases mine : other = id
    · rw [if_pos mine,mine]
      exact here.own unit
    · rw [if_neg mine]
      exact here.others other mine unit
  · rw [focuses,find?_insert] at found
    split_ifs at found
    · rw [← Option.some.inj found]
      exact here.ownIndexed
    · exact here.indexed other g found

theorem Whole.at_ (whole : Whole m s) (found : s.focuses.find? id = some f) : At m s id f := by
  refine ⟨whole.tidy,fun other _ unit => whole.attached unit other,fun unit => ?_,whole.indexed,whole.indexed id f
      found⟩
  rw [whole.attached,contribution,found]
  rfl

section
variable (here : At m s id f)
include here

theorem At.follow (attached : g.attached = f.attached) (committed : g.committed = f.committed)
    (working : Indexed g.working) : At m s id g := by
  refine ⟨here.tidy,here.others,fun unit => ?_,here.indexed,?_,working⟩
  · rw [contributionOf,attached,committed]
    exact here.own unit
  · rw [committed]
    exact here.ownIndexed.1

theorem At.recast (recast : Recast m s t) (others : ∀ unit other, other ≠ id →
    focusAt t unit other = focusAt s unit other) (own : ∀ unit, focusAt t unit id = (contributionOf g).find? unit)
    (indexed : Indexed g.committed ∧ Indexed g.working) : At m t id g := by
  refine ⟨recast.tidy,fun other apart unit => ?_,own,?_,indexed⟩
  · rw [others unit other apart,contribution,recast.focuses]
    exact here.others other apart unit
  · rw [recast.focuses]
    exact here.indexed

theorem revalidate_at (now : tick = s.lastTick) :
    At m (revalidate m s f id tick).2 id (revalidate m s f id tick).1 ∧ Steady s (revalidate m s f id tick).2 := by
  have followed : (followMove (resolveLookahead f)).attached = f.attached ∧
      (followMove (resolveLookahead f)).committed = f.committed ∧ Indexed (followMove (resolveLookahead
          f)).working := by
    unfold followMove resolveLookahead
    split_ifs
    · exact ⟨rfl,rfl,here.ownIndexed.2⟩
    · exact ⟨rfl,rfl,here.ownIndexed.2⟩
    · exact ⟨rfl,rfl,indexed_empty⟩
  obtain ⟨attached,committed,working⟩ := followed
  generalize moved : followMove (resolveLookahead f) = g at attached committed working
  have indexed : Indexed g.committed := by
    rw [committed]
    exact here.ownIndexed.1
  obtain ⟨recast,candidates,units⟩ := revalidateCommitted_spec tick g id g.committed.entries g.committed s
    (own_of_indexed indexed) (nodup_keys _) now here.tidy
  unfold revalidate
  rw [moved]
  refine ⟨here.recast recast (fun unit other apart => ?_) (fun unit => ?_) ⟨fun unit c found => ?_,?_⟩,recast.steady⟩
  · rw [units,if_neg (by simp [apart])]
  · change _ = (if g.attached then (revalidateCommitted m g id tick g.committed.entries g.committed s).1 else ∅).find?
      unit
    rw [units]
    by_cases joined : g.attached = true
    · rw [if_pos joined,candidates]
      have own := here.own unit
      rw [contributionOf,← attached,if_pos joined,← committed] at own
      simp [joined,own]
    · have own := here.own unit
      rw [contributionOf,← attached,if_neg joined] at own
      rw [if_neg joined,if_neg (by simp [joined]),own]
  · have found : (revalidateCommitted m g id tick g.committed.entries g.committed s).1.find? unit = some c := found
    rw [candidates] at found
    split_ifs at found
    · exact index_candidateFor found
    · exact indexed unit c found
  · exact indexed_revalidateWorking working

theorem complete_at (now : tick = s.lastTick) :
    At m (complete m s f id tick).2 id (complete m s f id tick).1 ∧ Steady s (complete m s f id tick).2 := by
  have indexed : Indexed (replacement m f) := indexed_replacement here.ownIndexed.2
  have detached : Recast m s (if f.attached then detach m s f id tick (replacement m f).contains else s) ∧
      ∀ unit other, focusAt (if f.attached then detach m s f id tick (replacement m f).contains else s) unit other =
        if other = id ∧ (replacement m f).contains unit = false then none else focusAt s unit other := by
    by_cases joined : f.attached = true
    · rw [if_pos joined]
      obtain ⟨recast,units⟩ := detach_spec id tick (replacement m f).contains f.committed.entries s
        (own_of_indexed here.ownIndexed.1) now here.tidy
      refine ⟨recast,fun unit other => (units unit other).trans ?_⟩
      by_cases mine : other = id
      · subst mine
        by_cases kept : (replacement m f).contains unit = true
        · simp [kept]
        · have own := here.own unit
          rw [contributionOf,if_pos joined] at own
          cases found : SortedMap.findIn unit f.committed.entries with
          | some c => simp [kept]
          | none => simp [own,SortedMap.find?,found]
      · simp [mine]
    · rw [if_neg joined]
      refine ⟨.refl here.tidy,fun unit other => ?_⟩
      split_ifs with gone
      · rw [gone.1,here.own,contributionOf,if_neg joined]
        rfl
      · rfl
  obtain ⟨recast,units⟩ := attach_spec id tick (replacement m f).entries
    (if f.attached then detach m s f id tick (replacement m f).contains else s) (own_of_indexed indexed)
    (nodup_keys _) (now.trans detached.1.last.symm) detached.1.tidy
  unfold complete
  refine ⟨here.recast (detached.1.trans recast) (fun unit other apart => ?_) (fun unit => ?_) ⟨indexed,indexed_empty⟩,
    (detached.1.trans recast).steady⟩
  · rw [units,if_neg apart,detached.2,if_neg (by simp [apart])]
  · rw [units,if_pos rfl,detached.2]
    change ((replacement m f).find? unit).or _ = (replacement m f).find? unit
    cases found : (replacement m f).find? unit with
    | some c => rfl
    | none => simp [SortedMap.contains,found]

end

theorem Whole.congr (whole : Whole m s) (tidy : Tidy m t) (demands : t.demands = s.demands)
    (focuses : t.focuses = s.focuses) : Whole m t := by
  refine ⟨tidy,fun unit id => ?_,?_⟩
  · rw [focusAt,demands,contribution,focuses]
    exact whole.attached unit id
  · rw [focuses]
    exact whole.indexed

theorem Whole.recast (whole : Whole m s) (tidy : Tidy m t) (focuses : t.focuses = s.focuses)
    (units : ∀ unit id, focusAt t unit id = focusAt s unit id) : Whole m t := by
  refine ⟨tidy,fun unit id => ?_,?_⟩
  · rw [units,contribution,focuses]
    exact whole.attached unit id
  · rw [focuses]
    exact whole.indexed

theorem serve_whole (here : At m s id f) (now : tick = s.lastTick) (budget : Budget) :
    Whole m (serve m s f id tick budget).2 ∧ Steady s (serve m s f id tick budget).2 := by
  have built : At m s id (if f.cursor.isNone then buildBounds f else f) := by
    split_ifs
    · exact here.follow rfl rfl here.ownIndexed.2
    · exact here
  have stored (g : Focus G Cursor) (here : At m s id g) : Whole m { s with focuses := s.focuses.insert id g } :=
    here.store _ (here.tidy.congr rfl rfl rfl rfl rfl rfl le_rfl) rfl rfl
  unfold serve
  generalize (if f.cursor.isNone then buildBounds f else f) = g at built
  dsimp only
  generalize m.queryPage _ _ g.cursor = page
  have swept : At m s id { g with working := (page.entries.foldl (consider m g) (g.working,ranksOf m g.working)).1 } :=
    built.follow rfl rfl (indexed_page built.ownIndexed.2 page.entries)
  cases page.status with
  | complete =>
    obtain ⟨completed,steady⟩ := complete_at swept now
    exact ⟨completed.store _ (completed.tidy.congr rfl rfl rfl rfl rfl rfl le_rfl) rfl rfl,
      steady.last,steady.stopped,steady.requested⟩
  | more => exact ⟨stored _ (swept.follow rfl rfl swept.ownIndexed.2),rfl,rfl,fun _ => rfl⟩
  | invalidInput => exact ⟨stored _ (built.follow rfl rfl indexed_empty),rfl,rfl,fun _ => rfl⟩
  | invalidCursor => exact ⟨stored _ (built.follow rfl rfl indexed_empty),rfl,rfl,fun _ => rfl⟩
  | queryCellLimit => exact ⟨stored _ (built.follow rfl rfl indexed_empty),rfl,rfl,fun _ => rfl⟩
  | allocationFailure => exact ⟨stored _ (built.follow rfl rfl indexed_empty),rfl,rfl,fun _ => rfl⟩

theorem evaluateFrom_whole (ids : List ResidencyFocusId) (budget : Budget) (s : ResidencyDemandPolicy κ G Cursor)
    (whole : Whole m s) (now : tick = s.lastTick) :
    Whole m (evaluateFrom m tick ids budget s) ∧ Steady s (evaluateFrom m tick ids budget s) := by
  induction ids generalizing budget s with
  | nil => exact ⟨whole,.refl s⟩
  | cons id rest ih =>
    unfold evaluateFrom
    by_cases spent : budget.focuses = 0 ∨ budget.cells = 0 ∨ budget.visits = 0
    · rw [if_pos spent]
      exact ⟨whole,.refl s⟩
    · rw [if_neg spent]
      cases found : s.focuses.find? id with
      | none => exact ih budget s whole now
      | some f =>
        dsimp only
        by_cases idle : f.needsEvaluation = false ∨ (f.unhealthy = true ∧ tick < f.retryAtTick)
        · rw [if_pos idle]
          exact ih budget s whole now
        · rw [if_neg idle]
          generalize (if f.needsRevalidation = true then f.committed.size + f.working.size else 0) = work
          by_cases tooMuch : budget.revalidations < work
          · rw [if_pos tooMuch]
            exact ⟨whole,.refl s⟩
          · rw [if_neg tooMuch]
            have here := whole.at_ found
            have renewed : At m (if f.needsRevalidation then revalidate m s f id tick else (f,s)).2 id
                (if f.needsRevalidation then revalidate m s f id tick else (f,s)).1 ∧
                  Steady s (if f.needsRevalidation then revalidate m s f id tick else (f,s)).2 := by
              split_ifs
              · exact revalidate_at here now
              · exact ⟨here,.refl s⟩
            generalize (if f.needsRevalidation then revalidate m s f id tick else (f,s)) = renewal at renewed
            obtain ⟨g,t⟩ := renewal
            obtain ⟨swept,first⟩ := renewed
            have turned : At m { t with nextFocus := id } id g :=
              { swept with tidy := swept.tidy.congr rfl rfl rfl rfl rfl rfl le_rfl }
            obtain ⟨served,second⟩ := serve_whole turned (now.trans first.last.symm)
              { budget with revalidations := budget.revalidations - work }
            obtain ⟨after,third⟩ := ih _ _ served (now.trans (first.last.symm.trans second.last.symm))
            exact ⟨after,(first.trans ⟨second.last,second.stopped,second.requested⟩).trans third⟩

theorem expired_recast {due : Nat ×ₗ Nat} (tidy : Tidy m s) (known : s.expiries.contains due)
    (late : (ofLex due).1 ≤ s.lastTick) :
    Recast m s (refresh m { s with expiries := s.expiries.erase due } (ofLex due).2 s.lastTick) := by
  have shape : toLex ((ofLex due).1,(ofLex due).2) = due := rfl
  obtain ⟨r,found,graced⟩ := tidy.1.expiring (ofLex due).1 (ofLex due).2 (by rw [shape]; exact known)
  have sound : Sound m { s with expiries := s.expiries.erase due } := by
    refine { tidy.1 with expiring := fun tick unit here => ?_, grace := fun unit r tick here graced => ?_ }
    · dsimp only at here
      rw [contains_erase,Bool.and_eq_true] at here
      exact tidy.1.expiring tick unit here.2
    · dsimp only
      rw [contains_erase,Bool.and_eq_true,decide_eq_true_eq]
      by_cases same : toLex (tick,unit) = due
      · rw [← same] at late
        exact .inr late
      · exact (tidy.1.grace unit r tick here graced).imp_left fun kept => ⟨same,kept⟩
  obtain ⟨focuses,last,_,stopped⟩ := refresh_keeps m { s with expiries := s.expiries.erase due } (ofLex due).2
      s.lastTick
  refine ⟨⟨refresh_sound sound _ _,fun unit => ?_⟩,focuses,last,stopped,
    isRequested_refresh m { s with expiries := s.expiries.erase due } _ _⟩
  by_cases same : unit = (ofLex due).2
  · rw [same]
    refine refresh_tidy sound rfl fun absent => ?_
    cases found.symm.trans absent
  · refine refresh_elsewhere ((tidy.2 unit).congr rfl rfl fun tick => ?_) same
    have apart : toLex (tick,unit) ≠ due := fun equal => same (by rw [← equal]; rfl)
    rw [contains_erase,decide_eq_true apart,Bool.true_and]

theorem expire_recast (tick n : Nat) (s : ResidencyDemandPolicy κ G Cursor) (tidy : Tidy m s)
    (now : tick = s.lastTick) :
    Recast m s (expire m tick n s) ∧ ∀ unit id, focusAt (expire m tick n s) unit id = focusAt s unit id := by
  induction n generalizing s with
  | zero => exact ⟨.refl tidy,fun _ _ => rfl⟩
  | succ n ih =>
    unfold expire
    cases first : s.expiries.entries.head? with
    | none => exact ⟨.refl tidy,fun _ _ => rfl⟩
    | some entry =>
      obtain ⟨due,_⟩ := entry
      dsimp only
      by_cases late : (ofLex due).1 ≤ tick
      · rw [if_pos late]
        have known : s.expiries.contains due :=
          contains_iff.mpr ⟨_,find?_eq_some.mpr (mem_of_head? first)⟩
        obtain ⟨r,found,graced⟩ := tidy.1.expiring (ofLex due).1 (ofLex due).2 known
        rw [found,Option.any_some,graced,if_pos (by rfl),now]
        rw [now] at late
        have refreshed := expired_recast tidy known late
        obtain ⟨recast,units⟩ := ih _ refreshed.tidy (now.trans refreshed.last.symm)
        rw [now] at recast units
        exact ⟨refreshed.trans recast,fun unit id => (units unit id).trans (focusAt_refresh _ _ _ _ _ _)⟩
      · rw [if_neg late]
        exact ⟨.refl tidy,fun _ _ => rfl⟩

section
variable (whole : Whole m s)
include whole

theorem updateFocus_whole (id : ResidencyFocusId) (position velocity : G.Vector)
    (demandClass : ResidencyDemandClass) : Whole m (updateFocus m s id position velocity demandClass).2 ∧
      Steady s (updateFocus m s id position velocity demandClass).2 := by
  have stored (g : Focus G Cursor) (here : At m s id g) :
      Whole m { s with revision := s.revision + 1, focuses := s.focuses.insert id g } :=
    here.store _ (whole.tidy.congr rfl rfl rfl rfl rfl rfl le_rfl) rfl rfl
  unfold updateFocus
  by_cases refused : s.stopped = true ∨ id = 0 ∨ G.isPosition position = false ∨ G.isFinite velocity = false ∨
      s.revision = maximumTick
  · rw [if_pos refused]
    exact ⟨whole,.refl s⟩
  · rw [if_neg refused]
    cases found : s.focuses.find? id with
    | none =>
      split_ifs
      · exact ⟨whole,.refl s⟩
      · refine ⟨stored _ ⟨whole.tidy,fun other _ unit => whole.attached unit other,fun unit => ?_,whole.indexed,
          indexed_empty,indexed_empty⟩,rfl,rfl,fun _ => rfl⟩
        rw [whole.attached,contribution,found]
        rfl
    | some f =>
      dsimp only
      have here := whole.at_ found
      split_ifs
      · exact ⟨whole,.refl s⟩
      · exact ⟨stored _ (here.follow rfl rfl here.ownIndexed.2),rfl,rfl,fun _ => rfl⟩

theorem removeFocus_whole (id : ResidencyFocusId) :
    Whole m (removeFocus m s id).2 ∧ Steady s (removeFocus m s id).2 := by
  unfold removeFocus
  split_ifs with refused
  · exact ⟨whole,.refl s⟩
  · cases found : s.focuses.find? id with
    | none => exact ⟨whole,.refl s⟩
    | some f =>
      have here := whole.at_ found
      have detached : Recast m s (if f.attached then detach m s f id s.lastTick fun _ => false else s) ∧
          ∀ unit other, focusAt (if f.attached then detach m s f id s.lastTick fun _ => false else s) unit other =
            if other = id then none else focusAt s unit other := by
        by_cases joined : f.attached = true
        · rw [if_pos joined]
          obtain ⟨recast,units⟩ := detach_spec id s.lastTick (fun _ => false) f.committed.entries s
            (own_of_indexed here.ownIndexed.1) rfl here.tidy
          refine ⟨recast,fun unit other => (units unit other).trans ?_⟩
          by_cases mine : other = id
          · subst mine
            have own := here.own unit
            rw [contributionOf,if_pos joined,SortedMap.find?] at own
            cases known : SortedMap.findIn unit f.committed.entries <;> simp [own,known]
          · simp [mine]
        · rw [if_neg joined]
          refine ⟨.refl here.tidy,fun unit other => ?_⟩
          split_ifs with mine
          · rw [mine,here.own,contributionOf,if_neg joined]
            rfl
          · rfl
      obtain ⟨recast,units⟩ := detached
      refine ⟨⟨recast.tidy.congr rfl rfl rfl rfl rfl rfl le_rfl,fun unit other => (units unit other).trans ?_,
        fun other g known => ?_⟩,recast.last,recast.stopped,recast.requested⟩
      · unfold contribution
        dsimp only
        rw [recast.focuses,find?_erase]
        split_ifs
        · rfl
        · exact whole.attached unit other
      · dsimp only at known
        rw [recast.focuses,find?_erase] at known
        split_ifs at known
        exact whole.indexed other g known

theorem change_whole (unit : Nat) {r : DemandRecord κ G.Distance} (alike : Alike (recordAt s unit) r)
    (focuses : r.focuses = (recordAt s unit).focuses) (ranked : r.rankedFocuses = (recordAt s unit).rankedFocuses) :
    Whole m (refresh m (setRecord s unit r) unit s.lastTick) ∧ Steady s (refresh m (setRecord s unit r) unit
        s.lastTick) := by
  have known : r.Ranked m := by
    unfold DemandRecord.Ranked
    rw [focuses,ranked]
    exact whole.tidy.1.recordAt_ranked unit
  obtain ⟨kept,last,_,stopped⟩ := refresh_keeps m (setRecord s unit r) unit s.lastTick
  have recast : Recast m s (refresh m (setRecord s unit r) unit s.lastTick) := by
    refine ⟨whole.tidy.change alike known rfl,kept,last,stopped,fun other => ?_⟩
    rw [isRequested_refresh,isRequested,find?_setRecord]
    split_ifs with same
    · rw [isRequested,same,Option.any_some,alike.requested,recordAt]
      cases s.demands.find? unit <;> rfl
    · rfl
  refine ⟨whole.recast recast.tidy recast.focuses fun other id => ?_,recast.steady⟩
  rw [focusAt_refresh,focusAt_eq,focusAt_eq,recordAt,find?_setRecord]
  split_ifs with same
  · rw [Option.getD_some,focuses,same]
  · rfl

theorem setRequirement_whole (key : κ) (demandClass : ResidencyDemandClass) (deadlineTick : Option Nat) :
    Whole m (setRequirement m s key demandClass deadlineTick).2 ∧
      Steady s (setRequirement m s key demandClass deadlineTick).2 := by
  unfold setRequirement
  split_ifs with refused
  · exact ⟨whole,.refl s⟩
  · cases m.unit? key with
    | none => exact ⟨whole,.refl s⟩
    | some unit =>
      dsimp only
      split_ifs
      · exact ⟨whole,.refl s⟩
      · have counted : Whole m { s with revision := s.revision + 1 } :=
          whole.congr (whole.tidy.congr rfl rfl rfl rfl rfl rfl le_rfl) rfl rfl
        obtain ⟨changed,steady⟩ := change_whole counted unit
          (r := { recordAt s unit with required := some ⟨demandClass,deadlineTick,s.revision + 1⟩ }) ⟨rfl,rfl,rfl⟩
              rfl rfl
        exact ⟨changed,steady.last,steady.stopped,steady.requested⟩

theorem clearRequirement_whole (key : κ) :
    Whole m (clearRequirement m s key).2 ∧ Steady s (clearRequirement m s key).2 := by
  unfold clearRequirement
  split_ifs with refused
  · exact ⟨whole,.refl s⟩
  · cases m.unit? key with
    | none => exact ⟨whole,.refl s⟩
    | some unit =>
      dsimp only
      cases found : s.demands.find? unit with
      | none => exact ⟨whole,.refl s⟩
      | some r =>
        dsimp only
        split_ifs
        · exact ⟨whole,.refl s⟩
        · have same : recordAt s unit = r := by rw [recordAt,found,Option.getD_some]
          exact change_whole whole unit ⟨by rw [same],by rw [same],by rw [same]⟩ (by rw [same]) (by rw [same])

end

def Logged (calls : List Call) (s : ResidencyDemandPolicy κ G Cursor) : Prop :=
  ∀ unit, follow calls unit = some (isRequested s unit)

variable {calls : List Call}

theorem step_whole (whole : Whole m s) (logged : Logged calls s) (service : Option (Availability κ G)) (tick : Nat) :
    Whole m (step m s service tick).1 ∧ (step m s service tick).1.stopped = s.stopped ∧
        Logged (calls ++ (step m s service tick).2) (step m s service tick).1 := by
  unfold step
  split_ifs with refused
  · exact ⟨whole,rfl,by rw [append_nil]; exact logged⟩
  · rw [not_or,not_le] at refused
    have begun : Whole m { s with lastTick := tick } :=
      whole.congr (whole.tidy.congr rfl rfl rfl rfl rfl rfl refused.2.le) rfl rfl
    obtain ⟨evaluated,first⟩ : Whole m (evaluate m { s with lastTick := tick } tick) ∧
        Steady { s with lastTick := tick } (evaluate m { s with lastTick := tick } tick) :=
      evaluateFrom_whole _ _ _ begun rfl
    obtain ⟨recast,units⟩ := expire_recast tick m.limits.maximumDemandDeltasPerTick _ evaluated.tidy first.last.symm
    have expired := evaluated.recast recast.tidy recast.focuses units
    have applied := applyPending_applied expired.tidy service calls fun unit => by
      rw [recast.requested,first.requested]
      exact logged unit
    exact ⟨expired.recast applied.tidy applied.focuses applied.focusAt,
      applied.stopped.trans (recast.stopped.trans first.stopped),applied.log⟩

theorem nodup_ownedUnits (s : ResidencyDemandPolicy κ G Cursor) : (ownedUnits s).Nodup :=
  ((filter_sublist (l := s.demands.entries)).map fst).nodup (nodup_keys s.demands)

theorem mem_ownedUnits : unit ∈ ownedUnits s ↔ isRequested s unit := by
  unfold ownedUnits isRequested
  rw [mem_map]
  constructor
  · rintro ⟨⟨other,r⟩,member,rfl⟩
    obtain ⟨among,requested⟩ := mem_filter.mp member
    rwa [find?_eq_some.mpr among]
  · intro requested
    cases found : s.demands.find? unit with
    | none =>
      rw [found] at requested
      cases requested
    | some r =>
      rw [found] at requested
      exact ⟨(unit,r),mem_filter.mpr ⟨find?_eq_some.mp found,requested⟩,rfl⟩

theorem follow_released (units : List Nat) (answers : List Bool) (calls : List Call) (apart : units.Nodup)
    (held : ∀ unit ∈ units, follow calls unit = some true) (unit : Nat) :
    (unit ∉ units → follow (calls ++ released units answers) unit = follow calls unit) ∧
      ∀ i : Nat, units[i]? = some unit →
        follow (calls ++ released units answers) unit = some (!answers.getD i false) := by
  induction units generalizing answers calls with
  | nil => exact ⟨fun _ => by rw [released,append_nil],fun i here => by cases here⟩
  | cons first rest ih =>
    obtain ⟨fresh,apart⟩ := nodup_cons.mp apart
    have first_held := held first (.head _)
    unfold released
    split_ifs with accepted
    · have moved (v : Nat) : follow (calls ++ [⟨true,first⟩]) v = if first = v then some false else follow calls
        v := by
        rw [follow_append_one]
        by_cases same : first = v
        · rw [if_pos same,if_pos same,← same,first_held]
          rfl
        · rw [if_neg same,if_neg same]
      obtain ⟨others,own⟩ := ih answers.tail (calls ++ [⟨true,first⟩]) apart fun v member => by
        rw [moved,if_neg fun same => fresh (by rw [same]; exact member)]
        exact held v (.tail _ member)
      rw [append_cons]
      refine ⟨fun away => ?_,fun i here => ?_⟩
      · rw [others fun member => away (.tail _ member),moved,
          if_neg fun same => away (by rw [same]; exact (.head _))]
      · cases i with
        | zero =>
          cases here
          rw [others fresh,moved,if_pos rfl]
          cases answers with
          | nil => cases accepted
          | cons answer later => exact congrArg (fun a => some (!a)) (.symm accepted)
        | succ i =>
          rw [own i here]
          cases answers <;> rfl
    · obtain ⟨others,own⟩ := ih answers.tail calls apart fun v member => held v (.tail _ member)
      refine ⟨fun away => others fun member => away (.tail _ member),fun i here => ?_⟩
      cases i with
      | zero =>
        cases here
        rw [others fresh,first_held]
        cases answers with
        | nil => rfl
        | cons answer later => exact congrArg (fun a => some (!a)) (.symm (Bool.eq_false_iff.mpr accepted))
      | succ i =>
        rw [own i here]
        cases answers <;> rfl

theorem whole_cleared (s : ResidencyDemandPolicy κ G Cursor) : Whole m { s with
    focuses := ∅, demands := ∅, expiries := ∅, pending := ∅, pendingByIndex := ∅, desiredUnits := 0
    ownedRequests := 0 } := by
  refine ⟨⟨⟨rfl,rfl,?_,?_,?_,?_,?_⟩,fun unit => ⟨?_,?_,?_,?_⟩⟩,fun unit id => rfl,?_⟩
  · intro unit r found
    cases found
  · intro d
    exact ⟨fun known => (by cases known),fun known => (by cases known)⟩
  · intro unit d found
    cases found
  · intro tick unit known
    cases known
  · intro unit r tick found
    cases found
  · intro r found
    cases found
  · intro r found
    cases found
  · intro r found
    cases found
  · intro d found
    cases found
  · intro id f found
    cases found

theorem stop_whole (whole : Whole m s) (service : Option (Availability κ G)) : Whole m (stop s service).1 := by
  unfold stop
  split_ifs
  · exact whole
  · exact whole_cleared { s with stopped := true }

theorem follow_stop (logged : Logged calls s) (running : s.stopped = false) (service : Availability κ G)
    (bound : isBound s service) (unit : Nat) : follow (calls ++ (stop s (some service)).2) unit = some false ∨
      ∃ i : Nat, (ownedUnits s)[i]? = some unit ∧ service.answers.getD i false = false := by
  unfold stop
  rw [if_neg (by simp [running])]
  dsimp only
  rw [if_pos bound]
  obtain ⟨others,own⟩ := follow_released (ownedUnits s) service.answers calls (nodup_ownedUnits s)
    (fun v member => by rw [logged v,mem_ownedUnits.mp member]) unit
  by_cases member : unit ∈ ownedUnits s
  · obtain ⟨i,here⟩ := mem_iff_getElem?.mp member
    cases answer : service.answers.getD i false with
    | true => exact .inl (by rw [own i here,answer]; rfl)
    | false => exact .inr ⟨i,here,answer⟩
  · refine .inl ?_
    rw [others member,logged unit,Bool.eq_false_iff.mpr fun held => member (mem_ownedUnits.mpr held)]

theorem exists_follow_stop (logged : Logged calls s) (running : s.stopped = false)
    (service : Option (Availability κ G)) (unit : Nat) : ∃ held, follow (calls ++ (stop s service).2) unit = some
        held := by
  unfold stop
  rw [if_neg (by simp [running])]
  cases service with
  | none =>
    rw [append_nil]
    exact ⟨_,logged unit⟩
  | some service =>
    dsimp only
    split_ifs with bound
    · obtain ⟨others,own⟩ := follow_released (ownedUnits s) service.answers calls (nodup_ownedUnits s)
        (fun v member => by rw [logged v,mem_ownedUnits.mp member]) unit
      by_cases member : unit ∈ ownedUnits s
      · obtain ⟨i,here⟩ := mem_iff_getElem?.mp member
        exact ⟨_,own i here⟩
      · exact ⟨_,(others member).trans (logged unit)⟩
    · rw [append_nil]
      exact ⟨_,logged unit⟩

/-! ### Runs -/

inductive Event (κ : Type) (G : ResidencyGeometry) where
  | updateFocus (id : ResidencyFocusId) (position velocity : G.Vector) (demandClass : ResidencyDemandClass)
  | removeFocus (id : ResidencyFocusId)
  | setRequirement (key : κ) (demandClass : ResidencyDemandClass) (deadlineTick : Option Nat)
  | clearRequirement (key : κ)
  | step (service : Option (Availability κ G)) (tick : Nat)
  | stop (service : Option (Availability κ G))

structure Watch (κ : Type) [LinearOrder κ] (G : ResidencyGeometry) (Cursor : Type) where
  policy : ResidencyDemandPolicy κ G Cursor := {}
  calls : List Call := []

def operate (m : Setting κ G Cursor) (w : Watch κ G Cursor) : Event κ G → Option (Watch κ G Cursor)
  | .updateFocus id position velocity demandClass =>
    some { w with policy := (updateFocus m w.policy id position velocity demandClass).2 }
  | .removeFocus id => some { w with policy := (removeFocus m w.policy id).2 }
  | .setRequirement key demandClass deadlineTick =>
    some { w with policy := (setRequirement m w.policy key demandClass deadlineTick).2 }
  | .clearRequirement key => some { w with policy := (clearRequirement m w.policy key).2 }
  | .step service tick =>
    some ⟨(step m w.policy service tick).1,w.calls ++ (step m w.policy service tick).2⟩
  | .stop service => some ⟨(stop w.policy service).1,w.calls ++ (stop w.policy service).2⟩

/-- The books of a state that is reached: what is stored more than once agrees, no unit is requested
    twice, and no request is forgotten. -/
structure Accounts (m : Setting κ G Cursor) (w : Watch κ G Cursor) : Prop where
  alternating : ∀ unit, ∃ held, follow w.calls unit = some held ∧
    (w.calls.countP fun c => decide (c.unit = unit) && !c.release) =
      (w.calls.countP fun c => decide (c.unit = unit) && c.release) + held.toNat
  owned : w.policy.ownedRequests = (w.policy.demands.entries.filter fun e => e.2.requested).length
  desired : w.policy.desiredUnits = (w.policy.demands.entries.filter fun e => e.2.isDesired).length
  mirrored : ∀ d, w.policy.pending.contains d = true ↔ w.policy.pendingByIndex.find? d.index = some d
  indexed : ∀ unit d, w.policy.pendingByIndex.find? unit = some d → d.index = unit
  contributed : ∀ unit id, focusAt w.policy unit id = (contribution w.policy id).find? unit
  ranked : ∀ unit r, w.policy.demands.find? unit = some r → r.Ranked m
  unleaked : ∀ unit r, w.policy.demands.find? unit = some r → r.requested = true → r.isDesired = false →
    (∃ tick, r.graceUntil = some tick ∧ w.policy.expiries.contains (toLex (tick,unit)) = true) ∨
      ∃ d, w.policy.pendingByIndex.find? unit = some d ∧ d.release = true

theorem total_toNat (p : DemandRecord κ G.Distance → Bool) (demands : SortedMap Nat (DemandRecord κ G.Distance)) :
    demands.total (fun r => (p r).toNat) = (demands.entries.filter fun e => p e.2).length := by
  unfold SortedMap.total
  induction demands.entries with
  | nil => rfl
  | cons e rest ih =>
    rw [map_cons,sum_cons,ih,filter_cons]
    dsimp only
    cases here : p e.2 with
    | true => exact Nat.add_comm ..
    | false => exact Nat.zero_add _

theorem count_of_follow {held : Bool} (known : follow calls unit = some held) :
    (calls.countP fun c => decide (c.unit = unit) && !c.release) =
      (calls.countP fun c => decide (c.unit = unit) && c.release) + held.toNat := by
  induction calls using List.reverseRecOn generalizing held with
  | nil =>
    cases known
    rfl
  | append_singleton calls call ih =>
    rw [follow_append_one] at known
    rw [countP_append,countP_append,countP_singleton,countP_singleton]
    split_ifs at known with here turn
    · rw [← Option.some.inj known,ih turn]
      cases call.release <;> simp [here]
    · rw [ih known]
      simp [here]

def Kept (m : Setting κ G Cursor) (w : Watch κ G Cursor) : Prop :=
  Whole m w.policy ∧ (w.policy.stopped = false → Logged w.calls w.policy) ∧ ∀ unit, ∃ held, follow w.calls unit = some
      held

variable {w : Watch κ G Cursor}

theorem Kept.steady (kept : Kept m w) {policy : ResidencyDemandPolicy κ G Cursor}
    (changed : Whole m policy ∧ Steady w.policy policy) : Kept m { w with policy := policy } := by
  refine ⟨changed.1,fun running unit => ?_,kept.2.2⟩
  rw [changed.2.requested]
  exact kept.2.1 (changed.2.stopped.symm.trans running) unit

theorem step_of_stopped (stopped : s.stopped) (service : Option (Availability κ G)) (tick : Nat) :
    step m s service tick = (s,[]) := by
  unfold step
  rw [if_pos (.inl stopped)]

theorem stop_of_stopped (stopped : s.stopped) (service : Option (Availability κ G)) : stop s service = (s,[]) := by
  unfold stop
  rw [if_pos stopped]

theorem operate_kept (w : Watch κ G Cursor) (e : Event κ G) (v : Watch κ G Cursor) (kept : Kept m w)
    (operated : operate m w e = some v) : Kept m v := by
  obtain ⟨whole,logged,followed⟩ := kept
  cases e with
  | updateFocus id position velocity demandClass =>
    rw [← Option.some.inj operated]
    exact .steady ⟨whole,logged,followed⟩ (updateFocus_whole whole id position velocity demandClass)
  | removeFocus id =>
    rw [← Option.some.inj operated]
    exact .steady ⟨whole,logged,followed⟩ (removeFocus_whole whole id)
  | setRequirement key demandClass deadlineTick =>
    rw [← Option.some.inj operated]
    exact .steady ⟨whole,logged,followed⟩ (setRequirement_whole whole key demandClass deadlineTick)
  | clearRequirement key =>
    rw [← Option.some.inj operated]
    exact .steady ⟨whole,logged,followed⟩ (clearRequirement_whole whole key)
  | step service tick =>
    rw [← Option.some.inj operated]
    cases running : w.policy.stopped with
    | true =>
      rw [step_of_stopped running,append_nil]
      exact ⟨whole,logged,followed⟩
    | false =>
      obtain ⟨after,_,log⟩ := step_whole whole (logged running) service tick
      exact ⟨after,fun _ => log,fun unit => ⟨_,log unit⟩⟩
  | stop service =>
    rw [← Option.some.inj operated]
    cases running : w.policy.stopped with
    | true =>
      rw [stop_of_stopped running,append_nil]
      exact ⟨whole,logged,followed⟩
    | false =>
      refine ⟨stop_whole whole service,fun on => ?_,exists_follow_stop (logged running) running service⟩
      unfold stop at on
      rw [if_neg (by simp [running])] at on
      cases on

theorem Kept.accounts (kept : Kept m w) : Accounts m w := by
  obtain ⟨whole,_,followed⟩ := kept
  obtain ⟨sound,tidy⟩ := whole.tidy
  refine ⟨fun unit => ?_,?_,?_,sound.mirrored,sound.indexed,whole.attached,sound.ranked,fun unit =>
      (tidy unit).unleaked⟩
  · obtain ⟨held,known⟩ := followed unit
    exact ⟨held,known,count_of_follow known⟩
  · rw [sound.owned,total_toNat]
  · rw [sound.desired,total_toNat]
    congr 1
    refine filter_congr fun e member => ?_
    exact (tidy e.1).observed e.2 (find?_eq_some.mpr member)

theorem kept_new : Kept m ({} : Watch κ G Cursor) :=
  ⟨whole_cleared {},fun _ _ => rfl,fun _ => ⟨false,rfl⟩⟩

/-- The accepted calls alternate for each unit, the books agree, and a stop with the bound service
    asks it to release each unit that is held. -/
theorem demands_run {events : List (Event κ G)} {w : Watch κ G Cursor}
    (reached : run (operate m) ({} : Watch κ G Cursor) events = some w) :
    Accounts m w ∧ (w.policy.stopped = false → ∀ service, isBound w.policy service = true → ∀ unit,
      follow (w.calls ++ (stop w.policy (some service)).2) unit = some false ∨
        ∃ i : Nat, (ownedUnits w.policy)[i]? = some unit ∧ service.answers.getD i false = false) := by
  have kept : Kept m w := run_preserves (fun v e u kept operated => operate_kept v e u kept operated) kept_new reached
  exact ⟨kept.accounts,fun running service bound => follow_stop (kept.2.1 running) running service bound⟩

/-- Distances are numbers, and everything is at one place. -/
def plainGeometry : ResidencyGeometry where
  Distance := Nat
  nearest := 0
  farthest := 1000
  Vector := Unit
  origin := ()
  sameVector _ _ := true
  isPosition _ := true
  isFinite _ := true
  lookahead _ _ := ()
  Bounds := Unit
  sameBounds _ _ := true
  requiredBounds _ _ := ()
  withSlack _ := ()
  covers _ _ := true
  distanceSquared _ _ := 0
  segmentDistanceSquared _ _ _ := 0
  enter := 256
  leave := 320

def plainManifest : ManifestSnapshot Nat Unit where
  owner := 1
  entries := [{ key := 5, packageSpaceKey := defaultPackageSpace, coarseBounds := some () }]

def plainSetting : Setting Nat plainGeometry Unit where
  limits := {}
  valid := by decide
  manifest := plainManifest
  exactSnapshotRequired := true
  queryPage _ _ _ := { status := .complete, entries := [0] }

def plainService : Availability Nat plainGeometry where
  id := 1
  isManifestAvailable := true
  manifest := some plainManifest
  answers := [true]

/-- One unit is required, and requested. -/
def requiredOnce : List (Event Nat plainGeometry) := [.setRequirement 5 .gameplay none,.step (some plainService) 1]

theorem demands_required : ∃ w, run (operate plainSetting) {} requiredOnce = some w ∧ w.calls = [⟨false, 0⟩] ∧
    Accounts plainSetting w ∧ ∀ unit, follow (w.calls ++ (stop w.policy (some plainService)).2) unit = some false ∨
      ∃ i : Nat, (ownedUnits w.policy)[i]? = some unit ∧ plainService.answers.getD i false = false := by
  have reached : ((run (operate plainSetting) {} requiredOnce).map fun w =>
      decide (w.calls = [⟨false,0⟩]) && !w.policy.stopped && isBound w.policy plainService) =
      some true := by decide +kernel
  obtain ⟨w,reached,known⟩ := Option.map_eq_some_iff.mp reached
  rw [Bool.and_eq_true,Bool.and_eq_true,Bool.not_eq_true'] at known
  have run := demands_run reached
  exact ⟨w,reached,of_decide_eq_true known.1.1,run.1,run.2 known.1.2 plainService known.2⟩

/-- A stop without the service releases nothing. -/
theorem stop_without_service : ∃ w, run (operate plainSetting) {} (requiredOnce ++ [.stop none]) = some w ∧
    w.policy.stopped = true ∧ follow w.calls 0 = some true := by
  have left : ((run (operate plainSetting) {} (requiredOnce ++ [.stop none])).map fun w =>
      w.policy.stopped && decide (follow w.calls 0 = some true)) = some true := by decide +kernel
  obtain ⟨w,reached,left⟩ := Option.map_eq_some_iff.mp left
  rw [Bool.and_eq_true,decide_eq_true_eq] at left
  exact ⟨w,reached,left.1,left.2⟩

end Gargantuan.ResidencyDemandPolicy
