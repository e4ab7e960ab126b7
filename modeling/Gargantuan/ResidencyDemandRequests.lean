import Gargantuan.ResidencyDemandBooks
import Mathlib.Data.List.TakeWhile

/-!
What is applied of the pending deltas. The scan for requests goes over the pending ones twice when
nothing in front of them stands; the second pass may come back to where it began, but then the
first pass has spent its validation, and what the second is given does not suffice for a whole
round (`scan_found`). So no unit is requested twice, and the accepted calls alternate.
-/
namespace Gargantuan.ResidencyDemandPolicy
open SortedMap List Option PendingDelta Bool
variable {κ : Type} [LinearOrder κ] [Inhabited κ] {G : ResidencyGeometry} {Cursor : Type} {m : Setting κ G Cursor}
variable {s : ResidencyDemandPolicy κ G Cursor}

def isFresh (s : ResidencyDemandPolicy κ G Cursor) (r : DemandRecord κ G.Distance) (id : ResidencyFocusId) : Bool :=
  match s.focuses.find? id, r.focuses.find? id with
  | some f, some c => !f.needsRevalidation && f.revision == c.revision
  | _, _ => false

def visits (s : ResidencyDemandPolicy κ G Cursor) (r : DemandRecord κ G.Distance) : List ResidencyFocusId → Nat
  | [] => 0
  | id :: rest => if isFresh s r id then 1 else visits s r rest + 1

section
variable {r : DemandRecord κ G.Distance} {id : ResidencyFocusId} {ids : List ResidencyFocusId}
variable {known : Option (Candidate G.Distance)} {left : Nat}

theorem firstFresh_stale (stale : isFresh s r id = false) (unspent : left ≠ 0) :
    firstFresh m s r (id :: ids) known left = firstFresh m s r ids known (left - 1) := by
  unfold isFresh at stale
  rw [firstFresh,if_neg unspent]
  cases focus : s.focuses.find? id with
  | none => rfl
  | some f =>
    cases candidate : r.focuses.find? id with
    | none => rfl
    | some c =>
      rw [focus,candidate] at stale
      dsimp only at stale ⊢
      rw [and_eq_false_iff,not_eq_false',beq_eq_false_iff_ne] at stale
      rw [if_pos stale]

theorem firstFresh_fresh (m : Setting κ G Cursor) (ids : List ResidencyFocusId) (known : Option (Candidate G.Distance))
    (fresh : isFresh s r id) (unspent : left ≠ 0) :
    ∃ c, firstFresh m s r (id :: ids) known left = (some c,left - 1) := by
  unfold isFresh at fresh
  rw [firstFresh,if_neg unspent]
  cases focus : s.focuses.find? id with
  | none =>
    rw [focus] at fresh
    cases fresh
  | some f =>
    cases candidate : r.focuses.find? id with
    | none =>
      rw [focus,candidate] at fresh
      cases fresh
    | some c =>
      rw [focus,candidate] at fresh
      dsimp only at fresh ⊢
      rw [and_eq_true,not_eq_true',beq_iff_eq] at fresh
      rw [if_neg (by simp [fresh])]
      cases known with
      | none => exact ⟨c,rfl⟩
      | some old =>
        by_cases ahead : better m c old = true
        · exact ⟨c,by simp [ahead]⟩
        · exact ⟨old,by simp [ahead]⟩

theorem firstFresh_left (r : DemandRecord κ G.Distance) (ids : List ResidencyFocusId)
    (known : Option (Candidate G.Distance)) (left : Nat) :
    (firstFresh m s r ids known left).2 = left - visits s r ids := by
  induction ids generalizing left with
  | nil => rfl
  | cons id rest ih =>
    rw [visits]
    by_cases spent : left = 0
    · rw [firstFresh,if_pos spent,spent,Nat.zero_sub]
    · cases fresh : isFresh s r id with
      | true =>
        obtain ⟨c,here⟩ := firstFresh_fresh m rest known fresh spent
        rw [here,if_pos rfl]
      | false =>
        rw [firstFresh_stale fresh spent,ih,if_neg nofun]
        omega

theorem firstFresh_eq_none :
    (firstFresh m s r ids none left).1 = none ↔ ids.any (isFresh s r) = false ∨ left < visits s r ids := by
  induction ids generalizing left with
  | nil => simp [firstFresh]
  | cons id rest ih =>
    rw [any_cons,visits]
    by_cases spent : left = 0
    · have positive : 0 < if isFresh s r id = true then 1 else visits s r rest + 1 := by split <;> omega
      rw [firstFresh,spent]
      exact ⟨fun _ => .inr positive,fun _ => rfl⟩
    · cases fresh : isFresh s r id with
      | true =>
        obtain ⟨c,here⟩ := firstFresh_fresh m rest none fresh spent
        rw [here]
        simp
        omega
      | false =>
        have shift : left - 1 < visits s r rest ↔ left < visits s r rest + 1 := by omega
        rw [firstFresh_stale fresh spent,ih,shift,if_neg nofun,Bool.false_or]

theorem firstFresh_of_some (r : DemandRecord κ G.Distance) (ids : List ResidencyFocusId) (c : Candidate G.Distance)
    (left : Nat) : (firstFresh m s r ids (some c) left).1 ≠ none := by
  induction ids generalizing left with
  | nil => simp [firstFresh]
  | cons id rest ih =>
    by_cases spent : left = 0
    · simp [firstFresh,spent]
    · cases fresh : isFresh s r id with
      | true =>
        obtain ⟨c,here⟩ := firstFresh_fresh m rest (some c) fresh spent
        simp [here]
      | false =>
        rw [firstFresh_stale fresh spent]
        exact ih _

theorem any_isFresh_of_visits (none : visits s r ids = 0) : ids.any (isFresh s r) = false := by
  cases ids with
  | nil => rfl
  | cons id rest =>
    rw [visits] at none
    split_ifs at none

end

/-! ### Scanning -/

def visited (r : DemandRecord κ G.Distance) : List ResidencyFocusId :=
  r.rankedFocuses.keys.map fun k => (ofLex k).2

def visitsOf (s : ResidencyDemandPolicy κ G Cursor) (d : PendingDelta κ G.Distance) : Nat :=
  match s.demands.find? d.index with
  | some r => visits s r (visited r)
  | none => 0

def isStale (s : ResidencyDemandPolicy κ G Cursor) (d : PendingDelta κ G.Distance) : Bool :=
  match s.demands.find? d.index with
  | some r => !(visited r).any (isFresh s r) && r.required.isNone
  | none => true

def isRequired (s : ResidencyDemandPolicy κ G Cursor) (d : PendingDelta κ G.Distance) : Bool :=
  (s.demands.find? d.index).any fun r => r.required.isSome

variable {d x : PendingDelta κ G.Distance} {left : Nat}

theorem isStale_of_visitsOf (plain : isRequired s d = false) (none : visitsOf s d = 0) : isStale s d := by
  unfold isRequired at plain
  unfold visitsOf at none
  unfold isStale
  cases found : s.demands.find? d.index with
  | none => rfl
  | some r =>
    rw [found] at plain
    rw [found] at none
    dsimp only at none ⊢
    rw [any_isFresh_of_visits none]
    simpa using plain

theorem inspectRequest_left (d : PendingDelta κ G.Distance) (left : Nat) :
    (inspectRequest m s d left).2 = left - visitsOf s d := by
  unfold inspectRequest visitsOf
  cases s.demands.find? d.index with
  | none => rfl
  | some r => exact firstFresh_left r _ _ left

theorem inspectRequest_eq_none : (inspectRequest m s d left).1 = none ↔
    isStale s d ∨ (isRequired s d = false ∧ left < visitsOf s d) := by
  unfold inspectRequest visitsOf isStale isRequired
  cases s.demands.find? d.index with
  | none => simp
  | some r =>
    dsimp only
    rw [map_eq_none_iff,any_some]
    cases required : r.required with
    | none =>
      rw [map_none,firstFresh_eq_none,visited]
      simp
    | some wanted =>
      simp [firstFresh_of_some]

theorem inspectRequest_eq_some (found : (inspectRequest m s d left).1 = some x) :
    x.index = d.index ∧ x.release = false := by
  unfold inspectRequest at found
  cases here : s.demands.find? d.index with
  | none =>
    rw [here] at found
    cases found
  | some r =>
    rw [here] at found
    obtain ⟨c,_,made⟩ := map_eq_some_iff.mp found
    rw [← made]
    exact ⟨rfl,rfl⟩

theorem index_inspectRequest (d : PendingDelta κ G.Distance) (left : Nat) :
    (((inspectRequest m s d left).1.toList).map index).Sublist [d.index] := by
  cases found : (inspectRequest m s d left).1 with
  | none => exact nil_sublist _
  | some x =>
    rw [toList_some,map_cons,map_nil,(inspectRequest_eq_some found).1]

theorem inspectFront_index (deltas : List (PendingDelta κ G.Distance)) (left : Nat) :
    ((inspectFront m s deltas left).1.map index).Sublist (deltas.map index) := by
  induction deltas generalizing left with
  | nil => exact nil_sublist _
  | cons d rest ih =>
    unfold inspectFront
    rw [map_append]
    exact (index_inspectRequest d left).append (ih _)

variable {deltas : List (PendingDelta κ G.Distance)}

theorem inspectFront_eq_nil (none : (inspectFront m s deltas left).1 = []) :
    (∀ d ∈ deltas, isRequired s d = false ∨ isStale s d) ∧
      ((∀ d ∈ deltas, isStale s d) ∨ left < (deltas.map (visitsOf s)).sum) := by
  induction deltas generalizing left with
  | nil => exact ⟨by simp,.inl nofun⟩
  | cons d rest ih =>
    unfold inspectFront at none
    rw [append_eq_nil_iff,toList_eq_nil_iff,inspectRequest_eq_none,inspectRequest_left] at none
    obtain ⟨each,spent⟩ := ih none.2
    rw [map_cons,sum_cons]
    constructor
    · intro e member
      rcases mem_cons.mp member with rfl | later
      · exact none.1.symm.imp_left And.left
      · exact each e later
    · rcases none.1 with stale | ⟨_,beyond⟩
      · rcases spent with all | spent
        · refine .inl fun e member => ?_
          rcases mem_cons.mp member with rfl | later
          · exact stale
          · exact all e later
        · exact .inr (by omega)
      · exact .inr (by omega)

def rounds (requests : List (PendingDelta κ G.Distance)) :
    Nat → List (PendingDelta κ G.Distance) → List (PendingDelta κ G.Distance)
  | 0, _ => []
  | n + 1, rest =>
    match (if rest.isEmpty then requests else rest) with
    | [] => []
    | d :: rest => d :: rounds requests n rest

def Unrequired (s : ResidencyDemandPolicy κ G Cursor) (requests : List (PendingDelta κ G.Distance)) : Prop :=
  ∀ d ∈ requests, isRequired s d = false ∨ isStale s d = true

section
variable {requests rest : List (PendingDelta κ G.Distance)}

theorem inspectRequest_spent (unrequired : isRequired s d = false ∨ isStale s d) :
    (inspectRequest m s d 0).1 = none := by
  rw [inspectRequest_eq_none]
  by_cases stale : isStale s d = true
  · exact .inl stale
  · have plain := unrequired.resolve_right stale
    exact .inr ⟨plain,Nat.pos_of_ne_zero fun none => stale (isStale_of_visitsOf plain none)⟩

theorem mem_of_mem_next (among : ∀ d ∈ rest, d ∈ requests) : ∀ d ∈ (if rest.isEmpty then requests else rest), d ∈
    requests := by
  split
  · exact fun d member => member
  · exact among

variable {n : Nat}

theorem inspectOn_index {k : Nat} (within : k ≤ n) (among : ∀ d ∈ rest, d ∈ requests)
    (after : Option (PendingDelta κ G.Distance)) (left : Nat)
    (ends : k = n ∨ (Unrequired s requests ∧ left ≤ ((rounds requests k rest).map (visitsOf s)).sum)) :
    ((inspectOn m s requests n rest after left).1.map index).Sublist
      ((rounds requests k rest).map index) := by
  induction n generalizing k rest after left with
  | zero => exact nil_sublist _
  | succ n ih =>
    have nextAmong := mem_of_mem_next among
    cases k with
    | zero =>
      obtain ⟨unrequired,small⟩ := ends.resolve_left (by omega)
      have spent : left = 0 := by simpa [rounds] using small
      unfold inspectOn
      cases next : (if rest.isEmpty then requests else rest) with
      | nil => exact nil_sublist _
      | cons d tail =>
        dsimp only
        rw [inspectRequest_left,spent,inspectRequest_spent (unrequired d (nextAmong d (by rw [next]; exact
            (.head _)))),
          if_pos (Nat.zero_sub _)]
        exact nil_sublist _
    | succ k =>
      unfold inspectOn rounds
      cases next : (if rest.isEmpty then requests else rest) with
      | nil => exact nil_sublist _
      | cons d tail =>
        dsimp only
        rw [inspectRequest_left]
        split_ifs with spent
        · rw [map_cons]
          exact (index_inspectRequest d left).trans (singleton_sublist.mpr (.head _))
        · dsimp only
          rw [map_append]
          refine (index_inspectRequest d left).append (ih (by omega) ?_ _ _ ?_)
          · exact fun e member => nextAmong e (by rw [next]; exact .tail _ member)
          · rcases ends with same | ⟨unrequired,small⟩
            · exact .inl (by omega)
            · refine .inr ⟨unrequired,?_⟩
              unfold rounds at small
              rw [next,map_cons,sum_cons] at small
              omega

theorem inspectOn_of_stale (stale : ∀ d ∈ requests, isStale s d) (n : Nat) (among : ∀ d ∈ rest, d ∈ requests)
    (after : Option (PendingDelta κ G.Distance)) (left : Nat) : (inspectOn m s requests n rest after left).1 = [] := by
  induction n generalizing rest after left with
  | zero => rfl
  | succ n ih =>
    have nextAmong := mem_of_mem_next among
    unfold inspectOn
    cases next : (if rest.isEmpty then requests else rest) with
    | nil => rfl
    | cons d tail =>
      have member (e : PendingDelta κ G.Distance) (here : e ∈ d :: tail) : e ∈ requests := nextAmong e
          (by rw [next]; exact here)
      have none : (inspectRequest m s d left).1 = none :=
        inspectRequest_eq_none.mpr (.inl (stale d (member d (.head _))))
      dsimp only
      rw [none]
      split_ifs
      · rfl
      · exact ih (fun e later => member e (.tail _ later)) _ _

theorem rounds_eq_take (within : n ≤ rest.length + requests.length) :
    rounds requests n rest = (rest ++ requests).take n := by
  induction n generalizing rest with
  | zero => rfl
  | succ n ih =>
    unfold rounds
    cases rest with
    | nil =>
      rw [isEmpty_nil,if_pos rfl,nil_append]
      cases here : requests with
      | nil => rfl
      | cons d tail =>
        rw [here,length_cons,length_nil] at within
        dsimp only
        rw [← here,ih (by omega),take_append_of_le_length (by omega),here,take_succ_cons]
    | cons d tail =>
      rw [length_cons] at within
      rw [isEmpty_cons,if_neg nofun]
      dsimp only
      rw [ih (by omega),cons_append,take_succ_cons]

theorem rounds_perm {front : List (PendingDelta κ G.Distance)} (split : front ++ rest = requests)
    (within : n ≤ requests.length) : ∃ l, (rounds requests n rest).Sublist l ∧ l.Perm requests ∧
      (n = requests.length → rounds requests n rest = l) := by
  have length := congrArg List.length split
  rw [length_append] at length
  have cut : rounds requests n rest = (rest ++ front).take n := by
    rw [rounds_eq_take (by omega),← split,← append_assoc,take_append_of_le_length]
    rw [length_append]
    omega
  refine ⟨rest ++ front,?_,?_,fun all => ?_⟩
  · rw [cut]
    exact take_sublist _ _
  · rw [← split]
    exact perm_append_comm
  · rw [cut,take_of_length_le (by rw [length_append]; omega)]

theorem release_inspectFront : ∀ x ∈ (inspectFront m s deltas left).1, x.release = false := by
  induction deltas generalizing left with
  | nil => exact fun x member => absurd member not_mem_nil
  | cons d rest ih =>
    intro x member
    rcases mem_append.mp member with first | later
    · exact (inspectRequest_eq_some (mem_toList.mp first)).2
    · exact ih x later

theorem release_inspectOn {after : Option (PendingDelta κ G.Distance)} :
    ∀ x ∈ (inspectOn m s requests n rest after left).1, x.release = false := by
  induction n generalizing rest after left with
  | zero => exact fun x member => absurd member not_mem_nil
  | succ n ih =>
    unfold inspectOn
    cases (if rest.isEmpty then requests else rest) with
    | nil => exact fun x member => absurd member not_mem_nil
    | cons d tail =>
      dsimp only
      intro x member
      split_ifs at member with spent
      · exact (inspectRequest_eq_some (mem_toList.mp member)).2
      · rcases mem_append.mp member with first | later
        · exact (inspectRequest_eq_some (mem_toList.mp first)).2
        · exact ih x later

end

theorem scan_keeps (m : Setting κ G Cursor) (s : ResidencyDemandPolicy κ G Cursor) :
    ∃ after, (scan m s).2 = { s with pendingScanAfter := after } := by
  unfold scan
  dsimp only
  split
  · exact ⟨s.pendingScanAfter,rfl⟩
  · split_ifs
    · exact ⟨s.pendingScanAfter,rfl⟩
    · exact ⟨_,rfl⟩

theorem scan_release : ∀ x ∈ (scan m s).1, x.release = false := by
  unfold scan
  dsimp only
  split
  · exact release_inspectFront
  · split_ifs
    · exact release_inspectFront
    · exact release_inspectOn

theorem scan_found (m : Setting κ G Cursor) (s : ResidencyDemandPolicy κ G Cursor) :
    ∃ l : List (PendingDelta κ G.Distance),
      ((scan m s).1.map index).Sublist (l.map index) ∧ l.Perm (requests s) := by
  have inFront (n left : Nat) : ∃ l : List (PendingDelta κ G.Distance), ((inspectFront m s ((requests s).take n)
      left).1.map index).Sublist
      (l.map index) ∧ l.Perm (requests s) :=
    ⟨requests s,(inspectFront_index _ left).trans ((take_sublist _ _).map _),.rfl⟩
  unfold scan
  dsimp only
  split
  · exact inFront _ _
  · next lastFront _ =>
    split_ifs with done
    · exact inFront _ _
    · dsimp only
      rw [not_eq_true,or_eq_false_iff,not_eq_false',List.isEmpty_iff] at done
      generalize 8 * m.limits.maximumDemandDeltasPerTick = limit at done ⊢
      generalize s.pendingScanAfter.getD lastFront = after
      have split : (requests s).takeWhile (fun d => decide (d ≤ after)) ++
          (requests s).dropWhile (fun d => decide (d ≤ after)) = requests s := takeWhile_append_dropWhile
      have among : ∀ d ∈ (requests s).dropWhile (fun d => decide (d ≤ after)), d ∈ requests s :=
        fun d member => (dropWhile_sublist _).subset member
      by_cases short : (requests s).length ≤ limit
      · rw [take_of_length_le short] at done
        obtain ⟨unrequired,spent⟩ := inspectFront_eq_nil done.1
        rcases spent with stale | spent
        · exact ⟨requests s,by rw [inspectOn_of_stale stale limit among]; exact nil_sublist _,.rfl⟩
        · obtain ⟨l,_,perm,whole⟩ := rounds_perm split le_rfl
          refine ⟨l,?_,perm⟩
          rw [← whole rfl]
          refine inspectOn_index short among _ _ (.inr ⟨unrequired,?_⟩)
          rw [whole rfl,(perm.map (visitsOf s)).sum_nat]
          omega
      · obtain ⟨l,sub,perm,_⟩ := rounds_perm split (n := limit) (by omega)
        exact ⟨l,(inspectOn_index le_rfl among _ _ (.inl rfl)).trans (sub.map _),perm⟩

theorem Sound.nodup_pending (sound : Sound m s) : (s.pending.keys.map index).Nodup := by
  refine .map_on ?_ (nodup_keys s.pending)
  intro a here b there same
  have first := (sound.mirrored a).mp (contains_iff_mem_keys.mpr here)
  have second := (sound.mirrored b).mp (contains_iff_mem_keys.mpr there)
  rw [same,second] at first
  exact (Option.some.inj first).symm

theorem requests_append_releases (s : ResidencyDemandPolicy κ G Cursor) : requests s ++ releases s = s.pending.keys :=
  takeWhile_append_dropWhile

def Ready (s : ResidencyDemandPolicy κ G Cursor) (d : PendingDelta κ G.Distance) : Prop :=
  ∃ r, s.demands.find? d.index = some r ∧ Fits d r

theorem Tidy.ready_of_mem (tidy : Tidy m s) (member : d ∈ s.pending.keys) : Ready s d :=
  (tidy.2 d.index).waiting d ((tidy.1.mirrored d).mp (contains_iff_mem_keys.mpr member))

theorem Tidy.ready_of_scan (tidy : Tidy m s) (member : x ∈ (scan m s).1) : Ready s x := by
  obtain ⟨l,found,perm⟩ := scan_found m s
  obtain ⟨d,among,same⟩ := mem_map.mp (found.subset (mem_map_of_mem member))
  have request := perm.subset among
  have pending : d ∈ s.pending.keys := by
    rw [← requests_append_releases]
    exact mem_append_left _ request
  obtain ⟨r,here,fits⟩ := tidy.ready_of_mem pending
  have plain : d.release = false := by simpa using mem_takeWhile_imp request
  refine ⟨r,by rw [← same]; exact here,?_⟩
  rwa [Fits,scan_release x member,← plain]

theorem Tidy.nodup_chosen (tidy : Tidy m s) (n : Nat) :
    (((scan m s).1 ++ (releases s).take n).map index).Nodup := by
  obtain ⟨l,found,perm⟩ := scan_found m s
  have all := tidy.1.nodup_pending
  rw [← requests_append_releases,map_append] at all
  rw [map_append]
  have each := ((perm.map index).append_right ((releases s).map index)).nodup_iff.mpr all
  exact each.sublist (found.append ((take_sublist _ _).map _))

def follow (calls : List Call) (unit : Nat) : Option Bool :=
  calls.foldl (fun held call =>
    if call.unit = unit then if held = some call.release then some (!call.release) else none else held) (some false)

theorem follow_append_one (calls : List Call) (call : Call) (unit : Nat) :
    follow (calls ++ [call]) unit = if call.unit = unit then
      if follow calls unit = some call.release then some (!call.release) else none else follow calls unit := by
  unfold follow
  rw [foldl_append]
  rfl

variable {t : ResidencyDemandPolicy κ G Cursor}

theorem Sound.congr (sound : Sound m s) (demands : t.demands = s.demands) (owned : t.ownedRequests = s.ownedRequests)
    (desired : t.desiredUnits = s.desiredUnits) (pending : t.pending = s.pending)
    (byIndex : t.pendingByIndex = s.pendingByIndex) (expiries : t.expiries = s.expiries)
    (last : s.lastTick ≤ t.lastTick) : Sound m t := by
  refine ⟨?_,?_,?_,?_,?_,?_,?_⟩
  · rw [owned,demands]
    exact sound.owned
  · rw [desired,demands]
    exact sound.desired
  · rw [demands]
    exact sound.ranked
  · rw [pending,byIndex]
    exact sound.mirrored
  · rw [byIndex]
    exact sound.indexed
  · rw [expiries,demands]
    exact sound.expiring
  · rw [expiries,demands]
    intro unit r tick found graced
    exact (sound.grace unit r tick found graced).imp_right fun due => due.trans last

theorem Tidy.congr (tidy : Tidy m s) (demands : t.demands = s.demands) (owned : t.ownedRequests = s.ownedRequests)
    (desired : t.desiredUnits = s.desiredUnits) (pending : t.pending = s.pending)
    (byIndex : t.pendingByIndex = s.pendingByIndex) (expiries : t.expiries = s.expiries)
    (last : s.lastTick ≤ t.lastTick) : Tidy m t :=
  ⟨tidy.1.congr demands owned desired pending byIndex expiries last,
    fun unit => (tidy.2 unit).congr (by rw [demands]) (by rw [byIndex]) fun tick => by rw [expiries]⟩

theorem removePending_sound (sound : Sound m s) (unit : Nat) : Sound m (removePending s unit) := by
  refine { sound with mirrored := fun d => ?_, indexed := ?_ }
  · rw [contains_removePending sound,sound.mirrored d]
    unfold removePending
    rw [find?_erase]
    by_cases same : d.index = unit <;> simp [same]
  · intro other d here
    unfold removePending at here
    rw [find?_erase] at here
    split_ifs at here
    exact sound.indexed other d here

def called (s : ResidencyDemandPolicy κ G Cursor) (d : PendingDelta κ G.Distance) (r : DemandRecord κ G.Distance) :
    ResidencyDemandPolicy κ G Cursor :=
  removePending { setRecord s d.index { r with requested := !d.release } with
    ownedRequests := if d.release then s.ownedRequests - 1 else s.ownedRequests + 1 } d.index

theorem accept_eq (d : PendingDelta κ G.Distance) (r : DemandRecord κ G.Distance) :
    accept m s d r = if d.release then refresh m (called s d r) d.index s.lastTick else called s d r := rfl

section
variable {r : DemandRecord κ G.Distance}

theorem called_sound (sound : Sound m s) (found : s.demands.find? d.index = some r) (fits : Fits d r) :
    Sound m (called s d r) := by
  refine removePending_sound ?_ d.index
  refine ⟨?_,?_,?_,sound.mirrored,sound.indexed,?_,?_⟩
  · have moved := total_insert (fun r : DemandRecord κ G.Distance => r.requested.toNat) found
      { r with requested := !d.release }
    unfold setRecord
    rw [fits.1] at moved
    rw [sound.owned]
    generalize d.release = release at moved ⊢
    cases release <;> simp at moved ⊢ <;> omega
  · have moved := total_insert (fun r : DemandRecord κ G.Distance => r.desiredObserved.toNat) found
      { r with requested := !d.release }
    unfold setRecord
    dsimp only at moved ⊢
    rw [sound.desired]
    omega
  · intro other r' here
    rw [find?_setRecord] at here
    split_ifs at here
    · rw [← Option.some.inj here]
      exact sound.ranked d.index r found
    · exact sound.ranked other r' here
  · intro due other known
    obtain ⟨r',here,graced⟩ := sound.expiring due other known
    rw [find?_setRecord]
    split_ifs with same
    · rw [same,found] at here
      exact ⟨_,rfl,by rw [← graced,← Option.some.inj here]⟩
    · exact ⟨r',here,graced⟩
  · intro other r' due here graced
    rw [find?_setRecord] at here
    split_ifs at here with same
    · rw [← Option.some.inj here] at graced
      rw [same]
      exact sound.grace d.index r due found graced
    · exact sound.grace other r' due here graced

theorem find?_called (s : ResidencyDemandPolicy κ G Cursor) (d : PendingDelta κ G.Distance)
    (r : DemandRecord κ G.Distance)
    (other : Nat) : (called s d r).demands.find? other =
      if other = d.index then some { r with requested := !d.release } else s.demands.find? other :=
  find?_setRecord s d.index _ other

theorem called_elsewhere {other : Nat} (tidy : UnitTidy s other) (apart : other ≠ d.index) :
    UnitTidy (called s d r) other := by
  refine tidy.congr ?_ ?_ fun _ => rfl
  · rw [find?_called,if_neg apart]
  · change (s.pendingByIndex.erase d.index).find? other = _
    rw [find?_erase,if_neg apart]

theorem accept_tidy (tidy : Tidy m s) (found : s.demands.find? d.index = some r) (fits : Fits d r) :
    Tidy m (accept m s d r) := by
  have sound := called_sound tidy.1 found fits
  have here : (called s d r).demands.find? d.index = some { r with requested := !d.release } := by
    rw [find?_called,if_pos rfl]
  rw [accept_eq]
  split_ifs with release
  · refine ⟨refresh_sound sound _ _,fun other => ?_⟩
    by_cases same : other = d.index
    · subst same
      refine refresh_tidy sound rfl fun absent => ?_
      rw [here] at absent
      cases absent
    · exact refresh_elsewhere (called_elsewhere (tidy.2 other) same) same
  · rw [not_eq_true] at release
    refine ⟨sound,fun other => ?_⟩
    by_cases same : other = d.index
    · subst same
      have wanted : r.isDesired := by rw [fits.2,release]; rfl
      have before := tidy.2 d.index
      refine ⟨?_,?_,?_,?_⟩
      · intro r' known
        cases here.symm.trans known
        exact before.observed r found
      · intro r' known _
        cases here.symm.trans known
        exact before.wanted r found wanted
      · intro r' known _ undesired
        cases here.symm.trans known
        exact absurd wanted (eq_false_iff.mp undesired)
      · intro e known
        change (s.pendingByIndex.erase d.index).find? d.index = some e at known
        rw [find?_erase,if_pos rfl] at known
        cases known
    · exact called_elsewhere (tidy.2 other) same

theorem find?_accept {other : Nat} (apart : other ≠ d.index) :
    (accept m s d r).demands.find? other = s.demands.find? other := by
  rw [accept_eq]
  split_ifs
  · rw [find?_demands_refresh,if_neg apart,find?_called,if_neg apart]
  · rw [find?_called,if_neg apart]

theorem isRequested_accept (other : Nat) :
    isRequested (accept m s d r) other = if other = d.index then !d.release else isRequested s other := by
  have known : isRequested (called s d r) other = if other = d.index then !d.release else isRequested s other := by
    unfold isRequested
    rw [find?_called]
    split_ifs <;> rfl
  rw [accept_eq]
  split_ifs <;> simp_all [isRequested_refresh]

theorem focusAt_accept (found : s.demands.find? d.index = some r) (other : Nat) (id : ResidencyFocusId) :
    focusAt (accept m s d r) other id = focusAt s other id := by
  have known : focusAt (called s d r) other id = focusAt s other id := by
    unfold focusAt
    rw [find?_called]
    split_ifs with same
    · rw [same,found]
      rfl
    · rfl
  rw [accept_eq]
  split_ifs
  · rw [focusAt_refresh,known]
  · exact known

theorem accept_keeps (m : Setting κ G Cursor) (s : ResidencyDemandPolicy κ G Cursor) (d : PendingDelta κ G.Distance)
    (r : DemandRecord κ G.Distance) : (accept m s d r).focuses = s.focuses ∧ (accept m s d r).lastTick = s.lastTick ∧
      (accept m s d r).stopped = s.stopped := by
  rw [accept_eq]
  split_ifs
  · obtain ⟨focuses,last,_,stopped⟩ := refresh_keeps m (called s d r) d.index s.lastTick
    exact ⟨focuses,last,stopped⟩
  · exact ⟨rfl,rfl,rfl⟩

end

/-- What applying keeps: the books, what foci contribute, and a log that says what is requested. -/
structure Applied (m : Setting κ G Cursor) (calls : List Call) (s : ResidencyDemandPolicy κ G Cursor)
    (t : ResidencyDemandPolicy κ G Cursor × List Call) : Prop where
  tidy : Tidy m t.1
  focuses : t.1.focuses = s.focuses
  last : t.1.lastTick = s.lastTick
  stopped : t.1.stopped = s.stopped
  focusAt : ∀ unit id, t.1.focusAt unit id = s.focusAt unit id
  log : ∀ unit, follow (calls ++ t.2) unit = some (isRequested t.1 unit)

theorem nextDelta_perm {nextRelease : Bool} {requests releases requests' releases' : List (PendingDelta κ G.Distance)}
    {release : Bool} (next : nextDelta nextRelease requests releases = some (d,release,requests',releases')) :
    (requests ++ releases).Perm (d :: (requests' ++ releases')) := by
  unfold nextDelta at next
  split at next
  · cases next
  · cases next
    exact .rfl
  · cases next
    exact .rfl
  · split_ifs at next
    · cases next
      exact perm_middle
    · cases next
      exact .rfl

theorem settle_applied (answers : List Bool) (before : List Call) (n left : Nat)
    (requests releases : List (PendingDelta κ G.Distance)) (s : ResidencyDemandPolicy κ G Cursor) (calls : List Call)
    (tidy : Tidy m s) (ready : ∀ d ∈ requests ++ releases, Ready s d)
    (apart : ((requests ++ releases).map index).Nodup)
    (log : ∀ unit, follow (before ++ calls) unit = some (isRequested s unit)) :
    Applied m before s (settle m answers n left requests releases s calls) := by
  induction n generalizing left requests releases s calls with
  | zero => exact ⟨tidy,rfl,rfl,rfl,fun _ _ => rfl,log⟩
  | succ n ih =>
    have still : Applied m before s (s,calls) := ⟨tidy,rfl,rfl,rfl,fun _ _ => rfl,log⟩
    unfold settle
    by_cases spent : left = 0
    · rwa [if_pos spent]
    · rw [if_neg spent]
      cases next : nextDelta s.nextRelease requests releases with
      | none => exact still
      | some chosen =>
        obtain ⟨d,release,requests',releases'⟩ := chosen
        have perm := nextDelta_perm next
        obtain ⟨r,found,fits⟩ := ready d (perm.symm.subset (.head _))
        dsimp only
        rw [found]
        have turned : Tidy m { s with nextRelease := !release } := tidy.congr rfl rfl rfl rfl rfl rfl le_rfl
        split_ifs with accepted
        · obtain ⟨own,others⟩ := nodup_cons.mp ((perm.map index).nodup_iff.mp apart)
          obtain ⟨focuses,last,stopped⟩ := accept_keeps m { s with nextRelease := !release } d r
          have after := ih (left - 1) requests' releases' (accept m { s with nextRelease := !release } d r)
            (calls ++ [⟨d.release,d.index⟩]) (accept_tidy turned found fits) ?_ others ?_
          · exact ⟨after.tidy,after.focuses.trans focuses,after.last.trans last,after.stopped.trans stopped,
              fun unit id => (after.focusAt unit id).trans (focusAt_accept (s := { s with nextRelease := !release })
                  found unit id),after.log⟩
          · intro e member
            obtain ⟨r',found',fits'⟩ := ready e (perm.symm.subset (.tail _ member))
            have other : e.index ≠ d.index := fun same => own (by rw [← same]; exact mem_map_of_mem member)
            exact ⟨r',(find?_accept other).trans found',fits'⟩
          · intro unit
            rw [← append_assoc,follow_append_one,isRequested_accept]
            by_cases same : d.index = unit
            · have held : isRequested s unit = d.release := by
                rw [isRequested,← same,found,any_some,fits.1]
              rw [if_pos same,if_pos same.symm,log,held,if_pos rfl]
            · rw [if_neg same,if_neg (Ne.symm same),log]
              rfl
        · exact ⟨turned,rfl,rfl,rfl,fun _ _ => rfl,log⟩

theorem bind_keeps {service : Availability κ G} (bound : bind m s service = some t) :
    ∃ availability manifest, t = { s with boundAvailability := availability, boundManifest := manifest } := by
  unfold bind at bound
  cases here : service.manifest with
  | none =>
    rw [here] at bound
    split_ifs at bound
  | some current =>
    rw [here] at bound
    dsimp only at bound
    split_ifs at bound
    · exact ⟨_,_,(Option.some.inj bound).symm⟩
    · exact ⟨_,_,(Option.some.inj bound).symm⟩

theorem applyPending_applied (tidy : Tidy m s) (service : Option (Availability κ G)) (before : List Call)
    (log : ∀ unit, follow before unit = some (isRequested s unit)) : Applied m before s (applyPending m s service) := by
  have still : Applied m before s (s,[]) :=
    ⟨tidy,rfl,rfl,rfl,fun _ _ => rfl,fun unit => by rw [append_nil]; exact log unit⟩
  unfold applyPending
  cases service with
  | none => exact still
  | some service =>
    dsimp only
    cases bound : bind m s service with
    | none => exact still
    | some t =>
      obtain ⟨availability,manifest,same⟩ := bind_keeps bound
      have kept : Tidy m t := by
        rw [same]
        exact tidy.congr rfl rfl rfl rfl rfl rfl le_rfl
      obtain ⟨after,scanned⟩ := scan_keeps m t
      have sortedPerm (deltas : List (PendingDelta κ G.Distance)) : (sorted deltas).Perm deltas :=
          perm_insertionSort _ _
      have pending : (scan m t).2.pending = t.pending := by rw [scanned]
      have chosen : releases (scan m t).2 = releases t := by
        unfold releases
        rw [pending]
      have perm := (sortedPerm (scan m t).1).append
        (sortedPerm ((releases (scan m t).2).take (8 * m.limits.maximumDemandDeltasPerTick)))
      have applied := settle_applied (m := m) service.answers before
        ((sorted (scan m t).1).length +
            (sorted ((releases (scan m t).2).take (8 * m.limits.maximumDemandDeltasPerTick))).length)
        m.limits.maximumDemandDeltasPerTick _ _ (scan m t).2 [] ?_ ?_ ((perm.map index).nodup_iff.mpr ?_)
            ?_
      · have fields : (scan m t).2.focuses = s.focuses ∧ (scan m t).2.lastTick = s.lastTick ∧
            (scan m t).2.stopped = s.stopped ∧ ∀ unit id, focusAt (scan m t).2 unit id = focusAt s unit id := by
          rw [scanned,same]
          exact ⟨rfl,rfl,rfl,fun _ _ => rfl⟩
        exact ⟨applied.tidy,applied.focuses.trans fields.1,applied.last.trans fields.2.1,
          applied.stopped.trans fields.2.2.1,fun unit id => (applied.focusAt unit id).trans (fields.2.2.2 unit id),
          applied.log⟩
      · rw [scanned]
        exact kept.congr rfl rfl rfl rfl rfl rfl le_rfl
      · intro d member
        have among := perm.subset member
        have ready : Ready t d := by
          rcases mem_append.mp among with request | release
          · exact kept.ready_of_scan request
          · rw [chosen] at release
            refine kept.ready_of_mem ?_
            rw [← requests_append_releases]
            exact mem_append_right _ ((take_sublist _ _).subset release)
        obtain ⟨r,found,fits⟩ := ready
        exact ⟨r,by rw [scanned]; exact found,fits⟩
      · rw [chosen]
        exact kept.nodup_chosen _
      · intro unit
        rw [append_nil,log unit,scanned,same]
        rfl

end Gargantuan.ResidencyDemandPolicy
