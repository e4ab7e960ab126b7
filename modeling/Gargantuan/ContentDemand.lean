import Gargantuan.ContentResidency
import Mathlib.Algebra.Order.BigOperators.Group.List

/-!
Demand for content. A unit's dependency demand is the number of desired units that depend on
it: while a change is carried through the graph, the dependencies that are still on the stack
make up the difference (`adjust_add`, `adjust_remove`). So a unit is desired just when it, or
one that depends on it through others, is requested or pinned (`demand_run`).
-/
namespace Gargantuan.ContentAvailabilityService
open List SortedMap Record
variable {κ : Type} [LinearOrder κ]

/-! ### Tallies -/

def tally (m : PackageContentManifest κ) (f : κ → Record → Nat) (records : SortedMap κ Record) : Nat :=
  (m.entries.keys.map fun k => f k (recordOf records k)).sum

variable {α : Type}

theorem sum_map_eq_of_ne {f g : α → Nat} {a : α} (l : List α) (absent : a ∉ l)
    (same : ∀ b, b ≠ a → g b = f b) : (l.map g).sum = (l.map f).sum := by
  refine congrArg List.sum (map_congr_left fun b member => same b ?_)
  rintro rfl
  exact absent member

theorem sum_map_exchange {f g : α → Nat} {a : α} (l : List α) (nodup : l.Nodup) (member : a ∈ l)
    (same : ∀ b, b ≠ a → g b = f b) : (l.map g).sum + f a = (l.map f).sum + g a := by
  induction l with
  | nil => cases member
  | cons b rest ih =>
    rw [nodup_cons] at nodup
    rw [map_cons,map_cons,sum_cons,sum_cons]
    rcases mem_cons.mp member with here | later
    · subst here
      rw [sum_map_eq_of_ne rest nodup.1 same]
      omega
    · have other : b ≠ a := by
        rintro rfl
        exact nodup.1 later
      have onward := ih nodup.2 later
      rw [same b other]
      omega

variable {m : PackageContentManifest κ}

theorem dependencies_of_unknown {k : κ} (unknown : k ∉ m.entries.keys) : dependencies m k = [] := by
  unfold dependencies
  cases found : m.entries.find? k with
  | none => rfl
  | some e => exact absurd (mem_keys.mpr ⟨e,found⟩) unknown

theorem tally_insert {f : κ → Record → Nat}
    (free : ∀ k r, dependencies m k = [] → f k r = 0) (records : SortedMap κ Record) (k : κ) (r : Record) :
    tally m f (records.insert k r) + f k (recordOf records k) = tally m f records + f k r := by
  have here : recordOf (records.insert k r) k = r := by rw [recordOf_insert,if_pos rfl]
  have same (k' : κ) (other : k' ≠ k) :
      f k' (recordOf (records.insert k r) k') = f k' (recordOf records k') := by
    rw [recordOf_insert,if_neg other]
  unfold tally
  by_cases known : k ∈ m.entries.keys
  · have exchanged := sum_map_exchange m.entries.keys (nodup_keys _) known same
    rwa [here] at exchanged
  · have none := dependencies_of_unknown known
    rw [sum_map_eq_of_ne m.entries.keys known same,free k _ none,free k _ none]

/-- The desired units that depend on a unit. -/
def wanting (m : PackageContentManifest κ) (d : κ) (records : SortedMap κ Record) : Nat :=
  tally m (fun k r => if r.desire ≠ 0 ∧ d ∈ dependencies m k then 1 else 0) records

def idleEdges (m : PackageContentManifest κ) (records : SortedMap κ Record) : Nat :=
  tally m (fun k r => if r.desire = 0 then (dependencies m k).length else 0) records

def busyEdges (m : PackageContentManifest κ) (records : SortedMap κ Record) : Nat :=
  tally m (fun k r => if r.desire = 0 then 0 else (dependencies m k).length) records

section
variable {m : PackageContentManifest κ} {records : SortedMap κ Record} {k d : κ} {r : Record}

section
variable (m : PackageContentManifest κ)

theorem wanting_insert (d : κ) (records : SortedMap κ Record) (k : κ) (r : Record) :
    wanting m d (records.insert k r) + (if (recordOf records k).desire ≠ 0 ∧ d ∈ dependencies m k then 1 else 0) =
      wanting m d records + if r.desire ≠ 0 ∧ d ∈ dependencies m k then 1 else 0 :=
  tally_insert
    (fun k r none => by simp [none]) records k r

theorem idleEdges_insert (records : SortedMap κ Record) (k : κ) (r : Record) :
    idleEdges m (records.insert k r) + (if (recordOf records k).desire = 0 then (dependencies m k).length else 0) =
      idleEdges m records + if r.desire = 0 then (dependencies m k).length else 0 :=
  tally_insert
    (fun k r none => by simp [none]) records k r

theorem busyEdges_insert (records : SortedMap κ Record) (k : κ) (r : Record) :
    busyEdges m (records.insert k r) + (if (recordOf records k).desire = 0 then 0 else (dependencies m k).length) =
      busyEdges m records + if r.desire = 0 then 0 else (dependencies m k).length :=
  tally_insert
    (fun k r none => by simp [none]) records k r

theorem wanting_lt (d : κ) (records : SortedMap κ Record) : wanting m d records < maximumDemand := by
  have bound (l : List κ) (f : κ → Nat) (small : ∀ k, f k ≤ 1) : (l.map f).sum ≤ l.length := by
    induction l with
    | nil => exact le_rfl
    | cons k rest ih =>
      rw [map_cons,sum_cons,length_cons]
      have one := small k
      omega
  have least : wanting m d records ≤ m.entries.keys.length := bound _ _ fun k => by dsimp only; split_ifs <;> omega
  have units := m.units
  rw [length_keys] at least
  unfold maximumPackageContentUnits at units
  unfold maximumDemand
  omega

theorem idleEdges_add_busyEdges (records : SortedMap κ Record) :
    idleEdges m records + busyEdges m records = edges m := by
  have length (e : κ × PackageContentEntry κ) (member : e ∈ m.entries.entries) :
      (dependencies m e.1).length = e.2.dependencies.length := by
    unfold dependencies
    rw [find?_eq_some.mpr member]
    rfl
  unfold idleEdges busyEdges tally edges total SortedMap.keys
  rw [← map_congr_left length]
  generalize m.entries.entries = l
  induction l with
  | nil => rfl
  | cons e rest ih =>
    simp only [map_cons,sum_cons] at ih ⊢
    split_ifs <;> omega

theorem nodup_dependencies (k : κ) : (dependencies m k).Nodup := by
  unfold dependencies
  cases found : m.entries.find? k with
  | none => exact nodup_nil
  | some e => exact (m.ascending k e found).imp ne_of_lt

theorem count_dependencies (k d : κ) : (dependencies m k).reverse.count d = if d ∈ dependencies m k then 1 else 0 := by
  rw [count_reverse]
  split_ifs with member
  · exact count_eq_one_of_mem (nodup_dependencies m k) member
  · exact count_eq_zero_of_not_mem member

end

def Demanded (m : PackageContentManifest κ) (records : SortedMap κ Record) : Prop :=
  ∀ d, (recordOf records d).dependencyDemand = wanting m d records

theorem adjust_add {fuel : Nat} {stack : List κ} (enough : stack.length + idleEdges m records ≤ fuel)
    (owed : ∀ d, (recordOf records d).dependencyDemand + stack.count d = wanting m d records) :
    Demanded m (adjust m true fuel stack records) := by
  induction fuel generalizing stack records with
  | zero =>
    have none : stack = [] := eq_nil_of_length_eq_zero (by omega)
    subst none
    exact owed
  | succ fuel ih =>
    cases stack with
    | nil => exact owed
    | cons d rest =>
      have below := wanting_lt m d records
      have due := owed d
      rw [count_cons_self] at due
      rw [length_cons] at enough
      rw [adjust]
      rw [if_pos rfl,if_neg (by omega)]
      have wants : { recordOf records d with
          dependencyDemand := (recordOf records d).dependencyDemand + 1 }.desire ≠ 0 := by
        change (recordOf records d).directDemand + ((recordOf records d).dependencyDemand + 1) + _ ≠ 0
        omega
      have one : { recordOf records d with
          dependencyDemand := (recordOf records d).dependencyDemand + 1 }.dependencyDemand =
        (recordOf records d).dependencyDemand + 1 := rfl
      generalize { recordOf records d with
        dependencyDemand := (recordOf records d).dependencyDemand + 1 } = more at wants one ⊢
      have edges' := idleEdges_insert m records d more
      rw [if_neg wants] at edges'
      -- one more for this unit, which leaves the stack
      have paid (d' : κ) : (recordOf (records.insert d more) d').dependencyDemand + rest.count d' =
          wanting m d' records := by
        rw [recordOf_insert]
        split_ifs with here
        · rw [here]
          omega
        · have other := owed d'
          rwa [count_cons_of_ne (.symm here)] at other
      split_ifs with before
      · rw [if_neg before] at edges'
        refine ih (by omega) ?_
        intro d'
        rw [paid d']
        have moved := wanting_insert m d' records d more
        simp only [before,wants,ne_eq,not_false_eq_true,true_and] at moved
        omega
      · rw [not_not] at before
        rw [if_pos before] at edges'
        refine ih ?_ ?_
        · rw [length_append,length_reverse]
          omega
        · intro d'
          have moved := wanting_insert m d' records d more
          simp only [before,wants,ne_eq,not_true_eq_false,not_false_eq_true,true_and,false_and,if_false] at moved
          have count := count_dependencies m d d'
          rw [count_append]
          have sum := paid d'
          omega

theorem adjust_remove {fuel : Nat} {stack : List κ} (enough : stack.length + busyEdges m records ≤ fuel)
    (owed : ∀ d, (recordOf records d).dependencyDemand = wanting m d records + stack.count d) :
    Demanded m (adjust m false fuel stack records) := by
  induction fuel generalizing stack records with
  | zero =>
    have none : stack = [] := eq_nil_of_length_eq_zero (by omega)
    subst none
    exact owed
  | succ fuel ih =>
    cases stack with
    | nil => exact owed
    | cons d rest =>
      have due := owed d
      rw [count_cons_self] at due
      rw [length_cons] at enough
      rw [adjust]
      dsimp only
      rw [if_neg Bool.false_ne_true,if_neg (by omega)]
      have one : { recordOf records d with
          dependencyDemand := (recordOf records d).dependencyDemand - 1 }.dependencyDemand =
        (recordOf records d).dependencyDemand - 1 := rfl
      generalize { recordOf records d with
        dependencyDemand := (recordOf records d).dependencyDemand - 1 } = less at one ⊢
      have wanted : (recordOf records d).desire ≠ 0 := by
        change (recordOf records d).directDemand + (recordOf records d).dependencyDemand + _ ≠ 0
        omega
      have edges' := busyEdges_insert m records d less
      rw [if_neg wanted] at edges'
      have paid (d' : κ) : (recordOf (records.insert d less) d').dependencyDemand =
          wanting m d' records + rest.count d' := by
        rw [recordOf_insert]
        split_ifs with here
        · rw [here]
          omega
        · have other := owed d'
          rwa [count_cons_of_ne (.symm here)] at other
      split_ifs with after
      · rw [if_neg after] at edges'
        refine ih (by omega) ?_
        intro d'
        rw [paid d']
        have moved := wanting_insert m d' records d less
        simp only [after,wanted,ne_eq,not_false_eq_true,true_and] at moved
        omega
      · rw [not_not] at after
        rw [if_pos after] at edges'
        refine ih ?_ ?_
        · rw [length_append,length_reverse]
          omega
        · intro d'
          have moved := wanting_insert m d' records d less
          simp only [after,wanted,ne_eq,not_true_eq_false,not_false_eq_true,true_and,false_and,if_false] at moved
          have count := count_dependencies m d d'
          rw [count_append]
          have sum := paid d'
          omega

section
variable (demanded : Demanded m records)
include demanded

variable (same : r.dependencyDemand = (recordOf records k).dependencyDemand)
include same

theorem Demanded.insert (still : r.desire = 0 ↔ (recordOf records k).desire = 0) : Demanded m (records.insert k r) := by
  intro d
  have moved := wanting_insert m d records k r
  simp only [ne_eq,still] at moved
  have before := demanded d
  rw [recordOf_insert]
  split_ifs with here
  · subst here
    omega
  · omega

theorem Demanded.raise (before : (recordOf records k).desire = 0)
    (after : r.desire ≠ 0) : Demanded m (adjustDependencies m (records.insert k r) k true) := by
  refine adjust_add ?_ ?_
  · have all := idleEdges_add_busyEdges m records
    have moved := idleEdges_insert m records k r
    rw [if_pos before,if_neg after] at moved
    rw [length_reverse]
    omega
  · intro d
    have moved := wanting_insert m d records k r
    simp only [before,after,ne_eq,not_true_eq_false,not_false_eq_true,true_and,false_and,if_false] at moved
    have count := count_dependencies m k d
    have due := demanded d
    rw [recordOf_insert]
    split_ifs with here
    · subst here
      omega
    · omega

theorem Demanded.lower (before : (recordOf records k).desire ≠ 0)
    (after : r.desire = 0) : Demanded m (adjustDependencies m (records.insert k r) k false) := by
  refine adjust_remove ?_ ?_
  · have all := idleEdges_add_busyEdges m records
    have moved := busyEdges_insert m records k r
    rw [if_neg before,if_pos after] at moved
    rw [length_reverse]
    omega
  · intro d
    have moved := wanting_insert m d records k r
    simp only [before,after,ne_eq,not_true_eq_false,not_false_eq_true,true_and,false_and,if_false] at moved
    have count := count_dependencies m k d
    have due := demanded d
    rw [recordOf_insert]
    split_ifs with here
    · subst here
      omega
    · omega

end

theorem desire_eq_zero : r.desire = 0 ↔ r.directDemand = 0 ∧ r.dependencyDemand = 0 ∧ r.pins = 0 := by
  unfold desire
  omega

section
variable (demanded : Demanded m records)
include demanded

theorem request_demanded : Demanded m (request m records k).2 := by
  have wants : { recordOf records k with directDemand := (recordOf records k).directDemand + 1 }.desire ≠ 0 := by
    rw [ne_eq,desire_eq_zero]
    exact fun all => absurd all.1 (Nat.succ_ne_zero _)
  unfold request
  dsimp only
  split_ifs with most direct before
  · exact demanded
  · refine demanded.insert rfl ?_
    exact ⟨fun none => absurd none wants,fun none => absurd (desire_eq_zero.mp none).1 direct⟩
  · exact demanded.raise rfl before wants
  · exact demanded.insert rfl ⟨fun none => absurd none wants,fun none => absurd none before⟩

theorem release_demanded : Demanded m (release m records k).2 := by
  unfold release
  dsimp only
  split_ifs with none after
  · exact demanded
  · refine demanded.lower rfl ?_ after
    rw [ne_eq,desire_eq_zero]
    exact fun all => none all.1
  · refine demanded.insert rfl ⟨fun gone => absurd gone after,fun gone => ?_⟩
    exact absurd (desire_eq_zero.mp gone).1 none

theorem pin_demanded : Demanded m (pin m records k).2 := by
  have wants : { recordOf records k with pins := (recordOf records k).pins + 1 }.desire ≠ 0 := by
    rw [ne_eq,desire_eq_zero]
    exact fun all => absurd all.2.2 (Nat.succ_ne_zero _)
  unfold pin
  dsimp only
  split_ifs with most before
  · exact demanded
  · exact demanded.raise rfl before wants
  · exact demanded.insert rfl ⟨fun none => absurd none wants,fun none => absurd none before⟩

theorem unpin_demanded : Demanded m (unpin m records k).2 := by
  unfold unpin
  dsimp only
  split_ifs with none after
  · exact demanded
  · refine demanded.lower rfl ?_ after
    rw [ne_eq,desire_eq_zero]
    exact fun all => none all.2.2
  · refine demanded.insert rfl ⟨fun gone => absurd gone after,fun gone => ?_⟩
    exact absurd (desire_eq_zero.mp gone).2.2 none

end

theorem demanded_blank (m : PackageContentManifest κ) : Demanded m (m.entries.mapValues fun _ _ => ({} : Record)) := by
  intro d
  have none : wanting m d (m.entries.mapValues fun _ _ => ({} : Record)) = 0 := by
    refine sum_eq_zero fun n member => ?_
    obtain ⟨k,_,rfl⟩ := mem_map.mp member
    rw [recordOf_blank]
    exact if_neg fun wants => wants.1 rfl
  rw [none,recordOf_blank]

theorem acceptManifest_demanded (mode : ContentResidencyMode) (s : ContentAvailabilityService κ)
    (m : PackageContentManifest κ) : Demanded m (acceptManifest mode s m).records := by
  have start := demanded_blank m
  unfold acceptManifest
  generalize (m.entries.entries.filter fun e => decide (mode = .fullyResident) || e.2.requiredAtBootstrap) = wanted
  generalize (m.entries.mapValues fun _ _ => ({} : Record)) = records at start ⊢
  induction wanted generalizing records with
  | nil => exact start
  | cons e rest ih => exact ih _ (request_demanded start)

theorem wanting_eq (m : PackageContentManifest κ) (d : κ) (records : SortedMap κ Record) :
    wanting m d records = (dependents m d).countP fun k => decide ((recordOf records k).desire ≠ 0) := by
  unfold wanting tally dependents
  rw [countP_filter]
  generalize m.entries.keys = l
  induction l with
  | nil => rfl
  | cons k rest ih =>
    rw [map_cons,sum_cons,countP_cons,Nat.add_comm]
    congr 1
    simp only [Bool.and_eq_true,decide_eq_true_eq]

theorem wanting_pos : wanting m d records ≠ 0 ↔ ∃ k, d ∈ dependencies m k ∧ (recordOf records k).desire ≠ 0 := by
  rw [wanting_eq,← Nat.pos_iff_ne_zero,countP_pos_iff]
  constructor
  · rintro ⟨k,member,wants⟩
    rw [dependents,mem_filter,decide_eq_true_eq] at member
    exact ⟨k,member.2,of_decide_eq_true wants⟩
  · rintro ⟨k,member,wants⟩
    refine ⟨k,?_,decide_eq_true wants⟩
    rw [dependents,mem_filter]
    refine ⟨?_,decide_eq_true member⟩
    by_contra unknown
    rw [dependencies_of_unknown unknown] at member
    cases member

/-- One unit depends on another directly. -/
def DependsOn (m : PackageContentManifest κ) (k d : κ) : Prop := d ∈ dependencies m k

theorem Demanded.desired_iff (demanded : Demanded m records) (d : κ) :
    (recordOf records d).desire ≠ 0 ↔ ∃ k, Relation.ReflTransGen (DependsOn m) k d ∧
      ((recordOf records k).directDemand ≠ 0 ∨ (recordOf records k).pins ≠ 0) := by
  constructor
  · obtain ⟨rank,lower⟩ := m.acyclic
    have ranked (k d : κ) (depends : d ∈ dependencies m k) : rank d < rank k := by
      unfold dependencies at depends
      cases found : m.entries.find? k with
      | none =>
        rw [found] at depends
        cases depends
      | some e =>
        rw [found] at depends
        exact lower k e found d depends
    have bounded (k : κ) (known : k ∈ m.entries.keys) : rank k ≤ (m.entries.keys.map rank).sum :=
      single_le_sum (fun _ _ => Nat.zero_le _) _ (mem_map.mpr ⟨k,known,rfl⟩)
    -- the ranks of the units that want a unit ascend, and they are bounded
    have climb : ∀ n d, (m.entries.keys.map rank).sum < rank d + n → (recordOf records d).desire ≠ 0 →
        ∃ k, Relation.ReflTransGen (DependsOn m) k d ∧
          ((recordOf records k).directDemand ≠ 0 ∨ (recordOf records k).pins ≠ 0) := by
      intro n
      induction n with
      | zero =>
        intro d high wants
        by_cases own : (recordOf records d).directDemand ≠ 0 ∨ (recordOf records d).pins ≠ 0
        · exact ⟨d,.refl,own⟩
        · have due := demanded d
          rw [ne_eq,desire_eq_zero] at wants
          obtain ⟨k,depends,_⟩ := wanting_pos.mp (show wanting m d records ≠ 0 by omega)
          have known : k ∈ m.entries.keys := by
            by_contra unknown
            rw [dependencies_of_unknown unknown] at depends
            cases depends
          have above := ranked k d depends
          have below := bounded k known
          omega
      | succ n ih =>
        intro d high wants
        by_cases own : (recordOf records d).directDemand ≠ 0 ∨ (recordOf records d).pins ≠ 0
        · exact ⟨d,.refl,own⟩
        · have due := demanded d
          rw [ne_eq,desire_eq_zero] at wants
          obtain ⟨k,depends,wants'⟩ := wanting_pos.mp (show wanting m d records ≠ 0 by omega)
          have above := ranked k d depends
          obtain ⟨k',chain,own'⟩ := ih k (by omega) wants'
          exact ⟨k',chain.tail depends,own'⟩
    exact climb ((m.entries.keys.map rank).sum + 1) d (by omega)
  · rintro ⟨k,chain,own⟩
    have first : (recordOf records k).desire ≠ 0 := by
      rw [ne_eq,desire_eq_zero]
      rintro ⟨direct,_,pins⟩
      rcases own with own | own
      · exact own direct
      · exact own pins
    induction chain with
    | refl => exact first
    | @tail k' d _ depends ih =>
      have due := demanded d
      have wants := wanting_pos.mpr ⟨k',depends,ih⟩
      rw [ne_eq,desire_eq_zero]
      rintro ⟨_,none,_⟩
      omega

def SameDemand (s t : ContentAvailabilityService κ) : Prop :=
  (∀ k, (t.record k).demands = (s.record k).demands) ∧ t.manifest = s.manifest

variable {s t : ContentAvailabilityService κ}

theorem SameDemand.refl : SameDemand s s := ⟨fun _ => rfl,rfl⟩

theorem SameDemand.trans {u : ContentAvailabilityService κ} (first : SameDemand s t) (second : SameDemand t u) :
    SameDemand s u :=
  ⟨fun k => (second.1 k).trans (first.1 k),second.2.trans first.2⟩

theorem Gentle.sameDemand (gentle : Gentle s t) : SameDemand s t :=
  ⟨gentle.demands,gentle.manifest⟩

theorem SameDemand.put (records : t.records = s.records.insert k r) (demands : r.demands = (s.record k).demands)
    (manifest : t.manifest = s.manifest) : SameDemand s t := by
  refine ⟨?_,manifest⟩
  intro k'
  rw [record,records,recordOf_insert]
  split_ifs with here
  · rwa [here]
  · rfl

theorem Demanded.congr {records' : SortedMap κ Record} (demanded : Demanded m records)
    (same : ∀ k, (recordOf records' k).demands = (recordOf records k).demands) : Demanded m records' := by
  have parts (k : κ) : (recordOf records' k).directDemand = (recordOf records k).directDemand ∧
      (recordOf records' k).dependencyDemand = (recordOf records k).dependencyDemand ∧
      (recordOf records' k).pins = (recordOf records k).pins := by
    have equal := same k
    simpa only [demands,Prod.mk.injEq] using equal
  have desire (k : κ) : (recordOf records' k).desire = (recordOf records k).desire := by
    obtain ⟨direct,dependency,pins⟩ := parts k
    rw [desire,direct,dependency,pins,desire]
  intro d
  have counted : wanting m d records' = wanting m d records := by
    unfold wanting tally
    simp only [desire]
  rw [(parts d).2.1,counted]
  exact demanded d

def Counted (s : ContentAvailabilityService κ) : Prop := ∀ m, s.manifest = some m → Demanded m s.records

theorem Counted.congr (counted : Counted s) (same : SameDemand s t) : Counted t := by
  intro m found
  rw [same.2] at found
  exact (counted m found).congr same.1

section
variable {s t : ContentAvailabilityService κ} {limits : ContentAvailabilityLimits}

theorem acceptPayload_sameDemand (k : κ) (prepared : PreparedContent κ) :
    SameDemand s (s.acceptPayload limits m k prepared) := by
  have space : Gentle s (s.makeCacheSpace limits prepared.encodedBytes k) := makeCacheSpace_gentle
  unfold acceptPayload
  dsimp only
  split_ifs
  · exact .put rfl rfl rfl
  · exact accept_gentle.sameDemand
  · refine space.sameDemand.trans ?_
    exact .put rfl rfl rfl
  · exact (space.trans accept_gentle).sameDemand

theorem drainContent_sameDemand (job : ContentJob κ) (result : Except ContentProviderError (PreparedContent κ)) :
    SameDemand s (s.drainContent limits job result) := by
  unfold drainContent
  split
  · exact .refl
  · next m found =>
    dsimp only
    split_ifs
    · exact .refl
    · exact .refl
    · exact .put rfl rfl rfl
    · have first : SameDemand s (s.put job.key { s.record job.key with requestCancelled := none }) :=
        SameDemand.put rfl rfl rfl
      refine first.trans ?_
      cases result with
      | error error => exact .put rfl rfl rfl
      | ok prepared => exact acceptPayload_sameDemand job.key prepared

variable (configuration : ContentAvailabilityConfiguration)

theorem drain_counted (c : Completion κ) (counted : Counted s) : Counted (s.drain configuration c) := by
  unfold drain
  dsimp only
  split_ifs
  · exact counted
  · split
    · exact counted
    · next m manifest =>
      intro m' found
      cases found
      exact acceptManifest_demanded configuration.mode _ m
    · next job result content =>
      have same : SameDemand s (s.discharge c) := ⟨fun _ => rfl,rfl⟩
      exact counted.congr (same.trans (drainContent_sameDemand job result))

theorem admitUnit_sameDemand (admission : κ → Admission) (p : Pass κ) (k : κ) :
    SameDemand p.service (admitUnit limits m admission p k).service := by
  unfold admitUnit
  dsimp only
  split_ifs
  · exact .refl
  · exact .refl
  · exact .refl
  · exact (prepareAgain_gentle k).sameDemand
  · cases admission k with
    | decodeRejected message => exact .put rfl rfl rfl
    | commitRejected message => exact .put rfl rfl rfl
    | committed => exact .put rfl rfl rfl

theorem sameDemand_foldl {σ : Type} (service : σ → ContentAvailabilityService κ) {turn : σ → α → σ}
    (each : ∀ p a, SameDemand (service p) (service (turn p a))) (l : List α) (p : σ) :
    SameDemand (service p) (service (l.foldl turn p)) := by
  induction l generalizing p with
  | nil => exact .refl
  | cons a rest ih => exact (each p a).trans (ih (turn p a))

theorem step_counted (admission : κ → Admission) (roots : κ → Root)
    (counted : Counted s) : Counted (s.step configuration admission roots) := by
  have drained : Counted (s.drainAll configuration) := by
    unfold drainAll
    generalize completed configuration.limits s = l
    have start : Counted (takeCompletions configuration.limits s) := counted
    generalize takeCompletions configuration.limits s = u at start
    induction l generalizing u with
    | nil => exact start
    | cons c rest ih => exact ih _ (drain_counted configuration c start)
  refine step_rule counted (fun _ => drained) (fun t kept => kept.congr startRequests_gentle.sameDemand) ?_ ?_
  · intro m p k found kept
    have same : SameDemand p.service (admitUnit configuration.limits m admission p k).service :=
      admitUnit_sameDemand admission p k
    exact ⟨same.2.trans found,kept.congr same⟩
  · intro m p k found kept
    have gentle : Gentle p.service (evict configuration.limits m roots p k).service := evict_gentle roots p k
    have same := gentle.sameDemand
    exact ⟨same.2.trans found,kept.congr same⟩

theorem demand_counted {change : PackageContentManifest κ → SortedMap κ Record → κ → Bool × SortedMap κ Record}
    (keeps : ∀ {m records k}, Demanded m records → Demanded m (change m records k).2) (k : κ) (counted : Counted s) :
    Counted (demand change s k).2 := by
  rcases demand_cases change s k with refused | ⟨m,found,_,_,changed⟩
  · rwa [refused]
  · rw [changed]
    intro m' found'
    cases found.symm.trans found'
    exact keeps (counted m found)

theorem retryContent_counted (k : κ) (counted : Counted s) : Counted (s.retryContent limits k).2 := by
  unfold retryContent
  cases found : s.manifest with
  | none => exact counted
  | some m =>
    dsimp only
    split_ifs
    · exact counted
    · have first : SameDemand s (s.put k { s.record k with residency := .unavailable }) := .put rfl rfl rfl
      exact counted.congr (first.trans startRequests_gentle.sameDemand)

theorem stop_counted (roots : κ → Root) (counted : Counted s) : Counted (s.stop roots) := by
  have each (p : Pass κ) (k : κ) : SameDemand p.service (stopUnit roots p k).service := by
    unfold stopUnit
    dsimp only
    split_ifs
    · exact .refl
    · exact .refl
    · exact .put rfl rfl rfl
  have began : SameDemand s s.stopping := ⟨fun _ => rfl,rfl⟩
  have taken := sameDemand_foldl Pass.service each s.records.keys { service := s.stopping }
  unfold stop
  dsimp only
  split_ifs
  · exact counted
  · exact counted.congr (began.trans taken)
  · exact nofun

theorem operate_counted {configuration : ContentAvailabilityConfiguration} {e : Event κ} (counted : Counted s)
    (stepped : operate configuration s e = some t) : Counted t := by
  cases e with
  | completeJob index outcome =>
    obtain ⟨j,c,_,_,_,rfl⟩ := completeJob_cases stepped
    exact counted
  | step admission roots =>
    cases stepped
    exact step_counted configuration admission roots counted
  | requestContent k =>
    cases stepped
    exact demand_counted request_demanded k counted
  | releaseContent k =>
    cases stepped
    exact demand_counted release_demanded k counted
  | pinContent k =>
    cases stepped
    exact demand_counted pin_demanded k counted
  | unpinContent k =>
    cases stepped
    exact demand_counted unpin_demanded k counted
  | retryContent k =>
    cases stepped
    exact retryContent_counted k counted
  | stop roots =>
    cases stepped
    exact stop_counted roots counted

end
end
end Gargantuan.ContentAvailabilityService
