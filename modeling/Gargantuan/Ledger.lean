import Gargantuan.SortedMap

/-!
Owners with counters. Items are held in some collection, each charged to an owner with
a weight, and every owner keeps a counter by hand. A column is settled when each item
has its owner and each counter is the weight charged to its owner. The rules say how a
column stays settled when one item is added or removed together with its counter, when
an owner comes or goes, and that the counters then add up to the weight of all items.
-/
namespace Gargantuan
open SortedMap Option Nat
universe u v w

section Charge
variable {α : Type u} {κ : Type v} [DecidableEq κ] (owner : α → κ) (weight : α → Nat)

def charge (items : List α) (k : κ) : Nat := ((items.filter fun x => owner x = k).map weight).sum

@[simp] theorem charge_cons (x : α) (items : List α) (k : κ) :
    charge owner weight (x :: items) k = (if owner x = k then weight x else 0) + charge owner weight items k := by
  by_cases same : owner x = k <;> simp [charge,same]

@[simp] theorem charge_append (first second : List α) (k : κ) :
    charge owner weight (first ++ second) k = charge owner weight first k + charge owner weight second k := by
  simp [charge]

variable {owner weight} {items : List α}

theorem charge_perm {items' : List α} (perm : items.Perm items') (k : κ) :
    charge owner weight items k = charge owner weight items' k :=
  ((perm.filter _).map _).sum_nat

theorem charge_eq_zero {k : κ} (foreign : ∀ x ∈ items, owner x ≠ k) :
    charge owner weight items k = 0 := by
  rw [charge,List.filter_eq_nil_iff.mpr (by simpa using foreign)]
  rfl

private theorem sum_indicator {owners : List κ} (distinct : owners.Nodup) {a : κ} (member : a ∈ owners) (n : Nat) :
    (owners.map fun k => if a = k then n else 0).sum = n := by
  induction owners with
  | nil => simp at member
  | cons k rest ih =>
    obtain ⟨notLater,restDistinct⟩ := List.nodup_cons.mp distinct
    rw [List.map_cons,List.sum_cons]
    by_cases here : a = k
    · have zero : (rest.map fun k' => if a = k' then n else 0).sum = 0 := by
        apply List.sum_eq_zero
        intro x inside
        obtain ⟨k',later,rfl⟩ := List.mem_map.mp inside
        rw [if_neg]
        rintro rfl
        exact notLater (here ▸ later)
      rw [zero,if_pos here,add_zero]
    · have later : a ∈ rest := (List.mem_cons.mp member).resolve_left here
      rw [if_neg here,ih restDistinct later,zero_add]

theorem sum_charge {owners : List κ} (distinct : owners.Nodup)
    (owned : ∀ x ∈ items, owner x ∈ owners) :
    (owners.map (charge owner weight items)).sum = (items.map weight).sum := by
  induction items with
  | nil =>
    apply List.sum_eq_zero
    intro n member
    obtain ⟨k,_,rfl⟩ := List.mem_map.mp member
    rfl
  | cons x rest ih =>
    have once := sum_indicator distinct (owned x (by simp)) (weight x)
    have split : owners.map (charge owner weight (x :: rest)) =
        owners.map fun k => (if owner x = k then weight x else 0) + charge owner weight rest k :=
      List.map_congr_left fun k _ => charge_cons owner weight x rest k
    rw [split,List.sum_map_add,once,ih (fun y member => owned y (.tail _ member))]
    simp

end Charge

structure Column (α : Type u) (κ : Type v) (π : Type w) where
  owner : α → κ
  weight : α → Nat
  counter : π → Nat

structure Settled {α : Type u} {κ : Type v} {π : Type w} [LinearOrder κ] (column : Column α κ π)
    (owners : SortedMap κ π) (items : List α) : Prop where
  owned : ∀ x ∈ items, owners.contains (column.owner x) = true
  counted : ∀ k p, owners.find? k = some p → column.counter p = charge column.owner column.weight items k

namespace Settled
variable {α : Type u} {κ : Type v} {π : Type w} [LinearOrder κ] {column : Column α κ π} {owners owners' : SortedMap κ π}
  {items items' : List α}

theorem nothing (column : Column α κ π) : Settled column ∅ ([] : List α) :=
  ⟨by simp,by simp⟩

section
variable (settled : Settled column owners items)
include settled

theorem perm (same : items.Perm items') : Settled column owners items' :=
  ⟨fun x member => settled.owned x (same.mem_iff.mpr member),fun k p found => by
    rw [settled.counted k p found,charge_perm same]⟩

theorem congr
    (same : ∀ k, (owners'.find? k).map column.counter = (owners.find? k).map column.counter) :
    Settled column owners' items := by
  constructor
  · intro x member
    obtain ⟨p,found⟩ := contains_iff.mp (settled.owned x member)
    have here := same (column.owner x)
    rw [found] at here
    obtain ⟨p',found',_⟩ := map_eq_some_iff.mp here
    exact contains_iff.mpr ⟨p',found'⟩
  · intro k p' found'
    have here := same k
    rw [found'] at here
    obtain ⟨p,found,equal⟩ := map_eq_some_iff.mp here.symm
    rw [← equal,settled.counted k p found]

theorem modify (k : κ) (f : π → π)
    (keeps : ∀ p, column.counter (f p) = column.counter p) : Settled column (owners.modify k f) items := by
  refine settled.congr fun k' => ?_
  rw [find?_modify]
  split_ifs with here
  · subst here
    rw [map_map]
    exact map_congr fun p _ => keeps p
  · rfl

theorem add (x : α) (f : π → π) (present : owners.contains (column.owner x))
    (adds : ∀ p, column.counter (f p) = column.counter p + column.weight x) :
    Settled column (owners.modify (column.owner x) f) (x :: items) := by
  constructor
  · intro y member
    have before : owners.contains (column.owner y) := by
      rcases List.mem_cons.mp member with rfl | later
      · exact present
      · exact settled.owned y later
    obtain ⟨p,found⟩ := contains_iff.mp before
    rw [contains_iff,find?_modify]
    split_ifs with here
    · exact ⟨f p,by rw [found]; rfl⟩
    · exact ⟨p,found⟩
  · intro k p found
    rw [find?_modify] at found
    rw [charge_cons]
    split_ifs at found with here
    · obtain ⟨q,before,rfl⟩ := map_eq_some_iff.mp found
      rw [adds,settled.counted _ q before,if_pos here.symm]
      exact add_comm ..
    · rw [settled.counted k p found,if_neg (Ne.symm here),zero_add]

end

theorem replace {x y : α} (settled : Settled column owners (x :: items)) (owner : column.owner y = column.owner x)
    (weight : column.weight y = column.weight x) : Settled column owners (y :: items) := by
  constructor
  · intro z member
    rcases List.mem_cons.mp member with rfl | later
    · rw [owner]
      exact settled.owned x (by simp)
    · exact settled.owned z (.tail _ later)
  · intro k p found
    rw [settled.counted k p found,charge_cons,charge_cons,owner,weight]

theorem weight_le {x : α} (settled : Settled column owners (x :: items)) {p : π}
    (found : owners.find? (column.owner x) = some p) : column.weight x ≤ column.counter p := by
  rw [settled.counted _ p found,charge_cons,if_pos rfl]
  exact Nat.le_add_right ..

theorem remove {x : α} (settled : Settled column owners (x :: items)) (f : π → π)
    (subtracts : ∀ p, column.weight x ≤ column.counter p → column.counter (f p) = column.counter p - column.weight x) :
    Settled column (owners.modify (column.owner x) f) items := by
  constructor
  · intro y member
    obtain ⟨p,found⟩ := contains_iff.mp (settled.owned y (.tail _ member))
    rw [contains_iff,find?_modify]
    split_ifs with here
    · exact ⟨f p,by rw [found]; rfl⟩
    · exact ⟨p,found⟩
  · intro k p found
    rw [find?_modify] at found
    split_ifs at found with here
    · obtain ⟨q,before,rfl⟩ := map_eq_some_iff.mp found
      subst here
      have charged := settled.counted _ q before
      rw [charge_cons,if_pos rfl] at charged
      rw [subtracts q (settled.weight_le before)]
      omega
    · have charged := settled.counted k p found
      rwa [charge_cons,if_neg (Ne.symm here),zero_add] at charged

section
variable (settled : Settled column owners items)
include settled

theorem erase (k : κ) :
    Settled column (owners.erase k) (items.filter fun x => column.owner x ≠ k) := by
  constructor
  · intro x member
    obtain ⟨inside,other⟩ := List.mem_filter.mp member
    obtain ⟨p,found⟩ := contains_iff.mp (settled.owned x inside)
    rw [contains_iff,find?_erase,if_neg (by simpa using other)]
    exact ⟨p,found⟩
  · intro k' p found
    rw [find?_erase] at found
    split_ifs at found with here
    rw [settled.counted k' p found,charge,charge,List.filter_filter]
    congr 2
    apply List.filter_congr
    intro x _
    by_cases same : column.owner x = k' <;> simp [same,here]

theorem insert {k : κ} (fresh : owners.find? k = none) {p : π}
    (zero : column.counter p = 0) : Settled column (owners.insert k p) items := by
  have foreign : ∀ x ∈ items, column.owner x ≠ k := by
    intro x member here
    obtain ⟨q,found⟩ := contains_iff.mp (settled.owned x member)
    rw [here,fresh] at found
    cases found
  constructor
  · intro x member
    obtain ⟨q,found⟩ := contains_iff.mp (settled.owned x member)
    rw [contains_iff,find?_insert_of_ne _ _ (foreign x member)]
    exact ⟨q,found⟩
  · intro k' q found
    rw [find?_insert] at found
    split_ifs at found with here
    · cases found
      rw [zero,here,charge_eq_zero foreign]
    · exact settled.counted k' q found

theorem total :
    (owners.entries.map fun e => column.counter e.2).sum = (items.map column.weight).sum := by
  have counters : owners.entries.map (fun e => column.counter e.2) =
      owners.keys.map (charge column.owner column.weight items) := by
    rw [SortedMap.keys,List.map_map]
    apply List.map_congr_left
    intro e member
    exact settled.counted e.1 e.2 (find?_eq_some.mpr member)
  rw [counters,sum_charge owners.nodup_keys]
  intro x member
  exact mem_keys.mpr (contains_iff.mp (settled.owned x member))

end

end Settled
end Gargantuan
