import Mathlib.Algebra.BigOperators.Group.List.Basic
import Mathlib.Algebra.Order.Ring.Nat
import Mathlib.Data.List.Sort

/-!
Finite maps kept in key order, as an ordered associative container keeps them.
The order of the entries is a field, so two maps with the same lookups are equal
and a walk over the entries meets every key once. Insertion and erasure are
characterized up to permutation, which is what sums and counts over the entries
need.
-/
namespace Gargantuan
open List Function
universe u v w

structure SortedMap (κ : Type u) (ν : Type v) [LinearOrder κ] where
  entries : List (κ × ν)
  sorted : entries.Pairwise (fun a b => a.1 < b.1)

namespace SortedMap
variable {κ : Type u} {ν : Type v} {μ : Type w} [LinearOrder κ]

@[ext] theorem ext_entries {m n : SortedMap κ ν} (same : m.entries = n.entries) : m = n := by
  cases m; cases n; simp_all

instance [DecidableEq ν] : DecidableEq (SortedMap κ ν) := fun m n =>
  decidable_of_iff (m.entries = n.entries) ⟨ext_entries,fun same => by rw [same]⟩

/-- The map without entries. -/
def empty : SortedMap κ ν := ⟨[],.nil⟩

instance : EmptyCollection (SortedMap κ ν) := ⟨empty⟩
instance : Inhabited (SortedMap κ ν) := ⟨empty⟩

@[simp] theorem entries_empty : (∅ : SortedMap κ ν).entries = [] := rfl

def findIn (k : κ) : List (κ × ν) → Option ν
  | [] => none
  | (k',x) :: rest => if k = k' then some x else findIn k rest

/-- The value stored under a key. -/
def find? (m : SortedMap κ ν) (k : κ) : Option ν := findIn k m.entries

/-- Whether the key is stored. -/
def contains (m : SortedMap κ ν) (k : κ) : Bool := (m.find? k).isSome

def keys (m : SortedMap κ ν) : List κ := m.entries.map Prod.fst

def size (m : SortedMap κ ν) : Nat := m.entries.length

def isEmpty (m : SortedMap κ ν) : Bool := m.entries.isEmpty

def insertIn (k : κ) (x : ν) : List (κ × ν) → List (κ × ν)
  | [] => [(k,x)]
  | (k',y) :: rest =>
    if k < k' then (k,x) :: (k',y) :: rest
    else if k = k' then (k,x) :: rest
    else (k',y) :: insertIn k x rest

variable {k : κ} {l : List (κ × ν)} {x : ν} {m : SortedMap κ ν}

theorem mem_insertIn {e : κ × ν} (member : e ∈ insertIn k x l) : e = (k,x) ∨ e ∈ l := by
  induction l with
  | nil => simpa [insertIn] using member
  | cons head rest ih =>
    simp only [insertIn] at member
    split_ifs at member with before same
    · simpa using member
    · rcases mem_cons.mp member with here | later
      · exact .inl here
      · exact .inr (.tail _ later)
    · rcases mem_cons.mp member with here | later
      · exact .inr (by simp [here])
      · rcases ih later with here | later
        · exact .inl here
        · exact .inr (.tail _ later)

theorem sorted_insertIn (k : κ) (x : ν) (l : List (κ × ν)) (sorted : l.Pairwise (fun a b => a.1 < b.1)) :
    (insertIn k x l).Pairwise (fun a b => a.1 < b.1) := by
  induction l with
  | nil => simp [insertIn]
  | cons head rest ih =>
    obtain ⟨above,tail⟩ := pairwise_cons.mp sorted
    simp only [insertIn]
    split_ifs with before same
    · refine pairwise_cons.mpr ⟨?_,sorted⟩
      intro e member
      rcases mem_cons.mp member with here | later
      · rw [here]; exact before
      · exact before.trans (above e later)
    · refine pairwise_cons.mpr ⟨?_,tail⟩
      intro e member
      rw [same]
      exact above e member
    · refine pairwise_cons.mpr ⟨?_,ih tail⟩
      intro e member
      rcases mem_insertIn member with here | later
      · rw [here]; exact lt_of_le_of_ne (not_lt.mp before) (.symm same)
      · exact above e later

/-- Stores a value, replacing what the key held. -/
def insert (m : SortedMap κ ν) (k : κ) (x : ν) : SortedMap κ ν :=
  ⟨insertIn k x m.entries,sorted_insertIn k x m.entries m.sorted⟩

/-- Keeps the entries that satisfy a test. -/
def filter (m : SortedMap κ ν) (p : κ → ν → Bool) : SortedMap κ ν :=
  ⟨m.entries.filter (fun e => p e.1 e.2),m.sorted.filter _⟩

/-- Removes a key. -/
def erase (m : SortedMap κ ν) (k : κ) : SortedMap κ ν := m.filter (fun k' _ => k' ≠ k)

/-- Changes every stored value. -/
def mapValues (m : SortedMap κ ν) (f : κ → ν → μ) : SortedMap κ μ :=
  ⟨m.entries.map (fun e => (e.1,f e.1 e.2)),by
    rw [pairwise_map]; exact m.sorted⟩

/-- Changes the value under a key, if there is one. -/
def modify (m : SortedMap κ ν) (k : κ) (f : ν → ν) : SortedMap κ ν :=
  m.mapValues (fun k' x => if k' = k then f x else x)

/-! ### Lookups -/

theorem findIn_eq_some_of_mem (sorted : l.Pairwise (fun a b => a.1 < b.1)) (member : (k,x) ∈ l) :
    findIn k l = some x := by
  induction l with
  | nil => simp at member
  | cons head rest ih =>
    obtain ⟨above,tail⟩ := pairwise_cons.mp sorted
    rcases mem_cons.mp member with here | later
    · subst here; simp [findIn]
    · have other : k ≠ head.1 := ne_of_gt (above _ later)
      simpa [findIn,other] using ih tail later

theorem mem_of_findIn (found : findIn k l = some x) : (k,x) ∈ l := by
  induction l with
  | nil => simp [findIn] at found
  | cons head rest ih =>
    simp only [findIn] at found
    split_ifs at found with same
    · cases found; subst same; simp
    · exact .tail _ (ih found)

theorem find?_eq_some : m.find? k = some x ↔ (k,x) ∈ m.entries :=
  ⟨mem_of_findIn,findIn_eq_some_of_mem m.sorted⟩

theorem find?_eq_none : m.find? k = none ↔ ∀ x, (k,x) ∉ m.entries := by
  rw [Option.eq_none_iff_forall_ne_some]
  exact forall_congr' fun x => not_congr find?_eq_some

@[simp] theorem find?_empty (k : κ) : (∅ : SortedMap κ ν).find? k = none := rfl

theorem findIn_insertIn (k k' : κ) (x : ν) (l : List (κ × ν)) :
    findIn k' (insertIn k x l) = if k' = k then some x else findIn k' l := by
  induction l with
  | nil => simp [insertIn,findIn]
  | cons head rest ih =>
    simp only [insertIn]
    by_cases same : k' = k
    · subst same
      split_ifs with before equal <;> simp_all [findIn]
    · split_ifs with before equal
      · simp [findIn,same]
      · subst equal; simp [findIn,same]
      · simp [findIn,ih,same]

section
variable (m : SortedMap κ ν)

theorem find?_insert (k k' : κ) (x : ν) : (m.insert k x).find? k' = if k' = k then some x else m.find? k' :=
  findIn_insertIn k k' x m.entries

@[simp] theorem find?_insert_self (k : κ) (x : ν) : (m.insert k x).find? k = some x := by
  simp [find?_insert]

theorem find?_insert_of_ne {k' : κ} (x : ν) (other : k' ≠ k) : (m.insert k x).find? k' = m.find? k' := by
  simp [find?_insert,other]

theorem find?_filter (p : κ → ν → Bool) (k : κ) : (m.filter p).find? k = (m.find? k).filter (p k) := by
  cases found : m.find? k with
  | none =>
    rw [find?_eq_none] at found
    rw [Option.filter_none,find?_eq_none]
    intro x member
    exact found x (mem_filter.mp member).1
  | some x =>
    have member := find?_eq_some.mp found
    by_cases keep : p k x
    · rw [Option.filter_some_pos keep,find?_eq_some]
      exact mem_filter.mpr ⟨member,keep⟩
    · rw [Option.filter_some_neg (by simpa using keep),find?_eq_none]
      intro y other
      obtain ⟨inside,kept⟩ := mem_filter.mp other
      have same : y = x := by
        have := find?_eq_some.mpr inside
        simpa [found] using this.symm
      exact keep (by simpa [same] using kept)

theorem find?_erase (k k' : κ) : (m.erase k).find? k' = if k' = k then none else m.find? k' := by
  rw [erase,find?_filter]
  by_cases same : k' = k <;> cases m.find? k' <;> simp [same,Option.filter]

@[simp] theorem find?_erase_self (k : κ) : (m.erase k).find? k = none := by
  simp [find?_erase]

theorem find?_mapValues (f : κ → ν → μ) (k : κ) : (m.mapValues f).find? k = (m.find? k).map (f k) := by
  cases found : m.find? k with
  | none =>
    rw [find?_eq_none] at found
    rw [Option.map_none,find?_eq_none]
    intro x member
    obtain ⟨e,inside,same⟩ := mem_map.mp member
    cases same
    exact found e.2 inside
  | some x =>
    rw [Option.map_some,find?_eq_some]
    exact mem_map.mpr ⟨(k,x),find?_eq_some.mp found,rfl⟩

theorem find?_modify (k k' : κ) (f : ν → ν) :
    (m.modify k f).find? k' = if k' = k then (m.find? k').map f else m.find? k' := by
  rw [modify,find?_mapValues]
  by_cases same : k' = k <;> cases m.find? k' <;> simp [same]

end

theorem ext_find? {n : SortedMap κ ν} (same : ∀ k, m.find? k = n.find? k) : m = n := by
  apply ext_entries
  have members : ∀ e, e ∈ m.entries ↔ e ∈ n.entries := by
    intro e
    rw [← find?_eq_some,← find?_eq_some,same]
  have distinct : ∀ l : SortedMap κ ν, l.entries.Nodup := fun l =>
    l.sorted.imp fun {a b} below equal => by subst equal; exact lt_irrefl _ below
  have perm : m.entries.Perm n.entries := (perm_ext_iff_of_nodup (distinct m) (distinct n)).mpr members
  refine perm.eq_of_pairwise ?_ m.sorted n.sorted
  intro a b _ _ below above
  exact absurd above (lt_asymm below)

theorem mem_keys : k ∈ m.keys ↔ ∃ x, m.find? k = some x := by
  simp only [keys,mem_map,find?_eq_some]
  constructor
  · rintro ⟨⟨k,x⟩,member,rfl⟩
    exact ⟨x,member⟩
  · rintro ⟨x,member⟩
    exact ⟨(k,x),member,rfl⟩

theorem contains_iff : m.contains k ↔ ∃ x, m.find? k = some x := by
  simp [contains,Option.isSome_iff_exists]

theorem contains_iff_mem_keys : m.contains k ↔ k ∈ m.keys := by
  rw [contains_iff,mem_keys]

theorem nodup_keys (m : SortedMap κ ν) : m.keys.Nodup := by
  rw [keys,List.Nodup,pairwise_map]
  exact m.sorted.imp fun below => ne_of_lt below

theorem insertIn_perm (x : ν) (absent : findIn k l = none) : (insertIn k x l).Perm ((k,x) :: l) := by
  induction l with
  | nil => exact .refl _
  | cons head rest ih =>
    have other : k ≠ head.1 := by
      intro same; simp [findIn,same] at absent
    simp only [findIn,other,if_false] at absent
    simp only [insertIn,other,if_false]
    split_ifs
    · exact .refl _
    · exact ((ih absent).cons _).trans (.swap _ _ _)

theorem insert_perm (x : ν) (absent : m.find? k = none) : (m.insert k x).entries.Perm ((k,x) :: m.entries) :=
  insertIn_perm x absent

theorem erase_perm (found : m.find? k = some x) : m.entries.Perm ((k,x) :: (m.erase k).entries) := by
  have member := find?_eq_some.mp found
  obtain ⟨before,after,split⟩ := append_of_mem member
  have sorted := m.sorted
  rw [split,pairwise_append] at sorted
  obtain ⟨_,tail,across⟩ := sorted
  have below : ∀ e ∈ before, e.1 ≠ k := fun e inside =>
    ne_of_lt (across e inside (k,x) (by simp))
  have above : ∀ e ∈ after, e.1 ≠ k := fun e inside =>
    ne_of_gt ((pairwise_cons.mp tail).1 e inside)
  have rest : (m.erase k).entries = before ++ after := by
    have keepBefore : before.filter (fun e => decide (e.1 ≠ k)) = before :=
      filter_eq_self.mpr fun e inside => by simpa using below e inside
    have keepAfter : after.filter (fun e => decide (e.1 ≠ k)) = after :=
      filter_eq_self.mpr fun e inside => by simpa using above e inside
    simp only [erase,filter,split,filter_append,filter_cons,keepBefore,keepAfter]
    simp
  rw [rest,split]
  exact perm_middle

theorem keys_insert_perm (x : ν) (absent : m.find? k = none) : (m.insert k x).keys.Perm (k :: m.keys) :=
  (insert_perm x absent).map Prod.fst

theorem keys_erase_perm (found : m.find? k = some x) : m.keys.Perm (k :: (m.erase k).keys) :=
  (erase_perm found).map Prod.fst

section
variable (m : SortedMap κ ν)

theorem keys_filter (p : κ → Bool) : (m.filter fun k _ => p k).keys = m.keys.filter p := by
  simp only [keys,filter,filter_map,comp_def]

@[simp] theorem keys_mapValues (f : κ → ν → μ) : (m.mapValues f).keys = m.keys := by
  simp [keys,mapValues,comp_def]

@[simp] theorem keys_modify (k : κ) (f : ν → ν) : (m.modify k f).keys = m.keys :=
  keys_mapValues m _

end

theorem keys_insert_found (found : m.find? k = some x) (y : ν) : (m.insert k y).keys = m.keys := by
  have same : m.insert k y = m.modify k fun _ => y := by
    refine ext_find? fun k' => ?_
    rw [find?_insert,find?_modify]
    split_ifs with here
    · rw [here,found,Option.map_some]
    · rfl
  rw [same,keys_modify]

@[simp] theorem length_keys (m : SortedMap κ ν) : m.keys.length = m.size := by
  simp [keys,size]

theorem erase_of_absent (absent : m.find? k = none) : m.erase k = m := by
  apply ext_find?
  intro k'
  rw [find?_erase]
  split_ifs with same
  · rw [same,absent]
  · rfl

theorem filter_insertIn_last {k : κ} {x : ν} {p : κ × ν → Bool} {l : List (κ × ν)}
    (sorted : l.Pairwise (fun a b => a.1 < b.1)) (absent : ∀ e ∈ l, e.1 ≠ k)
    (after : p (k,x) → ∀ e ∈ l, p e → e.1 < k) : (insertIn k x l).filter p = l.filter p ++ [(k,x)].filter p := by
  induction l with
  | nil => simp [insertIn]
  | cons head rest ih =>
    obtain ⟨above,tail⟩ := pairwise_cons.mp sorted
    simp only [insertIn]
    split_ifs with before same
    · by_cases passes : p (k,x) = true
      · have none : (head :: rest).filter p = [] := by
          rw [filter_eq_nil_iff]
          intro e member there
          have early := after passes e member there
          rcases mem_cons.mp member with rfl | later
          · exact absurd early (not_lt.mpr before.le)
          · exact absurd early (not_lt.mpr (before.trans (above e later)).le)
        rw [filter_cons_of_pos passes,none]
        simp [passes]
      · simp [passes]
    · exact absurd same.symm (absent head (.head _))
    · have inner := ih tail (fun e member => absent e (.tail _ member))
        (fun passes e member => after passes e (.tail _ member))
      simp only [filter_cons,inner]
      split_ifs <;> simp

theorem entries_erase_first {rest : List (κ × ν)} (entries : m.entries = (k,x) :: rest) :
    (m.erase k).entries = rest := by
  have sorted := m.sorted
  rw [entries] at sorted
  have above := (pairwise_cons.mp sorted).1
  simp only [erase,filter,entries]
  rw [filter_cons_of_neg (by simp),filter_eq_self]
  intro e member
  simpa using (above e member).ne'

/-- The sum of a quantity over all stored values. -/
def total (f : ν → Nat) (m : SortedMap κ ν) : Nat := (m.entries.map fun e => f e.2).sum

variable (f : ν → Nat)

@[simp] theorem total_empty : total f (∅ : SortedMap κ ν) = 0 := rfl

theorem total_insert_new (absent : m.find? k = none) (x : ν) : total f (m.insert k x) = total f m + f x := by
  rw [total,((insert_perm x absent).map _).sum_nat,map_cons]
  exact Nat.add_comm ..

theorem total_erase (found : m.find? k = some x) : total f m = total f (m.erase k) + f x := by
  rw [total,((erase_perm found).map _).sum_nat,map_cons]
  exact Nat.add_comm ..

theorem erase_insert (m : SortedMap κ ν) (k : κ) (x : ν) : (m.insert k x).erase k = m.erase k := by
  refine ext_find? fun k' => ?_
  simp only [find?_erase,find?_insert]
  split_ifs <;> rfl

theorem insert_insert (m : SortedMap κ ν) (k : κ) (x y : ν) : (m.insert k x).insert k y = m.insert k y := by
  refine ext_find? fun k' => ?_
  simp only [find?_insert]
  split_ifs <;> rfl

theorem total_insert (found : m.find? k = some x) (y : ν) : total f (m.insert k y) + f x = total f m + f y := by
  have before := total_erase f found
  have after := total_erase f (find?_insert_self m k y)
  rw [erase_insert] at after
  omega

end SortedMap
end Gargantuan
