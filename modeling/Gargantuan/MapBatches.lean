import Gargantuan.SortedMap

/-!
Batches of changes of a sorted map: keys that are erased, items that are stored under keys
without a value, items that change the value under their key, and items that are assigned.
-/
namespace Gargantuan.SortedMap
open List
universe u v w
variable {κ : Type u} {ν : Type v} {α : Type w} [LinearOrder κ]

def eraseAll (keys : List κ) (m : SortedMap κ ν) : SortedMap κ ν := keys.foldl erase m

/-- Stores the value of an item, unless its key has one. -/
def emplace (key : α → κ) (value : α → ν) (m : SortedMap κ ν) (x : α) : SortedMap κ ν :=
  if m.contains (key x) then m else m.insert (key x) (value x)

def emplaceAll (key : α → κ) (value : α → ν) (items : List α) (m : SortedMap κ ν) : SortedMap κ ν :=
  items.foldl (emplace key value) m

def changeAll (key : α → κ) (change : α → ν → ν) : List α → SortedMap κ ν → Bool × SortedMap κ ν
  | [], m => (true,m)
  | x :: rest, m =>
    match m.find? (key x) with
    | none => (false,m)
    | some value => changeAll key change rest (m.insert (key x) (change x value))

def assignAll (key : α → κ) (value : α → ν) (items : List α) (m : SortedMap κ ν) : SortedMap κ ν :=
  items.foldl (fun m x => m.insert (key x) (value x)) m

variable {key : α → κ} {value : α → ν} {change : α → ν → ν}

theorem find?_eraseAll (keys : List κ) (m : SortedMap κ ν) (k : κ) :
    (m.eraseAll keys).find? k = if k ∈ keys then none else m.find? k := by
  induction keys generalizing m with
  | nil => rfl
  | cons first rest ih =>
    refine (ih (m.erase first)).trans ?_
    rw [find?_erase]
    by_cases here : k = first <;> by_cases later : k ∈ rest <;> simp [here,later]

theorem find?_emplaceAll (items : List α) (m : SortedMap κ ν) (k : κ) : (emplaceAll key value items m).find? k =
      (m.find? k).or ((items.find? fun x => decide (key x = k)).map value) := by
  induction items generalizing m with
  | nil => simp [emplaceAll]
  | cons x rest ih =>
    refine (ih (emplace key value m x)).trans ?_
    unfold emplace
    by_cases same : key x = k
    · rw [find?_cons_of_pos (by simpa using same)]
      cases found : m.find? k with
      | none =>
        have absent : m.contains (key x) = false := by rw [contains,same,found]; rfl
        rw [if_neg (by simp [absent]),same,find?_insert_self]
        rfl
      | some known =>
        have present : m.contains (key x) := by rw [contains,same,found]; rfl
        rw [if_pos present,found]
        rfl
    · rw [find?_cons_of_neg (by simpa using same)]
      split_ifs
      · rfl
      · rw [find?_insert_of_ne m _ (Ne.symm same)]

variable {items : List α} {m : SortedMap κ ν}

theorem changeAll_done (known : ∀ x ∈ items, m.contains (key x)) : (changeAll key change items m).1 := by
  induction items generalizing m with
  | nil => rfl
  | cons x rest ih =>
    unfold changeAll
    obtain ⟨old,found⟩ := contains_iff.mp (known x (.head _))
    rw [found]
    refine ih fun y member => ?_
    rw [contains,find?_insert]
    split_ifs
    · rfl
    · exact known y (mem_cons_of_mem x member)

theorem find?_changeAll (known : ∀ x ∈ items, m.contains (key x))
    (distinct : (items.map key).Nodup) (k : κ) :
    (changeAll key change items m).2.find? k = (m.find? k).map fun old =>
      match items.find? fun x => decide (key x = k) with
      | some x => change x old
      | none => old := by
  induction items generalizing m with
  | nil => cases found : m.find? k <;> simp [changeAll,found]
  | cons x rest ih =>
    obtain ⟨first,distinct⟩ := nodup_cons.mp distinct
    obtain ⟨old,found⟩ := contains_iff.mp (known x (.head _))
    unfold changeAll
    rw [found]
    rw [ih (fun y member => ?_) distinct,find?_insert]
    · by_cases same : k = key x
      · subst same
        have none : (rest.find? fun y => decide (key y = key x)) = none := by
          rw [List.find?_eq_none]
          intro y member here
          exact first (mem_map.mpr ⟨y,member,of_decide_eq_true here⟩)
        rw [if_pos rfl,find?_cons_of_pos (by simp),none,found]
        rfl
      · rw [if_neg same,find?_cons_of_neg (by simpa using Ne.symm same)]
    · rw [contains,find?_insert]
      split_ifs
      · rfl
      · exact known y (mem_cons_of_mem x member)

theorem find?_assignAll (distinct : (items.map key).Nodup) (m : SortedMap κ ν) (k : κ) :
    (assignAll key value items m).find? k = ((items.find? fun x => decide (key x = k)).map value).or (m.find? k) := by
  induction items generalizing m with
  | nil => rfl
  | cons x rest ih =>
    obtain ⟨first,distinct⟩ := nodup_cons.mp distinct
    refine (ih distinct (m.insert (key x) (value x))).trans ?_
    by_cases same : key x = k
    · subst same
      have none : (rest.find? fun y => decide (key y = key x)) = none := by
        rw [List.find?_eq_none]
        intro y member here
        exact first (mem_map.mpr ⟨y,member,of_decide_eq_true here⟩)
      rw [find?_cons_of_pos (by simp),none,find?_insert_self]
      rfl
    · rw [find?_cons_of_neg (by simpa using same),find?_insert_of_ne m _ (Ne.symm same)]

structure Disjoint {β : Type*} (m : SortedMap κ ν) (removes : List κ) (createKey : β → κ) (creates : List β) (key : α → κ)
    (items : List α) : Prop where
  fresh : ∀ c ∈ creates, createKey c ∉ removes
  new : ∀ c ∈ creates, m.contains (createKey c) = false
  apart : ∀ x ∈ items, key x ∉ removes ++ creates.map createKey
  known : ∀ x ∈ items, m.contains (key x) = true
  distinct : (items.map key).Nodup

section
variable {β : Type*} {m : SortedMap κ ν} {removes : List κ} {createKey : β → κ} {creates : List β} {items : List α}
  {createValue : β → ν}

variable (disjoint : Disjoint m removes createKey creates key items)
include disjoint

theorem Disjoint.present :
    ∀ x ∈ items, (emplaceAll createKey createValue creates (m.eraseAll removes)).contains (key x) := by
  intro x member
  obtain ⟨value,found⟩ := contains_iff.mp (disjoint.known x member)
  have kept : key x ∉ removes := fun erased => disjoint.apart x member (mem_append_left _ erased)
  rw [contains,find?_emplaceAll,find?_eraseAll,if_neg kept,found]
  rfl

theorem Disjoint.find? (createValue : β → ν)
    (change : α → ν → ν) (k : κ) :
    (changeAll key change items (emplaceAll createKey createValue creates (m.eraseAll removes))).2.find? k =
      match creates.find? fun c => decide (createKey c = k) with
      | some c => some (createValue c)
      | none =>
        if k ∈ removes then none
        else (m.find? k).map fun old =>
          match items.find? fun x => decide (key x = k) with
          | some x => change x old
          | none => old := by
  rw [find?_changeAll disjoint.present disjoint.distinct,find?_emplaceAll,find?_eraseAll]
  cases created : creates.find? fun c => decide (createKey c = k) with
  | some c =>
    have member := mem_of_find?_eq_some created
    have here : createKey c = k := by simpa using find?_some created
    have absent : m.find? k = none := by
      have new := disjoint.new c member
      rw [here] at new
      simpa [contains] using new
    have none : (items.find? fun x => decide (key x = k)) = none := by
      rw [List.find?_eq_none]
      intro x inside same
      refine disjoint.apart x inside (mem_append_right _ (mem_map.mpr ⟨c,member,?_⟩))
      rw [here,of_decide_eq_true same]
    rw [absent,none]
    simp
  | none =>
    split_ifs with erased
    · rfl
    · simp

end

end Gargantuan.SortedMap
