import Mathlib.Algebra.BigOperators.Fin
import Mathlib.Algebra.Order.BigOperators.Group.Finset

/-!
A family of queues over a finite index. A weight adds up over all of them, and replacing
one queue changes the sum by the weights of that queue alone. A search for the first
element that passes a test splits its queue around the element it finds.
-/
namespace Gargantuan
open List Function
universe u v

section Search
variable {α : Type u}

/-- The first element that passes the test, with what is before and behind it. -/
def splitFirst (p : α → Bool) : List α → Option (List α × α × List α)
  | [] => none
  | x :: rest => if p x then some ([],x,rest) else (splitFirst p rest).map fun found => (x :: found.1,found.2)

theorem splitFirst_eq_some {p : α → Bool} {l before after : List α} {x : α}
    (found : splitFirst p l = some (before,x,after)) :
    l = before ++ x :: after ∧ p x ∧ ∀ y ∈ before, p y = false := by
  induction l generalizing before with
  | nil => cases found
  | cons y rest ih =>
    simp only [splitFirst] at found
    split_ifs at found with here
    · cases found
      exact ⟨rfl,here,by simp⟩
    · obtain ⟨⟨b,z,a⟩,inner,same⟩ := Option.map_eq_some_iff.mp found
      cases same
      obtain ⟨split,passes,fails⟩ := ih inner
      refine ⟨by rw [split]; rfl,passes,?_⟩
      intro w member
      rcases mem_cons.mp member with rfl | later
      · simpa using here
      · exact fails w later

theorem splitFirst_eq_none {p : α → Bool} {l : List α} : splitFirst p l = none ↔ ∀ x ∈ l, p x = false := by
  induction l with
  | nil => simp [splitFirst]
  | cons y rest ih =>
    simp only [splitFirst]
    split_ifs with here
    · simp [here]
    · simp [ih,here]

end Search

section Weights
variable {ι : Type u} {α : Type v} [Fintype ι]

def held (weight : α → Nat) (queues : ι → List α) : Nat := ∑ i, ((queues i).map weight).sum

variable (weight : α → Nat)

theorem held_empty : held weight (fun _ : ι => []) = 0 := by simp [held]

theorem held_update [DecidableEq ι] (queues : ι → List α) (i : ι) (l : List α) :
    held weight (Function.update queues i l) + ((queues i).map weight).sum =
      held weight queues + (l.map weight).sum := by
  have others : ∀ f : ι → List α, held weight f =
      ((f i).map weight).sum + ∑ j ∈ Finset.univ.erase i, ((f j).map weight).sum := fun f =>
    (Finset.add_sum_erase _ _ (Finset.mem_univ i)).symm
  have same : ∑ j ∈ Finset.univ.erase i, ((update queues i l j).map weight).sum =
      ∑ j ∈ Finset.univ.erase i, ((queues j).map weight).sum := by
    refine Finset.sum_congr rfl fun j member => ?_
    rw [update_of_ne (Finset.ne_of_mem_erase member)]
  rw [others (update queues i l),others queues,update_self]
  omega

theorem held_push [DecidableEq ι] (queues : ι → List α) (i : ι) (x : α) :
    held weight (Function.update queues i (queues i ++ [x])) = held weight queues + weight x := by
  have change := held_update weight queues i (queues i ++ [x])
  simp only [map_append,sum_append,map_cons,map_nil,sum_cons,sum_nil] at change
  omega

variable {queues : ι → List α}

theorem held_remove [DecidableEq ι] {i : ι} {before after : List α} {x : α} (split : queues i = before ++ x :: after) :
    held weight (Function.update queues i (before ++ after)) + weight x = held weight queues := by
  have change := held_update weight queues i (before ++ after)
  rw [split] at change
  simp only [map_append,sum_append,map_cons,sum_cons] at change
  omega

theorem weight_le_held {i : ι} {x : α} (member : x ∈ queues i) : weight x ≤ held weight queues := by
  have inside : weight x ≤ ((queues i).map weight).sum := le_sum_of_mem (mem_map_of_mem member)
  exact inside.trans (Finset.single_le_sum (f := fun i => ((queues i).map weight).sum) (by simp) (Finset.mem_univ i))

variable {weight : α → Nat}

theorem held_le {other : α → Nat} (le : ∀ i, ∀ x ∈ queues i, weight x ≤ other x) :
    held weight queues ≤ held other queues :=
  Finset.sum_le_sum fun i _ => sum_le_sum fun x member => le i x member

theorem held_add (weight other : α → Nat) (queues : ι → List α) :
    held (fun x => weight x + other x) queues = held weight queues + held other queues := by
  simp only [held,sum_map_add,Finset.sum_add_distrib]

theorem held_congr {v : α → Nat} (same : ∀ i, ∀ x ∈ queues i, weight x = v x) :
    held weight queues = held v queues :=
  Finset.sum_congr rfl fun i _ => congrArg List.sum (map_congr_left fun x member => same i x member)

theorem held_eq_zero (positive : ∀ i, ∀ x ∈ queues i, 0 < weight x) (zero : held weight queues = 0)
    (i : ι) : queues i = [] := by
  by_contra present
  obtain ⟨x,member⟩ := exists_mem_of_ne_nil _ present
  have some_ := weight_le_held weight member
  have more := positive i x member
  omega

end Weights
end Gargantuan
