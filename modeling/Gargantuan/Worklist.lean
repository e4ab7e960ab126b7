import Mathlib.Data.List.Nodup
import Mathlib.Data.List.Perm.Subperm

/-!
A worklist without a set of visited elements: it starts with a root and appends the
children of every element it visits. Where every element has one parent at most, the
list ends if and only if the root is not below itself, and then visits each element
below the root once.
-/
namespace Worklist
open List
universe u
variable {α : Type u} (children : α → List α)

def visit : Nat → List α → List α → Option (List α)
  | _, visited, [] => some visited
  | 0, _, _ :: _ => none
  | fuel + 1, visited, x :: pending => visit fuel (visited ++ [x]) (pending ++ children x)

def Below (p x : α) : Prop := x ∈ children p

variable {children}

theorem visit_mono {fuel : Nat} (more : Nat) : ∀ {visited pending all : List α},
    visit children fuel visited pending = some all → visit children (fuel + more) visited pending = some all := by
  induction fuel with
  | zero =>
    intro visited pending all done
    cases pending with
    | nil =>
      rw [visit] at done
      rw [visit,done]
    | cons x pending => cases done
  | succ fuel ih =>
    intro visited pending all done
    cases pending with
    | nil =>
      rw [visit] at done
      rw [visit,done]
    | cons x pending =>
      rw [Nat.add_right_comm]
      exact ih done

structure Sound (children : α → List α) (root : α) (visited pending : List α) : Prop where
  nodup : (visited ++ pending).Nodup
  parent : ∀ x ∈ visited ++ pending, x = root ∨ ∃ p ∈ visited, Below children p x
  closed : ∀ p ∈ visited, ∀ x, Below children p x → x ∈ visited ++ pending
  below : ∀ x ∈ visited ++ pending, Relation.ReflTransGen (Below children) root x

theorem sound_root (root : α) : Sound children root [] [root] := by
  refine ⟨nodup_singleton root,?_,?_,?_⟩
  · intro x member
    exact .inl (mem_singleton.mp member)
  · intro p member
    exact absurd member not_mem_nil
  · intro x member
    rw [mem_singleton.mp member]

variable {root : α}

section
variable (single : ∀ {p q y}, Below children p y → Below children q y → p = q)
include single

theorem Sound.visit {visited pending : List α} {x : α}
    (once : ∀ p, (children p).Nodup) (apart : ¬Relation.TransGen (Below children) root root)
    (sound : Sound children root visited (x :: pending)) :
    Sound children root (visited ++ [x]) (pending ++ children x) := by
  obtain ⟨nodup,parent,closed,below⟩ := sound
  have same : visited ++ [x] ++ (pending ++ children x) = (visited ++ x :: pending) ++ children x := by
    simp only [append_assoc,cons_append,nil_append]
  have here : x ∈ visited ++ x :: pending := mem_append_right _ (.head _)
  have unvisited : x ∉ visited := fun member =>
    (nodup_append.mp nodup).2.2 x member x (.head _) rfl
  refine ⟨?_,?_,?_,?_⟩
  · rw [same]
    refine nodup_append.mpr ⟨nodup,once x,?_⟩
    rintro y old z new rfl
    rcases parent y old with rfl | ⟨p,member,edge⟩
    · exact apart (.tail' (below x here) new)
    · exact unvisited (single edge new ▸ member)
  · intro y member
    rw [same] at member
    rcases mem_append.mp member with old | new
    · rcases parent y old with isRoot | ⟨p,visit,edge⟩
      · exact .inl isRoot
      · exact .inr ⟨p,mem_append_left _ visit,edge⟩
    · exact .inr ⟨x,mem_append_right _ (mem_singleton.mpr rfl),new⟩
  · intro p member y edge
    rw [same]
    rcases mem_append.mp member with old | new
    · exact mem_append_left _ (closed p old y edge)
    · rw [mem_singleton.mp new] at edge
      exact mem_append_right _ edge
  · intro y member
    rw [same] at member
    rcases mem_append.mp member with old | new
    · exact below y old
    · exact (below x here).tail new

theorem visit_ends {bound : List α}
    (once : ∀ p, (children p).Nodup) (apart : ¬Relation.TransGen (Below children) root root)
    (bounded : ∀ x, Relation.ReflTransGen (Below children) root x → x ∈ bound) (fuel : Nat) :
    ∀ {visited pending : List α}, Sound children root visited pending → bound.length ≤ fuel + visited.length →
      ∃ all, visit children fuel visited pending = some all ∧ Sound children root all [] := by
  induction fuel with
  | zero =>
    intro visited pending sound most
    cases pending with
    | nil => exact ⟨visited,rfl,sound⟩
    | cons x pending =>
      have few := (subperm_of_subset sound.nodup fun y member => bounded y (sound.below y member)).length_le
      rw [length_append,length_cons] at few
      omega
  | succ fuel ih =>
    intro visited pending sound most
    cases pending with
    | nil => exact ⟨visited,rfl,sound⟩
    | cons x pending =>
      refine ih (sound.visit single once apart) ?_
      rw [length_append,length_singleton]
      omega

end

theorem visit_goes_on (fuel : Nat) : ∀ {visited pending : List α},
    (∃ x ∈ pending, Relation.TransGen (Below children) x root) → Relation.TransGen (Below children) root root →
      visit children fuel visited pending = none := by
  induction fuel with
  | zero =>
    rintro visited pending ⟨x,member,-⟩ -
    cases pending with
    | nil => exact absurd member not_mem_nil
    | cons y pending => rfl
  | succ fuel ih =>
    rintro visited pending ⟨x,member,above⟩ around
    cases pending with
    | nil => exact absurd member not_mem_nil
    | cons y pending =>
      refine ih ?_ around
      rcases mem_cons.mp member with rfl | later
      · obtain ⟨z,edge,rest⟩ := Relation.TransGen.head'_iff.mp above
        refine ⟨z,mem_append_right _ edge,?_⟩
        rcases Relation.reflTransGen_iff_eq_or_transGen.mp rest with rfl | more
        · exact around
        · exact more
      · exact ⟨x,mem_append_left _ later,above⟩

end Worklist
