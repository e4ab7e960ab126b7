import Mathlib.Order.Lattice

/-!
A share of a known total that only an interval is known about. What is added to
the total comes with its share; what leaves the total may have come from either
part, and the interval gives way as far as that allows.
-/
namespace Gargantuan.HiddenShare

structure Estimate where
  total : Nat := 0
  lower : Nat := 0
  upper : Nat := 0
deriving DecidableEq

namespace Estimate

def grow (e : Estimate) (all share : Nat) : Estimate where
  total := e.total + all
  lower := e.lower + share
  upper := e.upper + share

def shrink (e : Estimate) (gone : Nat) : Estimate where
  total := e.total - gone
  lower := e.lower - min e.lower gone
  upper := min e.upper (e.total - gone)

structure Ordered (e : Estimate) : Prop where
  lowerLe : e.lower ≤ e.upper
  upperLe : e.upper ≤ e.total

variable {e : Estimate} {share : Nat}

theorem Ordered.grow {all : Nat} (ordered : e.Ordered) (part : share ≤ all) : (e.grow all share).Ordered := by
  have below := ordered.upperLe
  exact ⟨Nat.add_le_add_right ordered.lowerLe share,Nat.add_le_add below part⟩

theorem Ordered.shrink {gone : Nat} (ordered : e.Ordered) (enough : gone ≤ e.total) : (e.shrink gone).Ordered := by
  obtain ⟨lowerLe,upperLe⟩ := ordered
  refine ⟨?_,Nat.min_le_right _ _⟩
  simp only [Estimate.shrink]
  omega

structure Covers (e : Estimate) (share rest : Nat) : Prop where
  whole : share + rest = e.total
  lowerLe : e.lower ≤ share
  leUpper : share ≤ e.upper

theorem Covers.grow {rest all added : Nat} (covers : e.Covers share rest) (part : added ≤ all) :
    (e.grow all added).Covers (share + added) (rest + (all - added)) := by
  obtain ⟨whole,lowerLe,leUpper⟩ := covers
  refine ⟨?_,Nat.add_le_add_right lowerLe added,Nat.add_le_add_right leUpper added⟩
  simp only [Estimate.grow]
  omega

theorem Covers.shrink {rest fromShare fromRest : Nat} (covers : e.Covers share rest)
    (shareHas : fromShare ≤ share) (restHas : fromRest ≤ rest) :
    (e.shrink (fromShare + fromRest)).Covers (share - fromShare) (rest - fromRest) := by
  obtain ⟨whole,lowerLe,leUpper⟩ := covers
  refine ⟨?_,?_,?_⟩ <;> simp only [Estimate.shrink] <;> omega

theorem Covers.max_add_max_le {rest : Nat} (covers : e.Covers share rest) (a b : Nat) : max share a + max rest b ≤
      max (max e.lower a + max (e.total - e.lower) b) (max e.upper a + max (e.total - e.upper) b) := by
  obtain ⟨whole,lowerLe,leUpper⟩ := covers
  omega

end Estimate

end Gargantuan.HiddenShare
