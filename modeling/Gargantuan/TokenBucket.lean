import Mathlib.Tactic.Ring

/-!
What can be spent in a window of time from a credit that grows at a rate up to a cap.
The level of the credit is counted in parts, `unit` parts for one thing spent, so
that a credit may carry a fraction.
-/
namespace TokenBucket
open Nat
variable {unit rate cap start length level level' updated time spent n : Nat}

def grow (unit rate cap level elapsed : Nat) : Nat := min (level + rate * elapsed) (cap * unit)

theorem grow_grow (first second : Nat) :
    grow unit rate cap (grow unit rate cap level first) second = grow unit rate cap level (first + second) := by
  unfold grow
  rw [mul_add]
  omega

structure Account (unit rate cap start length level updated spent : Nat) : Prop where
  early : updated < start → spent = 0
  balance : spent * unit + level ≤ cap * unit + rate * (updated - start)
  within : spent * unit ≤ cap * unit + rate * length

theorem Account.opened (capped : level ≤ cap * unit) : Account unit rate cap start length level updated 0 :=
  ⟨fun _ => rfl,by omega,by omega⟩

variable (account : Account unit rate cap start length level updated spent)
include account

theorem Account.refill (later : updated ≤ time)
    (grown : level' ≤ level + rate * (time - updated)) (capped : level' ≤ cap * unit) :
    Account unit rate cap start length level' time spent := by
  by_cases before : updated < start
  · have none := account.early before
    refine ⟨fun _ => none,?_,account.within⟩
    rw [none]
    omega
  · have split : rate * (time - start) = rate * (time - updated) + rate * (updated - start) := by
      rw [← mul_add]
      congr 1
      omega
    have balance := account.balance
    exact ⟨by omega,by omega,account.within⟩

theorem Account.spend (enough : n * unit ≤ level) (begun : start ≤ updated) (lasts : updated ≤ start + length) :
    Account unit rate cap start length (level - n * unit) updated (spent + n) := by
  have balance := account.balance
  have sum : (spent + n) * unit = spent * unit + n * unit := add_mul _ _ _
  have most : rate * (updated - start) ≤ rate * length := mul_le_mul_left rate (by omega)
  exact ⟨by omega,by omega,by omega⟩

theorem Account.spend_outside (n : Nat) : Account unit rate cap start length (level - n * unit) updated spent :=
  ⟨account.early,by have := account.balance; omega,account.within⟩

theorem Account.spent_le (positive : 0 < unit) : spent ≤ cap + rate * length / unit := by
  have within := account.within
  have rest : (spent - cap) * unit ≤ rate * length := by
    rw [Nat.sub_mul]
    omega
  have := (Nat.le_div_iff_mul_le positive).mpr rest
  omega

end TokenBucket
