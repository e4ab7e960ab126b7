import Mathlib.Data.List.Rotate
import Mathlib.Data.List.Lattice
import Mathlib.Order.Lattice

/-!
Rotations of a strictly ascending list by a cursor. The rotation starts at the
first member that is not below the cursor; moving the cursor behind a member
brings what followed that member to the front.
-/
namespace Gargantuan
open List Option
universe u

section
variable {κ : Type u} [LinearOrder κ]

def fromCursor (keys : List κ) : Option κ → List κ
  | none => keys
  | some c => keys.dropWhile (fun k => decide (k < c)) ++ keys.takeWhile fun k => decide (k < c)

/-- The member after another one; after the last member, and for one that is no member, the first. -/
def after (l : List κ) (k : κ) : Option κ :=
  match l.dropWhile fun x => decide (x ≠ k) with
  | _ :: next :: _ => some next
  | _ => l.head?

theorem isRotated_fromCursor (keys : List κ) (cursor : Option κ) : keys.IsRotated (fromCursor keys cursor) := by
  cases cursor with
  | none => exact .refl keys
  | some c =>
    have rotated : (keys.takeWhile (fun k => decide (k < c)) ++ keys.dropWhile fun k => decide (k < c)).IsRotated
        (fromCursor keys (some c)) := isRotated_append
    rwa [takeWhile_append_dropWhile] at rotated

variable {keys : List κ}

theorem nodup_fromCursor (cursor : Option κ) (sorted : keys.Pairwise (· < ·)) : (fromCursor keys cursor).Nodup :=
  (isRotated_fromCursor keys cursor).perm.nodup_iff.mp (sorted.imp fun {_ _} less => less.ne)

variable {l : List κ}

theorem fromCursor_of_isRotated {d : κ} {rest : List κ} (sorted : keys.Pairwise (· < ·))
    (rotated : keys.IsRotated l) (starts : l = d :: rest) : fromCursor keys (some d) = l := by
  obtain ⟨n,within,turned⟩ := isRotated_iff_mod.mp rotated
  rw [rotate_eq_drop_append_take within] at turned
  have split : keys = keys.take n ++ keys.drop n := (take_append_drop n keys).symm
  generalize keys.take n = front at split turned
  generalize keys.drop n = back at split turned
  subst split
  rw [← turned]
  rw [starts] at turned
  cases back with
  | nil =>
    subst turned
    simp [fromCursor]
  | cons e more =>
    rw [cons_append,List.cons.injEq] at turned
    obtain ⟨rfl,-⟩ := turned
    have below : ∀ k ∈ front, decide (k < e) := by
      intro k member
      have ordered := (pairwise_append.mp sorted).2.2 k member e (.head _)
      exact decide_eq_true ordered
    simp only [fromCursor]
    rw [dropWhile_append_of_pos below,takeWhile_append_of_pos below]
    simp

variable {front behind : List κ} {k : κ}

theorem after_append (absent : k ∉ front) :
    after (front ++ k :: behind) k = (behind ++ front ++ [k]).head? := by
  have others : ∀ x ∈ front, decide (x ≠ k) := by
    intro x member
    apply decide_eq_true
    rintro rfl
    exact absent member
  unfold after
  rw [dropWhile_append_of_pos others]
  cases behind with
  | nil => cases front <;> simp
  | cons d rest => simp

theorem fromCursor_after {cursor : Option κ} (sorted : keys.Pairwise (· < ·))
    (rotation : fromCursor keys cursor = front ++ k :: behind) :
    fromCursor keys (after (fromCursor keys cursor) k) = behind ++ front ++ [k] := by
  have rotated := isRotated_fromCursor keys cursor
  have nodup := nodup_fromCursor cursor sorted
  rw [rotation] at rotated nodup
  have absent : k ∉ front := by
    intro member
    exact (nodup_append.mp nodup).2.2 k member k (.head _) rfl
  have turned : keys.IsRotated (behind ++ front ++ [k]) := by
    refine rotated.trans ?_
    have swap : (front ++ [k] ++ behind).IsRotated (behind ++ (front ++ [k])) := isRotated_append
    simpa using swap
  rw [rotation,after_append absent]
  cases whole : behind ++ front ++ [k] with
  | nil => simp at whole
  | cons d rest =>
    rw [whole] at turned
    exact fromCursor_of_isRotated sorted turned rfl

def firstAfter (keys : List κ) (cursor : κ) : Option κ :=
  (keys.find? fun k => decide (cursor < k)).or keys.head?

/-- From the cursor `a`, going up and around, `b` comes before one reaches `c`. -/
def Towards (c a b : κ) : Prop := (c < a ∧ (a < b ∨ b < c)) ∨ (a < c ∧ a < b ∧ b < c)

theorem Towards.trans {c x y z : κ} (first : Towards c x y) (second : Towards c y z) : Towards c x z := by
  rcases first with ⟨above,beyond | turned⟩ | ⟨below,beyond,short⟩
  · rcases second with ⟨-,further | turned⟩ | ⟨under,-,-⟩
    · exact .inl ⟨above,.inl (beyond.trans further)⟩
    · exact .inl ⟨above,.inr turned⟩
    · exact absurd (above.trans beyond) (not_lt.mpr under.le)
  · rcases second with ⟨past,-⟩ | ⟨-,-,short⟩
    · exact absurd past (not_lt.mpr turned.le)
    · exact .inl ⟨above,.inr short⟩
  · rcases second with ⟨past,-⟩ | ⟨-,further,short'⟩
    · exact absurd past (not_lt.mpr short.le)
    · exact .inr ⟨below,beyond.trans further,short'⟩

variable {c a b : κ}

theorem Towards.ne (towards : Towards c a b) : a ≠ b := by
  rcases towards with ⟨above,beyond | turned⟩ | ⟨-,beyond,-⟩
  · exact beyond.ne
  · exact (turned.trans above).ne'
  · exact beyond.ne

variable {cursor : κ}

theorem mem_of_firstAfter (next : firstAfter keys cursor = some k) : k ∈ keys := by
  rcases or_eq_some_iff.mp next with found | ⟨-,first⟩
  · exact mem_of_find?_eq_some found
  · exact mem_of_mem_head? first

theorem firstAfter_eq_none (nothing : firstAfter keys cursor = none) : keys = [] := by
  exact head?_eq_none_iff.mp (or_eq_none_iff.mp nothing).2

theorem towards_firstAfter {c : κ} (sorted : keys.Pairwise (· < ·)) (member : c ∈ keys)
    (next : firstAfter keys cursor = some k) (elsewhere : cursor ≠ c) (other : k ≠ c) : Towards c cursor k := by
  rcases or_eq_some_iff.mp next with found | ⟨nothing,first⟩
  · have beyond : cursor < k := by simpa using find?_some found
    rcases lt_or_gt_of_ne elsewhere with below | above
    · obtain ⟨_,front,behind,split,before⟩ := find?_eq_some_iff_append.mp found
      rw [split] at sorted member
      have ahead : c ∉ front := by
        intro inside
        have refused := before c inside
        simp [below] at refused
      have within := (mem_append.mp member).resolve_left ahead
      have later : c ∈ behind := (mem_cons.mp within).resolve_left other.symm
      have short : k < c := (pairwise_cons.mp (pairwise_append.mp sorted).2.1).1 c later
      exact .inr ⟨below,beyond,short⟩
    · exact .inl ⟨above,.inl beyond⟩
  · have notAbove : ¬ cursor < c := by simpa using find?_eq_none.mp nothing c member
    have above : c < cursor := lt_of_le_of_ne (not_lt.mp notAbove) elsewhere.symm
    obtain ⟨rest,starts⟩ : ∃ rest, keys = k :: rest := head?_eq_some_iff.mp first
    subst starts
    have later : c ∈ rest := (mem_cons.mp member).resolve_left other.symm
    exact .inl ⟨above,.inr ((pairwise_cons.mp sorted).1 c later)⟩

def Ascends (c : κ) : κ → List κ → κ → Prop
  | a, [], b => b = a
  | a, x :: rest, b => (a ≠ c → Towards c a x) ∧ x ≠ c ∧ Ascends c x rest b

theorem Ascends.append {c a m b : κ} {first second : List κ} (before : Ascends c a first m)
    (behind : Ascends c m second b) : Ascends c a (first ++ second) b := by
  induction first generalizing a with
  | nil =>
    cases before
    exact behind
  | cons x rest ih => exact ⟨before.1,before.2.1,ih before.2.2⟩

theorem Ascends.towards (ascends : Ascends c a l b) (elsewhere : a ≠ c) : ∀ x ∈ l, Towards c a x := by
  induction l generalizing a with
  | nil => simp
  | cons y rest ih =>
    obtain ⟨first,other,onward⟩ := ascends
    intro x member
    rcases mem_cons.mp member with rfl | later
    · exact first elsewhere
    · exact (first elsewhere).trans (ih onward other x later)

theorem Ascends.nodup (ascends : Ascends c a l b) : l.Nodup := by
  induction l generalizing a with
  | nil => exact nodup_nil
  | cons x rest ih =>
    obtain ⟨-,other,onward⟩ := ascends
    refine nodup_cons.mpr ⟨?_,ih onward⟩
    intro again
    exact (onward.towards other x again).ne rfl

end
end Gargantuan
