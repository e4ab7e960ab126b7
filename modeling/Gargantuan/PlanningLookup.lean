import Gargantuan.SortedMap
import Mathlib.Data.List.TakeWhile

/-!
The ordered join of planning: requests in rising order are looked up in a map with a cursor that is moved on
a few entries and then by a search. A cursor is the list of the entries from it on.
-/
namespace Gargantuan.PlanningLookup
open List SortedMap

variable {κ ν : Type} [LinearOrder κ]

def maximumPlanningLookupAdvances : Nat := 8

def advance (object : κ) : Nat → List (κ × ν) → List (κ × ν)
  | 0, cursor => cursor
  | _ + 1, [] => []
  | turns + 1, entry :: rest => if entry.1 < object then advance object turns rest else entry :: rest

def lowerBound (values : SortedMap κ ν) (object : κ) : List (κ × ν) := values.entries.dropWhile (·.1 < object)

/-- The entry that is found, and the cursor afterwards. -/
def findPlanningObject (values : SortedMap κ ν) (cursor : List (κ × ν)) (object : κ) : Option (κ × ν) × List (κ × ν) :=
  let cursor := advance object maximumPlanningLookupAdvances cursor
  let cursor := if cursor.head?.any (·.1 < object) then lowerBound values object else cursor
  (cursor.head?.filter (·.1 = object),cursor)

/-- The lookups of one pass. -/
def findAll (values : SortedMap κ ν) : List (κ × ν) → List κ → List (Option (κ × ν))
  | _, [] => []
  | cursor, object :: rest =>
    (findPlanningObject values cursor object).1 :: findAll values (findPlanningObject values cursor object).2 rest

variable {values : SortedMap κ ν} {cursor : List (κ × ν)} {object : κ}

/-- A cursor that has passed only entries below the key. -/
def Before (values : SortedMap κ ν) (cursor : List (κ × ν)) (object : κ) : Prop :=
  ∃ passed, values.entries = passed ++ cursor ∧ ∀ e ∈ passed, e.1 < object

theorem Before.advance (before : Before values cursor object) (turns : Nat) :
    Before values (advance object turns cursor) object := by
  induction turns generalizing cursor with
  | zero => exact before
  | succ turns ih =>
    cases cursor with
    | nil => exact before
    | cons e rest =>
      rw [PlanningLookup.advance]
      split_ifs with below
      · obtain ⟨passed,all,small⟩ := before
        refine ih ⟨passed ++ [e],by rw [append_assoc,all]; rfl,fun x mem => ?_⟩
        rcases mem_append.mp mem with mem | mem
        · exact small x mem
        · rwa [mem_singleton.mp mem]
      · exact before

/-- There is one cursor before a key whose entry is not below the key. -/
theorem Before.eq_lowerBound (before : Before values cursor object) (stops : cursor.head?.any (·.1 < object) = false) :
    cursor = lowerBound values object := by
  obtain ⟨passed,all,small⟩ := before
  rw [lowerBound,all,dropWhile_append_of_pos (by simpa using small)]
  cases cursor with
  | nil => rfl
  | cons e rest => rw [dropWhile_cons_of_neg (by simpa using stops)]

theorem before_lowerBound (values : SortedMap κ ν) (object : κ) : Before values (lowerBound values object) object :=
  ⟨values.entries.takeWhile (·.1 < object),takeWhile_append_dropWhile.symm,
    fun _ mem => by simpa using mem_takeWhile_imp mem⟩

theorem findPlanningObject_cursor (before : Before values cursor object) :
    (findPlanningObject values cursor object).2 = lowerBound values object := by
  rw [findPlanningObject]
  dsimp only
  split_ifs with below
  · rfl
  · exact (before.advance _).eq_lowerBound (by simpa using below)

theorem head_lowerBound (values : SortedMap κ ν) (object : κ) :
    (lowerBound values object).head?.filter (·.1 = object) = (values.find? object).map (object,·) := by
  obtain ⟨passed,all,small⟩ := before_lowerBound values object
  have sorted := values.sorted
  rw [all] at sorted
  have above : ∀ e ∈ (lowerBound values object).head?, object ≤ e.1 := by
    intro e first
    have stops := head?_dropWhile_not (fun e : κ × ν => decide (e.1 < object)) values.entries
    have found : (values.entries.dropWhile fun e => decide (e.1 < object)).head? = some e := first
    simpa [found] using stops
  ext e
  simp only [Option.filter_eq_some_iff,decide_eq_true_eq,Option.map_eq_some_iff,find?_eq_some,all]
  constructor
  · rintro ⟨first,rfl⟩
    exact ⟨e.2,mem_append_right _ (mem_of_mem_head? first),rfl⟩
  · rintro ⟨x,mem,rfl⟩
    refine ⟨?_,rfl⟩
    have here := (mem_append.mp mem).resolve_left fun mem => lt_irrefl object (small _ mem)
    cases rest : lowerBound values object with
    | nil =>
      rw [rest] at here
      cases here
    | cons e rest' =>
      rw [rest] at here above sorted
      rcases mem_cons.mp here with rfl | later
      · rfl
      · have less := (pairwise_cons.mp (pairwise_append.mp sorted).2.1).1 _ later
        exact absurd less (not_lt_of_ge (above e rfl))

/-- Whether the cursor is moved step by step or by the search, each request of a rising pass finds what a lookup finds. -/
theorem findAll_eq (values : SortedMap κ ν) {requests : List κ} (rising : requests.Pairwise (· ≤ ·)) :
    findAll values values.entries requests = requests.map fun object => (values.find? object).map (object,·) := by
  suffices all : ∀ cursor, (∀ object ∈ requests, Before values cursor object) →
      findAll values cursor requests = requests.map fun object => (values.find? object).map (object,·) from
    all _ fun _ _ => ⟨[],rfl,nofun⟩
  induction requests with
  | nil => exact fun _ _ => rfl
  | cons object rest ih =>
    intro cursor before
    obtain ⟨least,rising⟩ := pairwise_cons.mp rising
    have moved := findPlanningObject_cursor (before object (.head _))
    have first : (findPlanningObject values cursor object).1 = (values.find? object).map (object,·) := by
      rw [← head_lowerBound,← moved]
      rfl
    rw [findAll,moved,map_cons,first,ih rising]
    intro later mem
    obtain ⟨passed,all,small⟩ := before_lowerBound values object
    exact ⟨passed,all,fun e below => (small e below).trans_le (least later mem)⟩

theorem findAll_two : findAll ((∅ : SortedMap Nat Bool).insert 3 true) [(3,true)] [2,3] = [none,some (3,true)] :=
  findAll_eq ((∅ : SortedMap Nat Bool).insert 3 true) (show [2,3].Pairwise (· ≤ ·) by decide)

end Gargantuan.PlanningLookup
