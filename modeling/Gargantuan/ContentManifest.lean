import Mathlib.Algebra.Order.Ring.Nat
import Mathlib.Order.WellFoundedSet

/-!
What the parser of package manifests checks of all entries together. An entry is one that passed the
checks of its shape, so its keys are not empty and the previous key is an option. The counts of the
in-degree loop wrap as `std::size_t` does; whether a zero was decremented is history only.
-/
namespace Gargantuan.ContentManifest
open List

def maximumPackageContentUnits : Nat := 65536
def maximumPackageContentDependencies : Nat := 262144
def maximumPackageContentDependenciesPerUnit : Nat := 64

structure Entry (κ : Type*) where
  key : κ
  dependencies : List κ

structure Degrees where
  inDegree : Nat → Nat
  ready : List Nat
  visited : Nat := 0
  borrowed : Bool := false

def release (s : Degrees) (dependent : Nat) : Degrees :=
  let count := if s.inDegree dependent = 0 then 2 ^ 64 - 1 else s.inDegree dependent - 1
  { s with
    inDegree := Function.update s.inDegree dependent count
    ready := if count = 0 then s.ready ++ [dependent] else s.ready
    borrowed := s.borrowed || s.inDegree dependent = 0 }

def drain (dependents : Nat → List Nat) : Nat → Degrees → Option Degrees
  | turns, s =>
    match s.ready, turns with
    | [], _ => some s
    | _ :: _, 0 => none
    | index :: rest, turns + 1 =>
      drain dependents turns ((dependents index).foldl release { s with ready := rest, visited := s.visited + 1 })

variable {κ : Type*} [LinearOrder κ]

def parseDependencies (key : κ) : Option κ → List κ → Except String Unit
  | _, [] => .ok ()
  | prior, d :: rest =>
    if d = key ∨ prior.any (d ≤ ·) then .error "dependency identity is invalid, duplicated, or unsorted"
    else parseDependencies key (some d) rest

def parseEntries : List κ → Nat → List (Entry κ) → Except String Unit
  | _, _, [] => .ok ()
  | seen, edges, e :: rest =>
    if seen.head?.any (e.key ≤ ·) ∨ e.key ∈ seen then .error "content entry identity or bounds are invalid"
    else if e.dependencies.length > maximumPackageContentDependenciesPerUnit ∨
        e.dependencies.length > maximumPackageContentDependencies - edges then
      .error "dependency count exceeds its bound"
    else do
      parseDependencies e.key none e.dependencies
      parseEntries (e.key :: seen) (edges + e.dependencies.length) rest

def indexOf (entries : List (Entry κ)) (d : κ) : Option Nat := entries.findIdx? (·.key = d)

def dependenciesOf (entries : List (Entry κ)) (i : Nat) : List κ := (entries[i]?.map (·.dependencies)).getD []

/-- What is pushed for one entry, a push for every dependency that leads to it. -/
def dependents (entries : List (Entry κ)) (j : Nat) : List Nat :=
  (List.range entries.length).flatMap fun i =>
    List.replicate ((dependenciesOf entries i).countP (indexOf entries · = some j)) i

def start (entries : List (Entry κ)) : Degrees where
  inDegree i := (dependenciesOf entries i).length
  ready := (List.range entries.length).filter fun i => (dependenciesOf entries i).length = 0

/-- The in-degree loop, with a turn for each entry. -/
def drained (entries : List (Entry κ)) : Option Degrees := drain (dependents entries) entries.length (start entries)

def parseManifest (entries : List (Entry κ)) : Except String Unit :=
  if entries.length > maximumPackageContentUnits then .error "manifest identity or entry count is invalid"
  else
    match parseEntries [] 0 entries with
    | .error message => .error message
    | .ok () =>
      if ∃ e ∈ entries, ∃ d ∈ e.dependencies, indexOf entries d = none then .error "dependency target is absent"
      else if (drained entries).map (·.visited) ≠ some entries.length then
        .error "dependency graph contains a cycle"
      else .ok ()

variable {entries : List (Entry κ)} {done pending : List Nat} {s : Degrees} {i x : Nat} {d : κ} {e : Entry κ}

def Depends (entries : List (Entry κ)) (d k : κ) : Prop := ∃ e ∈ entries, e.key = k ∧ d ∈ e.dependencies

def waits (entries : List (Entry κ)) (done : List Nat) (i : Nat) : Nat :=
  (dependenciesOf entries i).countP fun d => indexOf entries d ∉ done.map some

/-- A state of the loop in which these were popped and these decrements are still to come. -/
structure Sound (entries : List (Entry κ)) (done pending : List Nat) (s : Degrees) : Prop where
  nodup : (done ++ s.ready).Nodup
  bound : ∀ i ∈ pending ++ (done ++ s.ready), i < entries.length
  degree : ∀ i, s.inDegree i = waits entries done i + pending.count i
  ready : ∀ i < entries.length, i ∈ done ++ s.ready ↔ s.inDegree i = 0
  visited : s.visited = done.length
  borrowed : s.borrowed = false
  grounded : ∀ i ∈ done, ∀ e, entries[i]? = some e → Acc (Depends entries) e.key

theorem count_dependents : (dependents entries x).count i = (dependenciesOf entries i).countP (indexOf entries · = some x) := by
  have counted (n : Nat) (f : Nat → Nat) :
      ((range n).flatMap fun i => replicate (f i) i).count i = if i < n then f i else 0 := by
    induction n with
    | zero => simp
    | succ n ih =>
      rw [range_succ,flatMap_append,count_append,ih,flatMap_singleton,count_replicate]
      grind
  rw [dependents,counted]
  split_ifs with less
  · rfl
  · simp [dependenciesOf,getElem?_eq_none (not_lt.mp less)]

theorem waits_cons (fresh : x ∉ done) :
    waits entries done i = waits entries (x :: done) i + (dependents entries x).count i := by
  rw [count_dependents,waits,waits]
  induction dependenciesOf entries i with
  | nil => rfl
  | cons d l ih =>
    simp only [countP_cons,ih]
    grind

theorem Sound.step (sound : Sound entries done (x :: pending) s) : Sound entries done pending (release s x) := by
  have some : s.inDegree x ≠ 0 := by simp [sound.degree]
  have less := sound.bound x (by simp)
  have free : x ∉ done ++ s.ready := mt (sound.ready x less).mp some
  have degrees (i : Nat) : (release s x).inDegree i = if i = x then s.inDegree x - 1 else s.inDegree i := by
    simp [release,Function.update_apply,some]
  have waiting : (release s x).ready = if s.inDegree x = 1 then s.ready ++ [x] else s.ready := by
    simp only [release,some,if_false]
    exact if_congr (by omega) rfl rfl
  constructor
  · rw [waiting]
    split_ifs
    · rw [← append_assoc]
      exact sound.nodup.append (by simp) (by simpa using free)
    · exact sound.nodup
  · intro i mem
    have old := sound.bound i
    rw [waiting] at mem
    split_ifs at mem <;> grind
  · intro i
    grind [sound.degree i]
  · intro i small
    have ready := sound.ready i small
    rw [waiting,degrees]
    grind
  · exact sound.visited
  · simpa [release,some] using sound.borrowed
  · exact sound.grounded

theorem Sound.steps (sound : Sound entries done pending s) : Sound entries done [] (pending.foldl release s) := by
  induction pending generalizing s with
  | nil => exact sound
  | cons x pending ih => exact ih sound.step

theorem indexOf_some {j : Nat} (found : indexOf entries d = some j) : ∃ e, entries[j]? = some e ∧ e.key = d := by
  obtain ⟨less,key,-⟩ := findIdx?_eq_some_iff_getElem.mp found
  exact ⟨_,getElem?_eq_getElem less,by simpa using key⟩

theorem Sound.turn {rest : List Nat} (unique : (entries.map Entry.key).Nodup) (sound : Sound entries done [] s)
    (next : s.ready = x :: rest) :
    Sound entries (x :: done) (dependents entries x) { s with ready := rest, visited := s.visited + 1 } := by
  have all := sound.nodup
  rw [next] at all
  have less := sound.bound x (by simp [next])
  have fresh : x ∉ done := fun mem => (disjoint_of_nodup_append all) mem mem_cons_self
  have members (i : Nat) : i ∈ x :: done ++ rest ↔ i ∈ done ++ s.ready := by
    simp only [next,mem_append,mem_cons]
    tauto
  constructor
  · exact (perm_middle.nodup_iff).mp all
  · intro i mem
    rcases mem_append.mp mem with pushed | mem
    · rw [dependents,mem_flatMap] at pushed
      grind
    · exact sound.bound i ((members i).mp mem)
  · intro i
    simpa [waits_cons fresh] using sound.degree i
  · intro i small
    exact (members i).trans (sound.ready i small)
  · simp [sound.visited]
  · exact sound.borrowed
  · intro i mem e there
    rcases mem_cons.mp mem with rfl | mem
    · refine ⟨_,fun d ⟨e',mem',same,named⟩ => ?_⟩
      obtain rfl := inj_on_of_nodup_map unique mem' (mem_of_getElem? there) same
      have free := sound.degree i
      rw [(sound.ready i less).mp (by simp [next]),count_nil,Nat.add_zero,eq_comm,waits,
        countP_eq_zero] at free
      have popped := free d (by simpa [dependenciesOf,there] using named)
      simp only [decide_not,Bool.not_eq_true',decide_eq_false_iff_not,not_not,mem_map] at popped
      obtain ⟨j,before,found⟩ := popped
      obtain ⟨f,there',rfl⟩ := indexOf_some found.symm
      exact sound.grounded j before f there'
    · exact sound.grounded i mem e there

theorem drain_sound (unique : (entries.map Entry.key).Nodup) {turns : Nat} (sound : Sound entries done [] s)
    (enough : entries.length ≤ done.length + turns) :
    ∃ t all, drain (dependents entries) turns s = some t ∧ Sound entries all [] t ∧ t.ready = [] := by
  induction turns generalizing done s with
  | zero =>
    rcases ready : s.ready with _ | ⟨x,rest⟩
    · exact ⟨s,done,by simp [drain,ready],sound,ready⟩
    · have few := (sound.nodup.subperm fun i mem => mem_range.mpr (sound.bound i mem)).length_le
      simp [ready] at few
      omega
  | succ turns ih =>
    rcases ready : s.ready with _ | ⟨x,rest⟩
    · exact ⟨s,done,by simp [drain,ready],sound,ready⟩
    · obtain ⟨t,all,run,sound⟩ := ih (sound.turn unique ready).steps (by simp; omega)
      refine ⟨t,all,?_,sound⟩
      rw [drain.eq_def]
      dsimp only
      rwa [ready]

structure Linked (entries : List (Entry κ)) : Prop where
  keys : (entries.map Entry.key).Nodup
  present : ∀ e ∈ entries, ∀ d ∈ e.dependencies, indexOf entries d ≠ none

theorem Linked.drained_sound (linked : Linked entries) :
    ∃ s done, drained entries = some s ∧ Sound entries done [] s ∧ s.ready = [] := by
  have begun : Sound entries [] [] (start entries) := {
    nodup := nodup_range.filter _
    bound := fun i mem => mem_range.mp (mem_filter.mp mem).1
    degree := by simp [waits,start]
    ready := fun i less => by simp [start,less]
    visited := rfl
    borrowed := rfl
    grounded := by simp }
  exact drain_sound linked.keys begun (by simp)

theorem Linked.all_visited (linked : Linked entries) (sound : Sound entries done [] s) (empty : s.ready = []) :
    s.visited = entries.length ↔ ∀ k, ¬Relation.TransGen (Depends entries) k k := by
  have nodup := sound.nodup
  have bound := sound.bound
  have ready := sound.ready
  simp only [empty,append_nil,nil_append] at nodup bound ready
  have within := nodup.subperm fun i mem => mem_range.mpr (bound i mem)
  rw [sound.visited]
  constructor
  · intro visited k cycle
    obtain ⟨d,-,e,mem,rfl,-⟩ := Relation.TransGen.tail'_iff.mp cycle
    obtain ⟨i,there⟩ := getElem?_of_mem mem
    have popped := (within.perm_of_length_le (by simp [visited])).mem_iff.mpr
      (mem_range.mpr (List.getElem?_eq_some_iff.mp there).1)
    have acc := (sound.grounded i popped e there).transGen
    generalize e.key = k at acc cycle
    induction acc with
    | intro k _ ih => exact ih k cycle cycle
  · intro acyclic
    have irreflexive : Std.Irrefl (Relation.TransGen (Depends entries)) := ⟨acyclic⟩
    have order : IsStrictOrder κ (Relation.TransGen (Depends entries)) := {}
    have founded := (finite_toSet (entries.map Entry.key)).wellFoundedOn (r := Relation.TransGen (Depends entries))
    let popped (k : κ) : Prop := ∀ i e, entries[i]? = some e → e.key = k → i ∈ done
    have all {k : κ} (mem : k ∈ entries.map Entry.key) : popped k := by
      refine founded.induction mem fun k _ ih i e there key => ?_
      have less := (List.getElem?_eq_some_iff.mp there).1
      have named := mem_of_getElem? there
      rw [ready i less,sound.degree i,count_nil,Nat.add_zero,waits,countP_eq_zero]
      intro d mem
      simp only [dependenciesOf,there,Option.map_some,Option.getD_some] at mem
      obtain ⟨j,found⟩ := Option.ne_none_iff_exists'.mp (linked.present e named d mem)
      obtain ⟨f,target,rfl⟩ := indexOf_some found
      have before := ih f.key (mem_map_of_mem (mem_of_getElem? target)) (.single ⟨e,named,key,mem⟩) j f
        target rfl
      simpa [found] using before
    refine (by simpa using within.length_le : done.length ≤ _).antisymm ?_
    have many : range entries.length ⊆ done := fun i mem => by
      have less := mem_range.mp mem
      exact all (mem_map_of_mem (getElem_mem less)) i _ (getElem?_eq_getElem less) rfl
    simpa using (nodup_range.subperm many).length_le

theorem parseDependencies_ok {key : κ} {prior : Option κ} {l : List κ} :
    parseDependencies key prior l = .ok () ↔ (prior.toList ++ l).IsChain (· < ·) ∧ key ∉ l := by
  induction l generalizing prior with
  | nil => cases prior <;> simp [parseDependencies]
  | cons d l ih =>
    rw [parseDependencies]
    split_ifs with bad
    · refine iff_of_false (by simp) fun ⟨order,other⟩ => ?_
      cases prior <;> grind
    · rw [ih]
      cases prior <;> grind

theorem parseEntries_ok {seen : List κ} {edges : Nat} {l : List (Entry κ)} (sorted : seen.reverse.IsChain (· < ·))
    (within : edges ≤ maximumPackageContentDependencies) :
    parseEntries seen edges l = .ok () ↔
      (seen.reverse ++ l.map Entry.key).IsChain (· < ·) ∧
      (∀ e ∈ l, e.dependencies.length ≤ maximumPackageContentDependenciesPerUnit ∧
        e.dependencies.IsChain (· < ·) ∧ e.key ∉ e.dependencies) ∧
      edges + (l.map (·.dependencies.length)).sum ≤ maximumPackageContentDependencies := by
  induction l generalizing seen edges with
  | nil => simpa [parseEntries,sorted] using within
  | cons e l ih =>
    rw [parseEntries]
    have newest : seen.head?.any (e.key ≤ ·) ∨ e.key ∈ seen ↔ ¬(e.key :: seen).reverse.IsChain (· < ·) := by
      rw [isChain_iff_pairwise,pairwise_reverse] at *
      cases seen <;> simp only [pairwise_cons,forall_mem_cons] at * <;> grind
    have same : seen.reverse ++ (e :: l).map Entry.key = (e.key :: seen).reverse ++ l.map Entry.key := by simp
    rw [same,forall_mem_cons,map_cons,sum_cons,← Nat.add_assoc]
    split_ifs with old many
    · exact iff_of_false (by simp) fun ⟨order,_⟩ => newest.mp old order.left_of_append
    · exact iff_of_false (by simp) fun ⟨_,⟨⟨small,_⟩,_⟩,total⟩ => by omega
    · have order := not_not.mp (mt newest.mpr old)
      simp only [not_or,not_lt,gt_iff_lt] at many
      rcases dependencies : parseDependencies e.key none e.dependencies with message | ⟨⟩
      · refine iff_of_false (by simp [bind,Except.bind]) fun ⟨_,⟨⟨_,shape⟩,_⟩,_⟩ => ?_
        cases dependencies.symm.trans (parseDependencies_ok.mpr shape)
      · obtain ⟨chain,other⟩ := parseDependencies_ok.mp dependencies
        rw [Option.toList_none,nil_append] at chain
        exact (ih order (by omega)).trans (by simp [many,chain,other])

theorem parseManifest_iff (entries : List (Entry κ)) :
    (parseManifest entries = .ok () ↔
      entries.length ≤ maximumPackageContentUnits ∧
      (entries.map (·.dependencies.length)).sum ≤ maximumPackageContentDependencies ∧
      (∀ e ∈ entries, e.dependencies.length ≤ maximumPackageContentDependenciesPerUnit) ∧
      (entries.map Entry.key).Pairwise (· < ·) ∧
      (∀ e ∈ entries, e.dependencies.Pairwise (· < ·)) ∧
      (∀ e ∈ entries, ∀ d ∈ e.dependencies, d ≠ e.key ∧ ∃ f ∈ entries, f.key = d) ∧
      ∀ k, ¬Relation.TransGen (Depends entries) k k) ∧
    (parseEntries [] 0 entries = .ok () → (∀ e ∈ entries, ∀ d ∈ e.dependencies, indexOf entries d ≠ none) →
      ∃ s, drained entries = some s ∧ s.ready = [] ∧ s.borrowed = false) := by
  have checked := @parseEntries_ok κ _ [] 0 entries .nil (Nat.zero_le _)
  simp only [reverse_nil,nil_append,isChain_iff_pairwise,Nat.zero_add] at checked
  have linked (parsed : parseEntries [] 0 entries = .ok ())
      (present : ∀ e ∈ entries, ∀ d ∈ e.dependencies, indexOf entries d ≠ none) : Linked entries :=
    ⟨(checked.mp parsed).1.imp fun less => less.ne,present⟩
  refine ⟨?_,fun parsed present => ?_⟩
  · have found (d : κ) : indexOf entries d ≠ none ↔ ∃ f ∈ entries, f.key = d := by simp [indexOf,findIdx?_eq_none_iff]
    simp only [parseManifest,← found]
    rcases parsed : parseEntries [] 0 entries with message | ⟨⟩
    · rw [parsed] at checked
      refine iff_of_false (by split_ifs <;> simp) fun ⟨_,total,small,keys,order,target,_⟩ => ?_
      cases checked.mpr ⟨keys,fun e mem => ⟨small e mem,order e mem,fun named => (target e mem _ named).1 rfl⟩,total⟩
    · obtain ⟨keys,shapes,total⟩ := checked.mp parsed
      dsimp only
      split_ifs with units absent cyclic
      · exact iff_of_false (by simp) fun accepted => absurd accepted.1 (by omega)
      · obtain ⟨e,mem,d,named,missing⟩ := absent
        exact iff_of_false (by simp) fun accepted => (accepted.2.2.2.2.2.1 e mem d named).2 missing
      all_goals
        have present : ∀ e ∈ entries, ∀ d ∈ e.dependencies, indexOf entries d ≠ none := by simpa using absent
        obtain ⟨s,done,run,sound,empty⟩ := (linked parsed present).drained_sound
        simp only [run,Option.map_some,ne_eq,Option.some.injEq,(linked parsed present).all_visited sound empty] at cyclic
      · exact iff_of_false (by simp) fun accepted => cyclic accepted.2.2.2.2.2.2
      · refine iff_of_true rfl ⟨by omega,total,fun e mem => (shapes e mem).1,keys,fun e mem => (shapes e mem).2.1,
          fun e mem d named => ⟨?_,present e mem d named⟩,not_not.mp cyclic⟩
        rintro rfl
        exact (shapes e mem).2.2 named
  · obtain ⟨s,done,run,sound,empty⟩ := (linked parsed present).drained_sound
    exact ⟨s,run,empty,sound.borrowed⟩

end Gargantuan.ContentManifest
