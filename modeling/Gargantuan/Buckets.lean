import Gargantuan.SortedMap

/-!
Sorted maps from keys to sorted sets of members, where a bucket is opened for
its first member and erased with its last. Two such maps without an empty
bucket that hold the same memberships are the same map, so what was entered
and taken out again leaves nothing behind.
-/
namespace Gargantuan
open SortedMap List
universe u v

abbrev SortedSet (α : Type u) [LinearOrder α] := SortedMap α Unit

/-- The members filed under each key. -/
abbrev Buckets (κ : Type u) (α : Type v) [LinearOrder κ] [LinearOrder α] := SortedMap κ (SortedSet α)

namespace Buckets
variable {κ : Type u} {α : Type v} [LinearOrder κ] [LinearOrder α]

/-- Whether the member is filed under the key. -/
def holds (m : Buckets κ α) (k : κ) (a : α) : Bool :=
  match m.find? k with
  | some bucket => bucket.contains a
  | none => false

/-- Opens an empty bucket where there is none. -/
def opened (m : Buckets κ α) (k : κ) : Buckets κ α := if m.contains k then m else m.insert k ∅

/-- Files the member under the key. -/
def add (m : Buckets κ α) (k : κ) (a : α) : Buckets κ α := m.insert k (((m.find? k).getD ∅).insert a ())

def drop (m : Buckets κ α) (k : κ) (a : α) : Buckets κ α :=
  match m.find? k with
  | none => m
  | some bucket => if (bucket.erase a).isEmpty then m.erase k else m.insert k (bucket.erase a)

def addAll (a : α) (keys : List κ) (m : Buckets κ α) : Buckets κ α := keys.foldl (fun m k => m.add k a) m

def dropAll (a : α) (keys : List κ) (m : Buckets κ α) : Buckets κ α := keys.foldl (fun m k => m.drop k a) m

/-- Files the member under the keys in turn until an allocation fails: at the key of the given
    position, before or after its bucket was opened. -/
def addUntil (a : α) : Option (Nat × Bool) → List κ → Buckets κ α → Bool × Buckets κ α
  | _, [], m => (true,m)
  | none, k :: rest, m => addUntil a none rest (m.add k a)
  | some (0,bucket), k :: _, m => (false,if bucket then m.opened k else m)
  | some (n + 1,bucket), k :: rest, m => addUntil a (some (n,bucket)) rest (m.add k a)

/-- How many members are filed in all. -/
def count (m : Buckets κ α) : Nat := m.total SortedMap.size

def FilledOff (keys : List κ) (m : Buckets κ α) : Prop :=
  ∀ k bucket, m.find? k = some bucket → bucket.isEmpty = true → k ∈ keys

abbrev Filled (m : Buckets κ α) : Prop := FilledOff [] m

theorem contains_insert (s : SortedSet α) (a b : α) : (s.insert a ()).contains b = (decide (b = a) || s.contains b) := by
  rw [SortedMap.contains,find?_insert]
  by_cases same : b = a <;> simp [same,SortedMap.contains]

theorem contains_erase (s : SortedSet α) (a b : α) : (s.erase a).contains b = (decide (b ≠ a) && s.contains b) := by
  rw [SortedMap.contains,find?_erase]
  by_cases same : b = a <;> simp [same,SortedMap.contains]

theorem contains_empty (a : α) : (∅ : SortedSet α).contains a = false := rfl

variable {s : SortedSet α} {a : α} {k : κ} {m : Buckets κ α} {keys : List κ}

theorem ext_contains {t : SortedSet α} (same : ∀ a, s.contains a = t.contains a) : s = t := by
  refine ext_find? fun a => ?_
  have here := same a
  simp only [SortedMap.contains] at here
  cases left : s.find? a <;> cases right : t.find? a <;> simp_all

theorem isEmpty_iff : s.isEmpty ↔ ∀ a, s.contains a = false := by
  constructor
  · intro empty a
    have entries : s.entries = [] := by simpa [SortedMap.isEmpty] using empty
    have same : s = ∅ := ext_entries entries
    rw [same]
    exact contains_empty a
  · intro none
    have same : s = ∅ := ext_contains fun a => by rw [none a,contains_empty]
    rw [same]
    rfl

theorem size_insert (absent : s.contains a = false) : (s.insert a ()).size = s.size + 1 := by
  have missing : s.find? a = none := by simpa [SortedMap.contains] using absent
  have counted := (insert_perm () missing).length_eq
  simpa [SortedMap.size] using counted

theorem size_erase (present : s.contains a) : (s.erase a).size + 1 = s.size := by
  obtain ⟨x,found⟩ := contains_iff.mp present
  have counted := (erase_perm found).length_eq
  simpa [SortedMap.size] using counted.symm

theorem isEmpty_erase_iff (present : s.contains a) : (s.erase a).isEmpty ↔ s.size = 1 := by
  have counted := size_erase present
  have empty : (s.erase a).isEmpty ↔ (s.erase a).size = 0 := by
    simp [SortedMap.isEmpty,SortedMap.size]
  rw [empty]
  omega

theorem holds_iff : m.holds k a ↔ ∃ bucket, m.find? k = some bucket ∧ bucket.contains a := by
  rw [holds]
  cases m.find? k <;> simp

theorem find?_opened (m : Buckets κ α) (k k' : κ) :
    (m.opened k).find? k' = if k' = k then some ((m.find? k).getD ∅) else m.find? k' := by
  rw [opened,SortedMap.contains]
  cases found : m.find? k with
  | none => simp [find?_insert]
  | some bucket =>
    by_cases same : k' = k
    · simp [same,found]
    · simp [same]

theorem find?_drop_of_ne (m : Buckets κ α) {k' : κ} (a : α) (other : k' ≠ k) : (m.drop k a).find? k' = m.find? k' := by
  rw [drop]
  cases m.find? k with
  | none => rfl
  | some bucket =>
    by_cases empty : (bucket.erase a).isEmpty = true
    · simp [empty,find?_erase,other]
    · simp [empty,find?_insert,other]

theorem find?_drop_self {rest : SortedSet α} (left : (m.drop k a).find? k = some rest) :
    ∃ bucket, m.find? k = some bucket ∧ rest = bucket.erase a ∧ rest.isEmpty = false := by
  rw [drop] at left
  cases found : m.find? k with
  | none => simp [found] at left
  | some bucket =>
    by_cases empty : (bucket.erase a).isEmpty = true
    · simp [found,empty] at left
    · have same : rest = bucket.erase a := by simpa [found,empty,find?_insert] using left.symm
      exact ⟨bucket,rfl,same,by simpa [same] using empty⟩

section
variable (m : Buckets κ α)

@[simp] theorem holds_opened (k k' : κ) (a : α) : (m.opened k).holds k' a = m.holds k' a := by
  rw [holds,holds,find?_opened]
  by_cases same : k' = k
  · rw [same]
    cases m.find? k <;> simp [contains_empty]
  · rw [if_neg same]

theorem holds_add (k k' : κ) (a b : α) : (m.add k a).holds k' b = (decide (k' = k ∧ b = a) || m.holds k' b) := by
  rw [holds,holds,add,find?_insert]
  by_cases same : k' = k
  · subst same
    cases m.find? k' <;> simp [contains_insert,contains_empty]
  · simp [same]

theorem holds_drop (k k' : κ) (a b : α) : (m.drop k a).holds k' b = (decide (¬ (k' = k ∧ b = a)) && m.holds k' b) := by
  by_cases same : k' = k
  · subst same
    rw [holds,holds,drop]
    cases found : m.find? k' with
    | none => simp [found]
    | some bucket =>
      by_cases empty : (bucket.erase a).isEmpty = true
      · have gone := isEmpty_iff.mp empty b
        rw [contains_erase] at gone
        by_cases here : b = a <;> simp_all
      · simp [empty,contains_erase]
  · rw [holds,holds,find?_drop_of_ne m a same]
    simp [same]

end

theorem filled_add (filled : FilledOff keys m) (k : κ) (a : α) : FilledOff keys (m.add k a) := by
  intro k' bucket found empty
  rw [add,find?_insert] at found
  by_cases same : k' = k
  · rw [if_pos same] at found
    cases found
    have held := isEmpty_iff.mp empty a
    simp [contains_insert] at held
  · rw [if_neg same] at found
    exact filled k' bucket found empty

theorem filled_opened (filled : FilledOff keys m) (named : k ∈ keys) : FilledOff keys (m.opened k) := by
  intro k' bucket found empty
  rw [find?_opened] at found
  by_cases same : k' = k
  · rwa [same]
  · rw [if_neg same] at found
    exact filled k' bucket found empty

theorem filled_drop (filled : FilledOff (k :: keys) m) (a : α) : FilledOff keys (m.drop k a) := by
  intro k' bucket found empty
  by_cases same : k' = k
  · rw [same] at found
    obtain ⟨_,-,-,nonempty⟩ := find?_drop_self found
    rw [empty] at nonempty
    contradiction
  · rw [find?_drop_of_ne m a same] at found
    exact (mem_cons.mp (filled k' bucket found empty)).resolve_left same

theorem FilledOff.weaken {more : List κ} (filled : FilledOff keys m) (within : ∀ k ∈ keys, k ∈ more) :
    FilledOff more m :=
  fun k bucket found empty => within k (filled k bucket found empty)

theorem ext_holds {n : Buckets κ α} (left : Filled m) (right : Filled n) (same : ∀ k a, m.holds k a = n.holds k a) :
    m = n := by
  -- a bucket of one map is inhabited, so the other has one under the key, with the same members
  have covered : ∀ {p q : Buckets κ α} {k : κ} {bucket : SortedSet α}, Filled p →
      (∀ a, p.holds k a = q.holds k a) → p.find? k = some bucket → q.find? k = some bucket := by
    intro p q k bucket filled agree found
    have members : ∀ a, q.holds k a = bucket.contains a := by
      intro a
      rw [← agree a,holds,found]
    cases there : q.find? k with
    | none =>
      have empty : bucket.isEmpty := isEmpty_iff.mpr fun a => by rw [← members a,holds,there]
      have named := filled k bucket found empty
      contradiction
    | some other =>
      have equal : other = bucket := ext_contains fun a => by rw [← members a,holds,there]
      rw [equal]
  refine ext_find? fun k => ?_
  cases here : m.find? k with
  | some bucket => exact (covered left (same k) here).symm
  | none =>
    cases there : n.find? k with
    | none => rfl
    | some bucket =>
      have both := covered right (fun a => (same k a).symm) there
      rw [here] at both
      contradiction

theorem holds_addAll (a : α) (keys : List κ) (m : Buckets κ α) (k : κ) (b : α) :
    (addAll a keys m).holds k b = (decide (b = a ∧ k ∈ keys) || m.holds k b) := by
  induction keys generalizing m with
  | nil => simp [addAll]
  | cons head rest ih =>
    have step := ih (m.add head a)
    simp only [addAll,foldl_cons] at step ⊢
    rw [step,holds_add]
    by_cases same : k = head <;> by_cases member : b = a <;> simp [same,member]

theorem holds_dropAll (a : α) (keys : List κ) (m : Buckets κ α) (k : κ) (b : α) :
    (dropAll a keys m).holds k b = (decide (¬ (b = a ∧ k ∈ keys)) && m.holds k b) := by
  induction keys generalizing m with
  | nil => simp [dropAll]
  | cons head rest ih =>
    have step := ih (m.drop head a)
    simp only [dropAll,foldl_cons] at step ⊢
    rw [step,holds_drop]
    by_cases same : k = head <;> by_cases member : b = a <;> simp [same,member]

theorem filled_addAll (a : α) (more : List κ) (filled : FilledOff keys m) : FilledOff keys (addAll a more m) := by
  induction more generalizing m with
  | nil => exact filled
  | cons head rest ih => exact ih (filled_add filled head a)

theorem filled_dropAll (a : α) (filled : FilledOff keys m) : Filled (dropAll a keys m) := by
  induction keys generalizing m with
  | nil => exact filled
  | cons head rest ih => exact ih (filled_drop filled a)

theorem Filled.dropAll (filled : Filled m) (a : α) (keys : List κ) : Filled (dropAll a keys m) :=
  filled_dropAll a (filled.weaken nofun)

theorem addUntil_done (a : α) (failure : Option (Nat × Bool)) (keys : List κ) (m : Buckets κ α)
    (done : (addUntil a failure keys m).1) : (addUntil a failure keys m).2 = addAll a keys m := by
  fun_induction addUntil a failure keys m with
  | case1 => rfl
  | case2 k rest m ih => exact ih done
  | case3 bucket k rest m => contradiction
  | case4 n bucket k rest m ih => exact ih done

theorem holds_addUntil (a : α) (failure : Option (Nat × Bool)) (keys : List κ) (m : Buckets κ α) {b : α}
    (other : ¬ (b = a ∧ k ∈ keys)) : (addUntil a failure keys m).2.holds k b = m.holds k b := by
  fun_induction addUntil a failure keys m with
  | case1 => rfl
  | case2 head rest m ih =>
    rw [ih (by grind),holds_add]
    grind
  | case3 bucket head rest m => cases bucket <;> simp
  | case4 n bucket head rest m ih =>
    rw [ih (by grind),holds_add]
    grind

theorem filled_addUntil (a : α) (failure : Option (Nat × Bool)) (keys : List κ) {named : List κ}
    (within : ∀ k ∈ keys, k ∈ named) (filled : FilledOff named m) : FilledOff named (addUntil a failure keys m).2 := by
  fun_induction addUntil a failure keys m with
  | case1 => exact filled
  | case2 head rest m ih => exact ih (by grind) (filled_add filled head a)
  | case3 bucket head rest m =>
    cases bucket with
    | false => exact filled
    | true => exact filled_opened filled (within head (.head _))
  | case4 n bucket head rest m ih => exact ih (by grind) (filled_add filled head a)

theorem dropAll_addUntil (failure : Option (Nat × Bool)) (filled : Filled m)
    (absent : ∀ k ∈ keys, m.holds k a = false) : dropAll a keys (addUntil a failure keys m).2 = m := by
  refine ext_holds ?_ filled ?_
  · exact filled_dropAll a (filled_addUntil a failure keys (fun k member => member) (filled.weaken nofun))
  · intro k b
    rw [holds_dropAll]
    by_cases here : b = a ∧ k ∈ keys
    · obtain ⟨rfl,member⟩ := here
      simp [member,absent k member]
    · simp [holds_addUntil a failure keys m here,here]

theorem dropAll_addAll {a : α} {keys : List κ} {m : Buckets κ α} (filled : Filled m)
    (absent : ∀ k ∈ keys, m.holds k a = false) : dropAll a keys (addAll a keys m) = m := by
  have all : ∀ (keys : List κ) (m : Buckets κ α), (addUntil a none keys m).1 := by
    intro keys
    induction keys with
    | nil => exact fun _ => rfl
    | cons k rest ih => exact fun m => ih (m.add k a)
  rw [← addUntil_done a none keys m (all keys m)]
  exact dropAll_addUntil none filled absent

theorem drop_add (filled : Filled m) (absent : m.holds k a = false) : (m.add k a).drop k a = m :=
  @dropAll_addAll κ α _ _ a [k] m filled (by simpa using absent)

theorem size_insert_of (m : Buckets κ α) (k : κ) (bucket : SortedSet α) :
    (m.insert k bucket).size = m.size + if m.contains k then 0 else 1 := by
  cases found : m.find? k with
  | none =>
    have counted := (insert_perm bucket found).length_eq
    simpa [SortedMap.size,SortedMap.contains,found] using counted
  | some old =>
    have erased := (erase_perm found).length_eq
    have entered := (insert_perm bucket (find?_erase_self m k)).length_eq
    have again : (m.erase k).insert k bucket = m.insert k bucket := by
      refine ext_find? fun k' => ?_
      simp only [find?_insert,find?_erase]
      split_ifs <;> rfl
    rw [again] at entered
    simp only [SortedMap.size,SortedMap.contains,found,Option.isSome_some,if_true,Nat.add_zero]
    rw [entered,erased]
    simp

theorem contains_add (m : Buckets κ α) (k k' : κ) (a : α) :
    (m.add k a).contains k' = (decide (k' = k) || m.contains k') := by
  rw [add,SortedMap.contains,find?_insert]
  by_cases same : k' = k <;> simp [same,SortedMap.contains]

theorem size_addAll (a : α) (distinct : keys.Nodup) (m : Buckets κ α) :
    (addAll a keys m).size = m.size + keys.countP (fun k => !m.contains k) := by
  induction keys generalizing m with
  | nil => rfl
  | cons head rest ih =>
    obtain ⟨fresh,tail⟩ := nodup_cons.mp distinct
    have step := ih tail (m.add head a)
    have later : rest.countP (fun k => !(m.add head a).contains k) = rest.countP (fun k => !m.contains k) := by
      refine countP_congr fun k member => ?_
      have other : k ≠ head := by
        rintro rfl
        exact fresh member
      simp [contains_add,other]
    have first : (m.add head a).size = m.size + if m.contains head then 0 else 1 := size_insert_of ..
    have unfolded : addAll a (head :: rest) m = addAll a rest (m.add head a) := rfl
    rw [unfolded,step,later,first,countP_cons]
    cases m.contains head with
    | true => simp
    | false =>
      simp only [Bool.not_false,if_true,Bool.false_eq_true,if_false]
      omega

/-- The bucket of the key holds one member only. -/
def single (m : Buckets κ α) (k : κ) : Bool :=
  match m.find? k with
  | some bucket => bucket.size == 1
  | none => false

theorem size_drop (held : m.holds k a) : (m.drop k a).size + (if m.single k then 1 else 0) = m.size := by
  obtain ⟨bucket,found,member⟩ := holds_iff.mp held
  rw [drop,single,found]
  by_cases alone : bucket.size = 1
  · have empty := (isEmpty_erase_iff member).mpr alone
    have counted := (erase_perm found).length_eq
    simp only [empty,if_true,alone,beq_self_eq_true]
    simpa [SortedMap.size] using counted.symm
  · have rest : ¬ (bucket.erase a).isEmpty := fun empty => alone ((isEmpty_erase_iff member).mp empty)
    simp [rest,alone,size_insert_of,SortedMap.contains,found]

theorem size_dropAll (a : α) (distinct : keys.Nodup) (held : ∀ k ∈ keys, m.holds k a) :
    (dropAll a keys m).size + keys.countP m.single = m.size := by
  induction keys generalizing m with
  | nil => rfl
  | cons head rest ih =>
    obtain ⟨fresh,tail⟩ := nodup_cons.mp distinct
    have apart : ∀ k ∈ rest, k ≠ head := by
      rintro k member rfl
      exact fresh member
    have still : ∀ k ∈ rest, (m.drop head a).holds k a := by
      intro k member
      rw [holds_drop,held k (.tail _ member)]
      simp [apart k member]
    have step := ih tail still
    have later : rest.countP (m.drop head a).single = rest.countP m.single := by
      refine countP_congr fun k member => ?_
      rw [single,single,find?_drop_of_ne m a (apart k member)]
    have first := size_drop (held head (.head _))
    have unfolded : dropAll a (head :: rest) m = dropAll a rest (m.drop head a) := rfl
    rw [unfolded,countP_cons,← first,← step]
    omega

theorem find?_addAll_of_not_mem (a : α) (absent : k ∉ keys) (m : Buckets κ α) :
    (addAll a keys m).find? k = m.find? k := by
  induction keys generalizing m with
  | nil => rfl
  | cons head rest ih =>
    rw [mem_cons,not_or] at absent
    obtain ⟨other,outside⟩ := absent
    have step := ih outside (m.add head a)
    have unfolded : addAll a (head :: rest) m = addAll a rest (m.add head a) := rfl
    rw [unfolded,step,add,find?_insert_of_ne _ _ other]

theorem count_add (absent : m.holds k a = false) : (m.add k a).count = m.count + 1 := by
  rw [count,count,add]
  cases found : m.find? k with
  | none =>
    rw [total_insert_new _ found]
    rfl
  | some bucket =>
    have outside : bucket.contains a = false := by simpa [holds,found] using absent
    have replaced := total_insert SortedMap.size found (bucket.insert a ())
    have grown := size_insert outside
    simp only [Option.getD_some] at replaced ⊢
    omega

theorem count_drop (held : m.holds k a) : (m.drop k a).count + 1 = m.count := by
  obtain ⟨bucket,found,member⟩ := holds_iff.mp held
  have shrunk := size_erase member
  rw [count,count,drop,found]
  by_cases empty : (bucket.erase a).isEmpty = true
  · have alone := (isEmpty_erase_iff member).mp empty
    have erased := total_erase SortedMap.size found
    simp only [empty,if_true]
    omega
  · have replaced := total_insert SortedMap.size found (bucket.erase a)
    simp only [empty]
    simp only [Bool.false_eq_true,if_false]
    omega

end Buckets
end Gargantuan
