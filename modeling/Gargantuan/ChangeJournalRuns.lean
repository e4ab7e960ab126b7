import Gargantuan.ChangeJournal

/-!
What the journal's readers see. Of every scope the log is the list of all records that were
ever committed to it; the stream retains an end of it. A reader that goes on from a cursor
receives the log from there, one part after the other, until it is told that a part is gone.
-/
namespace Gargantuan.ChangeJournal
open List Candidate Nat SortedMap ChangeJournal
variable {π : Type}

/-- The records of the changes, numbered from here on. -/
def numbered (scope : ObjectId) : Nat → List (ObjectId × π) → List (ChangeRecord π)
  | _, [] => []
  | n, change :: rest => ⟨n,scope,change.1,change.2⟩ :: numbered scope (n + 1) rest

@[simp] theorem length_numbered (scope : ObjectId) (n : Nat) (changes : List (ObjectId × π)) :
    (numbered scope n changes).length = changes.length := by
  induction changes generalizing n with
  | nil => rfl
  | cons change rest ih => simp [numbered,ih]

theorem numbered_append (scope : ObjectId) (n : Nat) (first second : List (ObjectId × π)) :
    numbered scope n (first ++ second) = numbered scope n first ++ numbered scope (n + first.length) second := by
  induction first generalizing n with
  | nil => simp [numbered]
  | cons change rest ih =>
    simp only [cons_append,numbered,ih,length_cons]
    congr 3
    omega

variable {scope : ObjectId} {s : Stream π} {j j' : ChangeJournal π} {r : BufferedChangeRecord π} {c : Candidate π}
  {done records : List (BufferedChangeRecord π)} {candidates : List (Candidate π)} {outlet : Outlet} {start : Nat}

theorem sequence_numbered {n i : Nat} {changes : List (ObjectId × π)} {record : ChangeRecord π}
    (found : (numbered scope n changes)[i]? = some record) : record.sequence = n + i := by
  induction changes generalizing n i with
  | nil => simp [numbered] at found
  | cons change rest ih =>
    cases i with
    | zero =>
      simp only [numbered,getElem?_cons_zero,Option.some.injEq] at found
      rw [← found]
      rfl
    | succ i =>
      rw [ih found]
      omega

structure Extends (capacity : Nat) (scope : ObjectId) (s s' : Stream π) (changes : List (ObjectId × π)) : Prop where
  next : s'.nextSequence = s.nextSequence + changes.length
  small : s.nextSequence ≤ maximumSequence → s'.nextSequence ≤ maximumSequence
  retained : s'.records <:+ s.records ++ numbered scope s.nextSequence changes
  short : s'.records.length ≤ capacity

variable (capacity : Nat)

theorem retain_suffix (records : List (ChangeRecord π)) : retain capacity records <:+ records :=
  drop_suffix _ _

theorem length_retain_le (records : List (ChangeRecord π)) : (retain capacity records).length ≤ capacity := by
  rw [retain,length_drop]
  omega

theorem Extends.rest {capacity : Nat} (short : s.records.length ≤ capacity) : Extends capacity scope s s [] :=
  ⟨rfl,id,by simp [numbered],short⟩

theorem pushRecord_ok {s' : Stream π} {change : ObjectId × π} (pushed : pushRecord scope s change = .ok s') :
    s' = ⟨s.nextSequence + 1,s.records ++ numbered scope s.nextSequence [change]⟩ ∧
      (s.nextSequence ≤ maximumSequence → s'.nextSequence ≤ maximumSequence) := by
  unfold pushRecord at pushed
  split_ifs at pushed with last
  cases pushed
  exact ⟨rfl,fun bound => lt_of_le_of_ne bound last⟩

theorem pushRecords_ok {s' : Stream π} {changes : List (ObjectId × π)}
    (pushed : changes.foldlM (pushRecord scope) s = .ok s') :
    s' = ⟨s.nextSequence + changes.length,s.records ++ numbered scope s.nextSequence changes⟩ ∧
      (s.nextSequence ≤ maximumSequence → s'.nextSequence ≤ maximumSequence) := by
  induction changes generalizing s with
  | nil =>
    cases pushed
    exact ⟨by simp [numbered],id⟩
  | cons change rest ih =>
    rw [foldlM_cons] at pushed
    cases first : pushRecord scope s change with
    | error message => rw [first] at pushed; cases pushed
    | ok next =>
      rw [first] at pushed
      obtain ⟨shape,small⟩ := pushRecord_ok first
      obtain ⟨whole,smaller⟩ := ih pushed
      refine ⟨?_,fun bound => smaller (small bound)⟩
      rw [whole,shape]
      simp only [numbered,length_cons,append_assoc,cons_append,nil_append,Stream.mk.injEq,and_true]
      omega

@[simp] theorem stream_setStream (j : ChangeJournal π) (scope other : ObjectId) (s : Stream π) :
    (j.setStream scope s).stream other = if other = scope then s else j.stream other := by
  simp only [stream,setStream,find?_insert]
  split_ifs <;> rfl

@[simp] theorem stream_touch (j : ChangeJournal π) (scope other : ObjectId) :
    (j.touch scope).stream other = j.stream other := by
  rw [touch,stream_setStream]
  split_ifs with same
  · rw [same]
  · rfl

structure Same (j j' : ChangeJournal π) : Prop where
  streams : ∀ scope, j'.stream scope = j.stream scope
  capacity : j'.capacity = j.capacity

theorem Same.refl (j : ChangeJournal π) : Same j j := ⟨fun _ => rfl,rfl⟩

theorem Same.trans {k l : ChangeJournal π} (first : Same j k) (second : Same k l) : Same j l :=
  ⟨fun scope => (second.streams scope).trans (first.streams scope),second.capacity.trans first.capacity⟩

theorem Same.touch (j : ChangeJournal π) (scope : ObjectId) : Same j (j.touch scope) :=
  ⟨stream_touch j scope,rfl⟩

theorem extends_set {changes : List (ObjectId × π)} (short : ∀ other, (j.stream other).records.length ≤ j.capacity)
    (extended : Extends j.capacity scope (j.stream scope) s changes) (other : ObjectId) :
    Extends j.capacity other (j.stream other) ((j.setStream scope s).stream other)
      (if other = scope then changes else []) := by
  rw [stream_setStream]
  split_ifs with same
  · rwa [same]
  · exact .rest (short other)

/-! ### Prepared batches -/

def changesIn (scope : ObjectId) (records : List (BufferedChangeRecord π)) : List (ObjectId × π) :=
  (records.filter fun r => r.scope = scope).map fun r => (r.object,r.payload)

structure Holds (j : ChangeJournal π) (records done : List (BufferedChangeRecord π)) (c : Candidate π) : Prop where
  stream : c.stream = ⟨(j.stream c.scope).nextSequence + (changesIn c.scope done).length,
    (j.stream c.scope).records ++ numbered c.scope (j.stream c.scope).nextSequence (changesIn c.scope done)⟩
  created : c.created = !j.streams.contains c.scope
  small : (changesIn c.scope records).length ≤ maximumSequence - (j.stream c.scope).nextSequence

structure Prepared (j : ChangeJournal π) (records done : List (BufferedChangeRecord π))
    (candidates : List (Candidate π)) : Prop where
  distinct : (candidates.map Candidate.scope).Nodup
  holds : ∀ c ∈ candidates, Holds j records done c
  complete : ∀ r ∈ done, r.scope ∈ candidates.map Candidate.scope
  used : ∀ scope ∈ candidates.map Candidate.scope, ∃ r ∈ done, r.scope = scope

theorem changesIn_concat_same (done : List (BufferedChangeRecord π)) (same : r.scope = scope) :
    changesIn scope (done ++ [r]) = changesIn scope done ++ [(r.object,r.payload)] := by
  simp [changesIn,same]

theorem changesIn_concat_other (done : List (BufferedChangeRecord π)) (other : r.scope ≠ scope) :
    changesIn scope (done ++ [r]) = changesIn scope done := by
  simp [changesIn,other]

theorem scope_push (c : Candidate π) (r : BufferedChangeRecord π) : (c.push r).scope = c.scope := by
  simp only [push]

theorem Holds.push (held : Holds j records done c) (same : r.scope = c.scope) :
    Holds j records (done ++ [r]) (c.push r) := by
  refine ⟨?_,held.created,held.small⟩
  simp only [Candidate.push,changesIn_concat_same done same,numbered_append,held.stream,length_append,
    length_singleton,numbered,same,append_assoc,Stream.mk.injEq,and_true]
  omega

theorem Holds.skip (held : Holds j records done c) (other : r.scope ≠ c.scope) : Holds j records (done ++ [r]) c := by
  refine ⟨?_,held.created,held.small⟩
  rw [changesIn_concat_other done other]
  exact held.stream

theorem newCandidate_ok (created : newCandidate j records scope = .ok c) :
    c = ⟨scope,j.stream scope,!j.streams.contains scope⟩ ∧
      (changesIn scope records).length ≤ maximumSequence - (j.stream scope).nextSequence := by
  rw [newCandidate] at created
  split at created
  · cases created
  split at created
  · cases created
  rename_i exhausted
  rw [changesIn,length_map]
  exact ⟨(Except.ok.inj created).symm,not_lt.mp exhausted⟩

theorem Prepared.fresh (prepared : Prepared j records done candidates)
    (unknown : scope ∉ candidates.map Candidate.scope) : changesIn scope done = [] := by
  have absent : done.filter (fun other => other.scope = scope) = [] := by
    rw [filter_eq_nil_iff]
    intro other member same
    have known := prepared.complete other member
    rw [of_decide_eq_true same] at known
    exact unknown known
  rw [changesIn,absent,map_nil]

theorem scopes_pushed (r : BufferedChangeRecord π) (candidates : List (Candidate π)) :
    (candidates.map fun c => if c.scope = r.scope then c.push r else c).map Candidate.scope =
      candidates.map Candidate.scope := by
  induction candidates with
  | nil => rfl
  | cons c rest ih => rw [map_cons,map_cons,map_cons,ih,apply_ite Candidate.scope,scope_push,ite_self]

theorem Prepared.pushKnown (prepared : Prepared j records done candidates)
    (known : r.scope ∈ candidates.map Candidate.scope) :
    Prepared j records (done ++ [r]) (candidates.map fun c => if c.scope = r.scope then c.push r else c) := by
  have names := scopes_pushed r candidates
  refine ⟨?_,?_,?_,?_⟩
  · rw [names]
    exact prepared.distinct
  · intro c member
    obtain ⟨c,inside,rfl⟩ := mem_map.mp member
    split_ifs with same
    · exact (prepared.holds c inside).push same.symm
    · exact (prepared.holds c inside).skip (.symm same)
  · intro other member
    rw [names]
    rcases mem_append.mp member with old | new
    · exact prepared.complete other old
    · rwa [mem_singleton.mp new]
  · intro scope member
    rw [names] at member
    obtain ⟨other,inside,same⟩ := prepared.used scope member
    exact ⟨other,mem_append_left _ inside,same⟩

theorem Prepared.pushNew (prepared : Prepared j records done candidates)
    (unknown : r.scope ∉ candidates.map Candidate.scope) (created : newCandidate j records r.scope = .ok c) :
    Prepared j records (done ++ [r]) (candidates ++ [c.push r]) := by
  obtain ⟨rfl,small⟩ := newCandidate_ok created
  have start : Holds j records done ⟨r.scope,j.stream r.scope,!j.streams.contains r.scope⟩ :=
    ⟨by simp [prepared.fresh unknown,numbered],rfl,small⟩
  refine ⟨?_,?_,?_,?_⟩
  · rw [map_append,nodup_append]
    refine ⟨prepared.distinct,by simp,fun scope old new member same => ?_⟩
    rw [map_singleton,mem_singleton] at member
    rw [same,member] at old
    exact unknown old
  · intro c member
    rcases mem_append.mp member with old | new
    · exact (prepared.holds c old).skip fun same => unknown (mem_map.mpr ⟨c,old,same.symm⟩)
    · rw [mem_singleton.mp new]
      exact start.push rfl
  · intro other member
    rw [map_append]
    rcases mem_append.mp member with old | new
    · exact mem_append_left _ (prepared.complete other old)
    · rw [mem_singleton.mp new]
      exact mem_append_right _ (mem_singleton_self _)
  · intro scope member
    rw [map_append] at member
    rcases mem_append.mp member with old | new
    · obtain ⟨other,inside,same⟩ := prepared.used scope old
      exact ⟨other,mem_append_left _ inside,same⟩
    · exact ⟨r,mem_append_right _ (mem_singleton_self _),(mem_singleton.mp new).symm⟩

variable {after : List (Candidate π)}

theorem prepareRecord_ok (prepared : Prepared j records done candidates)
    (stepped : prepareRecord j records candidates r = .ok after) : Prepared j records (done ++ [r]) after := by
  unfold prepareRecord at stepped
  split_ifs at stepped with known
  · cases stepped
    obtain ⟨c,inside,same⟩ := any_eq_true.mp known
    exact prepared.pushKnown (mem_map.mpr ⟨c,inside,of_decide_eq_true same⟩)
  · have unknown : r.scope ∉ candidates.map Candidate.scope := by
      intro member
      obtain ⟨c,inside,same⟩ := mem_map.mp member
      exact known (any_eq_true.mpr ⟨c,inside,decide_eq_true same⟩)
    cases created : newCandidate j records r.scope with
    | error message =>
      rw [created] at stepped
      cases stepped
    | ok c =>
      rw [created] at stepped
      cases stepped
      exact prepared.pushNew unknown created

theorem prepareRecords_ok {rest : List (BufferedChangeRecord π)} (prepared : Prepared j records done candidates)
    (stepped : rest.foldlM (prepareRecord j records) candidates = .ok after) :
    Prepared j records (done ++ rest) after := by
  induction rest generalizing done candidates with
  | nil =>
    cases stepped
    simpa using prepared
  | cons r rest ih =>
    rw [foldlM_cons] at stepped
    cases first : prepareRecord j records candidates r with
    | error message => rw [first] at stepped; cases stepped
    | ok next =>
      rw [first] at stepped
      have onward := ih (prepareRecord_ok prepared first) stepped
      simpa using onward

theorem prepare_ok (prepared : prepare j outlet records = .ok candidates) :
    ∃ full, Prepared j records records full ∧ candidates = full.map (cut j.capacity) := by
  unfold prepare at prepared
  split_ifs at prepared with elsewhere
  cases built : records.foldlM (prepareRecord j records) [] with
  | error message =>
    rw [built] at prepared
    cases prepared
  | ok full =>
    rw [built] at prepared
    have start : Prepared j records [] [] := ⟨by simp,by simp,by simp,by simp⟩
    exact ⟨full,prepareRecords_ok start built,(Except.ok.inj prepared).symm⟩

theorem same_reserve (j : ChangeJournal π) (candidates : List (Candidate π)) : Same j (j.reserve candidates) := by
  induction candidates generalizing j with
  | nil => exact .refl j
  | cons c rest ih => exact (Same.touch j c.scope).trans (ih (j.touch c.scope))

theorem capacity_install (j : ChangeJournal π) (candidates : List (Candidate π)) :
    (j.install candidates).capacity = j.capacity := by
  induction candidates generalizing j with
  | nil => rfl
  | cons c rest ih => exact ih (j.setStream c.scope c.stream)

theorem stream_install_other (j : ChangeJournal π) (absent : scope ∉ candidates.map Candidate.scope) :
    (j.install candidates).stream scope = j.stream scope := by
  induction candidates generalizing j with
  | nil => rfl
  | cons c rest ih =>
    rw [map_cons,mem_cons,not_or] at absent
    refine (ih (j.setStream c.scope c.stream) absent.2).trans ?_
    rw [stream_setStream,if_neg absent.1]

theorem stream_install (j : ChangeJournal π) (distinct : (candidates.map Candidate.scope).Nodup)
    (member : c ∈ candidates) : (j.install candidates).stream c.scope = c.stream := by
  induction candidates generalizing j with
  | nil => cases member
  | cons first rest ih =>
    rw [map_cons,nodup_cons] at distinct
    rcases mem_cons.mp member with rfl | inside
    · refine (stream_install_other _ distinct.1).trans ?_
      rw [stream_setStream,if_pos rfl]
    · exact ih _ distinct.2 inside

theorem stream_erase (j : ChangeJournal π) (scope other : ObjectId) :
    ({ j with streams := j.streams.erase scope } : ChangeJournal π).stream other =
      if other = scope then {} else j.stream other := by
  simp only [stream,find?_erase]
  split_ifs <;> rfl

theorem same_abandon (untouched : ∀ c ∈ candidates, c.created → j.stream c.scope = {}) :
    Same j (j.abandon candidates) := by
  induction candidates generalizing j with
  | nil => exact .refl j
  | cons c rest ih =>
    have first : Same j (if c.created then { j with streams := j.streams.erase c.scope } else j) := by
      split_ifs with created
      · refine ⟨fun other => ?_,rfl⟩
        rw [stream_erase]
        split_ifs with same
        · rw [same,untouched c (.head _) created]
        · rfl
      · exact .refl j
    refine first.trans (ih fun c' inside created => ?_)
    rw [first.streams]
    exact untouched c' (.tail _ inside) created

/-! ### The operations -/

inductive Operation (π : Type) where
  | commit (outlet : Outlet) (scope object : ObjectId) (payload : π)
  | commitBatch (outlet : Outlet) (scope : ObjectId) (changes : List (ObjectId × π))
  | prepared (outlet : Outlet) (records : List (BufferedChangeRecord π)) (installed : Bool)
  | setCapacity (capacity : Nat)
  | clear

def apply (j : ChangeJournal π) : Operation π → Outcome π
  | .commit outlet scope object payload => j.commit outlet scope object payload
  | .commitBatch outlet scope changes => j.commitBatch outlet scope changes
  | .prepared outlet records installed => j.preparedBatch outlet records installed
  | .setCapacity capacity => (j.setCapacity capacity,none)
  | .clear => (j.clear,none)

def Operation.changes (scope : ObjectId) : Operation π → List (ObjectId × π)
  | .commit outlet own object payload => if outlet = .journal ∧ scope = own then [(object,payload)] else []
  | .commitBatch outlet own changes => if outlet = .journal ∧ scope = own then changes else []
  | .prepared _ records installed => if installed then changesIn scope records else []
  | .setCapacity _ => []
  | .clear => []

def Fails (j : ChangeJournal π) (op : Operation π) : Prop :=
  (j.apply op).2 ≠ none ∨ ∃ outlet records, op = .prepared outlet records false

def Short (j : ChangeJournal π) : Prop := ∀ scope, (j.stream scope).records.length ≤ j.capacity

theorem extends_retain (changes : List (ObjectId × π))
    (small : s.nextSequence ≤ maximumSequence → s.nextSequence + changes.length ≤ maximumSequence) :
    Extends capacity scope s ⟨s.nextSequence + changes.length,
      retain capacity (s.records ++ numbered scope s.nextSequence changes)⟩ changes :=
  ⟨rfl,small,retain_suffix _ _,length_retain_le _ _⟩

variable {object : ObjectId}

theorem commit_ok {payload : π} (short : Short j)
    (done : j.commit outlet scope object payload = (j',none)) (other : ObjectId) :
    Extends j'.capacity other (j.stream other) (j'.stream other)
      ((Operation.commit outlet scope object payload).changes other) := by
  unfold commit at done
  split_ifs at done with elsewhere
  · cases done
    rw [Operation.changes,if_neg fun here => elsewhere here.1]
    exact .rest (short other)
  · have here : outlet = .journal := not_not.mp elsewhere
    simp only at done
    split at done
    · cases done
    rename_i s pushed
    cases done
    rw [stream_touch] at pushed
    obtain ⟨rfl,small⟩ := pushRecord_ok pushed
    have grown := extends_set (j := j.touch scope) (fun other => by rw [stream_touch]; exact short other)
      (by rw [stream_touch]; exact extends_retain _ [(object,payload)] small) other
    rw [stream_touch] at grown
    simp only [Operation.changes,here,true_and]
    exact grown

variable {message : String}

theorem commit_failed {payload : π}
    (failed : j.commit outlet scope object payload = (j',some message)) : Same j j' := by
  unfold commit at failed
  split at failed
  · cases failed
  simp only at failed
  split at failed
  · cases failed
    exact .touch j scope
  · cases failed

theorem commitBatch_ok {changes : List (ObjectId × π)} (short : Short j)
    (done : j.commitBatch outlet scope changes = (j',none)) (other : ObjectId) :
    Extends j'.capacity other (j.stream other) (j'.stream other)
      ((Operation.commitBatch outlet scope changes).changes other) := by
  unfold commitBatch at done
  split at done
  · rename_i nothing
    cases done
    rcases (Bool.or_eq_true _ _).mp nothing with empty | elsewhere
    · have none : (Operation.commitBatch outlet scope changes).changes other = [] := by
        rw [Operation.changes,isEmpty_iff.mp empty,ite_self]
      rw [none]
      exact .rest (short other)
    · rw [Operation.changes,if_neg fun here => of_decide_eq_true elsewhere here.1]
      exact .rest (short other)
  · rename_i something
    have here : outlet = .journal := by
      by_contra elsewhere
      exact something ((Bool.or_eq_true _ _).mpr (.inr (decide_eq_true elsewhere)))
    simp only at done
    split at done
    · cases done
    rename_i s pushed
    cases done
    rw [stream_touch] at pushed
    obtain ⟨rfl,small⟩ := pushRecords_ok pushed
    have grown := extends_set (j := j.touch scope) (fun other => by rw [stream_touch]; exact short other)
      (by rw [stream_touch]; exact extends_retain _ changes small) other
    rw [stream_touch] at grown
    simp only [Operation.changes,here,true_and]
    exact grown

theorem commitBatch_failed {changes : List (ObjectId × π)}
    (failed : j.commitBatch outlet scope changes = (j',some message)) : Same j j' := by
  unfold commitBatch at failed
  split at failed
  · cases failed
  simp only at failed
  split at failed
  · cases failed
    exact .touch j scope
  · cases failed

theorem changesIn_of_absent (absent : ∀ r ∈ records, r.scope ≠ scope) : changesIn scope records = [] := by
  rw [changesIn,filter_eq_nil_iff.mpr fun r member same => absent r member (of_decide_eq_true same),map_nil]

theorem scopes_cut (candidates : List (Candidate π)) :
    (candidates.map (Candidate.cut capacity)).map Candidate.scope = candidates.map Candidate.scope := by
  rw [map_map]
  rfl

theorem install_stream (prepared : prepare j outlet records = .ok candidates) (other : ObjectId) :
    (changesIn other records = [] ∧ ((j.reserve candidates).install candidates).stream other = j.stream other) ∨
      (changesIn other records ≠ [] ∧ (j.stream other).nextSequence + (changesIn other records).length ≤
          max (j.stream other).nextSequence maximumSequence ∧ ((j.reserve candidates).install candidates).stream other =
          ⟨(j.stream other).nextSequence + (changesIn other records).length,retain j.capacity
            ((j.stream other).records ++ numbered other (j.stream other).nextSequence (changesIn other records))⟩) := by
  obtain ⟨full,built,rfl⟩ := prepare_ok prepared
  have names := scopes_cut j.capacity full
  by_cases known : other ∈ full.map Candidate.scope
  · obtain ⟨c,inside,rfl⟩ := mem_map.mp known
    have member : c.cut j.capacity ∈ full.map (.cut j.capacity) := mem_map_of_mem inside
    have distinct : ((full.map (.cut j.capacity)).map Candidate.scope).Nodup := by
      rw [names]
      exact built.distinct
    have installed := stream_install (j.reserve (full.map (.cut j.capacity))) distinct member
    rw [Candidate.cut] at installed
    have room := (built.holds c inside).small
    refine .inr ⟨fun none => ?_,by omega,?_⟩
    · obtain ⟨r,present,same⟩ := built.used c.scope known
      have counted : (r.object,r.payload) ∈ changesIn c.scope records :=
        mem_map_of_mem (mem_filter.mpr ⟨present,decide_eq_true same⟩)
      rw [none] at counted
      cases counted
    rw [installed,(built.holds c inside).stream]
  · refine .inl ⟨changesIn_of_absent fun r member (same : r.scope = other) => known ?_,?_⟩
    · rw [← same]
      exact built.complete r member
    · rw [stream_install_other _ (by rw [names]; exact known),(same_reserve j _).streams other]

theorem install_ok (short : Short j) (prepared : prepare j outlet records = .ok candidates) (other : ObjectId) :
    Extends j.capacity other (j.stream other) (((j.reserve candidates).install candidates).stream other)
      (changesIn other records) := by
  rcases install_stream prepared other with ⟨none,same⟩ | ⟨-,room,stream⟩
  · rw [none,same]
    exact .rest (short other)
  · rw [stream]
    exact extends_retain _ _ fun bound => room.trans (max_le bound le_rfl)

theorem abandon_ok (prepared : prepare j outlet records = .ok candidates) :
    Same j ((j.reserve candidates).abandon candidates) := by
  have reserved := same_reserve j candidates
  refine reserved.trans (same_abandon fun c member created => ?_)
  obtain ⟨full,built,rfl⟩ := prepare_ok prepared
  obtain ⟨c,inside,rfl⟩ := mem_map.mp member
  have absent : j.streams.find? c.scope = none := by
    have unknown := (built.holds c inside).created.symm.trans created
    simpa [SortedMap.contains] using unknown
  rw [reserved.streams,cut,stream,absent,Option.getD_none]

theorem preparedBatch_ok {installed : Bool} (short : Short j)
    (done : j.preparedBatch outlet records installed = (j',none)) (other : ObjectId) :
    Extends j'.capacity other (j.stream other) (j'.stream other)
      ((Operation.prepared outlet records installed).changes other) := by
  unfold preparedBatch at done
  split at done
  · cases done
  rename_i candidates prepared
  cases installed with
  | true =>
    cases done
    rw [if_pos rfl,capacity_install,(same_reserve j candidates).capacity,Operation.changes,if_pos rfl]
    exact install_ok short prepared other
  | false =>
    cases done
    have same := abandon_ok prepared
    rw [if_neg nofun,same.capacity,same.streams,Operation.changes,if_neg nofun]
    exact .rest (short other)

theorem preparedBatch_stream (done : j.preparedBatch outlet records true = (j',none)) (scope : ObjectId) :
    j'.stream scope = if changesIn scope records = [] then j.stream scope
      else ⟨(j.stream scope).nextSequence + (changesIn scope records).length,retain j.capacity
        ((j.stream scope).records ++ numbered scope (j.stream scope).nextSequence (changesIn scope records))⟩ := by
  unfold preparedBatch at done
  split at done
  · cases done
  rename_i candidates prepared
  cases done
  rcases install_stream prepared scope with ⟨none,same⟩ | ⟨some,-,stream⟩
  · rwa [if_pos none]
  · rwa [if_neg some]

theorem preparedBatch_failed {installed : Bool}
    (failed : j.preparedBatch outlet records installed = (j',some message)) : Same j j' := by
  unfold preparedBatch at failed
  split at failed
  · cases failed
    exact .refl j
  · cases failed

theorem stream_mapRecords (j : ChangeJournal π) (f : List (ChangeRecord π) → List (ChangeRecord π)) (nothing : f [] = [])
    (capacity : Nat) (scope : ObjectId) :
    (⟨capacity,j.streams.mapValues fun _ s => { s with records := f s.records }⟩ : ChangeJournal π).stream scope =
      ⟨(j.stream scope).nextSequence,f (j.stream scope).records⟩ := by
  simp only [stream,find?_mapValues]
  cases j.streams.find? scope with
  | none => simp [nothing]
  | some s => rfl

theorem setCapacity_ok (j : ChangeJournal π) (capacity : Nat) (other : ObjectId) :
    Extends capacity other (j.stream other) ((j.setCapacity capacity).stream other) [] := by
  have cut : Extends capacity other (j.stream other) _ [] := extends_retain capacity [] id
  have stream := stream_mapRecords j (retain capacity) (by simp [retain]) capacity other
  rw [setCapacity,stream]
  simpa [numbered] using cut

theorem clear_ok (j : ChangeJournal π) (other : ObjectId) :
    Extends j.clear.capacity other (j.stream other) (j.clear.stream other) [] := by
  have stream := stream_mapRecords j (fun _ => []) rfl j.capacity other
  rw [clear,stream]
  exact ⟨rfl,id,nil_suffix,zero_le _⟩

variable {op : Operation π}

theorem apply_ok (short : Short j) (done : j.apply op = (j',none)) (scope : ObjectId) :
    Extends j'.capacity scope (j.stream scope) (j'.stream scope) (op.changes scope) := by
  cases op with
  | commit outlet own object payload => exact commit_ok short done scope
  | commitBatch outlet own changes => exact commitBatch_ok short done scope
  | prepared outlet records installed => exact preparedBatch_ok short done scope
  | setCapacity capacity =>
    cases done
    exact setCapacity_ok j capacity scope
  | clear =>
    cases done
    exact clear_ok j scope

theorem apply_failed (failed : Fails j op) : Same j (j.apply op).1 := by
  rcases failed with failed | ⟨outlet,records,rfl⟩
  · obtain ⟨message,thrown⟩ := Option.ne_none_iff_exists'.mp failed
    cases op with
    | commit outlet own object payload => exact commit_failed (Prod.ext rfl thrown)
    | commitBatch outlet own changes => exact commitBatch_failed (Prod.ext rfl thrown)
    | prepared outlet records installed => exact preparedBatch_failed (Prod.ext rfl thrown)
    | setCapacity capacity => cases thrown
    | clear => cases thrown
  · rw [apply,preparedBatch]
    split
    · exact .refl j
    · rename_i candidates prepared
      exact abandon_ok prepared

/-- A journal, and all changes that were ever committed to each scope. -/
structure History (π : Type) where
  journal : ChangeJournal π := {}
  log : ObjectId → List (ObjectId × π) := fun _ => []

def History.committed (h : History π) (scope : ObjectId) : List (ChangeRecord π) := numbered scope 1 (h.log scope)

def History.apply (h : History π) (op : Operation π) : History π where
  journal := (h.journal.apply op).1
  log := if (h.journal.apply op).2 = none then fun scope => h.log scope ++ op.changes scope else h.log

structure Sound (h : History π) (scope : ObjectId) : Prop where
  next : (h.journal.stream scope).nextSequence = (h.committed scope).length + 1
  small : (h.journal.stream scope).nextSequence ≤ maximumSequence
  retained : (h.journal.stream scope).records <:+ h.committed scope
  short : (h.journal.stream scope).records.length ≤ h.journal.capacity

theorem History.sound_new (scope : ObjectId) : Sound ({} : History π) scope :=
  ⟨rfl,(by decide : 1 ≤ maximumSequence),suffix_refl _,zero_le _⟩

theorem History.apply_failed (h : History π) (failed : (h.journal.apply op).2 ≠ none) :
    (h.apply op).log = h.log := if_neg failed

theorem History.apply_done (h : History π) (done : (h.journal.apply op).2 = none) :
    (h.apply op).log = fun scope => h.log scope ++ op.changes scope := if_pos done

theorem History.log_prefix (h : History π) (op : Operation π) (scope : ObjectId) :
    h.log scope <+: (h.apply op).log scope := by
  by_cases done : (h.journal.apply op).2 = none
  · rw [h.apply_done done]
    exact prefix_append _ _
  · exact ⟨[],by rw [append_nil,h.apply_failed done]⟩

variable {h : History π}

theorem Sound.apply (sound : ∀ scope, Sound h scope) (op : Operation π) (scope : ObjectId) :
    Sound (h.apply op) scope := by
  by_cases done : (h.journal.apply op).2 = none
  · have extended := apply_ok (fun other => (sound other).short) (Prod.ext rfl done) scope
    have committed : (h.apply op).committed scope =
        h.committed scope ++ numbered scope (h.journal.stream scope).nextSequence (op.changes scope) := by
      rw [History.committed,h.apply_done done,numbered_append,(sound scope).next,History.committed,length_numbered,
        add_comm 1]
    refine ⟨?_,extended.small (sound scope).small,?_,extended.short⟩
    · rw [committed,length_append,length_numbered]
      have next := extended.next
      have before := (sound scope).next
      exact next.trans (by omega)
    · rw [committed]
      obtain ⟨gone,whole⟩ := (sound scope).retained
      refine extended.retained.trans ⟨gone,?_⟩
      rw [← append_assoc,whole]
  · have same : Same h.journal (h.journal.apply op).1 := apply_failed (.inl done)
    have stream : (h.apply op).journal.stream scope = h.journal.stream scope := same.streams scope
    have committed : (h.apply op).committed scope = h.committed scope := by
      rw [History.committed,h.apply_failed done,History.committed]
    refine ⟨?_,?_,?_,?_⟩
    · rw [stream,committed]
      exact (sound scope).next
    · rw [stream]
      exact (sound scope).small
    · rw [stream,committed]
      exact (sound scope).retained
    · rw [stream]
      exact (sound scope).short.trans_eq same.capacity.symm

/-! ### Readers -/

theorem Sound.records_eq (sound : Sound h scope) : (h.journal.stream scope).records = (h.committed scope).drop
      ((h.committed scope).length - (h.journal.stream scope).records.length) :=
  suffix_iff_eq_drop.mp sound.retained

theorem Sound.oldest_eq (sound : Sound h scope) :
    oldest (h.journal.stream scope) + (h.journal.stream scope).records.length = (h.committed scope).length + 1 := by
  have shape := sound.records_eq
  have fits := sound.retained.length_le
  unfold oldest
  split
  · rename_i empty
    rw [empty,sound.next,length_nil,add_zero]
  · rename_i record rest whole
    have first : (h.committed scope)[(h.committed scope).length - (h.journal.stream scope).records.length]? =
        some record := by
      have head := congrArg (fun l => l[0]?) shape
      simp only [getElem?_drop,add_zero] at head
      rw [← head,whole]
      rfl
    have sequence := sequence_numbered first
    omega

theorem drop_numbered (scope : ObjectId) (n m : Nat) (changes : List (ObjectId × π)) :
    (numbered scope n changes).drop m = numbered scope (n + m) (changes.drop m) := by
  induction changes generalizing n m with
  | nil => simp [numbered]
  | cons change rest ih =>
    cases m with
    | zero => rfl
    | succ m =>
      rw [numbered,drop_succ_cons,ih,drop_succ_cons,add_assoc,add_comm 1]

theorem take_numbered (scope : ObjectId) (n m : Nat) (changes : List (ObjectId × π)) :
    (numbered scope n changes).take m = numbered scope n (changes.take m) := by
  induction changes generalizing n m with
  | nil => simp [numbered]
  | cons change rest ih =>
    cases m with
    | zero => rfl
    | succ m => rw [numbered,take_succ_cons,ih,take_succ_cons,numbered]

theorem cursor_behind (scope : ObjectId) (n : Nat) (changes : List (ObjectId × π)) :
    (numbered scope n changes).foldl (fun c record => { c with nextSequence := record.sequence + 1 })
      (⟨scope,n⟩ : ChangeCursor) = ⟨scope,n + changes.length⟩ := by
  induction changes generalizing n with
  | nil => rfl
  | cons change rest ih =>
    rw [numbered,foldl_cons,ih,length_cons,add_right_comm,add_assoc]

/-- A reader that has everything before its cursor receives the next records, unless some of them
    are no longer retained. -/
theorem Sound.read (sound : Sound h scope) {position : Nat} (behind : position ≤ (h.committed scope).length)
    (maximum : Nat) :
    let result := h.journal.readPinned ⟨scope,position + 1⟩ maximum
    if position + (h.journal.stream scope).records.length < (h.committed scope).length then
      result.status = .resnapshotRequired ∧ result.records = []
    else
      result.status = .available ∧ result.records = ((h.committed scope).drop position).take maximum ∧
        result.cursor = ⟨scope,position + result.records.length + 1⟩ := by
  intro result
  have oldest_eq := sound.oldest_eq
  have next := sound.next
  have fits := sound.retained.length_le
  cases found : h.journal.streams.find? scope with
  | none =>
    have stream : h.journal.stream scope = {} := by rw [stream,found,Option.getD_none]
    rw [stream] at next ⊢
    have none : h.committed scope = [] := eq_nil_of_length_eq_zero (by simpa using next.symm)
    have nothing : result = { cursor := ⟨scope,position + 1⟩ } := by
      simp only [result,readPinned,found]
    rw [nothing,none]
    simp
  | some s =>
    have stream : h.journal.stream scope = s := by rw [stream,found,Option.getD_some]
    have shape := sound.records_eq
    rw [stream] at oldest_eq next fits shape ⊢
    split_ifs with lost
    · have told : position + 1 < oldest s := by omega
      simp [result,readPinned,found,told]
    · have kept : ¬position + 1 < oldest s := by omega
      by_cases idle : maximum = 0 ∨ position + 1 ≥ s.nextSequence
      · have nothing : result = { cursor := ⟨scope,position + 1⟩ } := by
          simp only [result,readPinned,found,if_neg kept]
          rw [if_pos (by simpa using idle)]
        have none : ((h.committed scope).drop position).take maximum = [] := by
          rcases idle with zero | current
          · rw [zero,take_zero]
          · rw [drop_eq_nil_of_le (by omega),take_nil]
        rw [nothing,none]
        exact ⟨rfl,rfl,rfl⟩
      · have records : result.records = ((h.committed scope).drop position).take maximum := by
          simp only [result,readPinned,found,if_neg kept]
          rw [if_neg (by simpa using idle)]
          simp only
          rw [shape,drop_drop]
          congr 2
          omega
        refine ⟨?_,records,?_⟩
        · simp only [result,readPinned,found,if_neg kept]
          rw [if_neg (by simpa using idle)]
        · have moved : result.cursor = result.records.foldl
              (fun c record => { c with nextSequence := record.sequence + 1 }) (⟨scope,position + 1⟩ : ChangeCursor) := by
            simp only [result,readPinned,found,if_neg kept]
            rw [if_neg (by simpa using idle)]
          rw [moved,records,History.committed,drop_numbered,take_numbered,add_comm 1,cursor_behind,
            length_numbered]
          congr 1
          omega

/-- A reader stops once it is told that it has to take a new snapshot. -/
structure Reader (π : Type) where
  cursor : ChangeCursor
  received : List (ChangeRecord π) := []
  resnapshot : Bool := false

def Reader.read (r : Reader π) (j : ChangeJournal π) (maximumRecords : Nat) : Reader π :=
  if r.resnapshot then r
  else
    let result := j.readPinned r.cursor maximumRecords
    ⟨result.cursor,r.received ++ result.records,result.status = .resnapshotRequired⟩

inductive Event (π : Type) where
  | operate (op : Operation π)
  | read (maximumRecords : Nat)

def follow (s : History π × Reader π) : Event π → History π × Reader π
  | .operate op => (s.1.apply op,s.2)
  | .read maximumRecords => (s.1,s.2.read s.1.journal maximumRecords)

/-- A journal after its operations, beginning with the empty one. -/
def history (operations : List (Operation π)) : History π := operations.foldl History.apply {}

theorem history_sound (operations : List (Operation π)) (scope : ObjectId) : Sound (history operations) scope := by
  suffices run : ∀ h : History π, (∀ scope, Sound h scope) → ∀ scope, Sound (operations.foldl History.apply h) scope from
    run {} History.sound_new scope
  induction operations with
  | nil => exact fun h sound => sound
  | cons op rest ih => exact fun h sound => ih (h.apply op) (.apply sound op)

structure Follows (scope : ObjectId) (start : Nat) (h : History π) (r : Reader π) : Prop where
  received : r.received <+: (h.committed scope).drop start
  cursor : r.resnapshot = false → r.cursor = ⟨scope,start + r.received.length + 1⟩
  known : start ≤ (h.committed scope).length

theorem committed_prefix (h : History π) (op : Operation π) (scope : ObjectId) :
    h.committed scope <+: (h.apply op).committed scope := by
  obtain ⟨more,whole⟩ := h.log_prefix op scope
  rw [History.committed,History.committed,← whole,numbered_append]
  exact prefix_append _ _

variable {r : Reader π}

section
variable (follows : Follows scope start h r)
include follows

theorem Follows.behind :
    start + r.received.length ≤ (h.committed scope).length := by
  have fits := follows.received.length_le
  have known := follows.known
  rw [length_drop] at fits
  omega

theorem Follows.operate (op : Operation π) :
    Follows scope start (h.apply op) r := by
  have grown := committed_prefix h op scope
  refine ⟨?_,follows.cursor,follows.known.trans grown.length_le⟩
  obtain ⟨more,whole⟩ := grown
  rw [← whole,drop_append_of_le_length follows.known]
  exact follows.received.trans (prefix_append _ _)

theorem Follows.read_eq (sound : Sound h scope)
    (running : r.resnapshot = false) (maximum : Nat) :
    if start + r.received.length + (h.journal.stream scope).records.length < (h.committed scope).length then
      (r.read h.journal maximum).resnapshot ∧ (r.read h.journal maximum).received = r.received else
      (r.read h.journal maximum).resnapshot = false ∧ (r.read h.journal maximum).received =
          r.received ++ (((h.committed scope).drop start).drop r.received.length).take maximum ∧
        (r.read h.journal maximum).cursor = ⟨scope,start + (r.read h.journal maximum).received.length + 1⟩ := by
  have next := sound.read follows.behind maximum
  rw [← follows.cursor running] at next
  have shape : r.read h.journal maximum = ⟨(h.journal.readPinned r.cursor maximum).cursor,
      r.received ++ (h.journal.readPinned r.cursor maximum).records,
      (h.journal.readPinned r.cursor maximum).status = .resnapshotRequired⟩ := by
    rw [Reader.read,running,if_neg nofun]
  rw [shape]
  split_ifs at next ⊢ with lost
  · exact ⟨decide_eq_true next.1,by rw [next.2,append_nil]⟩
  · obtain ⟨status,records,cursor⟩ := next
    refine ⟨by rw [status]; rfl,by rw [records,drop_drop],?_⟩
    rw [cursor,length_append,← add_assoc]

theorem Follows.read (sound : Sound h scope) (maximum : Nat) :
    Follows scope start h (r.read h.journal maximum) := by
  cases running : r.resnapshot with
  | true =>
    rwa [Reader.read,running,if_pos rfl]
  | false =>
    have next := follows.read_eq sound running maximum
    split_ifs at next with lost
    · refine ⟨by rw [next.2]; exact follows.received,fun on => ?_,follows.known⟩
      rw [next.1] at on
      cases on
    · refine ⟨?_,fun _ => next.2.2,follows.known⟩
      obtain ⟨rest,whole⟩ := follows.received
      have tail : ((h.committed scope).drop start).drop r.received.length = rest := by
        rw [← whole,drop_left]
      rw [next.2.1,tail,← whole]
      exact (prefix_append_right_inj _).mpr (List.take_prefix _ _)

end

theorem follow_run {s : History π × Reader π} (sound : ∀ scope, Sound s.1 scope)
    (follows : Follows scope start s.1 s.2) (events : List (Event π)) :
    (∀ scope, Sound (events.foldl follow s).1 scope) ∧
      Follows scope start (events.foldl follow s).1 (events.foldl follow s).2 := by
  induction events generalizing s with
  | nil => exact ⟨sound,follows⟩
  | cons event rest ih =>
    cases event with
    | operate op => exact ih (s := follow s (.operate op)) (.apply sound op) (follows.operate op)
    | read maximum => exact ih (s := follow s (.read maximum)) sound (follows.read (sound scope) maximum)

theorem follows_createCursor (sound : Sound h scope) :
    Follows scope (h.committed scope).length h { cursor := h.journal.createCursor scope } := by
  refine ⟨List.nil_prefix,fun _ => ?_,le_rfl⟩
  rw [createCursor,sound.next]
  rfl

/-- After all operations the retained records are the last ones that were committed, numbered
    without a gap up to the next number and no more than the capacity. An operation commits
    its changes behind them, and one that fails changes no stream. A reader has received what
    was committed since its cursor was created, in order and without a gap; a read gives it the
    next records, unless one of them is gone, and then tells it. -/
theorem journal_read (operations : List (Operation π)) (scope : ObjectId) (events : List (Event π)) :
    let h := history operations
    let stream := h.journal.stream scope
    (∀ i record, stream.records[i]? = some record →
        record.sequence + (stream.records.length - i) = stream.nextSequence ∧
          (h.committed scope)[record.sequence - 1]? = some record) ∧
      stream.records.length ≤ h.journal.capacity ∧
      stream.nextSequence = (h.committed scope).length + 1 ∧
      (∀ op, Fails h.journal op → ∀ other, (h.apply op).journal.stream other = h.journal.stream other) ∧
      (∀ op, ¬Fails h.journal op →
        (h.apply op).committed scope = h.committed scope ++ numbered scope stream.nextSequence (op.changes scope)) ∧
      let s := events.foldl follow (h,{ cursor := h.journal.createCursor scope })
      let since := (s.1.committed scope).drop (h.committed scope).length
      s.2.received <+: since ∧
        (s.2.resnapshot = false → ∀ maximum,
          if s.2.received.length + (s.1.journal.stream scope).records.length < since.length then
            (s.2.read s.1.journal maximum).resnapshot = true
          else
            (s.2.read s.1.journal maximum).resnapshot = false ∧
              (s.2.read s.1.journal maximum).received =
                s.2.received ++ (since.drop s.2.received.length).take maximum) := by
  intro h stream
  have sound := history_sound operations
  refine ⟨fun i record found => ?_,(sound scope).short,(sound scope).next,
    fun op failed other => (apply_failed failed).streams other,fun op done => ?_,?_⟩
  · have shape := (sound scope).records_eq
    have fits : stream.records.length ≤ (h.committed scope).length := (sound scope).retained.length_le
    have next : stream.nextSequence = (h.committed scope).length + 1 := (sound scope).next
    have inside := (List.getElem?_eq_some_iff.mp found).1
    have place : (h.committed scope)[(h.committed scope).length - stream.records.length + i]? = some record := by
      rwa [← getElem?_drop,← shape]
    have sequence := sequence_numbered place
    refine ⟨by omega,?_⟩
    rwa [show record.sequence - 1 = (h.committed scope).length - stream.records.length + i by omega]
  · have finished : (h.journal.apply op).2 = none := not_not.mp fun failed => done (.inl failed)
    rw [History.committed,h.apply_done finished,numbered_append,(sound scope).next,History.committed,
      length_numbered,Nat.add_comm 1]
  · intro s since
    obtain ⟨soundAfter,follows⟩ :
        (∀ scope, Sound s.1 scope) ∧ Follows scope (h.committed scope).length s.1 s.2 :=
      follow_run sound (follows_createCursor (sound scope)) events
    refine ⟨follows.received,fun running maximum => ?_⟩
    have next := follows.read_eq (soundAfter scope) running maximum
    have length : since.length = (s.1.committed scope).length - (h.committed scope).length := length_drop
    split_ifs at next ⊢ with lost short short
    · exact next.1
    · exact absurd lost (by omega)
    · exact absurd short (by omega)
    · exact ⟨next.1,next.2.1⟩

end Gargantuan.ChangeJournal
