import Gargantuan.ChangeJournalRuns
import Gargantuan.FieldCodec
import Gargantuan.TransactionRetention
import Gargantuan.PreparedPropertyCommit

/-!
A prepared batch is committed as a whole or not at all, and taking it back and making it
again restores the values and the history.
-/
namespace Gargantuan.PreparedPropertyCommit
open List Function AuthoritativeTransactionHistory Except

abbrev Key := ObjectId × ByteString

def PreparedPropertyWrite.key (write : PreparedPropertyWrite) : Key := (write.object,write.propertyName)

theorem equals_iff {a b : WireValue} : a.equals b ↔ a.normal = b.normal := decide_eq_true_iff

theorem equals_refl (a : WireValue) : a.equals a := equals_iff.mpr rfl

theorem equals_trans {a b c : WireValue} (first : a.equals b) (second : b.equals c) : a.equals c :=
  equals_iff.mpr ((equals_iff.mp first).trans (equals_iff.mp second))

theorem equals_symm {a b : WireValue} (same : a.equals b) : b.equals a :=
  equals_iff.mpr (equals_iff.mp same).symm

def changed (w : World) (write : PreparedPropertyWrite) : Bool :=
  (w.values write.key).any fun before => !before.equals write.value

def changeOf (w : World) (write : PreparedPropertyWrite) : TransactionChange :=
  .property write.object write.declaringSchemaId write.definitionVersion write.propertyName
    ((w.values write.key).getD .nil) write.value

def isReplicated (env : Environment) (write : PreparedPropertyWrite) : Bool :=
  match findTarget env write with
  | .ok property => property.replicated
  | .error _ => false

def recordOf (env : Environment) (w : World) (write : PreparedPropertyWrite) : BufferedChangeRecord Payload :=
  ⟨if isReplicated env write then w.scope else {},write.object,
    ⟨write.propertyName,write.value,isReplicated env write⟩⟩

variable {value after : WireValue}

theorem decodeNativeWireValue_eq (decoded : decodeNativeWireValue value = some after) : after = value := by
  cases value <;> simp_all [decodeNativeWireValue]

variable {property : InstanceProperty}

theorem preparePropertyWireMutation_ok
    (prepared : preparePropertyWireMutation property value = .ok after) : after = value := by
  unfold preparePropertyWireMutation at prepared
  split at prepared
  · cases prepared
  simp only at prepared
  split at prepared
  · cases prepared
  rename_i native decoded
  split_ifs at prepared
  cases prepared
  split at decoded
  · split_ifs at decoded
    exact (Option.some.inj decoded).symm
  · exact decodeNativeWireValue_eq decoded

variable {w : World} {env : Environment} {action : CommittedTransaction}

variable {write : PreparedPropertyWrite} {expected : Option WireValue}

theorem readBefore_ok {before : WireValue} (read : readBefore w property write expected = .ok before) :
    w.values write.key = some before ∧ ∀ value, expected = some value → before.equals value := by
  unfold readBefore at read
  split at read
  · cases read
  split at read
  · cases read
  rename_i found
  obtain ⟨_,_,rest⟩ := except_bind_ok read
  split at rest
  · cases rest
  rename_i met
  cases rest
  refine ⟨found,fun value same => ?_⟩
  rw [same] at met
  simpa using met

theorem prepareWrite_ok {index : Nat} {p p' : Prepared}
    (prepared : prepareWrite env w index write expected p = .ok p') :
    (∃ before, w.values write.key = some before ∧ ∀ value, expected = some value → before.equals value) ∧
      p'.stores = p.stores ++ (if changed w write then [(write.key,write.value)] else []) ∧
      p'.records = p.records ++ (if changed w write then [recordOf env w write] else []) ∧
      p'.changes = p.changes ++ (if changed w write then [changeOf w write] else []) := by
  obtain ⟨_,_,prepared⟩ := except_bind_ok prepared
  obtain ⟨property,target,prepared⟩ := except_bind_ok prepared
  obtain ⟨after,decoded,prepared⟩ := except_bind_ok prepared
  obtain rfl := preparePropertyWireMutation_ok decoded
  obtain ⟨before,read,prepared⟩ := except_bind_ok prepared
  obtain ⟨found,met⟩ := readBefore_ok read
  obtain ⟨_,_,prepared⟩ := except_bind_ok prepared
  obtain ⟨valueBytes,_,prepared⟩ := except_bind_ok prepared
  refine ⟨⟨before,found,met⟩,?_⟩
  have differs : changed w write = !before.equals write.value := by rw [changed,found,Option.any_some]
  split at prepared
  · rename_i same
    cases prepared
    rw [differs,same]
    simp
  · rename_i other
    obtain ⟨_,_,prepared⟩ := except_bind_ok prepared
    obtain ⟨journalBytes,_,prepared⟩ := except_bind_ok prepared
    obtain ⟨historyBytes,_,prepared⟩ := except_bind_ok prepared
    obtain ⟨_,_,prepared⟩ := except_bind_ok prepared
    cases prepared
    have replicated : isReplicated env write = property.replicated := by rw [isReplicated,target]
    have different : before.equals write.value = false := by simpa using other
    have change : changeOf w write = .property write.object write.declaringSchemaId write.definitionVersion
        write.propertyName before write.value := by
      rw [changeOf,found,Option.getD_some]
    rw [differs,different,change,recordOf,replicated]
    exact ⟨rfl,rfl,rfl⟩

/-- The writes of a batch that give their properties other values. -/
def changedWrites (w : World) (writes : List (PreparedPropertyWrite × Option WireValue)) : List PreparedPropertyWrite :=
  (writes.map Prod.fst).filter (changed w)

variable {writes : List (PreparedPropertyWrite × Option WireValue)}

theorem prepareWrites_ok {index : Nat} {p p' : Prepared} (prepared : prepareWrites env w index writes p = .ok p') :
    (∀ e ∈ writes, ∃ before, w.values e.1.key = some before ∧ ∀ value, e.2 = some value → before.equals value) ∧
      p'.stores = p.stores ++ (changedWrites w writes).map (fun write => (write.key,write.value)) ∧
      p'.records = p.records ++ (changedWrites w writes).map (recordOf env w) ∧
      p'.changes = p.changes ++ (changedWrites w writes).map (changeOf w) := by
  induction writes generalizing index p with
  | nil =>
    cases prepared
    simp [changedWrites]
  | cons e rest ih =>
    obtain ⟨write,expected⟩ := e
    obtain ⟨next,first,rest⟩ := except_bind_ok prepared
    obtain ⟨found,stores,records,changes⟩ := prepareWrite_ok first
    obtain ⟨others,stores',records',changes'⟩ := ih rest
    refine ⟨?_,?_,?_,?_⟩
    · intro e member
      rcases mem_cons.mp member with rfl | inside
      · exact found
      · exact others e inside
    all_goals
      rw [changedWrites,map_cons,filter_cons,← changedWrites]
    · rw [stores',stores]
      split_ifs <;> simp
    · rw [records',records]
      split_ifs <;> simp
    · rw [changes',changes]
      split_ifs <;> simp

theorem admitWrites_ok {forward : Bool} {seen writes : List PreparedPropertyWrite} {bytes : Nat}
    (admitted : admitWrites forward seen writes bytes = .ok ()) : (writes.map PreparedPropertyWrite.key).Nodup ∧
      ∀ key ∈ writes.map PreparedPropertyWrite.key, key ∉ seen.map PreparedPropertyWrite.key := by
  induction writes generalizing seen bytes with
  | nil => exact ⟨.nil,fun key member => nomatch member⟩
  | cons write rest ih =>
    obtain ⟨_,_,admitted⟩ := except_bind_ok admitted
    obtain ⟨_,_,admitted⟩ := except_bind_ok admitted
    obtain ⟨bytes',_,admitted⟩ := except_bind_ok admitted
    split at admitted
    · cases admitted
    rename_i fresh
    obtain ⟨distinct,unseen⟩ := ih admitted
    have new : write.key ∉ seen.map PreparedPropertyWrite.key := by
      intro member
      obtain ⟨other,inside,same⟩ := mem_map.mp member
      refine fresh (any_eq_true.mpr ⟨other,inside,?_⟩)
      obtain ⟨object,name⟩ := Prod.mk.inj same
      simp [object,name]
    rw [map_cons,nodup_cons]
    refine ⟨⟨fun member => ?_,distinct⟩,fun key member => ?_⟩
    · exact unseen _ member (mem_map.mpr ⟨write,mem_append_right _ (mem_singleton_self _),rfl⟩)
    · rcases mem_cons.mp member with rfl | inside
      · exact new
      · intro old
        refine unseen key inside ?_
        rw [map_append]
        exact mem_append_left _ old

variable {stores : List (Key × WireValue)} {values : Key → Option WireValue}

theorem storeAll_other {key : Key} (absent : key ∉ stores.map Prod.fst) : storeAll stores values key = values key := by
  induction stores generalizing values with
  | nil => rfl
  | cons store rest ih =>
    rw [map_cons,mem_cons,not_or] at absent
    rw [storeAll,foldl_cons,← storeAll,ih absent.2,update_of_ne absent.1]

theorem storeAll_at {key : Key} {value : WireValue}
    (distinct : (stores.map Prod.fst).Nodup) (member : (key,value) ∈ stores) :
    storeAll stores values key = some value := by
  induction stores generalizing values with
  | nil => cases member
  | cons store rest ih =>
    rw [map_cons,nodup_cons] at distinct
    rw [storeAll,foldl_cons,← storeAll]
    rcases mem_cons.mp member with rfl | inside
    · rw [storeAll_other distinct.1,update_self]
    · exact ih distinct.2 inside

/-- Nothing that the world holds has changed. -/
structure Unchanged (w w' : World) : Prop where
  values : w'.values = w.values
  transactions : w'.transactions = w.transactions
  revision : w'.authoring.revision = w.authoring.revision
  journal : ChangeJournal.Same w.authoring.journal w'.authoring.journal

theorem Unchanged.refl (w : World) : Unchanged w w := ⟨rfl,rfl,rfl,.refl _⟩

/-- What a batch with changes leaves. -/
structure Committed (env : Environment) (w w' : World) (writes : List (PreparedPropertyWrite × Option WireValue))
    (replay : Option (CommittedTransaction × Bool)) : Prop where
  values : w'.values = storeAll ((changedWrites w writes).map fun write => (write.key,write.value)) w.values
  transactions : ∃ action, action.changes = (changedWrites w writes).map (changeOf w) ∧
    action.replayPolicy = .preparedPropertyBatch ∧ historyCandidate w.transactions action replay = .ok w'.transactions
  revision : w'.authoring.revision = w.authoring.revision + 1
  journal : w.authoring.journal.preparedBatch w.authoring.outlet ((changedWrites w writes).map (recordOf env w)) true =
    (w'.authoring.journal,none)

def Refuses {α : Type} (x : Except MutationStatus α) : Prop := ∀ status, x = .error status → status ≠ .success

variable {α : Type}

theorem Refuses.ok (a : α) : Refuses (.ok a) := fun _ other => nomatch other

theorem Refuses.error {status : MutationStatus} (failed : status ≠ .success) :
    Refuses (.error status : Except MutationStatus α) := by
  intro other same
  rwa [← error.inj same]

theorem Refuses.bind {β : Type} {x : Except MutationStatus α} {f : α → Except MutationStatus β} (first : Refuses x)
    (rest : ∀ a, Refuses (f a)) : Refuses (x >>= f) := by
  cases x with
  | error status => exact .error (first status rfl)
  | ok a => exact rest a

theorem refuses_stage (env : Environment) (point : PreparedPropertyStage) (index : Nat) :
    Refuses (stage env point index) := by
  unfold stage
  split
  · rename_i interruption _
    exact .error (by cases interruption <;> decide)
  · exact .ok ()

theorem refuses_account (total bytes maximum : Nat) : Refuses (account total bytes maximum) := by
  unfold account
  split_ifs
  · exact .error nofun
  · exact .ok _

theorem refuses_valid (checked : Except String Unit) : Refuses (valid checked) := by
  unfold valid
  split
  · exact .ok ()
  · exact .error nofun

theorem refuses_findTarget (env : Environment) (write : PreparedPropertyWrite) : Refuses (findTarget env write) := by
  unfold findTarget
  split
  · exact .error nofun
  split
  · exact .error nofun
  split
  · exact .error nofun
  split
  · exact .error nofun
  split
  · exact .error nofun
  split
  · exact .error nofun
  · exact .ok _

theorem refuses_prepareWire (property : InstanceProperty) (value : WireValue) :
    Refuses (preparePropertyWireMutation property value) := by
  unfold preparePropertyWireMutation
  split
  · rename_i failed
    exact .error failed
  simp only
  split
  · exact .error nofun
  split
  · exact .ok _
  · exact .error nofun

theorem refuses_readBefore (w : World) (property : InstanceProperty) (write : PreparedPropertyWrite)
    (expected : Option WireValue) : Refuses (readBefore w property write expected) := by
  unfold readBefore
  split
  · exact .error nofun
  split
  · exact .error nofun
  refine .bind (refuses_valid _) fun _ => ?_
  split
  · exact .error nofun
  · exact .ok _

theorem refuses_prepareWrite (env : Environment) (w : World) (index : Nat) (write : PreparedPropertyWrite)
    (expected : Option WireValue) (p : Prepared) : Refuses (prepareWrite env w index write expected p) := by
  refine .bind (refuses_stage _ _ _) fun _ => .bind (refuses_findTarget env write) fun property =>
    .bind (refuses_prepareWire _ _) fun after => .bind (refuses_readBefore _ _ _ _) fun before =>
    .bind (refuses_valid _) fun _ => .bind (refuses_account _ _ _) fun valueBytes => ?_
  split
  · exact .ok _
  · exact .bind (refuses_stage _ _ _) fun _ => .bind (refuses_account _ _ _) fun _ =>
      .bind (refuses_account _ _ _) fun _ => .bind (refuses_stage _ _ _) fun _ => .ok _

theorem refuses_prepareWrites (env : Environment) (w : World) (index : Nat)
    (writes : List (PreparedPropertyWrite × Option WireValue)) (p : Prepared) :
    Refuses (prepareWrites env w index writes p) := by
  induction writes generalizing index p with
  | nil => exact .ok p
  | cons e rest ih => exact .bind (refuses_prepareWrite env w index e.1 e.2 p) fun next => ih (index + 1) next

theorem refuses_admitWrites (forward : Bool) (seen writes : List PreparedPropertyWrite) (bytes : Nat) :
    Refuses (admitWrites forward seen writes bytes) := by
  induction writes generalizing seen bytes with
  | nil => exact .ok ()
  | cons write rest ih =>
    rw [admitWrites]
    refine .bind (refuses_valid _) fun _ => .bind (refuses_valid _) fun _ => .bind ?_ fun bytes' => ?_
    · unfold accountRequest
      split_ifs
      · exact refuses_account _ _ _
      · exact .ok _
    · split
      · exact .error nofun
      · exact ih _ _

theorem refuses_prepareBatch (env : Environment) (w : World) (writes : List (PreparedPropertyWrite × Option WireValue))
    (forward : Bool) : Refuses (prepareBatch env w writes forward) :=
  .bind (refuses_admitWrites _ _ _ _) fun _ => .bind (refuses_stage _ _ _) fun _ => refuses_prepareWrites _ _ _ _ _

theorem refuses_prepareHistory (env : Environment) (w : World) (action : CommittedTransaction)
    (replay : Option (CommittedTransaction × Bool)) : Refuses (prepareHistory env w action replay) := by
  refine .bind (refuses_stage _ _ _) fun _ => .bind ?_ fun _ => .bind (refuses_stage _ _ _) fun _ =>
    .bind (refuses_stage _ _ _) fun _ => .ok _
  unfold historyCandidate
  split
  all_goals
    split
    · exact .error nofun
    · exact .ok _

theorem takeIdentity_kept (w : World) (replay : Option (CommittedTransaction × Bool)) :
    (takeIdentity w replay).2.revision = w.authoring.revision ∧
      (takeIdentity w replay).2.journal = w.authoring.journal ∧
      (takeIdentity w replay).2.outlet = w.authoring.outlet := by
  unfold takeIdentity
  split
  · exact ⟨rfl,rfl,rfl⟩
  · unfold AuthoringWorld.allocateTransactionId
    split_ifs <;> exact ⟨rfl,rfl,rfl⟩

theorem commitPrepared_cases (env : Environment) (w : World) (p : Prepared)
    (replay : Option (CommittedTransaction × Bool)) :
    (∃ status, status ≠ .success ∧ (commitPrepared env w p replay).1 = .error status ∧
        Unchanged w (commitPrepared env w p replay).2) ∨
      ∃ id transactions authoring journal, (commitPrepared env w p replay).1 = .ok id ∧
        historyCandidate w.transactions (batchAction id w.authoring.revision p) replay = .ok transactions ∧
        authoring.revision = w.authoring.revision ∧
        w.authoring.journal.preparedBatch w.authoring.outlet p.records true = (journal,none) ∧
        (commitPrepared env w p replay).2 = install w p transactions authoring journal := by
  obtain ⟨revision,journal,outlet⟩ := takeIdentity_kept w replay
  have still : Unchanged w { w with authoring := (takeIdentity w replay).2 } :=
    ⟨rfl,rfl,revision,journal ▸ .refl _⟩
  unfold commitPrepared
  split
  · rename_i status failed
    exact .inl ⟨status,refuses_stage _ _ _ status failed,rfl,.refl w⟩
  simp only
  split
  · exact .inl ⟨_,by decide,rfl,still⟩
  split
  · rename_i status failed
    exact .inl ⟨_,refuses_prepareHistory _ _ _ _ status failed,rfl,still⟩
  rename_i transactions candidate
  obtain ⟨_,_,candidate⟩ := except_bind_ok candidate
  obtain ⟨retained,found,candidate⟩ := except_bind_ok candidate
  obtain ⟨_,_,candidate⟩ := except_bind_ok candidate
  obtain ⟨_,_,candidate⟩ := except_bind_ok candidate
  cases candidate
  rw [journal,outlet]
  split
  · rename_i journal' message failed
    refine .inl ⟨_,?_,rfl,rfl,rfl,revision,ChangeJournal.preparedBatch_failed failed⟩
    unfold journalStatus
    split_ifs <;> decide
  · rename_i journal' done
    exact .inr ⟨_,transactions,_,journal',rfl,found,revision,done,rfl⟩

/-- A call of `Execute` leaves the world as it was, or commits all of its changes; it reports
    success if it commits, or if it finds that nothing changes. -/
theorem execute_cases (env : Environment) (w : World) (expectedRevision : Nat)
    (writes : List (PreparedPropertyWrite × Option WireValue)) (replay : Option (CommittedTransaction × Bool)) :
    let outcome := execute env w expectedRevision writes replay
    (outcome.1.status ≠ .success ∧ Unchanged w outcome.2) ∨
      (outcome.1.status = .success ∧ (writes.map fun e => e.1.key).Nodup ∧
        (∀ e ∈ writes, ∃ before, w.values e.1.key = some before ∧
          ∀ value, e.2 = some value → before.equals value = true) ∧
        ((changedWrites w writes = [] ∧ outcome.2 = w) ∨
          (changedWrites w writes ≠ [] ∧ Committed env w outcome.2 writes replay))) := by
  intro outcome
  simp only [outcome]
  unfold execute
  split
  · exact .inl ⟨by simp,.refl w⟩
  split
  · exact .inl ⟨by simp,.refl w⟩
  split
  · exact .inl ⟨by simp,.refl w⟩
  split
  · exact .inl ⟨by simp,.refl w⟩
  split
  · exact .inl ⟨by simp,.refl w⟩
  split
  · exact .inl ⟨by simp,.refl w⟩
  split
  · exact .inl ⟨by simp,.refl w⟩
  split
  · rename_i status failed
    exact .inl ⟨refuses_prepareBatch _ _ _ _ status failed,.refl w⟩
  · rename_i p prepared
    obtain ⟨_,admitted,prepared⟩ := except_bind_ok prepared
    obtain ⟨_,_,prepared⟩ := except_bind_ok prepared
    obtain ⟨distinct,-⟩ := admitWrites_ok admitted
    rw [map_map] at distinct
    obtain ⟨found,stores,records,changes⟩ := prepareWrites_ok prepared
    rw [nil_append] at stores records changes
    split
    · rename_i empty
      refine .inr ⟨rfl,distinct,found,.inl ⟨?_,rfl⟩⟩
      rw [stores] at empty
      simpa using empty
    rename_i stored
    have nonempty : changedWrites w writes ≠ [] := by
      intro none
      rw [stores,none] at stored
      exact stored rfl
    rcases commitPrepared_cases env w p replay with
      ⟨status,failed,reported,same⟩ | ⟨id,transactions,authoring,journal,done,candidate,revision,installed,after⟩
    · split
      · rename_i status' w' whole
        rw [whole] at reported same
        cases reported
        exact .inl ⟨failed,same⟩
      · rename_i id w' whole
        rw [whole] at reported
        cases reported
    · split
      · rename_i status' w' whole
        rw [whole] at done
        cases done
      · rename_i id' w' whole
        rw [whole] at done after
        obtain rfl : w' = _ := after
        refine .inr ⟨rfl,distinct,found,.inr ⟨nonempty,⟨?_,?_,?_,?_⟩⟩⟩
        · rw [install,stores]
        · exact ⟨_,changes,rfl,candidate⟩
        · rw [install,revision]
        · rwa [← records]

def Effective (action : CommittedTransaction) : Prop :=
  action.replayPolicy = .preparedPropertyBatch ∧ action.changes ≠ [] ∧
    ∀ change ∈ action.changes, ∃ object schema version name before after,
      change = .property object schema version name before after ∧ before.equals after = false

def opposite (e : PreparedPropertyWrite × Option WireValue) : PreparedPropertyWrite × Option WireValue :=
  ({ e.1 with value := e.2.getD .nil },some e.1.value)

variable (h : AuthoritativeTransactionHistory Payload)

theorem replayWrites_eq (redo : Bool) {changes : List TransactionChange}
    (effective : ∀ change ∈ changes, ∃ object schema version name before after,
      change = .property object schema version name before after ∧ before.equals after = false) :
    ∃ writes, replayWrites h redo changes = some writes ∧ writes.length = changes.length ∧
      (∀ e ∈ writes, ∃ value, e.2 = some value ∧ value.equals e.1.value = false) ∧
      replayWrites h (!redo) changes = some (writes.map opposite) := by
  induction changes with
  | nil => exact ⟨[],rfl,rfl,fun e member => (nomatch member),rfl⟩
  | cons change rest ih =>
    obtain ⟨object,schema,version,name,before,after,rfl,differ⟩ := effective _ (.head _)
    obtain ⟨writes,found,length,differs,back⟩ := ih fun c inside => effective c (.tail _ inside)
    have differ' : after.equals before = false := by
      by_contra same
      rw [equals_symm (by simpa using same)] at differ
      cases differ
    refine ⟨_,by rw [replayWrites,found,Option.map_some],by rw [length_cons,length_cons,length],?_,?_⟩
    · intro e member
      rcases mem_cons.mp member with rfl | inside
      · cases redo
        · exact ⟨after,rfl,differ'⟩
        · exact ⟨before,rfl,differ⟩
      · exact differs e inside
    · rw [replayWrites,back]
      cases redo <;> rfl

theorem replayWrites_cursor (cursor : Nat) (redo : Bool) (changes : List TransactionChange) :
    replayWrites { h with cursor } redo changes = replayWrites h redo changes := by
  have resolve : ∀ steps current, resolveFrom { h with cursor } steps current =
      h.resolveFrom steps current := by
    intro steps
    induction steps with
    | zero => exact fun current => rfl
    | succ steps ih =>
      intro current
      rw [resolveFrom]
      simp only [ih]
      rfl
  have identity : ∀ id, resolveIdentity { h with cursor } id = h.resolveIdentity id :=
    fun id => resolve _ id
  induction changes with
  | nil => rfl
  | cons change rest ih =>
    cases change <;> simp only [replayWrites,ih,identity]

variable {redo : Bool}

theorem replay_ok (next : nextAction w.transactions redo = some action) (effective : Effective action)
    (done : (replay env w redo).1.status = .success)
    (found : replayWrites w.transactions redo action.changes = some writes) (filled : writes ≠ [])
    (differs : ∀ e ∈ writes, ∃ value, e.2 = some value ∧ value.equals e.1.value = false) :
    (writes.map fun e => e.1.key).Nodup ∧ (∀ e ∈ writes, ∃ before, w.values e.1.key = some before ∧
        ∀ value, e.2 = some value → before.equals value) ∧
      (replay env w redo).2.values = storeAll (writes.map fun e => (e.1.key,e.1.value)) w.values ∧
      ∃ after, historyCandidate w.transactions after (some (action,redo)) = .ok (replay env w redo).2.transactions := by
  have shape : replay env w redo =
      (⟨if (execute env w w.authoring.revision writes (some (action,redo))).1.status = .success then .success
          else .executionFailed,(execute env w w.authoring.revision writes (some (action,redo))).1.historyId,
        (execute env w w.authoring.revision writes (some (action,redo))).1.startingRevision,
        (execute env w w.authoring.revision writes (some (action,redo))).1.resultingRevision,
        (execute env w w.authoring.revision writes (some (action,redo))).1.changedWrites,""⟩,
        (execute env w w.authoring.revision writes (some (action,redo))).2) := by
    rw [replay,next]
    simp only
    rw [if_neg (not_not.mpr effective.1),found]
  rw [shape] at done ⊢
  have succeeded : (execute env w w.authoring.revision writes (some (action,redo))).1.status = .success := by
    by_contra failed
    rw [if_neg failed] at done
    cases done
  rcases execute_cases env w w.authoring.revision writes (some (action,redo)) with ⟨failed,-⟩ | ⟨-,distinct,met,rest⟩
  · exact absurd succeeded failed
  have all : changedWrites w writes = writes.map Prod.fst := by
    rw [changedWrites,filter_eq_self]
    intro write member
    obtain ⟨e,inside,rfl⟩ := mem_map.mp member
    obtain ⟨before,read,expected⟩ := met e inside
    obtain ⟨value,named,differ⟩ := differs e inside
    rw [changed,read,Option.any_some]
    by_contra same
    rw [equals_trans (equals_symm (expected value named)) (by simpa using same)] at differ
    cases differ
  rcases rest with ⟨none,-⟩ | ⟨-,committed⟩
  · rw [all,map_eq_nil_iff] at none
    exact absurd none filled
  · refine ⟨distinct,met,?_,?_⟩
    · rw [committed.values,all,map_map]
      rfl
    · obtain ⟨after,-,-,candidate⟩ := committed.transactions
      exact ⟨after,candidate⟩

theorem historyCandidate_moved {h moved : AuthoritativeTransactionHistory Payload} {after : CommittedTransaction}
    (candidate : historyCandidate h after (some (action,redo)) = .ok moved) : nextAction moved (!redo) = some action ∧
      ∃ cursor, moved = { h with cursor } ∧ ∀ again back, historyCandidate moved again (some (action,!redo)) = .ok back →
        back = h := by
  cases redo with
  | true =>
    rw [historyCandidate] at candidate
    split_ifs at candidate with other
    cases candidate
    refine ⟨not_not.mp other,_,rfl,fun again back candidate => ?_⟩
    rw [Bool.not_true,historyCandidate] at candidate
    split at candidate
    · cases candidate
    · exact (ok.inj candidate).symm
  | false =>
    rw [historyCandidate] at candidate
    split_ifs at candidate with other
    cases candidate
    rw [not_or,not_not] at other
    refine ⟨other.2,_,rfl,fun again back candidate => ?_⟩
    rw [Bool.not_false,historyCandidate] at candidate
    split at candidate
    · cases candidate
    · have positive : h.cursor - 1 + 1 = h.cursor := by omega
      rw [← ok.inj candidate]
      simp only [positive]

theorem replay_restores (next : nextAction w.transactions redo = some action)
    (effective : Effective action) (first : (replay env w redo).1.status = .success)
    (second : (replay env (replay env w redo).2 (!redo)).1.status = .success) :
    (∀ key, ((replay env (replay env w redo).2 (!redo)).2.values key).map WireValue.normal =
        (w.values key).map WireValue.normal) ∧
      (replay env (replay env w redo).2 (!redo)).2.transactions = w.transactions := by
  obtain ⟨writes,found,length,differs,back⟩ := replayWrites_eq w.transactions redo effective.2.2
  have filled : writes ≠ [] := fun none => effective.2.1 (eq_nil_of_length_eq_zero (by rw [← length,none]; rfl))
  obtain ⟨distinct,met,values,after,candidate⟩ := replay_ok next effective first found filled differs
  obtain ⟨next',cursor,moved,returns⟩ := historyCandidate_moved candidate
  have found' : replayWrites (replay env w redo).2.transactions (!redo) action.changes = some (writes.map opposite) := by
    rw [moved,replayWrites_cursor,back]
  have differs' : ∀ e ∈ writes.map opposite, ∃ value, e.2 = some value ∧ value.equals e.1.value = false := by
    intro e member
    obtain ⟨e,inside,rfl⟩ := mem_map.mp member
    obtain ⟨value,named,differ⟩ := differs e inside
    refine ⟨e.1.value,rfl,?_⟩
    simp only [opposite,named,Option.getD_some]
    by_contra same
    rw [equals_symm (by simpa using same)] at differ
    cases differ
  obtain ⟨-,-,values',again,candidate'⟩ :=
    replay_ok next' effective second found' (by simpa using filled) differs'
  refine ⟨fun key => ?_,returns again _ candidate'⟩
  have keys : ((writes.map opposite).map fun e => (e.1.key,e.1.value)).map Prod.fst = writes.map fun e => e.1.key := by
    rw [map_map,map_map]
    rfl
  have keys' : (writes.map fun e => (e.1.key,e.1.value)).map Prod.fst = writes.map fun e => e.1.key := by
    rw [map_map]
    rfl
  rw [values']
  by_cases listed : key ∈ writes.map (·.1.key)
  · obtain ⟨e,inside,rfl⟩ := mem_map.mp listed
    obtain ⟨before,read,expected⟩ := met e inside
    obtain ⟨value,named,-⟩ := differs e inside
    have stored : (e.1.key,value) ∈ (writes.map opposite).map fun e => (e.1.key,e.1.value) := by
      refine mem_map.mpr ⟨opposite e,mem_map_of_mem inside,?_⟩
      simp only [opposite,named,Option.getD_some]
      rfl
    rw [storeAll_at (by rw [keys]; exact distinct) stored,read,Option.map_some,Option.map_some,
      equals_iff.mp (expected value named)]
  · rw [storeAll_other (by rw [keys]; exact listed),values,storeAll_other (by rw [keys']; exact listed)]

theorem retain_last (t : CommittedTransaction) :
    ∃ kept, (h.retain t).history = kept ++ [t] ∧ (h.retain t).cursor = (kept ++ [t]).length :=
  ⟨_,rfl,rfl⟩

theorem changedWrites_apply (w : World) (writes : List PreparedPropertyWrite) :
    changedWrites w (writes.map fun write => (write,none)) = writes.filter (changed w) := by
  rw [changedWrites,map_map]
  exact congrArg (List.filter (changed w)) (map_id writes)

theorem effective_changes {writes : List PreparedPropertyWrite} (policy : action.replayPolicy = .preparedPropertyBatch)
    (changes : action.changes = (writes.filter (changed w)).map (changeOf w))
    (filled' : writes.filter (changed w) ≠ []) : Effective action := by
  refine ⟨policy,by rw [changes]; simpa using filled',fun change member => ?_⟩
  rw [changes] at member
  obtain ⟨write,inside,rfl⟩ := mem_map.mp member
  refine ⟨_,_,_,_,_,_,rfl,?_⟩
  have differs := (mem_filter.mp inside).2
  unfold changed at differs
  cases read : w.values write.key with
  | none =>
    rw [read] at differs
    cases differs
  | some before =>
    rwa [read,Option.any_some,Bool.not_eq_true'] at differs

/-- One object with a name that may be written. -/
def namedEnvironment : Environment where
  layout := AuthoritativeTransactionHistory.layout64
  mainDomain := true
  mutateDataModel := true
  preparing := false
  registryFrozen := true
  worldDestroyed := false
  interrupted _ _ := none
  lookup object := if object = ⟨2,1⟩ then some
    ⟨false,true,true,fun _ => some ⟨⟨1,1⟩,1,true,true,true,false,fun _ => .success,fun _ => true⟩⟩ else none

def namedWorld : World where
  scope := ⟨1,1⟩
  values key := if key = (⟨2,1⟩,ascii "Name") then some (.string (ascii "old")) else none

/-- A new name is committed, taken back and made again. -/
example :
    let renamed := apply namedEnvironment namedWorld 0 [⟨⟨2,1⟩,⟨1,1⟩,1,ascii "Name",.string (ascii "new")⟩]
    let undone := replay namedEnvironment renamed.2 false
    let redone := replay namedEnvironment undone.2 true
    renamed.1.status = .success ∧ undone.1.status = .success ∧ redone.1.status = .success ∧
      undone.2.values (⟨2,1⟩,ascii "Name") = some (.string (ascii "old")) ∧
      redone.2.values (⟨2,1⟩,ascii "Name") = some (.string (ascii "new")) := by
  decide

end Gargantuan.PreparedPropertyCommit
