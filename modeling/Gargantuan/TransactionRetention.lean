import Gargantuan.AuthoritativeTransactions

/-!
What the transaction history retains. Over every run the retained transactions are an end
of those that were committed, without the ones that a later commit discarded, as long as no
transaction is retained that is larger than the byte limit by itself.
-/
namespace Gargantuan.AuthoritativeTransactionHistory
open List Option Nat Prod
variable {π : Type}

/-- The subtraction that fails where the one of the source wraps. -/
def checkedSub (a b : Nat) : Option Nat := if b ≤ a then some (a - b) else none

/-- The subtraction of the source. -/
def wrappedSub (a b : Nat) : Id Nat := pure (sizeSub a b)

theorem checkedSub_of_le {a b : Nat} (fits : b ≤ a) : checkedSub a b = some (a - b) := if_pos fits

theorem wrappedSub_of_le {a b : Nat} (fits : b ≤ a) (bound : a < 2 ^ 64) : wrappedSub a b = pure (a - b) := by
  rw [wrappedSub,sizeSub,Nat.sub_add_comm fits,Nat.add_mod_right,Nat.mod_eq_of_lt (by omega)]

def sizes (history : List CommittedTransaction) : Nat := (history.map CommittedTransaction.semanticBytes).sum

@[simp] theorem sizes_nil : sizes [] = 0 := rfl

@[simp] theorem sizes_cons (t : CommittedTransaction) (rest : List CommittedTransaction) :
    sizes (t :: rest) = t.semanticBytes + sizes rest := by
  rw [sizes,map_cons,sum_cons,sizes]

@[simp] theorem sizes_append (first second : List CommittedTransaction) :
    sizes (first ++ second) = sizes first + sizes second := by
  rw [sizes,map_append,sum_append_nat,sizes,sizes]

theorem foldSub {redo : List CommittedTransaction} {bytes : Nat} (bound : bytes < 2 ^ 64) (fits : sizes redo ≤ bytes) :
    redo.foldlM (fun bytes t => checkedSub bytes t.semanticBytes) bytes = some (bytes - sizes redo) ∧
      redo.foldlM (fun bytes t => wrappedSub bytes t.semanticBytes) bytes = pure (bytes - sizes redo) := by
  induction redo generalizing bytes with
  | nil => exact ⟨rfl,rfl⟩
  | cons t rest ih =>
    rw [sizes_cons] at fits
    have first : t.semanticBytes ≤ bytes := by omega
    obtain ⟨checked,wrapped⟩ := ih (by omega : bytes - t.semanticBytes < 2 ^ 64) (by omega)
    rw [sizes_cons,← Nat.sub_sub]
    constructor
    · rwa [foldlM_cons,checkedSub_of_le first]
    · rwa [foldlM_cons,wrappedSub_of_le first bound]

theorem sizes_reverse (history : List CommittedTransaction) : sizes history.reverse = sizes history := by
  rw [sizes,map_reverse,sum_reverse,sizes]

theorem discardRedo_eq {kept redo : List CommittedTransaction} (bound : sizes (kept ++ redo) < 2 ^ 64) :
    discardRedo checkedSub redo (sizes (kept ++ redo)) = some (sizes kept) ∧
      discardRedo wrappedSub redo (sizes (kept ++ redo)) = pure (sizes kept) := by
  have fits : sizes redo.reverse ≤ sizes (kept ++ redo) := by
    rw [sizes_reverse,sizes_append]
    omega
  have rest : sizes (kept ++ redo) - sizes redo.reverse = sizes kept := by
    rw [sizes_reverse,sizes_append,Nat.add_sub_cancel]
  rw [← rest]
  exact foldSub bound fits

theorem evict_eq {transactionLimit byteLimit newBytes : Nat} (positive : 0 < transactionLimit) (bound : byteLimit < 2 ^ 64)
    (room : newBytes ≤ byteLimit) {history : List CommittedTransaction} (cursor : Nat)
    (fits : sizes history ≤ byteLimit) :
    ∃ kept cursor', kept <:+ history ∧ kept.length < transactionLimit ∧ newBytes + sizes kept ≤ byteLimit ∧
      evict checkedSub transactionLimit byteLimit newBytes history cursor (sizes history) =
        some (kept,cursor',sizes kept) ∧
      evict wrappedSub transactionLimit byteLimit newBytes history cursor (sizes history) =
        pure (kept,cursor',sizes kept) := by
  induction history generalizing cursor with
  | nil => exact ⟨[],cursor,suffix_refl _,positive,room,rfl,rfl⟩
  | cons front rest ih =>
    have first : front.semanticBytes ≤ sizes (front :: rest) := by
      rw [sizes_cons]
      omega
    have whole : sizes (front :: rest) ≤ byteLimit := by rwa [sizes_cons]
    have less : sizes (front :: rest) - front.semanticBytes = sizes rest := by rw [sizes_cons,Nat.add_sub_cancel_left]
    obtain ⟨kept,cursor',suffix,short,fit,checked,wrapped⟩ := ih (cursor - 1) (by omega)
    have gone : kept <:+ front :: rest := suffix.trans (suffix_cons _ _)
    by_cases full : (front :: rest).length ≥ transactionLimit
    · refine ⟨kept,cursor',gone,short,fit,?_,?_⟩
      · rwa [evict,if_pos full,checkedSub_of_le first,less]
      · rwa [evict,if_pos full,wrappedSub_of_le first (by omega),less]
    · by_cases large : newBytes > byteLimit - sizes (front :: rest)
      · refine ⟨kept,cursor',gone,short,fit,?_,?_⟩
        · rw [evict,if_neg full,checkedSub_of_le whole,checkedSub_of_le first,less]
          simp only [Option.bind_eq_bind,Option.bind_some,Option.pure_def,large,decide_true,if_true]
          exact checked
        · rw [evict,if_neg full,wrappedSub_of_le whole bound,wrappedSub_of_le first (by omega),less]
          simp only [pure_bind,large,decide_true,if_true]
          exact wrapped
      · refine ⟨front :: rest,cursor,suffix_refl _,not_le.mp full,by omega,?_,?_⟩
        · rw [evict,if_neg full,checkedSub_of_le whole]
          simp only [Option.bind_eq_bind,Option.bind_some,Option.pure_def,large,decide_false,Bool.false_eq_true,
            if_false]
        · rw [evict,if_neg full,wrappedSub_of_le whole bound]
          simp only [pure_bind,large,decide_false,Bool.false_eq_true,if_false]

structure Within (h : AuthoritativeTransactionHistory π) : Prop where
  cursor : h.cursor ≤ h.history.length
  count : h.history.length ≤ h.retainedTransactionLimit
  bytes : h.retainedBytes = sizes h.history
  within : h.retainedBytes ≤ h.retainedByteLimit
  opened : ∀ o, h.openTransaction = some o →
    o.changes.length ≤ maximumTransactionChanges ∧ o.semanticBytes ≤ maximumTransactionSemanticBytes
  limits : 0 < h.retainedTransactionLimit ∧ h.retainedByteLimit < 2 ^ 64

def keys (h : AuthoritativeTransactionHistory π) : List ObjectId := h.identityMappings.map Prod.fst

def Unreferenced (h : AuthoritativeTransactionHistory π) (key : ObjectId) : Prop :=
  ∀ t ∈ h.history, ∀ change ∈ t.changes, key ∉ change.references

variable {h : AuthoritativeTransactionHistory π}

theorem retain_eq (within : Within h) {t : CommittedTransaction} (fits : t.semanticBytes ≤ h.retainedByteLimit) :
    h.retainWith checkedSub t = some (h.retain t) ∧ Within (h.retain t) ∧
      (∃ kept, kept <:+ h.history.take h.cursor ∧ (h.retain t).history = kept ++ [t]) ∧
      (h.retain t).cursor = (h.retain t).history.length ∧
      (∀ key ∈ h.keys, key ∉ (h.retain t).keys → (h.retain t).Unreferenced key) := by
  have whole : h.retainedBytes = sizes (h.history.take h.cursor ++ h.history.drop h.cursor) := by
    rw [take_append_drop,within.bytes]
  have bound := within.limits.2
  have small : sizes (h.history.take h.cursor ++ h.history.drop h.cursor) ≤ h.retainedByteLimit :=
    whole ▸ within.within
  obtain ⟨checkedRedo,wrappedRedo⟩ := discardRedo_eq (lt_of_le_of_lt small bound)
  have left : sizes (h.history.take h.cursor) ≤ h.retainedByteLimit := by
    rw [sizes_append] at small
    omega
  obtain ⟨kept,cursor',suffix,short,room,checked,wrapped⟩ := evict_eq within.limits.1 bound fits h.cursor left
  rw [← whole] at checkedRedo wrappedRedo
  have retained : h.retain t = Id.run (h.retainWith wrappedSub t) := rfl
  have same : h.retainWith checkedSub t = some (h.retain t) := by
    rw [retained,retainWith,retainWith,checkedRedo,wrappedRedo]
    simp only [bind_eq_bind,bind_some,pure_bind,checked,wrapped]
    rfl
  obtain ⟨pruned,shape⟩ : ∃ pruned : Bool, h.retain t = { h with
      history := kept ++ [t], cursor := (kept ++ [t]).length, retainedBytes := sizeAdd (sizes kept) t.semanticBytes,
      identityMappings :=
        if pruned then h.identityMappings.filter fun e =>
          ((kept ++ [t]).flatMap fun t => t.changes.flatMap TransactionChange.references).contains e.1
        else h.identityMappings } := by
    refine ⟨!(h.history.drop h.cursor).isEmpty || decide (kept.length < (h.history.take h.cursor).length),?_⟩
    rw [retained,retainWith,wrappedRedo]
    simp only [pure_bind,wrapped]
    rfl
  have added : sizeAdd (sizes kept) t.semanticBytes = sizes (kept ++ [t]) := by
    rw [sizes_append,sizes_cons,sizes_nil,sizeAdd,mod_eq_of_lt (by omega),add_zero]
  refine ⟨same,?_,⟨kept,suffix,by rw [shape]⟩,by rw [shape],?_⟩
  · rw [shape]
    refine ⟨le_rfl,?_,added,?_,within.opened,within.limits⟩
    · rwa [length_append]
    · simp only [added,sizes_append,sizes_cons,sizes_nil]
      omega
  · intro key old new other member change inside named
    apply new
    rw [shape] at member ⊢
    cases pruned with
    | false => exact old
    | true =>
      obtain ⟨e,entry,rfl⟩ := mem_map.mp old
      refine mem_map.mpr ⟨e,mem_filter.mpr ⟨entry,?_⟩,rfl⟩
      rw [contains_iff_mem]
      exact mem_flatMap.mpr ⟨other,member,mem_flatMap.mpr ⟨change,inside,named⟩⟩

/-! ### Calls -/

inductive Operation (π : Type) where
  | beginTransaction (owner : Nat) (label : ByteString) (origin : TransactionOrigin) (isImplicit : Bool) (openedAt : Int)
  | recordMutation (id : TransactionId) (owner : Nat) (change : TransactionChange)
      (journalRecords : List (BufferedChangeRecord π))
  | commit (id : TransactionId) (owner : Nat)
  | completeUndo
  | completeRedo
  | terminateOwner (owner : Nat)
  | expireOwner (owner : Nat) (now : Int)
  | remapIdentity (historical current : ObjectId)
  | reset

def apply (layout : Layout) (h : AuthoritativeTransactionHistory π) (w : AuthoringWorld π) : Operation π → Outcome π
  | .beginTransaction owner label origin isImplicit openedAt =>
    h.beginTransaction w owner label origin isImplicit openedAt
  | .recordMutation id owner change journalRecords =>
    match h.recordMutation layout id owner change journalRecords with
    | .error message => ⟨h,w,.error message,none⟩
    | .ok h => ⟨h,w,.ok (.done id 0 0 0),none⟩
  | .commit id owner => h.commit w id owner
  | .completeUndo => h.completeUndo w
  | .completeRedo => h.completeRedo w
  | .terminateOwner owner => h.terminateOwner w owner
  | .expireOwner owner now => h.expireOwner w owner now
  | .remapIdentity historical current => ⟨h.remapIdentity historical current,w,.ok (.done {} 0 0 0),none⟩
  | .reset => ⟨h.reset,w,.ok (.done {} 0 0 0),none⟩

def Operation.Ends (o : OpenTransaction π) : Operation π → Prop
  | .commit id owner => o.id = id ∧ o.owner = owner
  | .terminateOwner owner => o.owner = owner
  | .expireOwner owner now => o.owner = owner ∧ maximumOpenTransactionLifetime ≤ now - o.openedAt
  | _ => False

/-- A call that commits changes finds them no larger than the byte limit. -/
def Fits (h : AuthoritativeTransactionHistory π) (w : AuthoringWorld π) (op : Operation π) : Prop :=
  ∀ o, h.openTransaction = some o → op.Ends o → o.changes ≠ [] → ensureCanCommit w o.journalRecords = .ok () →
    o.semanticBytes ≤ h.retainedByteLimit

/-- What a call leaves of what was retained. -/
structure Keeps (h : AuthoritativeTransactionHistory π) (op : Operation π) (o : Outcome π) : Prop where
  within : Within o.history
  exactly : ∀ t, o.retained = some t → (h.retainWith checkedSub t).isSome
  committed : ∀ t, o.retained = some t →
    (∃ kept, kept <:+ h.history.take h.cursor ∧ o.history.history = kept ++ [t]) ∧
      o.history.cursor = o.history.history.length
  others : o.retained = none → o.history.history = if op matches .reset then [] else h.history
  mappings : ∀ key ∈ h.keys, key ∉ o.history.keys → o.history.Unreferenced key

variable {op : Operation π}

theorem keeps_idle (within : Within h) (plain : op ≠ .reset) {x : Option (OpenTransaction π)}
    {c : Nat} {m : List (ObjectId × ObjectId)} (w : AuthoringWorld π) (r : Except String TransactionResult)
    (cursor : c ≤ h.history.length) (mapped : ∀ key ∈ h.keys, key ∈ m.map fst) (opened : ∀ o, x = some o →
      o.changes.length ≤ maximumTransactionChanges ∧ o.semanticBytes ≤ maximumTransactionSemanticBytes) :
    Keeps h op ⟨{ h with openTransaction := x, cursor := c, identityMappings := m },w,r,none⟩ := by
  refine ⟨{ within with cursor := cursor, opened := opened },?_,?_,?_,?_⟩
  · intro t none
    cases none
  · intro t none
    cases none
  · intro _
    cases op <;> first | rfl | exact absurd rfl plain
  · intro key old gone
    exact absurd (mapped key old) gone

theorem keeps_failure (within : Within h) (plain : op ≠ .reset) (w : AuthoringWorld π)
    (r : Except String TransactionResult) : Keeps h op ⟨h,w,r,none⟩ :=
  keeps_idle within plain w r within.cursor (fun _ member => member) within.opened

theorem keeps_beginTransaction (within : Within h) (w : AuthoringWorld π) (owner : Nat) (label : ByteString)
    (origin : TransactionOrigin) (isImplicit : Bool) (openedAt : Int) :
    Keeps h (.beginTransaction owner label origin isImplicit openedAt)
      (h.beginTransaction w owner label origin isImplicit openedAt) := by
  have plain : (.beginTransaction owner label origin isImplicit openedAt : Operation π) ≠ .reset := by simp
  unfold beginTransaction
  split
  · exact keeps_failure within plain w _
  split
  · exact keeps_failure within plain w _
  split
  · exact keeps_failure within plain w _
  split
  · exact keeps_failure within plain w _
  simp only
  split
  · exact keeps_failure within plain _ _
  · refine keeps_idle within plain _ _ within.cursor (fun _ member => member) fun o opened => ?_
    cases opened
    exact ⟨zero_le _,zero_le _⟩

variable {id : TransactionId}

theorem validateMutation_success (within : Within h) {owner bytes : Nat}
    (valid : (h.validateMutation id owner bytes).succeeded) {o : OpenTransaction π}
    (opened : h.openTransaction = some o) :
    o.changes.length + 1 ≤ maximumTransactionChanges ∧ o.semanticBytes + bytes ≤ maximumTransactionSemanticBytes := by
  obtain ⟨few,small⟩ := within.opened o opened
  have subtract : ∀ {a b : Nat}, b ≤ a → a < 2 ^ 64 → sizeSub a b = a - b := fun fits bound => wrappedSub_of_le fits bound
  rw [validateMutation,opened] at valid
  simp only at valid
  split_ifs at valid with wrong foreign large
  · simp [TransactionResult.succeeded] at valid
  · simp [TransactionResult.succeeded] at valid
  · simp [TransactionResult.succeeded] at valid
  · rw [Bool.or_eq_true,not_or,decide_eq_true_eq,decide_eq_true_eq,not_lt,not_lt,subtract few (by decide),
      subtract small (by decide)] at large
    omega

theorem keeps_recordMutation (layout : Layout) (within : Within h) (w : AuthoringWorld π) (id : TransactionId)
    (owner : Nat) (change : TransactionChange) (records : List (BufferedChangeRecord π)) :
    Keeps h (.recordMutation id owner change records) (h.apply layout w (.recordMutation id owner change records)) := by
  have plain : (.recordMutation id owner change records : Operation π) ≠ .reset := by simp
  rw [apply,recordMutation]
  cases valid : (h.validateMutation id owner (estimateTransactionChangeBytes layout change)).succeeded with
  | false =>
    exact keeps_failure within plain w _
  | true =>
    refine keeps_idle within plain _ _ within.cursor (fun _ member => member) fun o recorded => ?_
    obtain ⟨o,opened,rfl⟩ := map_eq_some_iff.mp recorded
    obtain ⟨few,small⟩ := validateMutation_success within valid opened
    constructor
    · rwa [length_append]
    · exact (mod_le _ _).trans small

theorem keeps_commit (within : Within h) {w : AuthoringWorld π} {owner : Nat}
    (plain : op ≠ .reset) (fits : ∀ o, h.openTransaction = some o → o.id = id → o.owner = owner → o.changes ≠ [] →
      ensureCanCommit w o.journalRecords = .ok () → o.semanticBytes ≤ h.retainedByteLimit) :
    Keeps h op (h.commit w id owner) := by
  unfold commit
  split
  · exact keeps_failure within plain w _
  rename_i o opened
  split
  · exact keeps_failure within plain w _
  rename_i same
  split
  · exact keeps_failure within plain w _
  rename_i own
  split
  · exact keeps_idle within plain w _ within.cursor (fun _ member => member) nofun
  rename_i changed
  split
  · exact keeps_failure within plain w _
  rename_i admitted
  simp only
  split
  · exact keeps_failure within plain _ _
  have room := fits o opened (not_not.mp same) (not_not.mp own) (fun empty => changed (isEmpty_iff.mpr empty)) admitted
  obtain ⟨checked,after,kept,cursor,mapped⟩ := retain_eq within (t :=
    { o with id := id, resultingRevision := w.advanceAuthoritativeRevision.revision, replayPolicy := .legacy }) room
  refine ⟨{ after with opened := by simp },?_,?_,?_,mapped⟩
  · intro t retained
    rw [← Option.some.inj retained,checked]
    rfl
  · intro t retained
    rw [← Option.some.inj retained]
    exact ⟨kept,cursor⟩
  · intro none
    cases none

theorem keys_setMapping (key value : ObjectId) (mappings : List (ObjectId × ObjectId)) :
    (setMapping key value mappings).map fst = mappings.map fst := by
  induction mappings with
  | nil => rfl
  | cons e rest ih =>
    rw [setMapping]
    split_ifs with same
    · rw [map_cons,map_cons,same]
    · rw [map_cons,ih,map_cons]

theorem keys_remapIdentity (h : AuthoritativeTransactionHistory π) (historical current : ObjectId) :
    ∀ key ∈ h.keys, key ∈ (h.remapIdentity historical current).keys := by
  intro key member
  have folded : ∀ (aliases : List ObjectId) (mappings : List (ObjectId × ObjectId)),
      (aliases.foldl (fun mappings key => setMapping key current mappings) mappings).map fst =
        mappings.map fst := by
    intro aliases
    induction aliases with
    | nil => exact fun mappings => rfl
    | cons a rest ih => exact fun mappings => (ih _).trans (keys_setMapping a current mappings)
  rw [keys,remapIdentity]
  split_ifs with known
  · rwa [keys_setMapping,folded]
  · rw [map_append,folded]
    exact mem_append_left _ member

theorem keeps_apply (layout : Layout) (within : Within h) (w : AuthoringWorld π)
    (fits : Fits h w op) : Keeps h op (h.apply layout w op) := by
  cases op with
  | beginTransaction owner label origin isImplicit openedAt =>
    exact keeps_beginTransaction within w owner label origin isImplicit openedAt
  | recordMutation id owner change records => exact keeps_recordMutation layout within w id owner change records
  | commit id owner => exact keeps_commit within nofun fun o opened same own => fits o opened ⟨same,own⟩
  | completeUndo =>
    have plain : (.completeUndo : Operation π) ≠ .reset := by simp
    rw [apply,completeUndo]
    split
    · exact keeps_failure within plain w _
    split
    · exact keeps_failure within plain w _
    split
    · exact keeps_failure within plain w _
    · exact keeps_failure within plain w _
    · have bound := within.cursor
      exact keeps_idle within plain _ _ (by omega) (fun _ member => member) within.opened
  | completeRedo =>
    have plain : (.completeRedo : Operation π) ≠ .reset := by simp
    rw [apply,completeRedo]
    split
    · exact keeps_failure within plain w _
    split
    · exact keeps_failure within plain w _
    rename_i t found
    split
    · exact keeps_failure within plain w _
    · have inside := (List.getElem?_eq_some_iff.mp found).1
      exact keeps_idle within plain _ _ inside (fun _ member => member) within.opened
  | terminateOwner owner =>
    rw [apply,terminateOwner]
    split
    · exact keeps_failure within (by simp) w _
    rename_i o opened
    split
    · exact keeps_failure within (by simp) w _
    · rename_i own
      refine keeps_commit within nofun fun o' opened' _ _ => fits o' opened' ?_
      rw [Option.some.inj (opened'.symm.trans opened)]
      exact not_not.mp own
  | expireOwner owner now =>
    rw [apply,expireOwner]
    split
    · exact keeps_failure within (by simp) w _
    rename_i o opened
    split
    · exact keeps_failure within (by simp) w _
    rename_i own
    split
    · exact keeps_failure within (by simp) w _
    · rename_i late
      refine keeps_commit within (by simp) fun o' opened' _ _ => fits o' opened' ?_
      rw [Option.some.inj (opened'.symm.trans opened)]
      exact ⟨not_not.mp own,not_lt.mp late⟩
  | remapIdentity historical current =>
    exact keeps_idle within (by simp) w _ within.cursor (keys_remapIdentity h historical current) within.opened
  | reset =>
    refine ⟨⟨le_rfl,zero_le _,rfl,zero_le _,by simp [apply,reset],within.limits⟩,?_,?_,fun _ => rfl,?_⟩
    · intro t none
      cases none
    · intro t none
      cases none
    · intro key _ _ t member
      cases member

/-- A history and all transactions that were committed since it was reset, without those
    that were discarded when another one took their place. -/
structure Track (π : Type) where
  history : AuthoritativeTransactionHistory π
  timeline : List CommittedTransaction := []

def Track.step (layout : Layout) (s : Track π) (call : AuthoringWorld π × Operation π) : Option (Track π) :=
  let o := s.history.apply layout call.1 call.2
  some
    { history := o.history,
      timeline :=
        match o.retained with
        | some t => s.timeline.take (s.timeline.length - (s.history.history.length - s.history.cursor)) ++ [t]
        | none => if call.2 matches .reset then [] else s.timeline }

structure Track.Sound (s : Track π) : Prop where
  within : Within s.history
  suffix : s.history.history <:+ s.timeline

theorem take_suffix {history timeline : List CommittedTransaction} (suffix : history <:+ timeline) {cursor : Nat}
    (bound : cursor ≤ history.length) :
    history.take cursor <:+ timeline.take (timeline.length - (history.length - cursor)) := by
  obtain ⟨gone,rfl⟩ := suffix
  rw [length_append,show gone.length + history.length - (history.length - cursor) = gone.length + cursor by omega,
    take_length_add_append]
  exact suffix_append _ _

theorem Track.Sound.step {layout : Layout} {s s' : Track π} {call : AuthoringWorld π × Operation π} (sound : s.Sound)
    (fits : Fits s.history call.1 call.2) (stepped : s.step layout call = some s') : s'.Sound := by
  have kept := keeps_apply layout sound.within call.1 fits
  rw [← Option.some.inj stepped]
  refine ⟨kept.within,?_⟩
  cases retained : (s.history.apply layout call.1 call.2).retained with
  | none =>
    rw [kept.others retained]
    split
    · exact suffix_refl _
    · exact sound.suffix
  | some t =>
    obtain ⟨⟨front,suffix,whole⟩,-⟩ := kept.committed t retained
    rw [whole]
    obtain ⟨gone,same⟩ := suffix.trans (take_suffix sound.suffix sound.within.cursor)
    exact ⟨gone,by rw [← append_assoc,same]⟩

theorem new_sound {transactionLimit byteLimit : Nat} (built : new transactionLimit byteLimit = .ok h)
    (bound : byteLimit < 2 ^ 64) : (Track.mk h []).Sound := by
  rw [new] at built
  split_ifs at built with zero
  cases built
  have positive : 0 < transactionLimit := pos_of_ne_zero fun none => zero (.inl none)
  exact ⟨⟨le_rfl,zero_le _,rfl,zero_le _,by simp,positive,bound⟩,suffix_refl _⟩

/-- After every run of calls, each of which finds a transaction that it commits no larger than
    the byte limit: the cursor, the count and the bytes are within their limits, the bytes are
    those of the retained transactions, which are the last of those that were committed, and
    the bounds of the open transaction leave no subtraction to wrap. The next call, if it does
    so too, retains a transaction behind those that were not undone, or nothing, and it drops
    no mapping that a retained change names. -/
theorem retention_run (layout : Layout) {transactionLimit byteLimit : Nat} (bound : byteLimit < 2 ^ 64)
    {h : AuthoritativeTransactionHistory π} (built : new transactionLimit byteLimit = .ok h)
    {calls : List (AuthoringWorld π × Operation π)} {s : Track π}
    (fits : RunMeets (Track.step layout) (fun s call => Fits s.history call.1 call.2) ⟨h, []⟩ calls)
    (reached : run (Track.step layout) ⟨h, []⟩ calls = some s) :
    (s.history.cursor ≤ s.history.history.length ∧ s.history.history.length ≤ s.history.retainedTransactionLimit ∧
        s.history.retainedBytes = sizes s.history.history ∧ s.history.retainedBytes ≤ s.history.retainedByteLimit ∧
        s.history.history <:+ s.timeline ∧ ∀ o, s.history.openTransaction = some o →
          o.changes.length ≤ maximumTransactionChanges ∧ o.semanticBytes ≤ maximumTransactionSemanticBytes) ∧
      ∀ w op, Fits s.history w op → Keeps s.history op (s.history.apply layout w op) := by
  have sound : s.Sound := run_preserves_where (fun s call t fits sound stepped => sound.step fits stepped)
    (new_sound built bound) fits reached
  exact ⟨⟨sound.within.cursor,sound.within.count,sound.within.bytes,sound.within.within,sound.suffix,
    sound.within.opened⟩,fun w op => keeps_apply layout sound.within w⟩

/-- The sizes on a 64-bit platform whose strings have 32 bytes. -/
def layout64 : Layout where
  property := 208
  scriptSource := 96
  attributeValue := 200
  tag := 48
  extension := 208
  reparent := 32
  subtree := 80
  objectId := 8
  alternative
    | .nil => 1
    | .boolean _ => 1
    | .integer _ => 4
    | .double _ => 8
    | .float _ => 4
    | .string _ => 32
    | .vector2 _ _ => 8
    | .vector3 _ _ _ => 12
    | .color3 _ _ _ => 12
    | .uDim _ => 8
    | .uDim2 _ _ => 16
    | .cFrame _ => 48
    | .enumItem _ _ => 64
    | .schemaEnum _ _ _ => 24
    | .objectReference _ => 8

def tagCalls : List (AuthoringWorld Unit × Operation Unit) :=
  [({},.beginTransaction 42 (ascii "tag") .studio false 0),
   ({},.recordMutation ⟨1⟩ 42 (.tag ⟨1,1⟩ (ascii "a") false true) []),
   ({},.commit ⟨1⟩ 42)]

def tagTrack (byteLimit : Nat) : Option (Track Unit) :=
  match new 128 byteLimit with
  | .error _ => none
  | .ok h => run (Track.step layout64) ⟨h,[]⟩ tagCalls

/-- A transaction that is larger than the byte limit is retained, and the next one that is
    retained subtracts more than there is. -/
theorem oversized_transaction_is_retained :
    ((tagTrack 1).map fun s => decide (s.history.retainedByteLimit < s.history.retainedBytes) &&
      (s.history.retainWith checkedSub ⟨⟨2⟩, ascii "tag", .studio, 1, 1, [], 1, .legacy⟩).isNone) = some true := by
  decide

/-- The same calls with room for the transaction. -/
theorem tagTrack_retention :
    ∃ s, tagTrack 1000 = some s ∧ s.history.cursor = 1 ∧ s.history.retainedBytes = 49 ∧
      s.history.cursor ≤ s.history.history.length ∧ s.history.retainedBytes ≤ s.history.retainedByteLimit := by
  have meets : RunMeets (Track.step layout64) (fun s call => Fits s.history call.1 call.2)
      ⟨{ retainedTransactionLimit := 128, retainedByteLimit := 1000 },[]⟩ tagCalls := by
    refine ⟨?_,fun a first => ⟨?_,fun b second => ⟨?_,fun c third => trivial⟩⟩⟩
    · intro o opened
      cases opened
    · intro o opened ends
      cases ends
    · cases first
      cases second
      intro o opened ends changed admitted
      cases opened
      decide
  have built : (new 128 1000 : Except String (AuthoritativeTransactionHistory Unit)) = .ok _ := rfl
  have kept := (retention_run layout64 (by decide : 1000 < 2 ^ 64) built meets rfl).1
  exact ⟨_,rfl,rfl,rfl,kept.1,kept.2.2.2.1⟩

end Gargantuan.AuthoritativeTransactionHistory
