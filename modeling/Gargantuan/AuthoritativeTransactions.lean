import Gargantuan.ChangeJournal
import Gargantuan.WireValue

/-!
The history of the authoring transactions of a world. At most one transaction is open; its
commit hands its journal records to the change journal and retains it. Retaining discards
the transactions that could be redone and evicts the oldest ones while the limits are not met.

The sizes that the compiler gives to the types are a parameter. A `size_t` is of 64 bits.
-/
namespace Gargantuan

structure TransactionId where
  value : Nat := 0
deriving DecidableEq

def TransactionId.isValid (id : TransactionId) : Bool := id.value ≠ 0

inductive TransactionOrigin where
  | studio | internalAuthoring
deriving DecidableEq

inductive SubtreeTransactionKind where
  | create | destroy | duplicate
deriving DecidableEq

inductive TransactionChange where
  | property (object : ObjectId) (declaringSchemaId : SchemaId) (definitionVersion : UInt32)
      (propertyName : ByteString) (before after : WireValue)
  | scriptSource (object : ObjectId) (declaringSchemaId : SchemaId) (definitionVersion : UInt32)
      (before after : ByteString)
  | attributeValue (object : ObjectId) (attributeName : ByteString) (before after : Option WireValue)
  | tag (object : ObjectId) (tagName : ByteString) (before after : Bool)
  | extension (object : ObjectId) (extensionSchemaId : SchemaId) (definitionVersion : UInt32)
      (propertyName : ByteString) (before after : WireValue)
  | reparent (object : ObjectId) (beforeParent afterParent : Option ObjectId)
  | subtree (kind : SubtreeTransactionKind) (root : ObjectId) (parent : Option ObjectId)
      (objects : List ObjectId) (persistentSnapshot : ByteString)
deriving DecidableEq

/-- What `sizeof` says of the kinds of changes, of the alternatives of a wire value and of
    an identity. -/
structure Layout where
  property : Nat
  scriptSource : Nat
  attributeValue : Nat
  tag : Nat
  extension : Nat
  reparent : Nat
  subtree : Nat
  objectId : Nat
  alternative : WireValue → Nat

def Layout.wireValueBytes (layout : Layout) (value : WireValue) : Nat :=
  match value with
  | .string text => layout.alternative value + text.length
  | .enumItem enumType item => layout.alternative value + enumType.length + item.length
  | _ => layout.alternative value

def estimateTransactionChangeBytes (layout : Layout) : TransactionChange → Nat
  | .property _ _ _ name before after =>
    layout.property + name.length + layout.wireValueBytes before + layout.wireValueBytes after
  | .scriptSource _ _ _ before after => layout.scriptSource + before.length + after.length
  | .attributeValue _ name before after =>
    layout.attributeValue + name.length + (before.map layout.wireValueBytes).getD 0 +
      (after.map layout.wireValueBytes).getD 0
  | .tag _ name _ _ => layout.tag + name.length
  | .extension _ _ _ name before after =>
    layout.extension + name.length + layout.wireValueBytes before + layout.wireValueBytes after
  | .reparent _ _ _ => layout.reparent
  | .subtree _ _ _ objects snapshot => layout.subtree + objects.length * layout.objectId + snapshot.length

def wireReference : WireValue → List ObjectId
  | .objectReference object => [object]
  | _ => []

/-- The identities that a change names. -/
def TransactionChange.references : TransactionChange → List ObjectId
  | .property object _ _ _ before after => object :: wireReference before ++ wireReference after
  | .scriptSource object _ _ _ _ => [object]
  | .attributeValue object _ before after =>
    object :: (before.map wireReference).getD [] ++ (after.map wireReference).getD []
  | .tag object _ _ _ => [object]
  | .extension object _ _ _ before after => object :: wireReference before ++ wireReference after
  | .reparent object beforeParent afterParent => object :: beforeParent.toList ++ afterParent.toList
  | .subtree _ root parent objects _ => root :: parent.toList ++ objects

inductive TransactionReplayPolicy where
  | legacy | preparedPropertyBatch
deriving DecidableEq

structure CommittedTransaction where
  id : TransactionId
  label : ByteString
  origin : TransactionOrigin := .studio
  startingRevision : Nat := 0
  resultingRevision : Nat := 0
  changes : List TransactionChange
  semanticBytes : Nat := 0
  replayPolicy : TransactionReplayPolicy := .legacy
deriving DecidableEq

inductive TransactionStatus where
  | success | noChanges | notFound | wrongOwner | limitExceeded | revisionExhausted | invalidState
  | nothingToUndo | nothingToRedo | executionFailed
deriving DecidableEq, Repr

structure TransactionResult where
  status : TransactionStatus := .invalidState
  id : TransactionId := {}
  startingRevision : Nat := 0
  resultingRevision : Nat := 0
  changeCount : Nat := 0
  message : String := ""

def TransactionResult.succeeded (r : TransactionResult) : Bool := r.status = .success || r.status = .noChanges

/-- The result of a call that did what it was asked for. -/
def TransactionResult.done (id : TransactionId) (startingRevision resultingRevision changeCount : Nat) :
    TransactionResult :=
  { status := .success, id, startingRevision, resultingRevision, changeCount }

structure OpenTransaction (π : Type) where
  id : TransactionId
  owner : Nat := 0
  label : ByteString
  origin : TransactionOrigin := .studio
  startingRevision : Nat := 0
  changes : List TransactionChange := []
  journalRecords : List (BufferedChangeRecord π) := []
  semanticBytes : Nat := 0
  isImplicit : Bool := false
  openedAt : Int

structure AuthoringWorld (π : Type) where
  revision : Nat := 0
  deferred : Option Bool := none
  batch : Option Bool := none
  nextProcessTransactionId : Nat := 1
  journal : ChangeJournal π := {}
  outlet : ChangeJournal.Outlet := .journal

namespace AuthoringWorld
variable {π : Type}

def ensureAuthoritativeRevisionAvailable (w : AuthoringWorld π) : Except String Unit :=
  if w.revision = 2 ^ 64 - 1 then .error "Authoritative project revision is exhausted" else .ok ()

/-- The revision goes on, after it was found to be available. -/
def advanceAuthoritativeRevision (w : AuthoringWorld π) : AuthoringWorld π :=
  if w.deferred.isSome then { w with deferred := some true }
  else if w.batch.isSome then { w with batch := some true }
  else { w with revision := w.revision + 1 }

def allocateTransactionId (w : AuthoringWorld π) : TransactionId × AuthoringWorld π :=
  if w.nextProcessTransactionId = 0 ∨ w.nextProcessTransactionId = 2 ^ 64 - 1 then ({},w)
  else (⟨w.nextProcessTransactionId⟩,{ w with nextProcessTransactionId := w.nextProcessTransactionId + 1 })

end AuthoringWorld

def maximumTransactionLabelBytes : Nat := 128
def maximumTransactionChanges : Nat := 4096
def maximumTransactionSemanticBytes : Nat := 8 * 1024 * 1024
def maximumRetainedTransactions : Nat := 128
def maximumRetainedTransactionBytes : Nat := 32 * 1024 * 1024

/-- Five minutes, in nanoseconds. -/
def maximumOpenTransactionLifetime : Int := 5 * 60 * 1000000000

structure AuthoritativeTransactionHistory (π : Type) where
  openTransaction : Option (OpenTransaction π) := none
  history : List CommittedTransaction := []
  retainedBytes : Nat := 0
  cursor : Nat := 0
  identityMappings : List (ObjectId × ObjectId) := []
  retainedTransactionLimit : Nat := maximumRetainedTransactions
  retainedByteLimit : Nat := maximumRetainedTransactionBytes

namespace AuthoritativeTransactionHistory
variable {π : Type}

/-- The constructor. -/
def new (retainedTransactionLimit retainedByteLimit : Nat) : Except String (AuthoritativeTransactionHistory π) :=
  if retainedTransactionLimit = 0 ∨ retainedByteLimit = 0 then .error "Transaction history limits must be nonzero"
  else .ok { retainedTransactionLimit, retainedByteLimit }

structure Outcome (π : Type) where
  history : AuthoritativeTransactionHistory π
  world : AuthoringWorld π
  result : Except String TransactionResult
  retained : Option CommittedTransaction := none

def failure (h : AuthoritativeTransactionHistory π) (w : AuthoringWorld π) (status : TransactionStatus)
    (id : TransactionId) (message : String) : Outcome π :=
  { history := h, world := w, result := .ok { status, id, message } }

def beginTransaction (h : AuthoritativeTransactionHistory π) (w : AuthoringWorld π) (owner : Nat) (label : ByteString)
    (origin : TransactionOrigin) (isImplicit : Bool) (openedAt : Int) : Outcome π :=
  if owner = 0 then h.failure w .wrongOwner {} "Transaction owner is invalid"
  else if label.isEmpty || label.length > maximumTransactionLabelBytes then
    h.failure w .limitExceeded {} "Transaction label is empty or exceeds its byte limit"
  else
    match h.openTransaction with
    | some o => h.failure w .limitExceeded o.id "The project already has an open transaction"
    | none =>
      match w.ensureAuthoritativeRevisionAvailable with
      | .error message => { history := h, world := w, result := .error message }
      | .ok () =>
        let (id,w) := w.allocateTransactionId
        if !id.isValid then h.failure w .limitExceeded {} "Transaction identity is exhausted"
        else
          let o : OpenTransaction π :=
            { id, owner, label, origin, startingRevision := w.revision, isImplicit, openedAt }
          ⟨{ h with openTransaction := some o },w,.ok (.done id w.revision w.revision 0),none⟩

/-- Unsigned subtraction, which wraps. -/
def sizeSub (a b : Nat) : Nat := (a + 2 ^ 64 - b) % 2 ^ 64

/-- Unsigned addition, which wraps. -/
def sizeAdd (a b : Nat) : Nat := (a + b) % 2 ^ 64

def validateMutation (h : AuthoritativeTransactionHistory π) (id : TransactionId) (owner additionalBytes : Nat)
    (additionalChanges : Nat := 1) : TransactionResult :=
  match h.openTransaction with
  | none => { status := .notFound, id, message := "Transaction is not open" }
  | some o =>
    if o.id ≠ id then { status := .notFound, id, message := "Transaction is not open" }
    else if o.owner ≠ owner then { status := .wrongOwner, id, message := "Transaction belongs to another session" }
    else if additionalChanges > sizeSub maximumTransactionChanges o.changes.length ||
        additionalBytes > sizeSub maximumTransactionSemanticBytes o.semanticBytes then
      { status := .limitExceeded, id, message := "Transaction semantic history limit would be exceeded" }
    else
      .done id o.startingRevision o.startingRevision o.changes.length

def recordMutation (layout : Layout) (h : AuthoritativeTransactionHistory π) (id : TransactionId) (owner : Nat)
    (change : TransactionChange) (journalRecords : List (BufferedChangeRecord π)) :
    Except String (AuthoritativeTransactionHistory π) :=
  let bytes := estimateTransactionChangeBytes layout change
  let validation := h.validateMutation id owner bytes
  if !validation.succeeded then .error validation.message
  else
    .ok { h with openTransaction := h.openTransaction.map fun o =>
      { o with semanticBytes := sizeAdd o.semanticBytes bytes, changes := o.changes ++ [change],
               journalRecords := o.journalRecords ++ journalRecords } }

/-! ### Retention

The loops are written over the subtraction they use, so that they can be run with one that
fails instead of wrapping. -/

section
variable {m : Type → Type} [Monad m] (sub : Nat → Nat → m Nat)

/-- Takes transactions from the back of those that can be redone. -/
def discardRedo (redo : List CommittedTransaction) (retainedBytes : Nat) : m Nat :=
  redo.reverse.foldlM (fun bytes t => sub bytes t.semanticBytes) retainedBytes

/-- The oldest transactions go while there are too many, or no room for the new bytes. -/
def evict (transactionLimit byteLimit newBytes : Nat) :
    List CommittedTransaction → (cursor retainedBytes : Nat) → m (List CommittedTransaction × Nat × Nat)
  | [], cursor, retainedBytes => pure ([],cursor,retainedBytes)
  | front :: rest, cursor, retainedBytes => do
    let full ←
      if (front :: rest).length ≥ transactionLimit then pure true
      else do
        let room ← sub byteLimit retainedBytes
        pure (decide (newBytes > room))
    if full then
      let less ← sub retainedBytes front.semanticBytes
      evict transactionLimit byteLimit newBytes rest (cursor - 1) less
    else return (front :: rest,cursor,retainedBytes)

def retainWith (h : AuthoritativeTransactionHistory π) (t : CommittedTransaction) :
    m (AuthoritativeTransactionHistory π) := do
  let undone := h.history.drop h.cursor
  let bytes ← discardRedo sub undone h.retainedBytes
  let (kept,_,bytes) ←
    evict sub h.retainedTransactionLimit h.retainedByteLimit t.semanticBytes (h.history.take h.cursor) h.cursor bytes
  let history := kept ++ [t]
  let pruned := !undone.isEmpty || kept.length < (h.history.take h.cursor).length
  let referenced := history.flatMap fun t => t.changes.flatMap TransactionChange.references
  return { h with
    history, cursor := history.length, retainedBytes := sizeAdd bytes t.semanticBytes,
    identityMappings :=
      if pruned then h.identityMappings.filter (fun e => referenced.contains e.1) else h.identityMappings }

end

def retain (h : AuthoritativeTransactionHistory π) (t : CommittedTransaction) : AuthoritativeTransactionHistory π :=
  Id.run (h.retainWith (fun a b => pure (sizeSub a b)) t)

/-- The newest entry of a key. -/
def findMapping (h : AuthoritativeTransactionHistory π) (key : ObjectId) : Option (ObjectId × ObjectId) :=
  h.identityMappings.reverse.find? fun e => e.1 = key

def resolveFrom (h : AuthoritativeTransactionHistory π) : (steps : Nat) → ObjectId → ObjectId
  | 0, current => current
  | steps + 1, current =>
    match h.findMapping current with
    | none => current
    | some e => if e.2 = current then current else h.resolveFrom steps e.2

def resolveIdentity (h : AuthoritativeTransactionHistory π) (historical : ObjectId) : ObjectId :=
  h.resolveFrom h.identityMappings.length historical

def setMapping (key value : ObjectId) : List (ObjectId × ObjectId) → List (ObjectId × ObjectId)
  | [] => []
  | e :: rest => if e.1 = key then (key,value) :: rest else e :: setMapping key value rest

def remapIdentity (h : AuthoritativeTransactionHistory π) (historical current : ObjectId) :
    AuthoritativeTransactionHistory π :=
  let aliases := (h.identityMappings.filter fun e => h.resolveIdentity e.1 = historical).map Prod.fst
  let mappings := aliases.foldl (fun mappings key => setMapping key current mappings) h.identityMappings
  { h with identityMappings :=
      if mappings.any fun e => e.1 = historical then setMapping historical current mappings
      else mappings ++ [(historical,current)] }

def completeUndo (h : AuthoritativeTransactionHistory π) (w : AuthoringWorld π) : Outcome π :=
  if h.openTransaction.isSome then h.failure w .invalidState {} "Undo is unavailable while a transaction is open"
  else if h.cursor = 0 then h.failure w .nothingToUndo {} "There is nothing to undo"
  else
    match w.ensureAuthoritativeRevisionAvailable, h.history[h.cursor - 1]? with
    | .error message, _ => { history := h, world := w, result := .error message }
    -- the cursor is never behind the retained transactions
    | .ok (), none => h.failure w .invalidState {} ""
    | .ok (), some t =>
      let after := w.advanceAuthoritativeRevision
      ⟨{ h with cursor := h.cursor - 1 },after,.ok (.done t.id w.revision after.revision t.changes.length),none⟩

def completeRedo (h : AuthoritativeTransactionHistory π) (w : AuthoringWorld π) : Outcome π :=
  if h.openTransaction.isSome then h.failure w .invalidState {} "Redo is unavailable while a transaction is open"
  else
    match h.history[h.cursor]? with
    | none => h.failure w .nothingToRedo {} "There is nothing to redo"
    | some t =>
      match w.ensureAuthoritativeRevisionAvailable with
      | .error message => { history := h, world := w, result := .error message }
      | .ok () =>
        let after := w.advanceAuthoritativeRevision
        ⟨{ h with cursor := h.cursor + 1 },after,.ok (.done t.id w.revision after.revision t.changes.length),none⟩

/-- How many records there are of each scope, in the order the scopes appear in. -/
def countScope (counts : List (ObjectId × Nat)) (record : BufferedChangeRecord π) : List (ObjectId × Nat) :=
  if counts.any fun e => e.1 = record.scope then
    counts.map fun e => if e.1 = record.scope then (e.1,e.2 + 1) else e
  else counts ++ [(record.scope,1)]

/-- The checks before anything is committed. -/
def ensureCanCommit (w : AuthoringWorld π) (records : List (BufferedChangeRecord π)) : Except String Unit := do
  w.ensureAuthoritativeRevisionAvailable
  (records.foldl countScope []).forM fun e => w.journal.ensureCanCommit w.outlet e.1 e.2

/-- Neighbours of one scope are committed as one batch. -/
def journalRuns : List (BufferedChangeRecord π) → List (ObjectId × List (ObjectId × π))
  | [] => []
  | r :: rest =>
    match journalRuns rest with
    | [] => [(r.scope,[(r.object,r.payload)])]
    | (scope,changes) :: runs =>
      if scope = r.scope then (scope,(r.object,r.payload) :: changes) :: runs
      else (r.scope,[(r.object,r.payload)]) :: (scope,changes) :: runs

def commitRuns (outlet : ChangeJournal.Outlet) :
    ChangeJournal π → List (ObjectId × List (ObjectId × π)) → ChangeJournal.Outcome π
  | j, [] => (j,none)
  | j, (scope,changes) :: runs =>
    match j.commitBatch outlet scope changes with
    | (j,some message) => (j,some message)
    | (j,none) => commitRuns outlet j runs

def commit (h : AuthoritativeTransactionHistory π) (w : AuthoringWorld π) (id : TransactionId) (owner : Nat) :
    Outcome π :=
  match h.openTransaction with
  | none => h.failure w .notFound id "Transaction is not open"
  | some o =>
    if o.id ≠ id then h.failure w .notFound id "Transaction is not open"
    else if o.owner ≠ owner then h.failure w .wrongOwner id "Transaction belongs to another session"
    else if o.changes.isEmpty then
      let result : TransactionResult :=
        { status := .noChanges, id, startingRevision := o.startingRevision, resultingRevision := w.revision }
      ⟨{ h with openTransaction := none },w,.ok result,none⟩
    else
      match ensureCanCommit w o.journalRecords with
      | .error message => h.failure w .revisionExhausted id message
      | .ok () =>
        let after := w.advanceAuthoritativeRevision
        match commitRuns w.outlet after.journal (journalRuns o.journalRecords) with
        | (journal,some message) => { history := h, world := { after with journal }, result := .error message }
        | (journal,none) =>
          let t : CommittedTransaction :=
            { id, label := o.label, origin := o.origin, startingRevision := o.startingRevision,
              resultingRevision := after.revision, changes := o.changes, semanticBytes := o.semanticBytes }
          ⟨{ h.retain t with openTransaction := none },{ after with journal },
            .ok (.done id o.startingRevision after.revision o.changes.length),some t⟩

def terminateOwner (h : AuthoritativeTransactionHistory π) (w : AuthoringWorld π) (owner : Nat) : Outcome π :=
  match h.openTransaction with
  | none => h.failure w .notFound {} "Session has no open transaction"
  | some o =>
    if o.owner ≠ owner then h.failure w .notFound {} "Session has no open transaction" else h.commit w o.id owner

def expireOwner (h : AuthoritativeTransactionHistory π) (w : AuthoringWorld π) (owner : Nat) (now : Int) : Outcome π :=
  match h.openTransaction with
  | none => h.failure w .notFound {} "Session has no open transaction"
  | some o =>
    if o.owner ≠ owner then h.failure w .notFound {} "Session has no open transaction"
    else if now - o.openedAt < maximumOpenTransactionLifetime then
      ⟨h,w,.ok (.done o.id o.startingRevision w.revision o.changes.length),none⟩
    else h.commit w o.id owner

def reset (h : AuthoritativeTransactionHistory π) : AuthoritativeTransactionHistory π :=
  { h with openTransaction := none, history := [], retainedBytes := 0, cursor := 0, identityMappings := [] }

end AuthoritativeTransactionHistory
end Gargantuan
