import Gargantuan.AuthoritativeTransactions

/-!
Prepared property commits. A batch of property writes is checked and prepared as a whole:
the values, the journal records and the history action; then all of it is installed at once,
or nothing is. Undo and redo of such an action prepare its values in the same way.

A prepared property is stored in a member of its own, which is read and assigned without
further code, and the native value of a member has the same fields as its wire value. So a
property is held by its wire value here. What the registries and the validators say of an
object and its properties is a parameter, and so is the point at which preparation is
interrupted by an exception; the checks that are made again at the end of preparation find
what the first ones found. Notifications come after the commit and are left out.
-/
namespace Gargantuan

inductive MutationStatus where
  | success | wrongExecutionDomain | staleObject | invalidClass | invalidProperty | invalidParent | protectedObject
  | resourceLimit | revisionExhausted | readOnly | unauthorized | validationFailed | conflict | rejected
  | internalError | transactionNotFound | transactionLimit
deriving DecidableEq, Repr

structure PropertyUpdatedChange where
  propertyName : ByteString
  value : WireValue
  replicated : Bool := false
deriving DecidableEq

/-- The two zeros are equal. -/
def Float32Bits.normal (x : Float32Bits) : Float32Bits := if x.bits &&& 0x7fffffff = 0 then ⟨0⟩ else x

def Float64Bits.normal (x : Float64Bits) : Float64Bits := if x.bits &&& 0x7fffffffffffffff = 0 then ⟨0⟩ else x

def WireUDim.normal (x : WireUDim) : WireUDim := { x with scale := x.scale.normal }

def WireValue.normal : WireValue → WireValue
  | .double x => .double x.normal
  | .float x => .float x.normal
  | .vector2 x y => .vector2 x.normal y.normal
  | .vector3 x y z => .vector3 x.normal y.normal z.normal
  | .color3 r g b => .color3 r.normal g.normal b.normal
  | .uDim x => .uDim x.normal
  | .uDim2 x y => .uDim2 x.normal y.normal
  | .cFrame c => .cFrame ⟨c.val.map Float32Bits.normal,by rw [List.length_map,c.property]⟩
  | value => value

/-- What `==` says of two finite values. -/
def WireValue.equals (a b : WireValue) : Bool := a.normal = b.normal

namespace PreparedPropertyCommit

def maximumPreparedPropertyWrites : Nat := 256
def maximumPreparedRequestBytes : Nat := 1024 * 1024
def maximumPreparedValueBytes : Nat := 4 * 1024 * 1024
def maximumPreparedJournalBytes : Nat := 2 * 1024 * 1024

structure PreparedPropertyWrite where
  object : ObjectId
  declaringSchemaId : SchemaId
  definitionVersion : UInt32 := 0
  propertyName : ByteString
  value : WireValue
deriving DecidableEq

inductive PreparedPropertyStage where
  | aggregateReservation | propertyValue | journalEncoding | notification | historyAction | historyRetention
  | finalValidation | journalReservation
deriving DecidableEq

structure PreparedPropertyResult where
  status : MutationStatus := .rejected
  historyId : TransactionId := {}
  startingRevision : Nat := 0
  resultingRevision : Nat := 0
  changedWrites : Nat := 0

structure InstanceProperty where
  declaringSchemaId : SchemaId
  declaringDefinitionVersion : UInt32
  supported : Bool
  readable : Bool
  replicated : Bool
  preparesEnum : Bool
  validate : WireValue → MutationStatus
  accepts : WireValue → Bool

structure TargetObject where
  destroyed : Bool
  inWorld : Bool
  hasClass : Bool
  findProperty : ByteString → Option InstanceProperty

/-- The kinds of exceptions that are told apart. -/
inductive Interruption where
  | badAlloc | lengthError | overflowError | other
deriving DecidableEq

def Interruption.status : Interruption → MutationStatus
  | .badAlloc => .resourceLimit
  | .lengthError => .resourceLimit
  | .overflowError => .revisionExhausted
  | .other => .validationFailed

/-- Where the call is made, what is registered, and where an exception interrupts it. -/
structure Environment where
  layout : Layout
  mainDomain : Bool
  mutateDataModel : Bool
  preparing : Bool
  registryFrozen : Bool
  worldDestroyed : Bool
  lookup : ObjectId → Option TargetObject
  interrupted : PreparedPropertyStage → Nat → Option Interruption

abbrev Payload := PropertyUpdatedChange

structure World where
  scope : ObjectId
  values : ObjectId × ByteString → Option WireValue
  authoring : AuthoringWorld Payload := {}
  transactions : AuthoritativeTransactionHistory Payload := {}

def stage (env : Environment) (point : PreparedPropertyStage) (index : Nat) : Except MutationStatus Unit :=
  match env.interrupted point index with
  | some interruption => .error interruption.status
  | none => .ok ()

def account (total bytes maximum : Nat) : Except MutationStatus Nat :=
  if bytes > maximum - total then .error .resourceLimit else .ok (total + bytes)

def escapedBytes (text : ByteString) : Nat :=
  (text.map fun c => if c ∈ [0x22,0x5c,0x08,0x0c,0x0a,0x0d,0x09] then 2 else if c < 0x20 then 6 else 1).sum

def preparedWireBytes (value : WireValue) : Nat :=
  512 + match value with
    | .string text => escapedBytes text
    | .enumItem enumType item => escapedBytes enumType + escapedBytes item
    | _ => 0

/-- An exception of a validator of the protocol. -/
def valid (checked : Except String Unit) : Except MutationStatus Unit :=
  match checked with
  | .ok () => .ok ()
  | .error _ => .error .validationFailed

/-- The values that have a native form of their own, which is encoded as the same value again. -/
def decodeNativeWireValue : WireValue → Option WireValue
  | .nil => none
  | .objectReference _ => none
  | .enumItem _ _ => none
  | .schemaEnum _ _ _ => none
  | value => some value

def preparePropertyWireMutation (property : InstanceProperty) (value : WireValue) : Except MutationStatus WireValue :=
  if property.validate value ≠ .success then .error (property.validate value)
  else
    let native :=
      match value with
      | .enumItem _ _ => if property.preparesEnum then some value else none
      | _ => decodeNativeWireValue value
    match native with
    | none => .error .validationFailed
    | some after => if property.accepts after then .ok after else .error .validationFailed

/-- What was prepared of the writes so far. -/
structure Prepared where
  stores : List ((ObjectId × ByteString) × WireValue) := []
  records : List (BufferedChangeRecord Payload) := []
  changes : List TransactionChange := []
  valueBytes : Nat := 0
  journalBytes : Nat := 0
  historyBytes : Nat := 0

/-- Only a request from outside is charged for its size. -/
def accountRequest (forward : Bool) (requestBytes : Nat) (write : PreparedPropertyWrite) : Except MutationStatus Nat :=
  if forward then
    account requestBytes (512 + 6 * write.propertyName.length + preparedWireBytes write.value)
      maximumPreparedRequestBytes
  else .ok requestBytes

/-- The limits of the request itself. -/
def admitWrites (forward : Bool) : (seen writes : List PreparedPropertyWrite) → (requestBytes : Nat) →
    Except MutationStatus Unit
  | _, [], _ => .ok ()
  | seen, write :: rest, requestBytes => do
    valid (validateProtocolString write.propertyName maximumProtocolIdentifierBytes "Property")
    valid (validateProtocolWireValue write.value)
    let requestBytes ← accountRequest forward requestBytes write
    if seen.any fun other => other.object = write.object && other.propertyName = write.propertyName then .error .rejected
    else admitWrites forward (seen ++ [write]) rest requestBytes

def findTarget (env : Environment) (write : PreparedPropertyWrite) : Except MutationStatus InstanceProperty :=
  match env.lookup write.object with
  | none => .error .staleObject
  | some target =>
    if target.destroyed then .error .staleObject
    else if !target.inWorld then .error .unauthorized
    else
      match target.findProperty write.propertyName with
      | none => .error .invalidProperty
      | some property =>
        if !target.hasClass || property.declaringSchemaId ≠ write.declaringSchemaId ||
            property.declaringDefinitionVersion ≠ write.definitionVersion then .error .invalidProperty
        else if !property.supported then .error .readOnly
        else .ok property

def readBefore (w : World) (property : InstanceProperty) (write : PreparedPropertyWrite) (expected : Option WireValue) :
    Except MutationStatus WireValue :=
  if !property.readable then .error .rejected
  else
    match w.values (write.object,write.propertyName) with
    | none => .error .validationFailed
    | some before => do
      valid (validateProtocolWireValue before)
      if expected.any fun value => !before.equals value then .error .conflict else .ok before

def prepareWrite (env : Environment) (w : World) (index : Nat) (write : PreparedPropertyWrite)
    (expected : Option WireValue) (p : Prepared) : Except MutationStatus Prepared := do
  stage env .propertyValue index
  let property ← findTarget env write
  let after ← preparePropertyWireMutation property write.value
  let before ← readBefore w property write expected
  valid (validateProtocolWireValue after)
  let valueBytes ← account p.valueBytes (preparedWireBytes before + preparedWireBytes after) maximumPreparedValueBytes
  if before.equals after then return { p with valueBytes }
  else
    stage env .journalEncoding index
    let journalBytes ← account p.journalBytes (512 + write.propertyName.length * 6 + preparedWireBytes after)
      maximumPreparedJournalBytes
    let change := TransactionChange.property write.object write.declaringSchemaId write.definitionVersion
      write.propertyName before after
    let historyBytes ← account p.historyBytes (estimateTransactionChangeBytes env.layout change)
      maximumTransactionSemanticBytes
    stage env .notification index
    let record : BufferedChangeRecord Payload :=
      ⟨if property.replicated then w.scope else {},write.object,⟨write.propertyName,after,property.replicated⟩⟩
    return ⟨p.stores ++ [((write.object,write.propertyName),after)],p.records ++ [record],p.changes ++ [change],
      valueBytes,journalBytes,historyBytes⟩

def prepareWrites (env : Environment) (w : World) :
    Nat → List (PreparedPropertyWrite × Option WireValue) → Prepared → Except MutationStatus Prepared
  | _, [], p => .ok p
  | index, (write,expected) :: rest, p => do
    let p ← prepareWrite env w index write expected p
    prepareWrites env w (index + 1) rest p

def journalStatus (message : String) : MutationStatus :=
  if message = "Prepared journal batch exceeds capacity" then .resourceLimit
  else if message = "Change journal sequence is exhausted" then .revisionExhausted
  else .validationFailed

def storeAll (stores : List ((ObjectId × ByteString) × WireValue)) (values : ObjectId × ByteString → Option WireValue) :
    ObjectId × ByteString → Option WireValue :=
  stores.foldl (fun values store => Function.update values store.1 (some store.2)) values

def historyCandidate (h : AuthoritativeTransactionHistory Payload) (action : CommittedTransaction)
    (replay : Option (CommittedTransaction × Bool)) : Except MutationStatus (AuthoritativeTransactionHistory Payload) :=
  match replay with
  | none => if action.semanticBytes > h.retainedByteLimit then .error .resourceLimit else .ok (h.retain action)
  | some (replayed,true) =>
    if h.history[h.cursor]? ≠ some replayed then .error .rejected else .ok { h with cursor := h.cursor + 1 }
  | some (replayed,false) =>
    if h.cursor = 0 ∨ h.history[h.cursor - 1]? ≠ some replayed then .error .rejected
    else .ok { h with cursor := h.cursor - 1 }

def batchAction (id : TransactionId) (revision : Nat) (p : Prepared) : CommittedTransaction where
  id := id
  label := ascii "Set Properties"
  startingRevision := revision
  resultingRevision := revision + 1
  changes := p.changes
  semanticBytes := p.historyBytes
  replayPolicy := .preparedPropertyBatch

def install (w : World) (p : Prepared) (transactions : AuthoritativeTransactionHistory Payload)
    (authoring : AuthoringWorld Payload) (journal : ChangeJournal Payload) : World :=
  { w with
    values := storeAll p.stores w.values
    transactions
    authoring := { authoring with journal, revision := authoring.revision + 1 } }

/-- The identity of the action, and the process after it was taken. -/
def takeIdentity (w : World) (replay : Option (CommittedTransaction × Bool)) : TransactionId × AuthoringWorld Payload :=
  match replay with
  | some (replayed,_) => (replayed.id,w.authoring)
  | none => w.authoring.allocateTransactionId

/-- The last stages, which leave the history that is to be installed. -/
def prepareHistory (env : Environment) (w : World) (action : CommittedTransaction)
    (replay : Option (CommittedTransaction × Bool)) :
    Except MutationStatus (AuthoritativeTransactionHistory Payload) := do
  stage env .historyRetention 0
  let transactions ← historyCandidate w.transactions action replay
  stage env .finalValidation 0
  stage env .journalReservation 0
  return transactions

def commitPrepared (env : Environment) (w : World) (p : Prepared) (replay : Option (CommittedTransaction × Bool)) :
    Except MutationStatus TransactionId × World :=
  match stage env .historyAction 0 with
  | .error status => (.error status,w)
  | .ok () =>
    let id := (takeIdentity w replay).1
    let authoring := (takeIdentity w replay).2
    if !id.isValid then (.error .resourceLimit,{ w with authoring })
    else
      match prepareHistory env w (batchAction id w.authoring.revision p) replay with
      | .error status => (.error status,{ w with authoring })
      | .ok transactions =>
        match authoring.journal.preparedBatch authoring.outlet p.records true with
        | (journal,some message) => (.error (journalStatus message),{ w with authoring := { authoring with journal } })
        | (journal,none) => (.ok id,install w p transactions authoring journal)

/-- Everything before the history action. -/
def prepareBatch (env : Environment) (w : World) (writes : List (PreparedPropertyWrite × Option WireValue))
    (forward : Bool) : Except MutationStatus Prepared := do
  admitWrites forward [] (writes.map Prod.fst) 128
  stage env .aggregateReservation 0
  prepareWrites env w 0 writes {}

def execute (env : Environment) (w : World) (expectedRevision : Nat)
    (writes : List (PreparedPropertyWrite × Option WireValue)) (replay : Option (CommittedTransaction × Bool)) :
    PreparedPropertyResult × World :=
  let result : PreparedPropertyResult := { startingRevision := expectedRevision, resultingRevision := expectedRevision }
  if !env.mainDomain then ({ result with status := .wrongExecutionDomain },w)
  else if !env.mutateDataModel then ({ result with status := .unauthorized },w)
  else if env.preparing || w.transactions.openTransaction.isSome || w.authoring.batch.isSome ||
      w.authoring.deferred.isSome then (result,w)
  else if writes.isEmpty || writes.length > maximumPreparedPropertyWrites then
    ({ result with status := .resourceLimit },w)
  else if w.authoring.revision ≠ expectedRevision then ({ result with status := .conflict },w)
  else if expectedRevision = 2 ^ 64 - 1 then ({ result with status := .revisionExhausted },w)
  else if !env.registryFrozen || env.worldDestroyed then (result,w)
  else
    match prepareBatch env w writes replay.isNone with
    | .error status => ({ result with status },w)
    | .ok p =>
      if p.stores.isEmpty then ({ result with status := .success },w)
      else
        match commitPrepared env w p replay with
        | (.error status,w) => ({ result with status },w)
        | (.ok id,w) =>
          (⟨.success,id,expectedRevision,expectedRevision + 1,p.stores.length⟩,w)

def apply (env : Environment) (w : World) (expectedRevision : Nat) (writes : List PreparedPropertyWrite) :
    PreparedPropertyResult × World :=
  execute env w expectedRevision (writes.map fun write => (write,none)) none

/-- The writes that take changes back or make them again, each with the value it expects. -/
def replayWrites (h : AuthoritativeTransactionHistory Payload) (redo : Bool) :
    List TransactionChange → Option (List (PreparedPropertyWrite × Option WireValue))
  | [] => some []
  | .property object schema version name before after :: rest =>
    (replayWrites h redo rest).map fun writes =>
      (⟨h.resolveIdentity object,schema,version,name,if redo then after else before⟩,
        some (if redo then before else after)) :: writes
  | _ :: _ => none

def nextAction (h : AuthoritativeTransactionHistory Payload) (redo : Bool) : Option CommittedTransaction :=
  if redo then h.history[h.cursor]? else if h.cursor = 0 then none else h.history[h.cursor - 1]?

def replay (env : Environment) (w : World) (redo : Bool) : TransactionResult × World :=
  match nextAction w.transactions redo with
  | none => ({ status := .invalidState },w)
  | some action =>
    if action.replayPolicy ≠ .preparedPropertyBatch then ({ status := .invalidState },w)
    else
      match replayWrites w.transactions redo action.changes with
      | none => ({ status := .executionFailed },w)
      | some writes =>
        let (result,after) := execute env w w.authoring.revision writes (some (action,redo))
        ({ status := if result.status = .success then .success else .executionFailed
           id := result.historyId
           startingRevision := result.startingRevision
           resultingRevision := result.resultingRevision
           changeCount := result.changedWrites },after)

end PreparedPropertyCommit
end Gargantuan
