import Gargantuan.Identity
import Gargantuan.Runs
import Gargantuan.SortedMap

/-!
The change journal. Each scope has a stream of numbered records of which the last ones are
retained; a reader holds a cursor and is told when records it has not read are gone.

A payload is of any type. Profiling, the dirtiness of the renderer and the release of a
scope with its world are left out. The journal's mutex makes every operation one step, also
a prepared batch, which holds it from its preparation to its end.
-/
namespace Gargantuan

structure ChangeRecord (π : Type) where
  sequence : Nat
  scope : ObjectId
  object : ObjectId
  payload : π
deriving DecidableEq

structure BufferedChangeRecord (π : Type) where
  scope : ObjectId
  object : ObjectId
  payload : π

structure ChangeCursor where
  scope : ObjectId
  nextSequence : Nat := 1
deriving DecidableEq

inductive ChangeReadStatus where
  | available | resnapshotRequired
deriving DecidableEq, Repr

structure ChangeReadResult (π : Type) where
  status : ChangeReadStatus := .available
  cursor : ChangeCursor
  records : List (ChangeRecord π) := []

namespace ChangeJournal

def defaultChangeJournalCapacity : Nat := 16384

/-- The largest number of 64 bits, which is never given to a record. -/
def maximumSequence : Nat := 2 ^ 64 - 1

structure Stream (π : Type) where
  nextSequence : Nat := 1
  records : List (ChangeRecord π) := []

end ChangeJournal

open ChangeJournal (Stream)

structure ChangeJournal (π : Type) where
  capacity : Nat := ChangeJournal.defaultChangeJournalCapacity
  streams : SortedMap ObjectId (Stream π) := ∅

namespace ChangeJournal
variable {π : Type}

/-- Where changes go in this thread: they are suppressed, captured, or committed. -/
inductive Outlet where
  | suppressed | captured | journal
deriving DecidableEq

def stream (j : ChangeJournal π) (scope : ObjectId) : Stream π := (j.streams.find? scope).getD {}

def setStream (j : ChangeJournal π) (scope : ObjectId) (s : Stream π) : ChangeJournal π :=
  { j with streams := j.streams.insert scope s }

/-- Drops records from the front while there are more than the capacity. -/
def retain (capacity : Nat) (records : List (ChangeRecord π)) : List (ChangeRecord π) :=
  records.drop (records.length - capacity)

def pushRecord (scope : ObjectId) (s : Stream π) (change : ObjectId × π) : Except String (Stream π) :=
  if s.nextSequence = maximumSequence then .error "Change journal sequence is exhausted"
  else .ok ⟨s.nextSequence + 1,s.records ++ [⟨s.nextSequence,scope,change.1,change.2⟩]⟩

/-- A stream that is asked for is there afterwards. -/
def touch (j : ChangeJournal π) (scope : ObjectId) : ChangeJournal π := j.setStream scope (j.stream scope)

/-- The journal after the call, and the text of the exception it ended with. -/
abbrev Outcome (π : Type) := ChangeJournal π × Option String

def commit (j : ChangeJournal π) (outlet : Outlet) (scope object : ObjectId) (payload : π) : Outcome π :=
  if outlet ≠ .journal then (j,none)
  else
    let j := j.touch scope
    match pushRecord scope (j.stream scope) (object,payload) with
    | .error message => (j,some message)
    | .ok s => (j.setStream scope { s with records := retain j.capacity s.records },none)

/-- The stream is replaced only after every record of the batch has its number. -/
def commitBatch (j : ChangeJournal π) (outlet : Outlet) (scope : ObjectId) (changes : List (ObjectId × π)) : Outcome π :=
  if changes.isEmpty || outlet ≠ .journal then (j,none)
  else
    let j := j.touch scope
    match changes.foldlM (pushRecord scope) (j.stream scope) with
    | .error message => (j,some message)
    | .ok s => (j.setStream scope { s with records := retain j.capacity s.records },none)

def ensureCanCommit (j : ChangeJournal π) (outlet : Outlet) (scope : ObjectId) (count : Nat) : Except String Unit :=
  if outlet = .suppressed || count = 0 then .ok ()
  else if count > maximumSequence - (j.stream scope).nextSequence then .error "Change journal sequence is exhausted"
  else .ok ()

structure Candidate (π : Type) where
  scope : ObjectId
  stream : Stream π
  created : Bool

def newCandidate (j : ChangeJournal π) (records : List (BufferedChangeRecord π)) (scope : ObjectId) :
    Except String (Candidate π) :=
  let s := j.stream scope
  let count := (records.filter fun r => r.scope = scope).length
  if count > j.capacity then .error "Prepared journal batch exceeds capacity"
  else if count > maximumSequence - s.nextSequence then .error "Change journal sequence is exhausted"
  else .ok ⟨scope,s,!j.streams.contains scope⟩

def Candidate.push (c : Candidate π) (record : BufferedChangeRecord π) : Candidate π :=
  { c with stream := ⟨c.stream.nextSequence + 1,
      c.stream.records ++ [⟨c.stream.nextSequence,record.scope,record.object,record.payload⟩]⟩ }

def Candidate.cut (capacity : Nat) (c : Candidate π) : Candidate π :=
  { c with stream := ⟨c.stream.nextSequence,retain capacity c.stream.records⟩ }

def prepareRecord (j : ChangeJournal π) (records : List (BufferedChangeRecord π)) (candidates : List (Candidate π))
    (record : BufferedChangeRecord π) : Except String (List (Candidate π)) :=
  if candidates.any fun c => c.scope = record.scope then
    .ok (candidates.map fun c => if c.scope = record.scope then c.push record else c)
  else do
    let c ← newCandidate j records record.scope
    return candidates ++ [c.push record]

/-- The candidates of a batch, cut to the capacity. -/
def prepare (j : ChangeJournal π) (outlet : Outlet) (records : List (BufferedChangeRecord π)) :
    Except String (List (Candidate π)) :=
  if outlet ≠ .journal then .error "Prepared journal cannot run inside capture or suppression"
  else do
    let candidates ← records.foldlM (prepareRecord j records) []
    return candidates.map (Candidate.cut j.capacity)

/-- Streams for all candidates, empty where there was none. -/
def reserve (j : ChangeJournal π) (candidates : List (Candidate π)) : ChangeJournal π :=
  candidates.foldl (fun j c => j.touch c.scope) j

def install (j : ChangeJournal π) (candidates : List (Candidate π)) : ChangeJournal π :=
  candidates.foldl (fun j c => j.setStream c.scope c.stream) j

def abandon (j : ChangeJournal π) (candidates : List (Candidate π)) : ChangeJournal π :=
  candidates.foldl (fun j c => if c.created then { j with streams := j.streams.erase c.scope } else j) j

def preparedBatch (j : ChangeJournal π) (outlet : Outlet) (records : List (BufferedChangeRecord π)) (installed : Bool) :
    Outcome π :=
  match prepare j outlet records with
  | .error message => (j,some message)
  | .ok candidates =>
    let j := j.reserve candidates
    (if installed then j.install candidates else j.abandon candidates,none)

def createCursor (j : ChangeJournal π) (scope : ObjectId) : ChangeCursor := ⟨scope,(j.stream scope).nextSequence⟩

def oldest (s : Stream π) : Nat :=
  match s.records with
  | [] => s.nextSequence
  | record :: _ => record.sequence

def readPinned (j : ChangeJournal π) (cursor : ChangeCursor) (maximumRecords : Nat) : ChangeReadResult π :=
  match j.streams.find? cursor.scope with
  | none => { cursor }
  | some s =>
    if cursor.nextSequence < oldest s then
      { status := .resnapshotRequired, cursor := { cursor with nextSequence := oldest s } }
    else if maximumRecords = 0 || cursor.nextSequence ≥ s.nextSequence then { cursor }
    else
      let first := cursor.nextSequence - oldest s
      let records := (s.records.drop first).take maximumRecords
      -- the cursor is moved behind each record in turn
      { cursor := records.foldl (fun c record => { c with nextSequence := record.sequence + 1 }) cursor, records }

def setCapacity (j : ChangeJournal π) (capacity : Nat) : ChangeJournal π :=
  ⟨capacity,j.streams.mapValues fun _ s => { s with records := retain capacity s.records }⟩

def clear (j : ChangeJournal π) : ChangeJournal π :=
  { j with streams := j.streams.mapValues fun _ s => { s with records := [] } }

end ChangeJournal
end Gargantuan
