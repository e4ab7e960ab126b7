import Gargantuan.Buckets
import Gargantuan.ReplicationProtocol

/-!
The tags of the objects of one data model. A name is interned when the first object carries it
and released when the last one has lost it, so that the limit of distinct tags counts those that
are carried. What a call finds outside of the index (whether it is permitted, which objects are
live in its scope, whether a revision is left) and where it runs out of memory or cannot commit
to the journal are inputs.
-/
namespace Gargantuan
open ReplicationProtocol (maximumTagsPerInstance validateTagName)

def maximumTagsPerQuery : Nat := maximumTagsPerInstance
def maximumDistinctTagsPerDataModel : Nat := 1024

def invalidTagId : Nat := 0
def maximumTagId : Nat := 2 ^ 32 - 1

structure TagIndex (ω : Type) [LinearOrder ω] where
  nextId : Nat := 1
  nameToId : SortedMap ByteString Nat := ∅
  idToName : SortedMap Nat ByteString := ∅
  objectToTags : Buckets ω Nat := ∅
  tagToObjects : Buckets Nat ω := ∅

namespace TagIndex
variable {ω : Type} [LinearOrder ω]

/-- Where memory or the journal fails. -/
inductive Fault where
  | name | reverseMap | reverseMember | forwardMap | forwardMember | commit
deriving DecidableEq

def badAlloc : String := "std::bad_alloc"

/-- What a call finds outside of the index. -/
structure Call (ω : Type) where
  refusal : Option String := none
  validScope : Bool := true
  isLive : ω → Bool := fun _ => true
  exhausted : Option String := none
  fault : Option Fault := none

def find (t : TagIndex ω) (name : ByteString) : Nat := (t.nameToId.find? name).getD invalidTagId

def intern (t : TagIndex ω) (name : ByteString) (fault : Option Fault) : Except String Nat × TagIndex ω :=
  if t.find name ≠ invalidTagId then (.ok (t.find name),t)
  else if t.nameToId.size ≥ maximumDistinctTagsPerDataModel then (.error "DataModel exceeds its distinct tag limit",t)
  else if t.nextId = invalidTagId ∨ t.nextId = maximumTagId then (.error "Tag identifier space is exhausted",t)
  else
    let taken := { t with nextId := t.nextId + 1 }
    if fault = some .name then (.error badAlloc,taken)
    else
      (.ok t.nextId,{ taken with
        nameToId := t.nameToId.insert name t.nextId
        idToName := t.idToName.insert t.nextId name })

def isUsed (t : TagIndex ω) (id : Nat) : Bool :=
  match t.tagToObjects.find? id with
  | some objects => !objects.isEmpty
  | none => false

def releaseIfUnused (t : TagIndex ω) (id : Nat) : TagIndex ω :=
  if t.isUsed id then t
  else
    let bare := { t with tagToObjects := t.tagToObjects.erase id }
    match t.idToName.find? id with
    | none => bare
    | some name => { bare with nameToId := t.nameToId.erase name, idToName := t.idToName.erase id }

/-- Takes the object out of the set of a tag, which stays even if it is empty then. -/
def takeObject (m : Buckets Nat ω) (id : Nat) (object : ω) : Buckets Nat ω :=
  match m.find? id with
  | none => m
  | some objects => m.insert id (objects.erase object)

/-- A membership is taken back from both maps. -/
def takeBack (t : TagIndex ω) (object : ω) (id : Nat) : TagIndex ω :=
  releaseIfUnused { t with
    objectToTags := t.objectToTags.drop object id
    tagToObjects := takeObject t.tagToObjects id object } id

/-- What has been entered of a membership. -/
structure Entered where
  reverse : Bool := false
  forwardMap : Bool := false
  forward : Bool := false

/-- Enters a membership into both maps until something fails. -/
def enter (t : TagIndex ω) (context : String) (object : ω) (id : Nat) (fault : Option Fault) :
    Option String × Entered × TagIndex ω :=
  if fault = some .reverseMap then (some badAlloc,{},t)
  else if fault = some .reverseMember then (some badAlloc,{},{ t with tagToObjects := t.tagToObjects.opened id })
  else if t.tagToObjects.holds id object then
    (some (context ++ " reverse index is inconsistent"),{},{ t with tagToObjects := t.tagToObjects.opened id })
  else
    let reverse := { t with tagToObjects := t.tagToObjects.add id object }
    let opens := !t.objectToTags.contains object
    if fault = some .forwardMap then (some badAlloc,{ reverse := true },reverse)
    else if fault = some .forwardMember then
      (some badAlloc,{ reverse := true, forwardMap := opens },
        { reverse with objectToTags := t.objectToTags.opened object })
    else if t.objectToTags.holds object id then
      (some (context ++ " forward index is inconsistent"),{ reverse := true, forwardMap := opens },
        { reverse with objectToTags := t.objectToTags.opened object })
    else (none,⟨true,opens,true⟩,{ reverse with objectToTags := t.objectToTags.add object id })

def withdraw (t : TagIndex ω) (entered : Entered) (object : ω) (id : Nat) : TagIndex ω :=
  releaseIfUnused { t with
    objectToTags :=
      if entered.forward then t.objectToTags.drop object id
      else if entered.forwardMap then t.objectToTags.erase object
      else t.objectToTags
    tagToObjects := if entered.reverse then takeObject t.tagToObjects id object else t.tagToObjects } id

def add (t : TagIndex ω) (call : Call ω) (object : ω) (name : ByteString) : Except String Bool × TagIndex ω :=
  match call.refusal, validateTagName name with
  | some refusal, _ => (.error refusal,t)
  | none, .error invalid => (.error invalid,t)
  | none, .ok _ =>
    if !call.validScope || !call.isLive object then (.error "Tag target is stale or belongs to another DataModel",t)
    else if t.find name ≠ invalidTagId ∧ t.objectToTags.holds object (t.find name) = true then (.ok false,t)
    else if ((t.objectToTags.find? object).getD ∅).size ≥ maximumTagsPerInstance then
      (.error "Instance exceeds its tag count limit",t)
    else
      match call.exhausted, t.intern name call.fault with
      | some exhausted, _ => (.error exhausted,t)
      | none, (.error failure,u) => (.error failure,u)
      | none, (.ok id,u) =>
        match u.enter "Tag" object id call.fault with
        | (some failure,entered,v) => (.error failure,v.withdraw entered object id)
        | (none,entered,v) =>
          if call.fault = some .commit then (.error "ChangeJournal::Commit",v.withdraw entered object id)
          else (.ok true,v)

def remove (t : TagIndex ω) (call : Call ω) (object : ω) (name : ByteString) : Except String Bool × TagIndex ω :=
  match call.refusal, validateTagName name with
  | some refusal, _ => (.error refusal,t)
  | none, .error invalid => (.error invalid,t)
  | none, .ok _ =>
    if !call.validScope || !call.isLive object then (.error "Tag target is stale or belongs to another DataModel",t)
    else if t.find name = invalidTagId ∨ t.objectToTags.holds object (t.find name) = false then (.ok false,t)
    else
      match call.exhausted with
      | some exhausted => (.error exhausted,t)
      | none =>
        if t.tagToObjects.holds (t.find name) object = false then (.error "Tag indexes are inconsistent",t)
        else if call.fault = some .commit then (.error "ChangeJournal::Commit",t)
        else (.ok true,t.takeBack object (t.find name))

def removeAll (t : TagIndex ω) (call : Call ω) (object : ω) (publishChanges : Bool) :
    Except String (List ByteString) × TagIndex ω :=
  match call.refusal, t.objectToTags.find? object with
  | some refusal, _ => (.error refusal,t)
  | none, none => (.ok [],t)
  | none, some tags =>
    let ids := tags.keys
    match ids.mapM t.idToName.find? with
    | none => (.error "std::out_of_range",t)
    | some names =>
      if ids.any fun id => !t.tagToObjects.holds id object then
        (.error "Tag indexes are inconsistent during lifecycle cleanup",t)
      else if publishChanges ∧ call.fault = some .commit then (.error "ChangeJournal::CommitBatch",t)
      else
        let bare := { t with
          tagToObjects := ids.foldl (fun m id => takeObject m id object) t.tagToObjects
          objectToTags := t.objectToTags.erase object }
        (.ok (names.mergeSort fun a b => decide (a ≤ b)),ids.foldl releaseIfUnused bare)

def eraseIfEmpty (m : Buckets ω Nat) (object : ω) : Buckets ω Nat :=
  match m.find? object with
  | some tags => if tags.isEmpty then m.erase object else m
  | none => m

/-- How `AdoptDetached` withdraws a membership that it has not entered completely. -/
def retreat (t : TagIndex ω) (entered : Entered) (object : ω) (id : Nat) : TagIndex ω :=
  releaseIfUnused { t with
    objectToTags := eraseIfEmpty t.objectToTags object
    tagToObjects := if entered.reverse then takeObject t.tagToObjects id object else t.tagToObjects } id

/-- Enters memberships in turn. Those that are entered, the newest first, are known when one fails. -/
def adoptAll (t : TagIndex ω) (inserted : List (ω × Nat)) :
    List ((ω × ByteString) × Option Fault) → Option String × List (ω × Nat) × TagIndex ω
  | [] => (none,inserted,t)
  | ((object,name),fault) :: rest =>
    match t.intern name fault with
    | (.error failure,u) => (some failure,inserted,u)
    | (.ok id,u) =>
      match u.enter "Detached tag" object id fault with
      | (some failure,entered,v) => (some failure,inserted,v.retreat entered object id)
      | (none,_,v) => adoptAll v ((object,id) :: inserted) rest

/-- What the checks find before anything is adopted. -/
def checkMemberships (call : Call ω) : List (ω × List ByteString) → Except String Unit
  | [] => .ok ()
  | (object,names) :: rest =>
    if !call.isLive object then .error "Detached tag target is stale or belongs to another DataModel"
    else
      match names.mapM validateTagName with
      | .error invalid => .error invalid
      | .ok _ => checkMemberships call rest

def adoptDetached (t : TagIndex ω) (call : Call ω) (memberships : List (ω × List ByteString))
    (faults : Nat → Option Fault) : Except String Unit × TagIndex ω :=
  match call.refusal, checkMemberships call memberships with
  | some refusal, _ => (.error refusal,t)
  | none, checked =>
    if !call.validScope then (.error "Detached tag adoption requires a valid DataModel scope",t)
    else
      match checked with
      | .error failure => (.error failure,t)
      | .ok _ =>
        let pairs := memberships.flatMap fun m => m.2.map fun name => (m.1,name)
        match t.adoptAll [] (pairs.zipIdx.map fun p => (p.1,faults p.2)) with
        | (none,_,u) => (.ok (),u)
        | (some failure,inserted,u) => (.error failure,inserted.foldl (fun u p => u.takeBack p.1 p.2) u)

/-- The identities of the names, unless one of them is unknown. -/
def findAll (t : TagIndex ω) : List ByteString → Except String (Option (List Nat))
  | [] => .ok (some [])
  | name :: rest =>
    match validateTagName name with
    | .error invalid => .error invalid
    | .ok _ =>
      if t.find name = invalidTagId then .ok none
      else
        match t.findAll rest with
        | .error invalid => .error invalid
        | .ok ids => .ok (ids.map (t.find name :: ·))

def objectsOf (t : TagIndex ω) (id : Nat) : SortedSet ω := (t.tagToObjects.find? id).getD ∅

/-- Of equal neighbours one stays. -/
def unique : List Nat → List Nat
  | [] => []
  | [id] => [id]
  | id :: next :: rest => if id = next then unique (next :: rest) else id :: unique (next :: rest)

def smallest (t : TagIndex ω) (id : Nat) (ids : List Nat) : Nat :=
  ids.foldl (fun least id => if (t.objectsOf id).size < (t.objectsOf least).size then id else least) id

def getTaggedAll (t : TagIndex ω) (call : Call ω) (names : List ByteString) : Except String (List ω) :=
  match call.refusal with
  | some refusal => .error refusal
  | none =>
    if names.isEmpty then .ok []
    else if names.length > maximumTagsPerQuery then .error "Tag query exceeds its name count limit"
    else
      match t.findAll names with
      | .error invalid => .error invalid
      | .ok none => .ok []
      | .ok (some ids) =>
        match unique (ids.mergeSort fun a b => decide (a ≤ b)) with
        | [] => .ok []
        | id :: rest =>
          .ok ((t.objectsOf (t.smallest id rest)).keys.filter fun object =>
            call.isLive object && (id :: rest).all fun id => (t.objectsOf id).contains object)

end TagIndex
end Gargantuan
