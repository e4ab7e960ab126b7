import Gargantuan.CharacterProtocol
import Gargantuan.FieldCodec
import Gargantuan.RemoteProtocol

/-!
The frames of character messages. Two versions share one magic: version 1 has
the opcodes 0 to 4, version 4 has only the state frame and the action result.
The two messages that carry states are left open, as is the length of a move
intent; for the others the codec is exact in both directions.
-/
namespace Gargantuan

/-! ### Frames with errors -/

/-- A step of a decoder that goes on only when the check passes. -/
def demand (check : Bool) (code : SerializationErrorCode) (message : String) : Except SerializationError Unit :=
  if check then .ok () else .error ⟨code,message⟩

def Field.decode {α : Type} (f : Field α) (input : List UInt8) : Except SerializationError (α × List UInt8) :=
  match f.read input with
  | .error message => .error ⟨.truncatedInput,message⟩
  | .ok result => .ok result

theorem Field.decode_bytes {α : Type} (f : Field α) {x : α} (good : f.accepts x) (rest : List UInt8) :
    f.decode (f.bytes x ++ rest) = .ok (x,rest) := by
  rw [decode,f.reads x good rest]

theorem Field.decode_ok {α : Type} {f : Field α} {input rest : List UInt8} {x : α}
    (decoded : f.decode input = .ok (x,rest)) : f.accepts x ∧ input = f.bytes x ++ rest := by
  unfold decode at decoded
  cases read : f.read input with
  | error message => rw [read] at decoded; cases decoded
  | ok result =>
    rw [read] at decoded
    cases decoded
    exact f.consumes read

theorem demand_ok {check : Bool} {code : SerializationErrorCode} {message : String}
    (passed : demand check code message = .ok ()) : check := by
  unfold demand at passed
  split_ifs at passed with holds
  exact holds

theorem demand_true (code : SerializationErrorCode) (message : String) : demand true code message = .ok () := rfl

namespace CharacterCodec
open CharacterNetwork (AssetId)

def legacyCharacterProtocolVersion : UInt16 := 1
def characterProtocolVersion : UInt16 := 4
def maximumCharacterFrameBytes : Nat := 256
def maximumCharacterStateFrameBytes : Nat := 1200
def characterMagic : UInt32 := 0x52484347

/-- A SHA-256 digest. -/
structure AssetContentId where
  bytes : { l : List UInt8 // l.length = 32 }
deriving DecidableEq

def AssetContentId.isValid (id : AssetContentId) : Bool := id.bytes.val.any (· != 0)

structure ControlTransition where
  character : ObjectId
  controlEpoch : CharacterControlEpoch
  channel : StateChannelId := {}
  authoritativeTick : UInt64 := 0
  bound : Bool := false
deriving DecidableEq

structure InputCommand where
  character : ObjectId
  controlEpoch : CharacterControlEpoch
  inputSequence : CharacterInputSequence
  simulationTick : UInt64
  deltaSeconds : Float32Bits
  moveX : Float32Bits
  moveY : Float32Bits
  facingYawRadians : Float32Bits
  flags : UInt8 := 0
deriving DecidableEq

structure ActionRequest where
  character : ObjectId
  controlEpoch : CharacterControlEpoch
  actionSequence : CharacterActionSequence
  basedOnInput : CharacterInputSequence := {}
  requestedActionToken : UInt32
deriving DecidableEq

structure ActionState where
  actionSequence : CharacterActionSequence
  actionToken : UInt32
  animation : AssetId
  contentRevision : AssetContentId
  startTick : UInt64
  durationTicks : UInt32
deriving DecidableEq

structure ActionResult where
  character : ObjectId
  controlEpoch : CharacterControlEpoch
  actionSequence : CharacterActionSequence
  requestedActionToken : UInt32
  accepted : Bool := false
  authoritativeAction : Option ActionState := none
deriving DecidableEq

/-- What the codec takes from elsewhere: the messages with states, and the length of a vector. -/
structure StateKinds (σ φ : Type) where
  /-- The move intent is no longer than the limit. -/
  moveIntentWithin : Float32Bits → Float32Bits → Bool
  stateValid : σ → Bool
  stateCharacter : σ → ObjectId
  stateEpoch : σ → CharacterControlEpoch
  writeState : GameBinaryWriter → σ → GameBinaryWriter
  readState : ObjectId → CharacterControlEpoch → List UInt8 → Except SerializationError (σ × List UInt8)
  frameValid : φ → Bool
  writeFrame : GameBinaryWriter → φ → GameBinaryWriter
  readFrame : List UInt8 → Except SerializationError φ

inductive CharacterMessage (σ φ : Type) where
  | control (transition : ControlTransition)
  | input (command : InputCommand)
  | actionRequest (request : ActionRequest)
  | actionResult (result : ActionResult)
  | state (state : σ)
  | stateFrame (frame : φ)
deriving DecidableEq

def ControlTransition.isValid (t : ControlTransition) : Bool :=
  t.character.isValid && t.controlEpoch.isValid && t.authoritativeTick != 0 && t.channel.isValid == t.bound

def ActionRequest.isValid (r : ActionRequest) : Bool :=
  r.character.isValid && r.controlEpoch.isValid && r.actionSequence.isValid && r.requestedActionToken != 0

def ActionState.isValid (a : ActionState) : Bool :=
  a.actionSequence.isValid && a.actionToken != 0 && a.animation.isValid && a.contentRevision.isValid &&
    a.startTick != 0 && a.durationTicks != 0 && decide (a.durationTicks.toNat ≤ 2 ^ 64 - 1 - a.startTick.toNat)

def ActionResult.isValid (r : ActionResult) : Bool :=
  r.character.isValid && r.controlEpoch.isValid && r.actionSequence.isValid && r.requestedActionToken != 0 &&
    r.accepted == r.authoritativeAction.isSome &&
    r.authoritativeAction.all fun a => a.isValid && a.actionSequence == r.actionSequence

section
variable {σ φ : Type} (k : StateKinds σ φ)

/-- Positive and at most a quarter of a second; a yaw of at most pi either way; only the jump flag. -/
def InputCommand.isValid (c : InputCommand) : Bool :=
  c.character.isValid && c.controlEpoch.isValid && c.inputSequence.isValid && c.simulationTick != 0 &&
    c.deltaSeconds.isFinite && decide (0 < c.deltaSeconds.bits) && decide (c.deltaSeconds.bits ≤ 0x3e800000) &&
    c.moveX.isFinite && c.moveY.isFinite && k.moveIntentWithin c.moveX c.moveY &&
    c.facingYawRadians.isFinite && decide (c.facingYawRadians.bits &&& 0x7fffffff ≤ 0x40490fdb) &&
    c.flags &&& 0xfe == 0

def isValid : CharacterMessage σ φ → Bool
  | .control t => t.isValid
  | .input c => c.isValid k
  | .actionRequest r => r.isValid
  | .actionResult r => r.isValid
  | .state s => k.stateValid s
  | .stateFrame f => k.frameValid f

def getCharacterMessageKind : CharacterMessage σ φ → UInt8
  | .control t => if t.bound then 0 else 1
  | .input _ => 2
  | .actionRequest _ => 3
  | .state _ => 4
  | .stateFrame _ => 5
  | .actionResult _ => 6

def versionOf : CharacterMessage σ φ → UInt16
  | .actionResult _ | .stateFrame _ => characterProtocolVersion
  | _ => legacyCharacterProtocolVersion

def frameLimit : CharacterMessage σ φ → Nat
  | .stateFrame _ => maximumCharacterStateFrameBytes
  | _ => maximumCharacterFrameBytes

def context : String := "Character frame"

def header : Field (UInt32 × UInt16 × UInt8 × UInt8) :=
  .pair (.u32 context) (.pair (.u16 context) (.pair (.u8 context) (.u8 context)))

def legacyHead : Field (ObjectId × CharacterControlEpoch) := .pair (.objectId context) (.sequence context)

def controlBody : Field (StateChannelId × UInt64) := .pair (.sequence context) (.u64 context)

def inputBody : Field (CharacterInputSequence × UInt64 × Float32Bits × Float32Bits × Float32Bits × Float32Bits ×
    UInt8 × UInt8 × UInt16) :=
  .pair (.sequence context) (.pair (.u64 context) (.pair (.float context) (.pair (.float context)
    (.pair (.float context) (.pair (.float context) (.pair (.u8 context) (.pair (.u8 context) (.u16 context))))))))

def requestBody : Field (CharacterActionSequence × CharacterInputSequence × UInt32 × UInt32) :=
  .pair (.sequence context) (.pair (.sequence context) (.pair (.u32 context) (.u32 context)))

def resultHead : Field (ObjectId × CharacterControlEpoch × CharacterActionSequence × UInt32 × UInt8 × UInt8 × UInt16) :=
  .pair (.objectId context) (.pair (.sequence context) (.pair (.sequence context) (.pair (.u32 context)
    (.pair (.u8 context) (.pair (.u8 context) (.u16 context))))))

def assetId : Field AssetId :=
  ((Field.pair (.u64 context) (.u64 context)).through (fun x => ⟨x.1,x.2⟩) (fun id => (id.high,id.low))
    (fun _ => rfl) (fun _ => rfl)).checked AssetId.isValid "Character Animation AssetId is invalid"

def contentId : Field AssetContentId :=
  ((Field.octets context 32).through AssetContentId.mk AssetContentId.bytes (fun _ => rfl) (fun _ => rfl)).checked
    AssetContentId.isValid "Character Animation content revision is invalid"

def actionState : Field ActionState :=
  (Field.pair (.sequence context) (.pair (.u32 context) (.pair assetId (.pair contentId
    (.pair (.u64 context) (.u32 context)))))).through
      (fun x => ⟨x.1,x.2.1,x.2.2.1,x.2.2.2.1,x.2.2.2.2.1,x.2.2.2.2.2⟩)
      (fun a => (a.actionSequence,a.actionToken,a.animation,a.contentRevision,a.startTick,a.durationTicks))
      (fun _ => rfl) (fun _ => rfl)

def actionTail : Field (ActionState × UInt32) := .pair actionState (.u32 context)

def writeBody (w : GameBinaryWriter) : CharacterMessage σ φ → GameBinaryWriter
  | .control t => controlBody.write (legacyHead.write w (t.character,t.controlEpoch)) (t.channel,t.authoritativeTick)
  | .input c => inputBody.write (legacyHead.write w (c.character,c.controlEpoch))
      (c.inputSequence,c.simulationTick,c.deltaSeconds,c.moveX,c.moveY,c.facingYawRadians,c.flags,0,0)
  | .actionRequest r => requestBody.write (legacyHead.write w (r.character,r.controlEpoch))
      (r.actionSequence,r.basedOnInput,r.requestedActionToken,0)
  | .actionResult r =>
    let w := resultHead.write w (r.character,r.controlEpoch,r.actionSequence,r.requestedActionToken,
      if r.accepted then 1 else 0,0,0)
    match r.authoritativeAction with
    | some a => actionTail.write w (a,0)
    | none => w
  | .state s => k.writeState (legacyHead.write w (k.stateCharacter s,k.stateEpoch s)) s
  | .stateFrame f => k.writeFrame w f

def encodeCharacterMessage (m : CharacterMessage σ φ) : Except SerializationError (List UInt8) :=
  if !isValid k m then .error ⟨.invalidValue,"Character message is invalid"⟩
  else
    let output := header.write { maximumBytes := frameLimit m }
      (characterMagic,versionOf m,getCharacterMessageKind m,0)
    let output := writeBody k output m
    if !output.succeeded then .error ⟨.limitExceeded,"Character frame exceeds its limit"⟩ else .ok output.bytes

def decodeControl (bound : Bool) (head : ObjectId × CharacterControlEpoch) (input : List UInt8) :
    Except SerializationError (CharacterMessage σ φ × List UInt8) := do
  let (x,rest) ← controlBody.decode input
  return (.control ⟨head.1,head.2,x.1,x.2,bound⟩,rest)

def decodeInput (head : ObjectId × CharacterControlEpoch) (input : List UInt8) :
    Except SerializationError (CharacterMessage σ φ × List UInt8) := do
  let ((sequence,tick,delta,moveX,moveY,yaw,flags,tail,reservedTail),rest) ← inputBody.decode input
  demand (tail == 0 && reservedTail == 0) .invalidValue "Character input reserved bytes are nonzero"
  return (.input ⟨head.1,head.2,sequence,tick,delta,moveX,moveY,yaw,flags⟩,rest)

def decodeActionRequest (head : ObjectId × CharacterControlEpoch) (input : List UInt8) :
    Except SerializationError (CharacterMessage σ φ × List UInt8) := do
  let ((sequence,basedOn,token,reservedTail),rest) ← requestBody.decode input
  demand (reservedTail == 0) .invalidValue "Character action reserved bytes are nonzero"
  return (.actionRequest ⟨head.1,head.2,sequence,basedOn,token⟩,rest)

def decodeLegacyBody (kind : UInt8) (head : ObjectId × CharacterControlEpoch) (input : List UInt8) :
    Except SerializationError (CharacterMessage σ φ × List UInt8) :=
  if kind = 0 then decodeControl true head input
  else if kind = 1 then decodeControl false head input
  else if kind = 2 then decodeInput head input
  else if kind = 3 then decodeActionRequest head input
  else do
    let (s,rest) ← k.readState head.1 head.2 input
    return (.state s,rest)

def decodeLegacy (length : Nat) (kind : UInt8) (input : List UInt8) :
    Except SerializationError (CharacterMessage σ φ) := do
  demand (decide (length ≤ maximumCharacterFrameBytes) && decide (kind ≤ 4)) .invalidValue
    "Character v1 frame is invalid"
  let (head,input) ← legacyHead.decode input
  demand head.2.isValid .invalidValue "Character frame header is invalid"
  let (message,rest) ← decodeLegacyBody k kind head input
  demand (rest.isEmpty && isValid k message) .invalidValue "Character frame contains trailing or invalid data"
  return message

def decodeAction (accepted : UInt8) (input : List UInt8) :
    Except SerializationError (Option ActionState × List UInt8) :=
  if accepted = 0 then return (none,input)
  else do
    let (x,rest) ← actionTail.decode input
    demand (x.2 == 0) .invalidValue "Character action-result reserved bytes are nonzero"
    return (some x.1,rest)

def decodeActionResult (input : List UInt8) : Except SerializationError (CharacterMessage σ φ) := do
  let ((character,epoch,sequence,token,accepted,reservedByte,reservedShort),input) ← resultHead.decode input
  demand (epoch.isValid && decide (accepted ≤ 1) && reservedByte == 0 && reservedShort == 0) .invalidValue
    "Character action-result header is invalid"
  let (action,rest) ← decodeAction accepted input
  let result : ActionResult := ⟨character,epoch,sequence,token,accepted != 0,action⟩
  demand (rest.isEmpty && result.isValid) .invalidValue
    "Character action result contains trailing or invalid data"
  return .actionResult result

def decodeCharacterMessage (bytes : List UInt8) : Except SerializationError (CharacterMessage σ φ) := do
  demand (decide (bytes.length ≤ maximumCharacterStateFrameBytes)) .limitExceeded "Character frame exceeds its limit"
  let ((magic,version,kind,reserved),input) ← header.decode bytes
  demand (magic == characterMagic) .invalidSyntax "Character frame magic is invalid"
  demand (reserved == 0) .invalidValue "Character frame header is invalid"
  if version = characterProtocolVersion then
    if kind = 5 then do
      let frame ← k.readFrame input
      return .stateFrame frame
    else if kind = 6 then decodeActionResult input
    else .error ⟨.invalidValue,"Character v4 opcode is invalid"⟩
  else do
    demand (version == legacyCharacterProtocolVersion) .unsupportedVersion
      "Character protocol version is unsupported"
    decodeLegacy k bytes.length kind input

end
end CharacterCodec
end Gargantuan
