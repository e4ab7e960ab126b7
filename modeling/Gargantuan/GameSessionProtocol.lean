import Gargantuan.CharacterCodec

/-!
The three messages that open a game session, and their frames. The codec is
exact in both directions: every message that the encoder accepts comes back, and
the accepted bytes are its only encoding.
-/
namespace Gargantuan.GameSessionProtocol
open GameBinaryWriter GameBinaryReader

def gameSessionProtocolVersion : UInt16 := 1
def maximumGameSessionFrameBytes : Nat := 256
def gameSessionMagic : UInt32 := 0x53455347

/-- The only kind of identity so far; the field itself holds any byte. -/
def developmentLocal : UInt8 := 1

structure ClientHello where
  nonce : UInt64
  advertisedLimits : NetworkLimits
deriving DecidableEq

structure ServerAccepted where
  nonce : UInt64
  sessionEpoch : UInt64
  replication : ReplicationEpoch
  player : ObjectId
  playerId : UInt32
  identity : UInt8 := developmentLocal
  negotiatedLimits : NetworkLimits
deriving DecidableEq

structure ClientReady where
  sessionEpoch : UInt64
  replication : ReplicationEpoch
  player : ObjectId
deriving DecidableEq

inductive GameSessionMessage where
  | clientHello (value : ClientHello)
  | serverAccepted (value : ServerAccepted)
  | clientReady (value : ClientReady)
deriving DecidableEq

def kindOf : GameSessionMessage → UInt8
  | .clientHello _ => 1
  | .serverAccepted _ => 2
  | .clientReady _ => 3

/-! ### The fields in wire order -/

def context : String := "Game session frame"

abbrev RawLimits := UInt32 × UInt32 × UInt32 × UInt32 × UInt32 × UInt32 × UInt32 × UInt32

def rawLimits : Field RawLimits :=
  .pair (.u32 context) (.pair (.u32 context) (.pair (.u32 context) (.pair (.u32 context) (.pair (.u32 context)
    (.pair (.u32 context) (.pair (.u32 context) (.u32 context)))))))

def narrow (l : NetworkLimits) : RawLimits :=
  (l.maximumReliableMessageBytes.toUInt32,l.maximumUnreliableMessageBytes.toUInt32,
    l.maximumQueuedReliableBytes.toUInt32,l.maximumInFlightRemoteRequests.toUInt32,
    l.maximumDecodedMessageBytes.toUInt32,l.maximumSendBytesPerTick.toUInt32,l.maximumReceiveBytesPerTick.toUInt32,
    l.maximumMessagesPerTick.toUInt32)

def widen (x : RawLimits) : NetworkLimits where
  maximumReliableMessageBytes := x.1.toNat
  maximumUnreliableMessageBytes := x.2.1.toNat
  maximumQueuedReliableBytes := x.2.2.1.toNat
  maximumInFlightRemoteRequests := x.2.2.2.1.toNat
  maximumDecodedMessageBytes := x.2.2.2.2.1.toNat
  maximumSendBytesPerTick := x.2.2.2.2.2.1.toNat
  maximumReceiveBytesPerTick := x.2.2.2.2.2.2.1.toNat
  maximumMessagesPerTick := x.2.2.2.2.2.2.2.toNat

theorem narrow_widen (x : RawLimits) : narrow (widen x) = x := by simp [narrow,widen]

theorem widen_narrow {l : NetworkLimits} (valid : l.isValid) : widen (narrow l) = l := by
  simp only [NetworkLimits.isValid,Bool.and_eq_true,decide_eq_true_eq] at valid
  have queued : nativeMaximumQueuedReliableBytes < 4294967296 := by decide
  have inFlight : nativeMaximumInFlightRemoteRequests < 4294967296 := by decide
  have bytesPerTick : nativeMaximumNetworkBytesPerTick < 4294967296 := by decide
  have messagesPerTick : nativeMaximumNetworkMessagesPerTick < 4294967296 := by decide
  have same : ∀ n : Nat, n < 4294967296 → n.toUInt32.toNat = n := fun n small => UInt32.toNat_ofNat_of_lt small
  cases l
  simp only [widen,narrow,NetworkLimits.mk.injEq] at valid ⊢
  refine ⟨same _ ?_,same _ ?_,same _ ?_,same _ ?_,same _ ?_,same _ ?_,same _ ?_,same _ ?_⟩ <;> omega

def limits : Field NetworkLimits where
  write w l := rawLimits.write w (narrow l)
  read := do
    let x ← rawLimits.read
    if (widen x).isValid then return widen x else GameBinaryReader.fail "Game session network limits are invalid"
  bytes l := rawLimits.bytes (narrow l)
  accepts l := l.isValid = true
  writes w l _ := rawLimits.writes w _ ⟨trivial,trivial,trivial,trivial,trivial,trivial,trivial,trivial⟩
  appends w l _ := rawLimits.appends w _ ⟨trivial,trivial,trivial,trivial,trivial,trivial,trivial,trivial⟩
  reads l valid := by
    have raw := rawLimits.reads (narrow l) ⟨trivial,trivial,trivial,trivial,trivial,trivial,trivial,trivial⟩
    refine raw.last ?_
    rw [widen_narrow valid]
    exact reads_check l _ valid
  consumes := by
    intro input l rest accepted
    obtain ⟨x,middle,taken,last⟩ := bind_ok accepted
    obtain ⟨valid,rfl,rfl⟩ := check_ok last
    refine ⟨valid,?_⟩
    rw [narrow_widen]
    exact (rawLimits.consumes taken).2

def header : Field (UInt32 × UInt16 × UInt8 × UInt8) :=
  .pair (.u32 context) (.pair (.u16 context) (.pair (.u8 context) (.u8 context)))

def helloBody : Field (UInt64 × NetworkLimits) := .pair (.u64 context) limits

def acceptedHead : Field (UInt64 × UInt64 × ReplicationEpoch × ObjectId × UInt32 × UInt8 × UInt8 × UInt16) :=
  .pair (.u64 context) (.pair (.u64 context) (.pair (.sequence context) (.pair (.objectId context)
    (.pair (.u32 context) (.pair (.u8 context) (.pair (.u8 context) (.u16 context)))))))

def acceptedBody : Field ((UInt64 × UInt64 × ReplicationEpoch × ObjectId × UInt32 × UInt8 × UInt8 × UInt16) ×
    NetworkLimits) := .pair acceptedHead limits

def readyBody : Field (UInt64 × ReplicationEpoch × ObjectId) :=
  .pair (.u64 context) (.pair (.sequence context) (.objectId context))

/-- Valid limits that fit 32 bits are written; others are refused. -/
def writeLimits (w : GameBinaryWriter) (l : NetworkLimits) : GameBinaryWriter × Bool :=
  if !l.isValid || l.maximumReliableMessageBytes > 0xffffffff || l.maximumUnreliableMessageBytes > 0xffffffff ||
      l.maximumQueuedReliableBytes > 0xffffffff || l.maximumDecodedMessageBytes > 0xffffffff ||
      l.maximumSendBytesPerTick > 0xffffffff || l.maximumReceiveBytesPerTick > 0xffffffff then (w,false)
  else (limits.write w l,true)

def writeBody (w : GameBinaryWriter) : GameSessionMessage → GameBinaryWriter × Bool
  | .clientHello v =>
    let w := (Field.u64 context).write w v.nonce
    if v.nonce != 0 then writeLimits w v.advertisedLimits else (w,false)
  | .serverAccepted v =>
    let w := acceptedHead.write w
      (v.nonce,v.sessionEpoch,v.replication,v.player,v.playerId,v.identity,0,0)
    if v.nonce != 0 && v.sessionEpoch != 0 && v.replication.isValid && v.player.isValid && v.playerId != 0 &&
        v.identity == developmentLocal then writeLimits w v.negotiatedLimits
    else (w,false)
  | .clientReady v =>
    (readyBody.write w (v.sessionEpoch,v.replication,v.player),
      v.sessionEpoch != 0 && v.replication.isValid && v.player.isValid)

def encodeGameSessionMessage (m : GameSessionMessage) : Except SerializationError (List UInt8) :=
  let output := header.write { maximumBytes := maximumGameSessionFrameBytes }
    (gameSessionMagic,gameSessionProtocolVersion,kindOf m,0)
  let (output,valid) := writeBody output m
  if !valid || !output.succeeded then .error ⟨.invalidValue,"Game session message is invalid"⟩
  else .ok output.bytes

/-- The code of a reader's error is told from its text. -/
def errorCode (message : String) : SerializationErrorCode :=
  if message.toList.tails.any fun t => "truncated".toList.isPrefixOf t then .truncatedInput else .invalidValue

def decodeFields {α : Type} (f : Field α) (input : List UInt8) : Except SerializationError (α × List UInt8) :=
  match f.read input with
  | .error message => .error ⟨errorCode message,message⟩
  | .ok result => .ok result

def decodeClientHello (input : List UInt8) : Except SerializationError (GameSessionMessage × List UInt8) := do
  let ((nonce,limits),rest) ← decodeFields helloBody input
  demand (nonce != 0) .invalidValue "Game session client hello is invalid"
  return (.clientHello ⟨nonce,limits⟩,rest)

def decodeServerAccepted (input : List UInt8) : Except SerializationError (GameSessionMessage × List UInt8) := do
  let (((nonce,epoch,replication,player,playerId,identity,reserved8,reserved16),limits),rest) ←
    decodeFields acceptedBody input
  demand (nonce != 0 && epoch != 0 && replication.isValid && player.isValid && playerId != 0 &&
    identity == developmentLocal && reserved8 == 0 && reserved16 == 0) .invalidValue "Game session acceptance is invalid"
  return (.serverAccepted ⟨nonce,epoch,replication,player,playerId,identity,limits⟩,rest)

def decodeClientReady (input : List UInt8) : Except SerializationError (GameSessionMessage × List UInt8) := do
  let ((epoch,replication,player),rest) ← decodeFields readyBody input
  demand (epoch != 0 && replication.isValid && player.isValid) .invalidValue "Game session readiness is invalid"
  return (.clientReady ⟨epoch,replication,player⟩,rest)

def decodeBody (kind : UInt8) (input : List UInt8) : Except SerializationError (GameSessionMessage × List UInt8) :=
  if kind = 1 then decodeClientHello input
  else if kind = 2 then decodeServerAccepted input
  else if kind = 3 then decodeClientReady input
  else .error ⟨.invalidType,"Game session message kind is unknown"⟩

def decodeGameSessionMessage (bytes : List UInt8) : Except SerializationError GameSessionMessage := do
  demand (decide (bytes.length ≤ maximumGameSessionFrameBytes)) .limitExceeded "Game session frame exceeds its bound"
  let ((magic,version,kind,reserved),input) ← decodeFields header bytes
  demand (magic == gameSessionMagic) .invalidSyntax "Game session magic is invalid"
  demand (version == gameSessionProtocolVersion) .unsupportedVersion "Game session version is unsupported"
  demand (reserved == 0) .invalidValue "Game session reserved header byte is non-zero"
  let (message,rest) ← decodeBody kind input
  demand rest.isEmpty .invalidValue "Game session frame contains trailing bytes"
  return message

end Gargantuan.GameSessionProtocol
