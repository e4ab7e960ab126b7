import Gargantuan.CharacterEncoding
import Gargantuan.GameSessionProtocol

/-!
The codec of game session messages in both directions, and with it the two
protocols side by side.
-/
namespace Gargantuan.GameSessionProtocol
open GameBinaryWriter GameBinaryReader List

/-- What the encoder asks of a message. -/
def isValid : GameSessionMessage → Bool
  | .clientHello v => v.nonce != 0 && v.advertisedLimits.isValid
  | .serverAccepted v =>
    (v.nonce != 0 && v.sessionEpoch != 0 && v.replication.isValid && v.player.isValid && v.playerId != 0 &&
      v.identity == developmentLocal) && v.negotiatedLimits.isValid
  | .clientReady v => v.sessionEpoch != 0 && v.replication.isValid && v.player.isValid

def headerBytes (m : GameSessionMessage) : List UInt8 :=
  header.bytes (gameSessionMagic,gameSessionProtocolVersion,kindOf m,0)

def bodyBytes : GameSessionMessage → List UInt8
  | .clientHello v => helloBody.bytes (v.nonce,v.advertisedLimits)
  | .serverAccepted v => acceptedBody.bytes
      ((v.nonce,v.sessionEpoch,v.replication,v.player,v.playerId,v.identity,0,0),v.negotiatedLimits)
  | .clientReady v => readyBody.bytes (v.sessionEpoch,v.replication,v.player)

def frameBytes (m : GameSessionMessage) : List UInt8 := headerBytes m ++ bodyBytes m

theorem length_frameBytes (m : GameSessionMessage) : (frameBytes m).length ≤ maximumGameSessionFrameBytes := by
  have limit : ∀ l, (limits.bytes l).length = 32 := by
    intro l
    simp [limits,rawLimits]
  cases m <;>
    simp [frameBytes,headerBytes,bodyBytes,header,helloBody,acceptedBody,acceptedHead,readyBody,limit,
      maximumGameSessionFrameBytes]

theorem acceptedHead_accepts {v : ServerAccepted} (player : v.player.isValid) : acceptedHead.accepts
    (v.nonce,v.sessionEpoch,v.replication,v.player,v.playerId,v.identity,0,0) :=
  ⟨trivial,trivial,trivial,⟨⟨trivial,trivial⟩,player⟩,trivial,trivial,trivial,trivial⟩

theorem readyBody_accepts {v : ClientReady} (player : v.player.isValid) :
    readyBody.accepts (v.sessionEpoch,v.replication,v.player) :=
  ⟨trivial,trivial,⟨trivial,trivial⟩,player⟩

variable {l : NetworkLimits}

theorem writeLimits_valid (valid : l.isValid) (w : GameBinaryWriter) : writeLimits w l = (limits.write w l,true) := by
  have parts := valid
  simp only [NetworkLimits.isValid,Bool.and_eq_true,decide_eq_true_eq] at parts
  have queued : nativeMaximumQueuedReliableBytes < 0xffffffff := by decide
  have bytesPerTick : nativeMaximumNetworkBytesPerTick < 0xffffffff := by decide
  rw [writeLimits,if_neg]
  simp only [valid,Bool.not_true,Bool.false_or,Bool.or_eq_true,decide_eq_true_eq,not_or,not_lt]
  refine ⟨⟨⟨⟨⟨?_,?_⟩,?_⟩,?_⟩,?_⟩,?_⟩ <;> omega

theorem writeLimits_invalid (invalid : l.isValid = false) (w : GameBinaryWriter) : (writeLimits w l).2 = false := by
  rw [writeLimits,if_pos (by simp [invalid])]

variable {m : GameSessionMessage}

theorem writeBody_valid (valid : isValid m) (w : GameBinaryWriter) :
    Appends w (writeBody w m).1 (bodyBytes m) ∧ (writeBody w m).2 := by
  cases m with
  | clientHello v =>
    simp only [isValid,Bool.and_eq_true] at valid
    simp only [writeBody,valid.1,if_true,writeLimits_valid valid.2]
    exact ⟨helloBody.appends w (v.nonce,v.advertisedLimits) ⟨trivial,valid.2⟩,trivial⟩
  | serverAccepted v =>
    rw [isValid,Bool.and_eq_true] at valid
    have player : v.player.isValid := by
      have fields := valid.1
      simp only [Bool.and_eq_true] at fields
      exact fields.1.1.2
    rw [writeBody]
    simp only [valid.1,if_true,writeLimits_valid valid.2]
    exact ⟨acceptedBody.appends w (_,v.negotiatedLimits) ⟨acceptedHead_accepts player,valid.2⟩,trivial⟩
  | clientReady v =>
    have player : v.player.isValid := by
      simp only [isValid,Bool.and_eq_true] at valid
      exact valid.2
    exact ⟨readyBody.appends w _ (readyBody_accepts player),valid⟩

theorem writeBody_invalid (invalid : isValid m = false) (w : GameBinaryWriter) : (writeBody w m).2 = false := by
  cases m with
  | clientHello v =>
    simp only [writeBody]
    split_ifs with nonce
    · exact writeLimits_invalid (by simpa [isValid,nonce] using invalid) _
    · rfl
  | serverAccepted v =>
    simp only [writeBody]
    split_ifs with fields
    · rw [isValid,fields] at invalid
      exact writeLimits_invalid invalid _
    · rfl
  | clientReady v => exact invalid

theorem encodeGameSessionMessage_iff (m : GameSessionMessage) (bytes : List UInt8) :
    encodeGameSessionMessage m = .ok bytes ↔ isValid m ∧ bytes = frameBytes m := by
  cases valid : isValid m with
  | false =>
    have refused := writeBody_invalid valid (header.write { maximumBytes := maximumGameSessionFrameBytes }
      (gameSessionMagic,gameSessionProtocolVersion,kindOf m,0))
    simp [encodeGameSessionMessage,refused]
  | true =>
    have head := header.appends { maximumBytes := maximumGameSessionFrameBytes }
      (gameSessionMagic,gameSessionProtocolVersion,kindOf m,0) ⟨trivial,trivial,trivial,trivial⟩
    obtain ⟨body,accepted⟩ := writeBody_valid valid (header.write { maximumBytes := maximumGameSessionFrameBytes }
      (gameSessionMagic,gameSessionProtocolVersion,kindOf m,0))
    have room := length_frameBytes m
    rw [frameBytes,headerBytes] at room
    obtain ⟨ok,written,_⟩ := (head.trans body).ofRoom rfl (by simpa using room)
    simp only [encodeGameSessionMessage,accepted,succeeded,ok,Bool.not_true,Bool.not_false,Bool.or_self,
      Bool.false_eq_true,if_false]
    rw [written]
    constructor
    · intro same
      exact ⟨trivial,(Except.ok.inj same).symm⟩
    · rintro ⟨-,rfl⟩
      rfl

theorem decodeFields_bytes {α : Type} (f : Field α) {x : α} (good : f.accepts x) (rest : List UInt8) :
    decodeFields f (f.bytes x ++ rest) = .ok (x,rest) := by
  rw [decodeFields,f.reads x good rest]

variable {input rest : List UInt8}

theorem decodeFields_ok {α : Type} {f : Field α} {x : α}
    (decoded : decodeFields f input = .ok (x,rest)) : f.accepts x ∧ input = f.bytes x ++ rest := by
  unfold decodeFields at decoded
  cases read : f.read input with
  | error message => rw [read] at decoded; cases decoded
  | ok result =>
    rw [read] at decoded
    cases decoded
    exact f.consumes read

theorem decodeBody_bytes (valid : isValid m) : decodeBody (kindOf m) (bodyBytes m) = .ok (m,[]) := by
  cases m with
  | clientHello v =>
    simp only [isValid,Bool.and_eq_true] at valid
    have read := decodeFields_bytes helloBody (x := (v.nonce,v.advertisedLimits)) ⟨trivial,valid.2⟩ []
    rw [append_nil] at read
    simp only [decodeBody,kindOf,if_true,decodeClientHello,bodyBytes,read,except_ok_bind,valid.1,demand_true]
    rfl
  | serverAccepted v =>
    rw [isValid,Bool.and_eq_true] at valid
    obtain ⟨fields,limitsValid⟩ := valid
    have player : v.player.isValid := by
      simp only [Bool.and_eq_true] at fields
      exact fields.1.1.2
    have read := decodeFields_bytes acceptedBody
      (x := ((v.nonce,v.sessionEpoch,v.replication,v.player,v.playerId,v.identity,0,0),v.negotiatedLimits))
      ⟨acceptedHead_accepts player,limitsValid⟩ []
    rw [append_nil] at read
    simp only [decodeBody,kindOf]
    simp only [decodeServerAccepted,bodyBytes,read,except_ok_bind,fields,beq_self_eq_true,Bool.and_self,
      demand_true]
    rfl
  | clientReady v =>
    have player : v.player.isValid := by
      simp only [isValid,Bool.and_eq_true] at valid
      exact valid.2
    have read := decodeFields_bytes readyBody (readyBody_accepts player) []
    rw [append_nil] at read
    rw [isValid] at valid
    simp only [decodeBody,kindOf]
    simp only [decodeClientReady,bodyBytes,read,except_ok_bind,valid,demand_true]
    rfl

theorem decodeGameSessionMessage_frameBytes (valid : isValid m) : decodeGameSessionMessage (frameBytes m) = .ok m := by
  have short := length_frameBytes m
  have first : decodeFields header (frameBytes m) =
      .ok ((gameSessionMagic,gameSessionProtocolVersion,kindOf m,0),bodyBytes m) :=
    decodeFields_bytes header ⟨trivial,trivial,trivial,trivial⟩ _
  simp only [decodeGameSessionMessage,decide_eq_true short,demand_true,except_ok_bind,first,beq_self_eq_true,
    decodeBody_bytes valid,isEmpty_nil]
  rfl

theorem decodeBody_ok {kind : UInt8} (decoded : decodeBody kind input = .ok (m,rest)) :
    isValid m ∧ kindOf m = kind ∧ input = bodyBytes m ++ rest := by
  unfold decodeBody at decoded
  split_ifs at decoded with hello accept ready
  · obtain ⟨⟨⟨nonce,l⟩,left⟩,read,next⟩ := except_bind_ok decoded
    obtain ⟨_,passed,last⟩ := except_bind_ok next
    cases last
    obtain ⟨good,bytes⟩ := decodeFields_ok read
    refine ⟨?_,hello.symm,bytes⟩
    rw [isValid,demand_ok passed]
    exact good.2
  · obtain ⟨⟨⟨⟨nonce,epoch,replication,player,playerId,identity,reserved8,reserved16⟩,l⟩,left⟩,read,next⟩ :=
      except_bind_ok decoded
    obtain ⟨_,passed,last⟩ := except_bind_ok next
    cases last
    obtain ⟨good,bytes⟩ := decodeFields_ok read
    have checks := demand_ok passed
    rw [Bool.and_eq_true,Bool.and_eq_true,beq_iff_eq,beq_iff_eq] at checks
    obtain ⟨⟨fields,zero8⟩,zero16⟩ := checks
    refine ⟨?_,accept.symm,?_⟩
    · rw [isValid,fields]
      exact good.2
    · rw [bytes,zero8,zero16]
      rfl
  · obtain ⟨⟨⟨epoch,replication,player⟩,left⟩,read,next⟩ := except_bind_ok decoded
    obtain ⟨_,passed,last⟩ := except_bind_ok next
    cases last
    exact ⟨demand_ok passed,ready.symm,(decodeFields_ok read).2⟩

theorem decodeGameSessionMessage_ok {bytes : List UInt8} (decoded : decodeGameSessionMessage bytes = .ok m) :
    isValid m ∧ bytes = frameBytes m := by
  obtain ⟨_,_,next⟩ := except_bind_ok decoded
  obtain ⟨⟨⟨magic,version,kind,reserved⟩,input⟩,read,next⟩ := except_bind_ok next
  obtain ⟨_,magicPassed,next⟩ := except_bind_ok next
  obtain ⟨_,versionPassed,next⟩ := except_bind_ok next
  obtain ⟨_,reservedPassed,next⟩ := except_bind_ok next
  obtain ⟨⟨message,rest⟩,body,next⟩ := except_bind_ok next
  obtain ⟨_,complete,last⟩ := except_bind_ok next
  cases last
  have isMagic : magic = gameSessionMagic := by simpa using demand_ok magicPassed
  have isVersion : version = gameSessionProtocolVersion := by simpa using demand_ok versionPassed
  have isZero : reserved = 0 := by simpa using demand_ok reservedPassed
  have nothing : rest = [] := by simpa using demand_ok complete
  obtain ⟨valid,sameKind,bytesBody⟩ := decodeBody_ok body
  rw [nothing,append_nil] at bytesBody
  refine ⟨valid,?_⟩
  rw [(decodeFields_ok read).2,isMagic,isVersion,isZero,bytesBody,← sameKind]
  rfl

end Gargantuan.GameSessionProtocol

namespace Gargantuan
open CharacterCodec (StateKinds CharacterMessage encodeCharacterMessage decodeCharacterMessage)
open GameSessionProtocol (GameSessionMessage encodeGameSessionMessage decodeGameSessionMessage)

/-- Two byte strings that decode to one message are the same. -/
def OnlyEncoding {μ : Type} (decode : List UInt8 → Except SerializationError μ) (m : μ) (bytes : List UInt8) : Prop :=
  ∀ other, decode other = .ok m → other = bytes

/-- Valid character messages without states, and valid session messages, are decoded again from their
    encoding. Accepted bytes are the only encoding of their message, under its own version and opcode
    and with a reserved byte of zero. -/
theorem protocol_frames {σ φ : Type} (k : StateKinds σ φ) :
    (∀ m : CharacterMessage σ φ, m.stateless = true → (CharacterCodec.isValid k m = true →
        ∃ bytes, encodeCharacterMessage k m = .ok bytes ∧ decodeCharacterMessage k bytes = .ok m) ∧
      ∀ bytes, decodeCharacterMessage k bytes = .ok m →
        encodeCharacterMessage k m = .ok bytes ∧ OnlyEncoding (decodeCharacterMessage k) m bytes ∧
          ∃ body, bytes = CharacterCodec.header.bytes (CharacterCodec.characterMagic, CharacterCodec.versionOf m,
            CharacterCodec.getCharacterMessageKind m, 0) ++ body) ∧
    ∀ m : GameSessionMessage,
      (GameSessionProtocol.isValid m = true →
        ∃ bytes, encodeGameSessionMessage m = .ok bytes ∧ decodeGameSessionMessage bytes = .ok m) ∧
      ∀ bytes, decodeGameSessionMessage bytes = .ok m →
        encodeGameSessionMessage m = .ok bytes ∧ OnlyEncoding decodeGameSessionMessage m bytes ∧
          ∃ body, bytes = GameSessionProtocol.header.bytes (GameSessionProtocol.gameSessionMagic,
            GameSessionProtocol.gameSessionProtocolVersion, GameSessionProtocol.kindOf m, 0) ++ body := by
  refine ⟨fun m stateless => ⟨fun valid => ?_,fun bytes decoded => ?_⟩,fun m => ⟨fun valid => ?_,fun bytes decoded => ?_⟩⟩
  · exact ⟨_,CharacterCodec.encodeCharacterMessage_ok valid stateless,
      CharacterCodec.decodeCharacterMessage_frameBytes valid stateless⟩
  · obtain ⟨valid,rfl⟩ := CharacterCodec.decodeCharacterMessage_ok decoded stateless
    refine ⟨CharacterCodec.encodeCharacterMessage_ok valid stateless,fun other again => ?_,_,rfl⟩
    exact (CharacterCodec.decodeCharacterMessage_ok again stateless).2
  · exact ⟨_,(GameSessionProtocol.encodeGameSessionMessage_iff m _).mpr ⟨valid,rfl⟩,
      GameSessionProtocol.decodeGameSessionMessage_frameBytes valid⟩
  · obtain ⟨valid,rfl⟩ := GameSessionProtocol.decodeGameSessionMessage_ok decoded
    refine ⟨(GameSessionProtocol.encodeGameSessionMessage_iff m _).mpr ⟨valid,rfl⟩,fun other again => ?_,_,rfl⟩
    exact (GameSessionProtocol.decodeGameSessionMessage_ok again).2

def noStates : StateKinds Empty Empty where
  moveIntentWithin x y := x.bits == 0 && y.bits == 0
  stateValid s := s.elim
  stateCharacter s := s.elim
  stateEpoch s := s.elim
  writeState _ s := s.elim
  readState _ _ _ := .error ⟨.invalidValue,"Character state flags are invalid"⟩
  frameValid f := f.elim
  writeFrame _ f := f.elim
  readFrame _ := .error ⟨.invalidValue,"Character state-frame materialization epoch or count is invalid"⟩

def bindMessage : CharacterMessage Empty Empty := .control ⟨⟨1,1⟩,⟨1⟩,⟨7⟩,20,true⟩

def readyMessage : GameSessionMessage := .clientReady ⟨5,⟨1⟩,⟨2,1⟩⟩

theorem protocol_frames_examples :
    (∃ bytes, encodeCharacterMessage noStates bindMessage = .ok bytes ∧
      decodeCharacterMessage noStates bytes = .ok bindMessage) ∧
    ∃ bytes, encodeGameSessionMessage readyMessage = .ok bytes ∧ decodeGameSessionMessage bytes = .ok readyMessage :=
  ⟨((protocol_frames noStates).1 bindMessage rfl).1 (by decide),
    ((protocol_frames noStates).2 readyMessage).1 (by decide)⟩

end Gargantuan
