import Gargantuan.CharacterCodec

/-!
The codec of character messages is exact in both directions for every message
that carries no state: a valid message is encoded and decoded again, and bytes
that are accepted are the one encoding of the message they decode to.
-/
namespace Gargantuan.CharacterCodec
open List Option Bool ActionResult Field
open GameBinaryWriter GameBinaryReader

variable {σ φ : Type} {k : StateKinds σ φ}

/-- The five kinds without states. -/
def CharacterMessage.stateless : CharacterMessage σ φ → Bool
  | .state _ | .stateFrame _ => false
  | _ => true

def bodyBytes : CharacterMessage σ φ → List UInt8
  | .control t => legacyHead.bytes (t.character,t.controlEpoch) ++ controlBody.bytes (t.channel,t.authoritativeTick)
  | .input c => legacyHead.bytes (c.character,c.controlEpoch) ++
      inputBody.bytes (c.inputSequence,c.simulationTick,c.deltaSeconds,c.moveX,c.moveY,c.facingYawRadians,
        c.flags,0,0)
  | .actionRequest r => legacyHead.bytes (r.character,r.controlEpoch) ++
      requestBody.bytes (r.actionSequence,r.basedOnInput,r.requestedActionToken,0)
  | .actionResult r => resultHead.bytes (r.character,r.controlEpoch,r.actionSequence,r.requestedActionToken,
      if r.accepted then 1 else 0,0,0) ++ (r.authoritativeAction.map fun a => actionTail.bytes (a,0)).getD []
  | _ => []

def headerBytes (m : CharacterMessage σ φ) : List UInt8 :=
  header.bytes (characterMagic,versionOf m,getCharacterMessageKind m,0)

def frameBytes (m : CharacterMessage σ φ) : List UInt8 := headerBytes m ++ bodyBytes m

theorem actionTail_accepts {a : ActionState} (valid : a.isValid) : actionTail.accepts (a,0) := by
  simp only [ActionState.isValid,and_eq_true] at valid
  obtain ⟨⟨⟨⟨⟨_,animation⟩,content⟩,_⟩,_⟩,_⟩ := valid
  have octets : (octets context 32).accepts a.contentRevision.bytes := octets_accepts _ _
  exact ⟨⟨trivial,trivial,⟨⟨trivial,trivial⟩,animation⟩,⟨octets,content⟩,trivial,trivial⟩,trivial⟩

theorem legacyHead_accepts {character : ObjectId} (valid : character.isValid) (epoch : CharacterControlEpoch) :
    legacyHead.accepts (character,epoch) :=
  ⟨⟨⟨trivial,trivial⟩,valid⟩,trivial⟩

theorem inputBody_accepts (c : InputCommand) : inputBody.accepts (c.inputSequence,c.simulationTick,c.deltaSeconds,
    c.moveX,c.moveY,c.facingYawRadians,c.flags,0,0) :=
  ⟨trivial,trivial,trivial,trivial,trivial,trivial,trivial,trivial,trivial⟩

variable {r : ActionResult} {m : CharacterMessage σ φ} {input : List UInt8}

theorem resultHead_accepts (valid : r.isValid) : resultHead.accepts (r.character,
    r.controlEpoch,r.actionSequence,r.requestedActionToken,if r.accepted then 1 else 0,0,0) := by
  simp only [ActionResult.isValid,Bool.and_eq_true] at valid
  obtain ⟨⟨⟨⟨⟨character,_⟩,_⟩,_⟩,_⟩,_⟩ := valid
  exact ⟨⟨⟨trivial,trivial⟩,character⟩,trivial,trivial,trivial,trivial,trivial,trivial⟩

theorem ActionResult.isValid_action (valid : r.isValid) :
    r.accepted = r.authoritativeAction.isSome ∧ ∀ a ∈ r.authoritativeAction, a.isValid := by
  simp only [isValid,and_eq_true,beq_iff_eq,Option.all_eq_true] at valid
  obtain ⟨⟨_,accepted⟩,action⟩ := valid
  exact ⟨accepted,fun a member => (action a member).1⟩

theorem isValid_character (valid : isValid k m) :
    match m with
    | .control t => t.character.isValid ∧ t.controlEpoch.isValid
    | .input c => c.character.isValid ∧ c.controlEpoch.isValid
    | .actionRequest r => r.character.isValid ∧ r.controlEpoch.isValid
    | .actionResult r => r.character.isValid ∧ r.controlEpoch.isValid
    | _ => True := by
  cases m with
  | control t =>
    simp only [isValid,ControlTransition.isValid,Bool.and_eq_true] at valid
    exact valid.1.1
  | input c =>
    simp only [isValid,InputCommand.isValid,Bool.and_eq_true] at valid
    tauto
  | actionRequest r =>
    simp only [isValid,ActionRequest.isValid,Bool.and_eq_true] at valid
    exact valid.1.1
  | actionResult r =>
    simp only [isValid,ActionResult.isValid,Bool.and_eq_true] at valid
    tauto
  | state s => trivial
  | stateFrame f => trivial

theorem length_actionTail (a : ActionState) : (actionTail.bytes (a,0)).length = 76 := by
  simp [actionTail,actionState,assetId,contentId,length_octets]

theorem length_frameBytes (m : CharacterMessage σ φ) : (frameBytes m).length ≤ maximumCharacterFrameBytes := by
  have head : (headerBytes m).length = 8 := by simp [headerBytes,header]
  have body : (bodyBytes m).length ≤ 112 := by
    cases m with
    | control t => simp [bodyBytes,legacyHead,controlBody]
    | input c => simp [bodyBytes,legacyHead,inputBody]
    | actionRequest r => simp [bodyBytes,legacyHead,requestBody]
    | actionResult r =>
      cases action : r.authoritativeAction with
      | none => simp [bodyBytes,resultHead,action]
      | some a =>
        have tail := length_actionTail a
        simp [bodyBytes,resultHead,action,tail]
    | state s => simp [bodyBytes]
    | stateFrame f => simp [bodyBytes]
  rw [frameBytes,length_append,maximumCharacterFrameBytes]
  omega

theorem appends_header (m : CharacterMessage σ φ) (w : GameBinaryWriter) :
    Appends w (header.write w (characterMagic,versionOf m,getCharacterMessageKind m,0)) (headerBytes m) :=
  header.appends w _ ⟨trivial,trivial,trivial,trivial⟩

theorem appends_body (valid : isValid k m) (stateless : m.stateless) (w : GameBinaryWriter) :
    Appends w (writeBody k w m) (bodyBytes m) := by
  have parts := isValid_character valid
  cases m with
  | control t =>
    exact (legacyHead.appends w _ (legacyHead_accepts parts.1 _)).trans (controlBody.appends _ _ ⟨trivial,trivial⟩)
  | input c =>
    exact (legacyHead.appends w _ (legacyHead_accepts parts.1 _)).trans (inputBody.appends _ _ (inputBody_accepts c))
  | actionRequest r =>
    exact (legacyHead.appends w _ (legacyHead_accepts parts.1 _)).trans
      (requestBody.appends _ _ ⟨trivial,trivial,trivial,trivial⟩)
  | actionResult r =>
    refine (resultHead.appends w _ (resultHead_accepts valid)).trans ?_
    cases action : r.authoritativeAction with
    | none =>
      simp only [writeBody,action,map_none,getD_none]
      exact .nothing _
    | some a =>
      have good := actionTail_accepts ((isValid_action valid).2 a action)
      simp only [writeBody,action,map_some,getD_some]
      exact actionTail.appends _ _ good
  | state s => cases stateless
  | stateFrame f => cases stateless

theorem encodeCharacterMessage_ok (valid : isValid k m) (stateless : m.stateless) :
    encodeCharacterMessage k m = .ok (frameBytes m) := by
  have limit : frameLimit m = maximumCharacterFrameBytes := by cases m <;> first | rfl | cases stateless
  have frame := (appends_header m { maximumBytes := frameLimit m }).trans (appends_body valid stateless _)
  have room : (headerBytes m ++ bodyBytes m).length ≤ frameLimit m := by
    rw [limit]
    exact length_frameBytes m
  obtain ⟨ok,bytes,_⟩ := frame.ofRoom rfl (by simpa using room)
  simp only [encodeCharacterMessage,valid,Bool.not_true,Bool.false_eq_true,if_false,succeeded,ok,Bool.not_false]
  rw [bytes,nil_append,frameBytes]

theorem demand_complete (valid : isValid k m) (message : String) :
    demand (([] : List UInt8).isEmpty && isValid k m) .invalidValue message = .ok () := by
  rw [valid]
  rfl

variable {head : ObjectId × CharacterControlEpoch} {kind : UInt8}

theorem decodeLegacy_bytes {body : List UInt8} (length : Nat)
    (short : length ≤ maximumCharacterFrameBytes) (valid : isValid k m)
    (good : head.1.isValid ∧ head.2.isValid) (known : kind ≤ 4)
    (decoded : decodeLegacyBody k kind head body = .ok (m,[])) :
    decodeLegacy k length kind (legacyHead.bytes head ++ body) = .ok m := by
  have first := legacyHead.decode_bytes (legacyHead_accepts good.1 head.2) body
  simp only [decodeLegacy,decide_eq_true short,decide_eq_true known,Bool.and_self,demand_true,except_ok_bind,
    first,good.2,decoded,demand_complete valid]
  rfl

theorem flag_le (b : Bool) : decide ((if b then 1 else 0 : UInt8) ≤ 1) = true := by cases b <;> rfl

theorem flag_ne_zero (b : Bool) : ((if b then 1 else 0 : UInt8) != 0) = b := by cases b <;> rfl

theorem decodeAction_bytes (valid : r.isValid) :
    decodeAction (if r.accepted then 1 else 0) ((r.authoritativeAction.map fun a => actionTail.bytes (a,0)).getD []) =
      .ok (r.authoritativeAction,[]) := by
  obtain ⟨accepted,actions⟩ := isValid_action valid
  cases action : r.authoritativeAction with
  | none =>
    rw [accepted,action]
    rfl
  | some a =>
    have tail := actionTail.decode_bytes (actionTail_accepts (actions a action)) []
    rw [append_nil] at tail
    rw [accepted,action,isSome_some,decodeAction]
    simp only [map_some,getD_some,tail,except_ok_bind,beq_self_eq_true,demand_true]
    rfl

theorem decodeActionResult_bytes (valid : r.isValid) :
    decodeActionResult (bodyBytes (.actionResult r : CharacterMessage σ φ)) = .ok (.actionResult r : CharacterMessage σ φ) := by
  have epoch : r.controlEpoch.isValid := by
    simp only [ActionResult.isValid,Bool.and_eq_true] at valid
    tauto
  have first := resultHead.decode_bytes (resultHead_accepts valid)
    ((r.authoritativeAction.map fun a => actionTail.bytes (a,0)).getD [])
  have whole : ActionResult.isValid ⟨r.character,r.controlEpoch,r.actionSequence,r.requestedActionToken,r.accepted,
    r.authoritativeAction⟩ = true := valid
  simp only [decodeActionResult,bodyBytes,first,except_ok_bind,epoch,flag_le,beq_self_eq_true,Bool.and_self,
    demand_true,decodeAction_bytes valid,flag_ne_zero,whole,isEmpty_nil]
  rfl

theorem decodeLegacyBody_bytes (legacy : versionOf m = legacyCharacterProtocolVersion)
    (stateless : m.stateless) : ∃ head body, bodyBytes m = legacyHead.bytes head ++ body ∧
      (isValid k m → head.1.isValid ∧ head.2.isValid) ∧ getCharacterMessageKind m ≤ 4 ∧
        decodeLegacyBody k (getCharacterMessageKind m) head body = .ok (m,[]) := by
  cases m with
  | control t =>
    refine ⟨(t.character,t.controlEpoch),_,rfl,isValid_character,?_,?_⟩
    · simp only [getCharacterMessageKind]
      split_ifs <;> decide
    have body := controlBody.decode_bytes (x := (t.channel,t.authoritativeTick)) ⟨trivial,trivial⟩ []
    rw [append_nil] at body
    obtain ⟨character,epoch,channel,tick,bound⟩ := t
    cases bound with
    | true =>
      simp only [decodeLegacyBody,getCharacterMessageKind,if_true,decodeControl,body,except_ok_bind]
      rfl
    | false =>
      simp only [decodeLegacyBody,getCharacterMessageKind,Bool.false_eq_true,if_false]
      simp only [decodeControl,body,except_ok_bind]
      rfl
  | input c =>
    refine ⟨(c.character,c.controlEpoch),_,rfl,isValid_character,(by decide : (2 : UInt8) ≤ 4),?_⟩
    have body := inputBody.decode_bytes (inputBody_accepts c) []
    rw [append_nil] at body
    simp only [decodeLegacyBody,getCharacterMessageKind]
    simp only [decodeInput,body,except_ok_bind,beq_self_eq_true,Bool.and_self,demand_true]
    rfl
  | actionRequest r =>
    refine ⟨(r.character,r.controlEpoch),_,rfl,isValid_character,(by decide : (3 : UInt8) ≤ 4),?_⟩
    have body := requestBody.decode_bytes
      (x := (r.actionSequence,r.basedOnInput,r.requestedActionToken,0)) ⟨trivial,trivial,trivial,trivial⟩ []
    rw [append_nil] at body
    simp only [decodeLegacyBody,getCharacterMessageKind]
    simp only [decodeActionRequest,body,except_ok_bind,beq_self_eq_true,demand_true]
    rfl
  | actionResult r => cases legacy
  | state s => cases stateless
  | stateFrame f => cases stateless

theorem decodeCharacterMessage_frameBytes (valid : isValid k m) (stateless : m.stateless) :
    decodeCharacterMessage k (frameBytes m) = .ok m := by
  have short := length_frameBytes m
  have shorter : (frameBytes m).length ≤ maximumCharacterStateFrameBytes := short.trans (by decide)
  have first : header.decode (frameBytes m) =
      .ok ((characterMagic,versionOf m,getCharacterMessageKind m,0),bodyBytes m) :=
    header.decode_bytes ⟨trivial,trivial,trivial,trivial⟩ _
  simp only [decodeCharacterMessage,decide_eq_true shorter,demand_true,except_ok_bind,first,beq_self_eq_true]
  by_cases legacy : versionOf m = legacyCharacterProtocolVersion
  · obtain ⟨head,body,bytes,good,known,decoded⟩ := decodeLegacyBody_bytes legacy stateless
    rw [legacy,bytes]
    exact decodeLegacy_bytes _ short valid (good valid) known decoded
  · cases m with
    | control t => exact absurd rfl legacy
    | input c => exact absurd rfl legacy
    | actionRequest r => exact absurd rfl legacy
    | actionResult r =>
      simp only [versionOf,getCharacterMessageKind,if_true]
      exact decodeActionResult_bytes valid
    | state s => cases stateless
    | stateFrame f => cases stateless

variable {rest : List UInt8}

theorem decodeLegacyBody_ok (decoded : decodeLegacyBody k kind head input = .ok (m,rest)) (stateless : m.stateless) :
    versionOf m = legacyCharacterProtocolVersion ∧ getCharacterMessageKind m = kind ∧
      legacyHead.bytes head ++ input = bodyBytes m ++ rest := by
  unfold decodeLegacyBody at decoded
  split_ifs at decoded with bind unbind move act
  · obtain ⟨⟨x,left⟩,read,last⟩ := except_bind_ok decoded
    cases last
    obtain ⟨_,bytes⟩ := decode_ok read
    exact ⟨rfl,bind.symm,by rw [bytes,bodyBytes,append_assoc]⟩
  · obtain ⟨⟨x,left⟩,read,last⟩ := except_bind_ok decoded
    cases last
    obtain ⟨_,bytes⟩ := decode_ok read
    exact ⟨rfl,unbind.symm,by rw [bytes,bodyBytes,append_assoc]⟩
  · obtain ⟨⟨⟨sequence,tick,delta,moveX,moveY,yaw,flags,tail,reservedTail⟩,left⟩,read,next⟩ :=
      except_bind_ok decoded
    obtain ⟨_,passed,last⟩ := except_bind_ok next
    cases last
    obtain ⟨_,bytes⟩ := decode_ok read
    have zeros := demand_ok passed
    simp only [and_eq_true,beq_iff_eq] at zeros
    rw [zeros.1,zeros.2] at bytes
    exact ⟨rfl,move.symm,by rw [bytes,bodyBytes,append_assoc]⟩
  · obtain ⟨⟨⟨sequence,basedOn,token,reservedTail⟩,left⟩,read,next⟩ := except_bind_ok decoded
    obtain ⟨_,passed,last⟩ := except_bind_ok next
    cases last
    obtain ⟨_,bytes⟩ := decode_ok read
    have zero : reservedTail = 0 := by simpa using demand_ok passed
    rw [zero] at bytes
    exact ⟨rfl,act.symm,by rw [bytes,bodyBytes,append_assoc]⟩
  · obtain ⟨⟨s,left⟩,_,last⟩ := except_bind_ok decoded
    cases last
    cases stateless

theorem decodeLegacy_ok {length : Nat} (decoded : decodeLegacy k length kind input = .ok m) (stateless : m.stateless) :
    isValid k m ∧ versionOf m = legacyCharacterProtocolVersion ∧ getCharacterMessageKind m = kind ∧
      input = bodyBytes m := by
  obtain ⟨_,_,next⟩ := except_bind_ok decoded
  obtain ⟨⟨head,body⟩,read,next⟩ := except_bind_ok next
  obtain ⟨_,_,next⟩ := except_bind_ok next
  obtain ⟨⟨message,rest⟩,inner,next⟩ := except_bind_ok next
  obtain ⟨_,passed,last⟩ := except_bind_ok next
  cases last
  have complete := demand_ok passed
  simp only [and_eq_true,List.isEmpty_iff] at complete
  obtain ⟨rfl,valid⟩ := complete
  obtain ⟨version,same,bytes⟩ := decodeLegacyBody_ok inner stateless
  rw [append_nil] at bytes
  exact ⟨valid,version,same,(decode_ok read).2.trans bytes⟩

theorem decodeAction_ok {accepted : UInt8} {action : Option ActionState}
    (decoded : decodeAction accepted input = .ok (action,rest)) :
    input = (action.map fun a => actionTail.bytes (a,0)).getD [] ++ rest := by
  unfold decodeAction at decoded
  split_ifs at decoded
  · cases decoded
    rfl
  · obtain ⟨⟨⟨a,tail⟩,left⟩,read,next⟩ := except_bind_ok decoded
    obtain ⟨_,passed,last⟩ := except_bind_ok next
    cases last
    have zero : tail = 0 := by simpa using demand_ok passed
    rw [zero] at read
    exact (decode_ok read).2

theorem flag_restored {accepted : UInt8} (small : accepted ≤ 1) : (if accepted != 0 then 1 else 0 : UInt8) = accepted := by
  have value := UInt8.le_iff_toNat_le.mp small
  by_cases zero : accepted = 0
  · rw [zero]
    rfl
  · have one : accepted = 1 := by
      have different : accepted.toNat ≠ 0 := fun h => zero (UInt8.toNat_inj.mp h)
      apply UInt8.toNat_inj.mp
      change accepted.toNat = 1
      change accepted.toNat ≤ 1 at value
      omega
    rw [one]
    rfl

theorem decodeActionResult_ok (decoded : decodeActionResult input = .ok m) :
    ∃ r, m = .actionResult r ∧ r.isValid ∧ input = bodyBytes (.actionResult r : CharacterMessage σ φ) := by
  obtain ⟨⟨⟨character,epoch,sequence,token,accepted,reservedByte,reservedShort⟩,left⟩,read,next⟩ :=
    except_bind_ok decoded
  obtain ⟨_,passed,next⟩ := except_bind_ok next
  obtain ⟨⟨action,rest⟩,inner,next⟩ := except_bind_ok next
  obtain ⟨_,complete,last⟩ := except_bind_ok next
  cases last
  have header := demand_ok passed
  simp only [and_eq_true,decide_eq_true_eq,beq_iff_eq] at header
  obtain ⟨⟨⟨_,small⟩,rfl⟩,rfl⟩ := header
  have whole := demand_ok complete
  simp only [and_eq_true,List.isEmpty_iff] at whole
  obtain ⟨rfl,valid⟩ := whole
  refine ⟨_,rfl,valid,?_⟩
  have tail := decodeAction_ok inner
  rw [append_nil] at tail
  rw [(decode_ok read).2,tail,bodyBytes,flag_restored small]

theorem decodeCharacterMessage_ok {bytes : List UInt8} (decoded : decodeCharacterMessage k bytes = .ok m)
    (stateless : m.stateless) : isValid k m ∧ bytes = frameBytes m := by
  obtain ⟨_,_,next⟩ := except_bind_ok decoded
  obtain ⟨⟨⟨magic,version,kind,reserved⟩,input⟩,read,next⟩ := except_bind_ok next
  obtain ⟨_,magicPassed,next⟩ := except_bind_ok next
  obtain ⟨_,reservedPassed,next⟩ := except_bind_ok next
  have isMagic : magic = characterMagic := by simpa using demand_ok magicPassed
  have isZero : reserved = 0 := by simpa using demand_ok reservedPassed
  have front := (decode_ok read).2
  rw [isMagic,isZero] at front
  split_ifs at next with modern frame result
  · obtain ⟨_,_,last⟩ := except_bind_ok next
    cases last
    cases stateless
  · obtain ⟨r,rfl,valid,body⟩ := decodeActionResult_ok next
    refine ⟨valid,?_⟩
    rw [front,body,modern,result]
    rfl
  · obtain ⟨_,versionPassed,next⟩ := except_bind_ok next
    have legacy : version = legacyCharacterProtocolVersion := by simpa using demand_ok versionPassed
    obtain ⟨valid,sameVersion,sameKind,body⟩ := decodeLegacy_ok next stateless
    refine ⟨valid,?_⟩
    rw [front,body,legacy,← sameVersion,← sameKind]
    rfl

end Gargantuan.CharacterCodec
