import Gargantuan.CanonicalCodec
import Gargantuan.RemoteProtocol

/-!
The two codec directions of remote messages. Whatever the decoder accepts is the
only encoding of its message; a message that was encoded comes back exactly when
its deadline is not negative, for the frame keeps the low 32 bits only.
-/
namespace Gargantuan
open List
open GameBinaryWriter GameBinaryReader

variable {kind : RemoteMessageKind} {m : RemoteMessage} {input rest : List UInt8}

theorem kindIndex_of_kindOf {n : Nat} (found : kindOf n = some kind) : kindIndex kind = n := by
  unfold kindOf at found
  split at found <;> cases found <;> rfl

theorem length_headerBytes (h : RemoteHeader) : (headerBytes h).length = remoteHeaderBytes := by
  simp [headerBytes,remoteHeaderBytes]

theorem encodeRemoteMessage_ok (valid : m.isValid)
    (short : (headerBytes (headerOf m (payloadBytes m).length) ++ payloadBytes m).length ≤ maximumRemoteFrameBytes) :
    encodeRemoteMessage m = .ok (headerBytes (headerOf m (payloadBytes m).length) ++ payloadBytes m) := by
  have payloadRoom : (payloadBytes m).length ≤ maximumRemoteFrameBytes - remoteHeaderBytes := by
    rw [length_append,length_headerBytes] at short
    omega
  obtain ⟨payloadOk,payload,_⟩ := (emits_payload valid).appends.ofRoom rfl (by simpa using payloadRoom)
  rw [nil_append] at payload
  obtain ⟨frameOk,frame,_⟩ := (emits_frame m (payloadBytes m)).appends.ofRoom rfl (by simpa using short)
  rw [nil_append] at frame
  simp only [encodeRemoteMessage,valid,succeeded,payloadOk,payload,frameOk,frame]
  rfl

structure HeaderFits (h : RemoteHeader) : Prop where
  publication : h.publication < 256 ^ 8
  request : h.request < 256 ^ 8
  sequence : h.sequence < 256 ^ 8
  deadline : h.deadline < 256 ^ 4

variable {h : RemoteHeader}

theorem readHeader_ok (accepted : readHeader input = .ok (h,rest)) :
    input = headerBytes h ++ rest ∧ HeaderFits h := by
  obtain ⟨magic,inputVersion,first,next⟩ := bind_ok accepted
  obtain ⟨version,inputKind,second,next⟩ := bind_ok next
  obtain ⟨kind,inputReserved,third,next⟩ := bind_ok next
  obtain ⟨reserved,inputRemote,fourth,next⟩ := bind_ok next
  obtain ⟨remote,inputPublication,fifth,next⟩ := bind_ok next
  obtain ⟨publication,inputRequest,sixth,next⟩ := bind_ok next
  obtain ⟨request,inputSequence,seventh,next⟩ := bind_ok next
  obtain ⟨sequence,inputDeadline,eighth,next⟩ := bind_ok next
  obtain ⟨deadline,inputCount,ninth,next⟩ := bind_ok next
  obtain ⟨argumentCount,inputTail,tenth,next⟩ := bind_ok next
  obtain ⟨reservedTail,inputPayload,eleventh,next⟩ := bind_ok next
  obtain ⟨payloadLength,left,twelfth,last⟩ := bind_ok next
  obtain ⟨rfl,rfl⟩ := pure_ok last
  refine ⟨?_,integer_lt sixth,integer_lt seventh,integer_lt eighth,integer_lt ninth⟩
  rw [consumes_integer _ _ first,consumes_integer _ _ second,consumes_integer _ _ third,
    consumes_integer _ _ fourth,consumes_objectId _ fifth,consumes_integer _ _ sixth,
    consumes_integer _ _ seventh,consumes_integer _ _ eighth,consumes_integer _ _ ninth,
    consumes_integer _ _ tenth,consumes_integer _ _ eleventh,consumes_integer _ _ twelfth]
  simp only [headerBytes,objectIdBytes,append_assoc]

theorem checkHeader_accepts {remaining : Nat} (accepted : checkHeader h remaining = .ok kind) :
    h.magic = remoteMagic ∧ h.version = remoteProtocolVersion.toNat ∧ kindIndex kind = h.kind ∧ h.reserved = 0 ∧
      h.reservedTail = 0 ∧ h.payloadBytes = remaining := by
  unfold checkHeader at accepted
  split at accepted
  · cases accepted
  rename_i magic
  split at accepted
  · cases accepted
  rename_i version
  cases found : kindOf h.kind with
  | none => rw [found] at accepted; cases accepted
  | some read =>
    rw [found] at accepted
    split_ifs at accepted with reserved count payload arguments
    cases accepted
    simp only [Bool.or_eq_true,decide_eq_true_eq,not_or,not_not] at reserved
    exact ⟨not_not.mp magic,not_not.mp version,kindIndex_of_kindOf found,reserved.1,reserved.2,not_not.mp payload⟩

variable {arguments : List WireValue}

theorem readArguments_ok {count : Nat}
    (accepted : readArguments count input = .ok (arguments,rest)) :
    arguments.length = count ∧ input = arguments.flatMap wireBytes ++ rest := by
  induction count generalizing input arguments with
  | zero =>
    obtain ⟨rfl,rfl⟩ := pure_ok accepted
    exact ⟨rfl,rfl⟩
  | succ count ih =>
    obtain ⟨argument,inputRest,first,next⟩ := bind_ok accepted
    obtain ⟨others,left,second,last⟩ := bind_ok next
    obtain ⟨rfl,rfl⟩ := pure_ok last
    obtain ⟨length,bytes⟩ := ih second
    refine ⟨by rw [length_cons,length],?_⟩
    rw [(wireValue_ok first).2,bytes,flatMap_cons,append_assoc]

theorem readError_ok {error : Option StructuredRemoteError} (accepted : readError kind input = .ok (error,rest)) :
    input = errorBytes error ++ rest := by
  unfold readError at accepted
  split_ifs at accepted
  · obtain ⟨code,inputMessage,first,next⟩ := bind_ok accepted
    obtain ⟨message,left,second,last⟩ := bind_ok next
    obtain ⟨rfl,rfl⟩ := pure_ok last
    rw [consumes_string _ _ first,consumes_string _ _ second]
    simp only [errorBytes,stringBytes,append_assoc]
  · obtain ⟨rfl,rfl⟩ := pure_ok accepted
    rfl

theorem readBody_ok (accepted : readBody h kind input = .ok (m,rest)) :
    m = messageOf h kind m.arguments m.error ∧ m.arguments.length = h.argumentCount ∧
      input = payloadBytes m ++ rest := by
  obtain ⟨arguments,inputError,first,next⟩ := bind_ok accepted
  obtain ⟨error,left,second,last⟩ := bind_ok next
  obtain ⟨rfl,rfl⟩ := pure_ok last
  obtain ⟨length,bytes⟩ := readArguments_ok first
  refine ⟨rfl,length,?_⟩
  rw [bytes,readError_ok second,payloadBytes,append_assoc]
  rfl

theorem headerOf_messageOf {kind : RemoteMessageKind} {remaining : Nat}
    {error : Option StructuredRemoteError} (fits : HeaderFits h)
    (checked : checkHeader h remaining = .ok kind) (count : arguments.length = h.argumentCount) :
    headerOf (messageOf h kind arguments error) remaining = h := by
  obtain ⟨magic,version,index,reserved,reservedTail,payload⟩ := checkHeader_accepts checked
  have deadline : ((h.deadline : Int) % 2 ^ 32).toNat = h.deadline := by
    have bound := fits.deadline
    omega
  have publication : h.publication.toUInt64.toNat = h.publication := UInt64.toNat_ofNat_of_lt fits.publication
  have request : h.request.toUInt64.toNat = h.request := UInt64.toNat_ofNat_of_lt fits.request
  have sequence : h.sequence.toUInt64.toNat = h.sequence := UInt64.toNat_ofNat_of_lt fits.sequence
  have versioned : h.version.toUInt16.toNat = h.version := by rw [version]; rfl
  simp only [headerOf,messageOf,MonotonicSequence.toNat,deadline,publication,request,sequence,versioned,index,
    count,← magic,← payload]
  cases h
  simp only at reserved reservedTail ⊢
  rw [reserved,reservedTail]

variable {bytes : List UInt8}

theorem decodeRemoteMessage_ok (decoded : decodeRemoteMessage bytes = .ok m) :
    m.isValid ∧ 0 ≤ m.deadline ∧ bytes.length ≤ maximumRemoteFrameBytes ∧
      bytes = headerBytes (headerOf m (payloadBytes m).length) ++ payloadBytes m := by
  unfold decodeRemoteMessage at decoded
  split_ifs at decoded with long
  cases first : readHeader bytes with
  | error message => rw [first] at decoded; cases decoded
  | ok result =>
    obtain ⟨h,rest⟩ := result
    simp only [first] at decoded
    cases checked : checkHeader h rest.length with
    | error failure => rw [checked] at decoded; cases decoded
    | ok kind =>
      simp only [checked] at decoded
      cases body : readBody h kind rest with
      | error message => rw [body] at decoded; cases decoded
      | ok result =>
        obtain ⟨read,trailing⟩ := result
        simp only [body] at decoded
        split_ifs at decoded with refused
        cases decoded
        simp only [Bool.or_eq_true,Bool.not_eq_true',not_or,Bool.not_eq_false,List.isEmpty_iff] at refused
        obtain ⟨rfl,valid⟩ := refused
        obtain ⟨shape,count,payload⟩ := readBody_ok body
        obtain ⟨header,fits⟩ := readHeader_ok first
        rw [append_nil] at payload
        have same := @headerOf_messageOf _ _ _ _ m.error fits checked count
        rw [← shape,payload] at same
        refine ⟨valid,?_,by omega,?_⟩
        · rw [shape]
          exact Int.natCast_nonneg _
        · rw [header,same,payload]

theorem encodeRemoteMessage_decodeRemoteMessage (decoded : decodeRemoteMessage bytes = .ok m) :
    encodeRemoteMessage m = .ok bytes := by
  obtain ⟨valid,_,short,same⟩ := decodeRemoteMessage_ok decoded
  rw [same] at short ⊢
  exact encodeRemoteMessage_ok valid short

/-- An encoded message is decoded again exactly when its deadline is not negative,
    and accepted bytes are the only encoding of the message they decode to. -/
theorem remote_messages_round_trip (m : RemoteMessage) :
    (∀ bytes, encodeRemoteMessage m = .ok bytes → (decodeRemoteMessage bytes = .ok m ↔ 0 ≤ m.deadline)) ∧
    ∀ bytes, decodeRemoteMessage bytes = .ok m →
      encodeRemoteMessage m = .ok bytes ∧ ∀ other, decodeRemoteMessage other = .ok m → other = bytes := by
  refine ⟨fun bytes encoded => ⟨fun decoded => (decodeRemoteMessage_ok decoded).2.1,
    decodeRemoteMessage_encodeRemoteMessage encoded⟩,fun bytes decoded => ?_⟩
  have encoded := encodeRemoteMessage_decodeRemoteMessage decoded
  refine ⟨encoded,fun other decodedToo => ?_⟩
  have encodedToo := encodeRemoteMessage_decodeRemoteMessage decodedToo
  rw [encoded] at encodedToo
  exact (Except.ok.inj encodedToo).symm

def firedEvent : RemoteMessage where
  remote := ⟨1,1⟩
  arguments := [.boolean true]

def firedEventBytes : List UInt8 := headerBytes (headerOf firedEvent 2) ++ [1,1]

theorem firedEvent_round_trip : encodeRemoteMessage firedEvent = .ok firedEventBytes ∧
    decodeRemoteMessage firedEventBytes = .ok firedEvent ∧
      ∀ other, decodeRemoteMessage other = .ok firedEvent → other = firedEventBytes := by
  have encoded : encodeRemoteMessage firedEvent = .ok firedEventBytes := by decide
  have decoded := ((remote_messages_round_trip firedEvent).1 _ encoded).mpr (by decide)
  exact ⟨encoded,decoded,((remote_messages_round_trip firedEvent).2 _ decoded).2⟩

def lateEvent : RemoteMessage where
  remote := ⟨1,1⟩
  deadline := -1

theorem lateEvent_is_refused : ¬ ∀ m bytes, encodeRemoteMessage m = .ok bytes → decodeRemoteMessage bytes = .ok m := by
  intro claimed
  have encoded : encodeRemoteMessage lateEvent = .ok (headerBytes (headerOf lateEvent 0)) := by decide
  have refused : decodeRemoteMessage (headerBytes (headerOf lateEvent 0)) =
      .error ⟨.invalidValue,"Remote frame contains trailing or invalid data"⟩ := by rfl
  rw [claimed _ _ encoded] at refused
  cases refused

end Gargantuan
