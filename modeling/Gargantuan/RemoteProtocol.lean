import Gargantuan.BinaryCodec

/-!
Remote messages: their kinds, the rules a message keeps, and the version 2 frame
with its fixed header. The frame round trip is what lets two managers that are
joined by a byte channel be read as exchanging messages.
-/
namespace Gargantuan
open List Bool
open GameBinaryWriter GameBinaryReader

def remoteProtocolVersion : UInt16 := 2
def maximumRemoteFrameBytes : Nat := 256 * 1024
def maximumRemoteStringBytes : Nat := 16 * 1024
def maximumRemoteArguments : Nat := 32
def maximumRemoteErrorCodeBytes : Nat := 128
def maximumRemoteErrorMessageBytes : Nat := 1024
/-- Deadlines are in milliseconds. -/
def maximumRemoteRequestDeadline : Int := 30000

inductive RemoteInstanceKind where
  | reliableEvent | unreliableEvent | unreliableSequencedEvent | function
deriving DecidableEq, Repr

inductive RemoteMessageKind where
  | reliableEvent | unreliableEvent | sequencedEvent | request | response | requestError | cancellation
deriving DecidableEq, Repr

structure StructuredRemoteError where
  code : ByteString
  message : ByteString
deriving DecidableEq

def StructuredRemoteError.isValid (error : StructuredRemoteError) : Bool :=
  (validateProtocolString error.code 128 "Remote error code").isOk &&
    (validateProtocolString error.message 4096 "Remote error message").isOk && !error.code.isEmpty

structure RemoteMessage where
  version : UInt16 := remoteProtocolVersion
  kind : RemoteMessageKind := .reliableEvent
  remote : ObjectId := {}
  publication : RemotePublicationId := ⟨1⟩
  request : RemoteRequestId := {}
  sequence : RemoteEventSequence := {}
  deadline : Int := 0
  arguments : List WireValue := []
  error : Option StructuredRemoteError := none
deriving DecidableEq

def hasRequest : RemoteMessageKind → Bool
  | .request | .response | .requestError | .cancellation => true
  | _ => false

def isRemoteMessageKindCompatible (message : RemoteMessageKind) : RemoteInstanceKind → Bool
  | .reliableEvent => message == .reliableEvent
  | .unreliableEvent => message == .unreliableEvent
  | .unreliableSequencedEvent => message == .sequencedEvent
  | .function => hasRequest message

def argumentValid (argument : WireValue) : Bool :=
  argument.isValid && match argument with
    | .string s => s.length ≤ maximumRemoteStringBytes
    | _ => true

def errorValid (error : StructuredRemoteError) : Bool :=
  error.isValid && error.code.length ≤ maximumRemoteErrorCodeBytes &&
    error.message.length ≤ maximumRemoteErrorMessageBytes

def RemoteMessage.isValid (m : RemoteMessage) : Bool :=
  m.version == remoteProtocolVersion && m.remote.isValid && m.publication.isValid &&
    decide (m.arguments.length ≤ maximumRemoteArguments) &&
    m.request.isValid == hasRequest m.kind &&
    m.sequence.isValid == (m.kind == .sequencedEvent) &&
    (m.kind == .request) == decide (m.deadline > 0) &&
    decide (m.deadline ≤ maximumRemoteRequestDeadline) &&
    (m.kind == .requestError) == m.error.isSome &&
    m.error.all errorValid &&
    !((m.kind == .requestError || m.kind == .cancellation) && !m.arguments.isEmpty) &&
    m.arguments.all argumentValid

inductive SerializationErrorCode where
  | invalidSyntax | unsupportedVersion | limitExceeded | invalidValue | truncatedInput | invalidType
deriving DecidableEq, Repr

structure SerializationError where
  code : SerializationErrorCode
  message : String
deriving DecidableEq, Repr

def remoteMagic : Nat := 0x544d5247
def remoteHeaderBytes : Nat := 52
def minimumRemoteArgumentBytes : Nat := 1

def kindIndex : RemoteMessageKind → Nat
  | .reliableEvent => 0
  | .unreliableEvent => 1
  | .sequencedEvent => 2
  | .request => 3
  | .response => 4
  | .requestError => 5
  | .cancellation => 6

def kindOf : Nat → Option RemoteMessageKind
  | 0 => some .reliableEvent
  | 1 => some .unreliableEvent
  | 2 => some .sequencedEvent
  | 3 => some .request
  | 4 => some .response
  | 5 => some .requestError
  | 6 => some .cancellation
  | _ => none

def writePayload (m : RemoteMessage) : GameBinaryWriter :=
  let payload : GameBinaryWriter := { maximumBytes := maximumRemoteFrameBytes - remoteHeaderBytes }
  let payload := m.arguments.foldl GameBinaryWriter.wireValue payload
  match m.error with
  | some error => (payload.string error.code).string error.message
  | none => payload

def writeFrame (m : RemoteMessage) (payload : List UInt8) : GameBinaryWriter :=
  let output : GameBinaryWriter := { maximumBytes := maximumRemoteFrameBytes }
  let output := (((output.integer 4 remoteMagic).integer 2 m.version.toNat).integer 1 (kindIndex m.kind)).integer 1 0
  let output := output.objectId m.remote
  let output := ((output.integer 8 m.publication.toNat).integer 8 m.request.toNat).integer 8 m.sequence.toNat
  let output := ((output.integer 4 (m.deadline % 2 ^ 32).toNat).integer 2 m.arguments.length).integer 2 0
  (output.integer 4 payload.length).append payload

def encodeRemoteMessage (m : RemoteMessage) : Except SerializationError (List UInt8) :=
  if !m.isValid then .error ⟨.invalidValue,"Remote message is invalid"⟩
  else
    let payload := writePayload m
    if !payload.succeeded then .error ⟨.limitExceeded,"Remote payload exceeds its byte limit"⟩
    else
      let output := writeFrame m payload.bytes
      if !output.succeeded then .error ⟨.limitExceeded,"Remote frame exceeds its byte limit"⟩
      else .ok output.bytes

def frameContext : String := "Remote frame"

/-- The fixed fields of a frame as they are read. -/
structure RemoteHeader where
  magic : Nat
  version : Nat
  kind : Nat
  reserved : Nat
  remote : ObjectId
  publication : Nat
  request : Nat
  sequence : Nat
  deadline : Nat
  argumentCount : Nat
  reservedTail : Nat
  payloadBytes : Nat

def readHeader : GameBinaryReader RemoteHeader := do
  let magic ← GameBinaryReader.integer frameContext 4
  let version ← GameBinaryReader.integer frameContext 2
  let kind ← GameBinaryReader.integer frameContext 1
  let reserved ← GameBinaryReader.integer frameContext 1
  let remote ← GameBinaryReader.objectId frameContext
  let publication ← GameBinaryReader.integer frameContext 8
  let request ← GameBinaryReader.integer frameContext 8
  let sequence ← GameBinaryReader.integer frameContext 8
  let deadline ← GameBinaryReader.integer frameContext 4
  let argumentCount ← GameBinaryReader.integer frameContext 2
  let reservedTail ← GameBinaryReader.integer frameContext 2
  let payloadBytes ← GameBinaryReader.integer frameContext 4
  return ⟨magic,version,kind,reserved,remote,publication,request,sequence,deadline,argumentCount,
    reservedTail,payloadBytes⟩

def checkHeader (h : RemoteHeader) (remaining : Nat) : Except SerializationError RemoteMessageKind :=
  if h.magic ≠ remoteMagic then .error ⟨.invalidSyntax,"Remote frame magic is invalid"⟩
  else if h.version ≠ remoteProtocolVersion.toNat then
    .error ⟨.unsupportedVersion,"Remote protocol version is unsupported"⟩
  else match kindOf h.kind with
    | none => .error ⟨.invalidValue,"Remote frame header is invalid"⟩
    | some kind =>
      if h.reserved ≠ 0 || h.reservedTail ≠ 0 then .error ⟨.invalidValue,"Remote frame header is invalid"⟩
      else if h.argumentCount > maximumRemoteArguments then
        .error ⟨.limitExceeded,"Remote argument count exceeds its limit"⟩
      else if h.payloadBytes ≠ remaining then
        .error ⟨.truncatedInput,"Remote payload length does not match the frame"⟩
      else if h.argumentCount > remaining / minimumRemoteArgumentBytes then
        .error ⟨.truncatedInput,"Remote arguments cannot fit in the payload"⟩
      else .ok kind

def readArguments : Nat → GameBinaryReader (List WireValue)
  | 0 => return []
  | count + 1 => do
    let argument ← GameBinaryReader.wireValue frameContext maximumRemoteStringBytes
    let rest ← readArguments count
    return argument :: rest

def readError (kind : RemoteMessageKind) : GameBinaryReader (Option StructuredRemoteError) :=
  if kind == .requestError then do
    let code ← GameBinaryReader.string frameContext maximumRemoteErrorCodeBytes
    let message ← GameBinaryReader.string frameContext maximumRemoteErrorMessageBytes
    return some ⟨code,message⟩
  else return none

def messageOf (h : RemoteHeader) (kind : RemoteMessageKind) (arguments : List WireValue)
    (error : Option StructuredRemoteError) : RemoteMessage where
  version := h.version.toUInt16
  kind := kind
  remote := h.remote
  publication := ⟨h.publication.toUInt64⟩
  request := ⟨h.request.toUInt64⟩
  sequence := ⟨h.sequence.toUInt64⟩
  deadline := h.deadline
  arguments := arguments
  error := error

def readBody (h : RemoteHeader) (kind : RemoteMessageKind) : GameBinaryReader RemoteMessage := do
  let arguments ← readArguments h.argumentCount
  let error ← readError kind
  return messageOf h kind arguments error

def decodeRemoteMessage (bytes : List UInt8) : Except SerializationError RemoteMessage :=
  if bytes.length > maximumRemoteFrameBytes then .error ⟨.limitExceeded,"Remote frame exceeds its byte limit"⟩
  else match readHeader bytes with
    | .error message => .error ⟨.truncatedInput,message⟩
    | .ok (header,rest) =>
      match checkHeader header rest.length with
      | .error error => .error error
      | .ok kind =>
        match readBody header kind rest with
        | .error message => .error ⟨.invalidValue,message⟩
        | .ok (message,trailing) =>
          if !trailing.isEmpty || !message.isValid then
            .error ⟨.invalidValue,"Remote frame contains trailing or invalid data"⟩
          else .ok message

def errorBytes : Option StructuredRemoteError → List UInt8
  | some error => (littleEndian 4 error.code.length ++ error.code) ++
      (littleEndian 4 error.message.length ++ error.message)
  | none => []

def payloadBytes (m : RemoteMessage) : List UInt8 := m.arguments.flatMap wireBytes ++ errorBytes m.error

variable {m : RemoteMessage}

theorem isValid_parts (valid : m.isValid) :
    m.version = remoteProtocolVersion ∧ m.remote.isValid ∧ m.arguments.length ≤ maximumRemoteArguments ∧
      m.deadline ≤ maximumRemoteRequestDeadline ∧ (m.kind == .requestError) = m.error.isSome ∧
      (∀ error ∈ m.error, errorValid error) ∧ ∀ argument ∈ m.arguments, argumentValid argument := by
  simp only [RemoteMessage.isValid,and_eq_true,beq_iff_eq,decide_eq_true_eq,all_eq_true,
    Option.all_eq_true] at valid
  obtain ⟨⟨⟨⟨⟨⟨⟨⟨⟨⟨⟨version,remote⟩,_⟩,count⟩,_⟩,_⟩,_⟩,deadline⟩,kind⟩,error⟩,_⟩,arguments⟩ := valid
  exact ⟨version,remote,count,deadline,kind,error,arguments⟩

theorem errorValid_parts {error : StructuredRemoteError} (valid : errorValid error) :
    error.code.length ≤ maximumRemoteErrorCodeBytes ∧ isValidProtocolUtf8 error.code ∧
      error.message.length ≤ maximumRemoteErrorMessageBytes ∧ isValidProtocolUtf8 error.message := by
  simp only [errorValid,StructuredRemoteError.isValid,and_eq_true,decide_eq_true_eq] at valid
  obtain ⟨⟨⟨⟨code,message⟩,_⟩,codeShort⟩,messageShort⟩ := valid
  have codeOk : validateProtocolString error.code 128 "Remote error code" = .ok () := by
    cases h : validateProtocolString error.code 128 "Remote error code" with
    | error _ => rw [h] at code; cases code
    | ok _ => rfl
  have messageOk : validateProtocolString error.message 4096 "Remote error message" = .ok () := by
    cases h : validateProtocolString error.message 4096 "Remote error message" with
    | error _ => rw [h] at message; cases message
    | ok _ => rfl
  exact ⟨codeShort,(validateProtocolString_ok codeOk).2,messageShort,(validateProtocolString_ok messageOk).2⟩

theorem argumentValid_parts {argument : WireValue} (valid : argumentValid argument) :
    argument.isValid ∧ StringsWithin maximumRemoteStringBytes argument := by
  simp only [argumentValid,and_eq_true] at valid
  refine ⟨valid.1,?_⟩
  cases argument <;> simp_all [StringsWithin]

variable {arguments : List WireValue}

theorem emits_arguments (w : GameBinaryWriter) (valid : ∀ argument ∈ arguments, argumentValid argument) :
    Emits w (arguments.foldl GameBinaryWriter.wireValue w) (arguments.flatMap wireBytes) := by
  induction arguments generalizing w with
  | nil => exact .nothing w
  | cons argument rest ih =>
    have head := emits_wireValue w (argumentValid_parts (valid argument (by simp))).1
    exact head.trans (ih _ fun other member => valid other (.tail _ member))

private theorem reads_arguments (valid : ∀ argument ∈ arguments, argumentValid argument) :
    Reads (readArguments arguments.length) (arguments.flatMap wireBytes) arguments := by
  induction arguments with
  | nil => exact reads_pure _
  | cons argument rest ih =>
    obtain ⟨checked,strings⟩ := argumentValid_parts (valid argument (by simp))
    have head := reads_wireValue frameContext checked strings (by decide)
    exact head.bind ((ih fun other member => valid other (.tail _ member)).map _)

theorem emits_payload (valid : m.isValid) :
    Emits { maximumBytes := maximumRemoteFrameBytes - remoteHeaderBytes } (writePayload m) (payloadBytes m) := by
  obtain ⟨_,_,_,_,_,errors,arguments⟩ := isValid_parts valid
  have start := emits_arguments { maximumBytes := maximumRemoteFrameBytes - remoteHeaderBytes } arguments
  cases present : m.error with
  | none =>
    simp only [writePayload,payloadBytes,present,errorBytes]
    simpa using start
  | some error =>
    obtain ⟨codeShort,_,messageShort,_⟩ := errorValid_parts (errors error (by simp [present]))
    simp only [writePayload,payloadBytes,present,errorBytes]
    refine start.trans ?_
    exact (emits_string _ (codeShort.trans (by decide))).trans (emits_string _ (messageShort.trans (by decide)))

private theorem reads_error (valid : m.isValid) : Reads (readError m.kind) (errorBytes m.error) m.error := by
  obtain ⟨_,_,_,_,kind,errors,_⟩ := isValid_parts valid
  cases present : m.error with
  | none =>
    rw [readError,if_neg (by rw [kind,present]; decide)]
    exact reads_pure _
  | some error =>
    obtain ⟨codeShort,codeUtf8,messageShort,messageUtf8⟩ := errorValid_parts (errors error (by simp [present]))
    rw [readError,if_pos (by rw [kind,present]; rfl)]
    exact (reads_string frameContext codeShort (by decide) codeUtf8).bind
      ((reads_string frameContext messageShort (by decide) messageUtf8).map _)

/-- The fixed fields a frame of the message starts with. -/
def headerOf (m : RemoteMessage) (payload : Nat) : RemoteHeader where
  magic := remoteMagic
  version := m.version.toNat
  kind := kindIndex m.kind
  reserved := 0
  remote := m.remote
  publication := m.publication.toNat
  request := m.request.toNat
  sequence := m.sequence.toNat
  deadline := (m.deadline % 2 ^ 32).toNat
  argumentCount := m.arguments.length
  reservedTail := 0
  payloadBytes := payload

def headerBytes (h : RemoteHeader) : List UInt8 :=
  littleEndian 4 h.magic ++ (littleEndian 2 h.version ++ (littleEndian 1 h.kind ++ (littleEndian 1 h.reserved ++
    ((littleEndian 4 h.remote.slot.toNat ++ littleEndian 4 h.remote.generation.toNat) ++
      (littleEndian 8 h.publication ++ (littleEndian 8 h.request ++ (littleEndian 8 h.sequence ++
        (littleEndian 4 h.deadline ++ (littleEndian 2 h.argumentCount ++ (littleEndian 2 h.reservedTail ++
          littleEndian 4 h.payloadBytes))))))))))

theorem emits_frame (m : RemoteMessage) (payload : List UInt8) :
    Emits { maximumBytes := maximumRemoteFrameBytes } (writeFrame m payload)
      (headerBytes (headerOf m payload.length) ++ payload) := by
  refine .trans ?_ (emits_append _ _)
  exact (emits_integer _ 4 _).trans ((emits_integer _ 2 _).trans ((emits_integer _ 1 _).trans
    ((emits_integer _ 1 _).trans (((emits_integer _ 4 _).trans (emits_integer _ 4 _)).trans
      ((emits_integer _ 8 _).trans ((emits_integer _ 8 _).trans ((emits_integer _ 8 _).trans
        ((emits_integer _ 4 _).trans ((emits_integer _ 2 _).trans ((emits_integer _ 2 _).trans
          (emits_integer _ 4 _)))))))))))

private theorem reads_header {m : RemoteMessage} {payload : Nat} (valid : m.isValid)
    (fits : payload < 256 ^ 4) : Reads readHeader (headerBytes (headerOf m payload)) (headerOf m payload) := by
  obtain ⟨_,remote,count,_,_,_,_⟩ := isValid_parts valid
  have countFits : m.arguments.length < 256 ^ 2 := lt_of_le_of_lt count (by decide)
  have deadlineFits : (m.deadline % 2 ^ 32).toNat < 256 ^ 4 := by omega
  have kindFits : kindIndex m.kind < 256 ^ 1 := by cases m.kind <;> decide
  exact (reads_integer _ (by decide : remoteMagic < 256 ^ 4)).bind
    ((reads_integer _ m.version.toNat_lt).bind ((reads_integer _ kindFits).bind
      ((reads_integer _ (by decide : 0 < 256 ^ 1)).bind ((reads_objectId _ remote).bind
        ((reads_integer _ m.publication.value.toNat_lt).bind ((reads_integer _ m.request.value.toNat_lt).bind
          ((reads_integer _ m.sequence.value.toNat_lt).bind ((reads_integer _ deadlineFits).bind
            ((reads_integer _ countFits).bind ((reads_integer _ (by decide : 0 < 256 ^ 2)).bind
              ((reads_integer _ fits).map _)))))))))))

private theorem kindOf_kindIndex (kind : RemoteMessageKind) : kindOf (kindIndex kind) = some kind := by
  cases kind <;> rfl

private theorem length_wireBytes_pos (value : WireValue) : 0 < (wireBytes value).length := by
  rw [wireBytes,length_append,length_littleEndian]
  omega

private theorem length_le_flatMap_wireBytes (arguments : List WireValue) :
    arguments.length ≤ (arguments.flatMap wireBytes).length := by
  induction arguments with
  | nil => simp
  | cons argument rest ih =>
    have positive := length_wireBytes_pos argument
    simp only [length_cons,flatMap_cons,length_append]
    omega

private theorem checkHeader_ok (valid : m.isValid) :
    checkHeader (headerOf m (payloadBytes m).length) (payloadBytes m).length = .ok m.kind := by
  obtain ⟨version,_,count,_,_,_,_⟩ := isValid_parts valid
  have cannotFit : ¬ m.arguments.length > (payloadBytes m).length / minimumRemoteArgumentBytes := by
    have below := length_le_flatMap_wireBytes m.arguments
    simp only [payloadBytes,length_append,minimumRemoteArgumentBytes,Nat.div_one]
    omega
  simp only [checkHeader,headerOf,version,kindOf_kindIndex]
  simp only [ne_eq,not_true_eq_false,decide_false,Bool.or_self,Bool.false_eq_true,if_false]
  rw [if_neg (by omega),if_neg cannotFit]

private theorem messageOf_headerOf (valid : m.isValid) (nonnegative : 0 ≤ m.deadline) (payload : Nat) :
    messageOf (headerOf m payload) m.kind m.arguments m.error = m := by
  obtain ⟨_,_,_,deadline,_,_,_⟩ := isValid_parts valid
  have same : ((m.deadline % 2 ^ 32).toNat : Int) = m.deadline := by
    simp only [maximumRemoteRequestDeadline] at deadline
    omega
  simp only [messageOf,headerOf,same]
  simp [MonotonicSequence.toNat]

private theorem reads_body (valid : m.isValid) (nonnegative : 0 ≤ m.deadline) (payload : Nat) :
    Reads (readBody (headerOf m payload) m.kind) (payloadBytes m) m := by
  obtain ⟨_,_,_,_,_,_,arguments⟩ := isValid_parts valid
  refine (reads_arguments arguments).bind ((reads_error valid).last ?_)
  rw [messageOf_headerOf valid nonnegative]
  exact reads_pure m

theorem decodeRemoteMessage_encodeRemoteMessage {bytes : List UInt8} (encoded : encodeRemoteMessage m = .ok bytes)
    (nonnegative : 0 ≤ m.deadline) : decodeRemoteMessage bytes = .ok m := by
  simp only [encodeRemoteMessage,succeeded,Bool.not_not] at encoded
  split at encoded
  · simp at encoded
  rename_i invalid
  split at encoded
  · simp at encoded
  rename_i payloadFailed
  split at encoded
  · simp at encoded
  rename_i frameFailed
  obtain rfl := Except.ok.inj encoded
  have valid : m.isValid := by simpa using invalid
  have payloadOk : (writePayload m).failed = false := by simpa using payloadFailed
  have frameOk : (writeFrame m (writePayload m).bytes).failed = false := by simpa using frameFailed
  have payload : (writePayload m).bytes = payloadBytes m := by
    simpa using ((emits_payload valid).writes.ofSucceeded payloadOk).2
  rw [payload] at frameOk ⊢
  have short : (writeFrame m (payloadBytes m)).bytes.length ≤ maximumRemoteFrameBytes := by
    simpa [writeFrame,GameBinaryWriter.integer,GameBinaryWriter.objectId] using length_append_le frameOk
  have frame : (writeFrame m (payloadBytes m)).bytes =
      headerBytes (headerOf m (payloadBytes m).length) ++ payloadBytes m := by
    simpa using ((emits_frame m (payloadBytes m)).writes.ofSucceeded frameOk).2
  have payloadFits : (payloadBytes m).length < 256 ^ 4 := by
    rw [frame,length_append] at short
    exact lt_of_le_of_lt ((Nat.le_add_left _ _).trans short) (by decide)
  rw [frame] at short ⊢
  have body := reads_body valid nonnegative (payloadBytes m).length []
  rw [append_nil] at body
  simp only [decodeRemoteMessage,if_neg (not_lt.mpr short),reads_header valid payloadFits (payloadBytes m),
    checkHeader_ok valid,body,valid]
  rfl

end Gargantuan
