import FusionMultiNodes.Lib.JsonLaws
import FusionMultiNodes.Lib.Base64

/-! The three-layer protocol messages, encoded by protobuf, by msgpack or as JSON text, whichever
is installed. -/
namespace FusionMultiNodes
namespace Proto

open Json

inductive PayloadType where
  | heartbeat
  | register
  | taskAssign
  | taskResult
  | taskCancel
  | kvTransfer
  | kvLookup
  | faultReport
  | chatCompletion
  | embedding
  | control
  | ack
  | nack
  | election
  | electionVote
  | stateSync
  | approvalRequest
  | approvalResponse
  | degradeTask
  | cloudFallback
  | dataSync
  deriving DecidableEq

namespace PayloadType

def value : PayloadType → ℤ
  | heartbeat => 0
  | register => 1
  | taskAssign => 2
  | taskResult => 3
  | taskCancel => 4
  | kvTransfer => 5
  | kvLookup => 6
  | faultReport => 7
  | chatCompletion => 8
  | embedding => 9
  | control => 10
  | ack => 11
  | nack => 12
  | election => 13
  | electionVote => 14
  | stateSync => 15
  | approvalRequest => 16
  | approvalResponse => 17
  | degradeTask => 18
  | cloudFallback => 19
  | dataSync => 24

def members : List PayloadType :=
  [heartbeat,register,taskAssign,taskResult,taskCancel,kvTransfer,kvLookup,faultReport,
    chatCompletion,embedding,control,ack,nack,election,electionVote,stateSync,approvalRequest,
    approvalResponse,degradeTask,cloudFallback,dataSync]

def ofValue (v : ℤ) : Option PayloadType := members.find? fun t => decide (t.value = v)

@[simp] theorem ofValue_value (t : PayloadType) : ofValue t.value = some t := by
  cases t <;> rfl

end PayloadType

inductive ControlCode where
  | heartbeat
  | ack
  | nack
  | flowControl
  | disconnect
  | electionStart
  | electionVote
  | stateSyncReq
  | stateSyncResp
  deriving DecidableEq

namespace ControlCode

def value : ControlCode → ℤ
  | heartbeat => 0
  | ack => 1
  | nack => 2
  | flowControl => 3
  | disconnect => 4
  | electionStart => 5
  | electionVote => 6
  | stateSyncReq => 7
  | stateSyncResp => 8

def members : List ControlCode :=
  [heartbeat,ack,nack,flowControl,disconnect,electionStart,electionVote,stateSyncReq,stateSyncResp]

def ofValue (v : ℤ) : Option ControlCode := members.find? fun t => decide (t.value = v)

@[simp] theorem ofValue_value (t : ControlCode) : ofValue t.value = some t := by
  cases t <;> rfl

end ControlCode

/-- What `uuid4` and the clock give a new message. -/
structure Fresh where
  messageId : String
  now : Decimal
  identified : messageId ≠ ""
  running : now.isZero = false

/-- `__post_init__` leaves no envelope without an id or a time. -/
structure FMPEnvelope where
  sourceId : String
  targetId : String
  hopCount : ℤ
  maxHops : ℤ
  trace : List String
  messageId : String
  timestamp : Decimal
  sequence : ℤ
  identified : messageId ≠ ""
  stamped : timestamp.isZero = false
  deriving DecidableEq

structure FMPControl where
  code : ControlCode
  sequence : ℤ
  timestamp : Decimal
  ackSeq : ℤ
  flowWindow : ℤ
  reason : String
  stamped : timestamp.isZero = false
  deriving DecidableEq

structure FMPPayload where
  payloadType : PayloadType
  data : Bytes
  roundId : String
  roundNumber : ℤ
  maxRounds : ℤ
  compressed : Bool
  deriving DecidableEq

structure FMPProtoMessage where
  envelope : FMPEnvelope
  control : FMPControl
  payload : FMPPayload
  encrypted : Bool
  deriving DecidableEq

namespace FMPEnvelope

/-- The constructor, with `__post_init__`. -/
def make (fresh : Fresh) (sourceId targetId : String) (hopCount maxHops : ℤ) (trace : List String)
    (messageId : String) (timestamp : Decimal) (sequence : ℤ) : FMPEnvelope where
  sourceId := sourceId
  targetId := targetId
  hopCount := hopCount
  maxHops := maxHops
  trace := trace
  messageId := if messageId = "" then fresh.messageId else messageId
  timestamp := if timestamp.isZero then fresh.now else timestamp
  sequence := sequence
  identified := by
    split_ifs with h
    · exact fresh.identified
    · exact h
  stamped := by
    split_ifs with h
    · exact fresh.running
    · exact Bool.eq_false_iff.mpr h

def toDict (e : FMPEnvelope) : Json :=
  .obj [("source_id",.str e.sourceId),("target_id",.str e.targetId),("hop_count",.int e.hopCount),
    ("max_hops",.int e.maxHops),("trace",.arr (e.trace.map .str)),("message_id",.str e.messageId),
    ("timestamp",.float e.timestamp),("sequence",.int e.sequence)]

/-- `from_dict`; `none` where a member is missing or not of its declared type. -/
def fromDict (fresh : Fresh) (d : Json) : Option FMPEnvelope := do
  let sourceId ← d.required asStr "source_id"
  let targetId ← d.required asStr "target_id"
  let hopCount ← d.optional asInt "hop_count" 0
  let maxHops ← d.optional asInt "max_hops" 3
  let trace ← d.optional asArr "trace" []
  let trace ← trace.mapM asStr
  let messageId ← d.optional asStr "message_id" ""
  let timestamp ← d.optional asFloat "timestamp" (.ofNat 0)
  let sequence ← d.optional asInt "sequence" 0
  return make fresh sourceId targetId hopCount maxHops trace messageId timestamp sequence

theorem make_self (fresh : Fresh) (e : FMPEnvelope) :
    make fresh e.sourceId e.targetId e.hopCount e.maxHops e.trace e.messageId e.timestamp
      e.sequence = e := by
  simp [make,e.identified,e.stamped]

theorem mapM_asStr (l : List String) : l.mapM (asStr ∘ Json.str) = some l := by
  induction l with
  | nil => rfl
  | cons s l ih => rw [List.mapM_cons,ih]; rfl

@[simp] theorem fromDict_toDict (fresh : Fresh) (e : FMPEnvelope) :
    fromDict fresh e.toDict = some e := by
  simp [fromDict,toDict,Json.required,Json.optional,Json.get?,asStr,asInt,asArr,asFloat,
    mapM_asStr,make_self]

end FMPEnvelope

namespace FMPControl

/-- The constructor, with `__post_init__`. -/
def make (fresh : Fresh) (code : ControlCode) (sequence : ℤ) (timestamp : Decimal)
    (ackSeq flowWindow : ℤ) (reason : String) : FMPControl where
  code := code
  sequence := sequence
  timestamp := if timestamp.isZero then fresh.now else timestamp
  ackSeq := ackSeq
  flowWindow := flowWindow
  reason := reason
  stamped := by
    split_ifs with h
    · exact fresh.running
    · exact Bool.eq_false_iff.mpr h

def toDict (c : FMPControl) : Json :=
  .obj [("code",.int c.code.value),("sequence",.int c.sequence),("timestamp",.float c.timestamp),
    ("ack_seq",.int c.ackSeq),("flow_window",.int c.flowWindow),("reason",.str c.reason)]

def fromDict (fresh : Fresh) (d : Json) : Option FMPControl := do
  let value ← d.required asInt "code"
  let code ← ControlCode.ofValue value
  let sequence ← d.optional asInt "sequence" 0
  let timestamp ← d.optional asFloat "timestamp" (.ofNat 0)
  let ackSeq ← d.optional asInt "ack_seq" 0
  let flowWindow ← d.optional asInt "flow_window" 64
  let reason ← d.optional asStr "reason" ""
  return make fresh code sequence timestamp ackSeq flowWindow reason

@[simp] theorem fromDict_toDict (fresh : Fresh) (c : FMPControl) :
    fromDict fresh c.toDict = some c := by
  simp [fromDict,toDict,Json.required,Json.optional,Json.get?,asStr,asInt,asFloat,make,c.stamped]

end FMPControl

namespace FMPPayload

/-- The dictionary with the text that stands for the data. -/
def dictWith (p : FMPPayload) (text : List Char) : Json :=
  .obj [("payload_type",.int p.payloadType.value),("data",.str (String.ofList text)),
    ("round_id",.str p.roundId),("round_number",.int p.roundNumber),
    ("max_rounds",.int p.maxRounds),("compressed",.bool p.compressed)]

def toDict (p : FMPPayload) : Json := p.dictWith (Base64.encode p.data)

def fromDict (d : Json) : Option FMPPayload := do
  let raw ← d.required asStr "data"
  let data ← Base64.decode raw.toList
  let value ← d.required asInt "payload_type"
  let payloadType ← PayloadType.ofValue value
  let roundId ← d.optional asStr "round_id" ""
  let roundNumber ← d.optional asInt "round_number" 0
  let maxRounds ← d.optional asInt "max_rounds" 10
  let compressed ← d.optional asBool "compressed" false
  return ⟨payloadType,data,roundId,roundNumber,maxRounds,compressed⟩

@[simp] theorem fromDict_toDict (p : FMPPayload) : fromDict p.toDict = some p := by
  simp [fromDict,toDict,dictWith,Json.required,Json.optional,Json.get?,asStr,asInt,asBool]

end FMPPayload

namespace FMPProtoMessage

def toDict (m : FMPProtoMessage) : Json :=
  .obj [("envelope",m.envelope.toDict),("control",m.control.toDict),
    ("payload",m.payload.toDict),("encrypted",.bool m.encrypted)]

/-- `d["encrypted"] = encrypted`, then `from_dict`. -/
def fromDict (fresh : Fresh) (d : Json) (encrypted : Bool) : Option FMPProtoMessage := do
  let envelope ← d.required some "envelope"
  let control ← d.required some "control"
  let payload ← d.required some "payload"
  return ⟨← FMPEnvelope.fromDict fresh envelope,← FMPControl.fromDict fresh control,
    ← FMPPayload.fromDict payload,encrypted⟩

theorem fromDict_toDict (fresh : Fresh) (m : FMPProtoMessage) :
    fromDict fresh m.toDict m.encrypted = some m := by
  simp [fromDict,toDict,Json.required,Json.get?]

end FMPProtoMessage

/-- The values an `int32` field can have. -/
def IsInt32 (n : ℤ) : Prop := -2 ^ 31 ≤ n ∧ n < 2 ^ 31

instance : DecidablePred IsInt32 := fun _ => inferInstanceAs (Decidable (_ ∧ _))

abbrev Int32Field := {n : ℤ // IsInt32 n}

/-- Setting an `int32` field; `none` where it raises. -/
def int32? (n : ℤ) : Option Int32Field := if h : IsInt32 n then some ⟨n,h⟩ else none

def asInt32 (d : Json) : Option Int32Field := (asInt d).bind int32?

structure EnvelopeFields where
  sourceId : String
  targetId : String
  hopCount : Int32Field
  maxHops : Int32Field
  trace : List String
  messageId : String
  timestamp : Decimal
  sequence : Int32Field
  deriving DecidableEq

structure ControlFields where
  code : Int32Field
  sequence : Int32Field
  timestamp : Decimal
  ackSeq : Int32Field
  flowWindow : Int32Field
  reason : String
  deriving DecidableEq

structure PayloadFields where
  payloadType : Int32Field
  data : Bytes
  roundId : String
  roundNumber : Int32Field
  maxRounds : Int32Field
  compressed : Bool
  deriving DecidableEq

structure FMPFrame where
  envelope : EnvelopeFields
  control : ControlFields
  payload : PayloadFields
  encrypted : Bool
  payloadJson : String
  deriving DecidableEq

/-- The protobuf library with the generated module; `none` where parsing raises. -/
structure Protobuf where
  serializeToString : FMPFrame → Bytes
  parseFromString : Bytes → Option FMPFrame

def EnvelopeFields.ofDict (d : Json) : Option EnvelopeFields := do
  let sourceId ← d.optional asStr "source_id" ""
  let targetId ← d.optional asStr "target_id" ""
  let hopCount ← d.optional asInt32 "hop_count" ⟨0,by decide⟩
  let maxHops ← d.optional asInt32 "max_hops" ⟨3,by decide⟩
  let trace ← d.optional asArr "trace" []
  let trace ← trace.mapM asStr
  let messageId ← d.optional asStr "message_id" ""
  let timestamp ← d.optional asFloat "timestamp" (.ofNat 0)
  let sequence ← d.optional asInt32 "sequence" ⟨0,by decide⟩
  return ⟨sourceId,targetId,hopCount,maxHops,trace,messageId,timestamp,sequence⟩

def ControlFields.ofDict (d : Json) : Option ControlFields := do
  let code ← d.optional asInt32 "code" ⟨0,by decide⟩
  let sequence ← d.optional asInt32 "sequence" ⟨0,by decide⟩
  let timestamp ← d.optional asFloat "timestamp" (.ofNat 0)
  let ackSeq ← d.optional asInt32 "ack_seq" ⟨0,by decide⟩
  let flowWindow ← d.optional asInt32 "flow_window" ⟨64,by decide⟩
  let reason ← d.optional asStr "reason" ""
  return ⟨code,sequence,timestamp,ackSeq,flowWindow,reason⟩

def PayloadFields.ofDict (d : Json) : Option PayloadFields := do
  let payloadType ← d.optional asInt32 "payload_type" ⟨0,by decide⟩
  let raw ← d.optional asStr "data" ""
  let roundId ← d.optional asStr "round_id" ""
  let roundNumber ← d.optional asInt32 "round_number" ⟨0,by decide⟩
  let maxRounds ← d.optional asInt32 "max_rounds" ⟨10,by decide⟩
  let compressed ← d.optional asBool "compressed" false
  return ⟨payloadType,encodeUtf8 raw.toList,roundId,roundNumber,maxRounds,compressed⟩

def FMPFrame.ofDict (d : Json) : Option FMPFrame := do
  let envelope ← d.optional some "envelope" (.obj [])
  let control ← d.optional some "control" (.obj [])
  let payload ← d.optional some "payload" (.obj [])
  let envelope ← EnvelopeFields.ofDict envelope
  let control ← ControlFields.ofDict control
  let payload ← PayloadFields.ofDict payload
  let encrypted ← d.optional asBool "encrypted" false
  return ⟨envelope,control,payload,encrypted,""⟩

/-- `_try_protobuf_encode`, where protobuf is installed. -/
def tryProtobufEncode (lib : Protobuf) (payloadDict : Json) : Option Bytes :=
  (FMPFrame.ofDict payloadDict).map lib.serializeToString

def EnvelopeFields.toDict (e : EnvelopeFields) : Json :=
  .obj [("source_id",.str e.sourceId),("target_id",.str e.targetId),
    ("hop_count",.int e.hopCount.1),("max_hops",.int e.maxHops.1),
    ("trace",.arr (e.trace.map .str)),("message_id",.str e.messageId),
    ("timestamp",.float e.timestamp),("sequence",.int e.sequence.1)]

def ControlFields.toDict (c : ControlFields) : Json :=
  .obj [("code",.int c.code.1),("sequence",.int c.sequence.1),("timestamp",.float c.timestamp),
    ("ack_seq",.int c.ackSeq.1),("flow_window",.int c.flowWindow.1),("reason",.str c.reason)]

def PayloadFields.toDict (p : PayloadFields) : Json :=
  .obj [("payload_type",.int p.payloadType.1),
    ("data",.str (String.ofList (Base64.encode p.data))),("round_id",.str p.roundId),
    ("round_number",.int p.roundNumber.1),("max_rounds",.int p.maxRounds.1),
    ("compressed",.bool p.compressed)]

def FMPFrame.toDict (f : FMPFrame) : Json :=
  .obj [("envelope",f.envelope.toDict),("control",f.control.toDict),
    ("payload",f.payload.toDict),("encrypted",.bool f.encrypted)]

/-- `_try_protobuf_decode`, where protobuf is installed. -/
def tryProtobufDecode (lib : Protobuf) (data : Bytes) : Option Json :=
  (lib.parseFromString data).bind fun frame =>
    if frame.payloadJson ≠ "" ∧ frame.payload.data = [] then Json.loads frame.payloadJson.toList
    else some frame.toDict

structure Msgpack where
  packb : Json → Option Bytes
  unpackb : Bytes → Option Json

structure Installation where
  protobuf : Option Protobuf
  msgpack : Option Msgpack

def fmpProtoMagic : Bytes := [0x46,0x4d,0x50,0x02]

def fmpProtoVersion : UInt8 := 2

def fmpProtoHeaderSize : ℕ := 12

def fmpProtoMaxPayload : ℕ := 16 * 1024 * 1024

def flagEncrypted : UInt8 := 0x01

def flagMsgpack : UInt8 := 0x02

def flagProtobuf : UInt8 := 0x04

/-- The format flag of a message and its payload: protobuf first, then msgpack, then JSON. -/
def encodePayload (inst : Installation) (payloadDict : Json) : Option (UInt8 × Bytes) :=
  match inst.protobuf.bind fun lib => tryProtobufEncode lib payloadDict with
  | some protoData => some (flagProtobuf,protoData)
  | none =>
    match inst.msgpack with
    | some lib => (lib.packb payloadDict).map fun b => (flagMsgpack,b)
    | none => some (0,encodeAscii payloadDict)

/-- `struct.pack("!4sBBIH", ..)`; `none` where the length does not fit. -/
def packHeader (flags : UInt8) (payloadLen : ℕ) : Option Bytes :=
  (toBytes 4 payloadLen).map fun len =>
    fmpProtoMagic ++ fmpProtoVersion::flags::len ++ [0,0]

namespace FMPProtoMessage

def serialize (inst : Installation) (m : FMPProtoMessage) : Option Bytes := do
  let flags := if m.encrypted then flagEncrypted else 0
  let (format,payloadBytes) ← encodePayload inst m.toDict
  let header ← packHeader (flags ||| format) payloadBytes.length
  return header ++ payloadBytes

/-- The dictionary of a payload, by the format its flags name. -/
def decodePayload (inst : Installation) (flags : UInt8) (payloadBytes : Bytes) : Option Json :=
  if flags &&& flagProtobuf ≠ 0 then
    inst.protobuf.bind fun lib => tryProtobufDecode lib payloadBytes
  else if flags &&& flagMsgpack ≠ 0 then inst.msgpack.bind fun lib => lib.unpackb payloadBytes
  else Json.decode payloadBytes

def deserialize (inst : Installation) (fresh : Fresh) (data : Bytes) : Option FMPProtoMessage :=
  let flags := data[5]?.getD 0
  let payloadLen := fromBytes ((data.drop 6).take 4)
  let payloadBytes := (data.drop fmpProtoHeaderSize).take payloadLen
  if data.length < fmpProtoHeaderSize then none
  else if data.take 4 ≠ fmpProtoMagic then none
  else if data[4]? ≠ some fmpProtoVersion then none
  else if fmpProtoMaxPayload < payloadLen then none
  else if data.length < fmpProtoHeaderSize + payloadLen then none
  else (decodePayload inst flags payloadBytes).bind fun d =>
    fromDict fresh d (flags &&& flagEncrypted ≠ 0)

theorem deserialize_frame (inst : Installation) (fresh : Fresh) {flags : UInt8}
    {payload header : Bytes} (h : packHeader flags payload.length = some header) :
    deserialize inst fresh (header ++ payload) =
      if fmpProtoMaxPayload < payload.length then none
      else (decodePayload inst flags payload).bind fun d =>
        fromDict fresh d (flags &&& flagEncrypted ≠ 0) := by
  obtain ⟨len,hlen,rfl⟩ := Option.map_eq_some_iff.mp h
  obtain ⟨hlt,rfl⟩ : payload.length < 256 ^ 4 ∧ bigEndian 4 payload.length = len := by
    rw [toBytes] at hlen
    split_ifs at hlen with hlt
    exact ⟨hlt,Option.some.inj hlen⟩
  have hfour := length_bigEndian 4 payload.length
  have hfield : ((fmpProtoMagic ++ fmpProtoVersion::flags::bigEndian 4 payload.length ++ [0,0] ++
      payload).drop 6).take 4 = bigEndian 4 payload.length := by
    show ((bigEndian 4 payload.length ++ [0,0]) ++ payload).take 4 = _
    rw [List.append_assoc,List.take_left' hfour]
  have hbody : (fmpProtoMagic ++ fmpProtoVersion::flags::bigEndian 4 payload.length ++ [0,0] ++
      payload).drop fmpProtoHeaderSize = payload :=
    List.drop_left' (by simp [fmpProtoMagic,fmpProtoHeaderSize,hfour])
  have hall : (fmpProtoMagic ++ fmpProtoVersion::flags::bigEndian 4 payload.length ++ [0,0] ++
      payload).length = fmpProtoHeaderSize + payload.length := by
    simp [fmpProtoMagic,fmpProtoHeaderSize,hfour]
    omega
  have hmagic : (fmpProtoMagic ++ fmpProtoVersion::flags::bigEndian 4 payload.length ++ [0,0] ++
      payload).take 4 = fmpProtoMagic := rfl
  have hversion : (fmpProtoMagic ++ fmpProtoVersion::flags::bigEndian 4 payload.length ++ [0,0] ++
      payload)[4]? = some fmpProtoVersion := rfl
  have hflags : (fmpProtoMagic ++ fmpProtoVersion::flags::bigEndian 4 payload.length ++ [0,0] ++
      payload)[5]?.getD 0 = flags := rfl
  simp only [deserialize,hfield,hbody,hall,hmagic,hversion,hflags,fromBytes_bigEndian hlt,
    ne_eq,not_true_eq_false,if_false,Nat.lt_irrefl,List.take_length,
    if_neg (Nat.not_lt.mpr (Nat.le_add_right fmpProtoHeaderSize payload.length))]

theorem packHeader_isSome (flags : UInt8) {n : ℕ} (h : n ≤ fmpProtoMaxPayload) :
    ∃ header, packHeader flags n = some header := by
  have hlt : n < 256 ^ 4 := Nat.lt_of_le_of_lt h (by decide)
  exact ⟨_,by rw [packHeader,toBytes,if_pos hlt]; rfl⟩

/-- All numbers of the message fit the `int32` fields. -/
structure FitsInt32 (m : FMPProtoMessage) : Prop where
  hopCount : IsInt32 m.envelope.hopCount
  maxHops : IsInt32 m.envelope.maxHops
  sequence : IsInt32 m.envelope.sequence
  controlSequence : IsInt32 m.control.sequence
  ackSeq : IsInt32 m.control.ackSeq
  flowWindow : IsInt32 m.control.flowWindow
  roundNumber : IsInt32 m.payload.roundNumber
  maxRounds : IsInt32 m.payload.maxRounds

/-- The message with its base64 text in place of its data. -/
def textForData (m : FMPProtoMessage) : FMPProtoMessage :=
  { m with payload := { m.payload with data := encodeUtf8 (Base64.encode m.payload.data) } }

theorem isInt32_code (c : ControlCode) : IsInt32 c.value := by
  cases c <;> decide

theorem isInt32_payloadType (t : PayloadType) : IsInt32 t.value := by
  cases t <;> decide

theorem int32?_pos {n : ℤ} (h : IsInt32 n) : int32? n = some ⟨n,h⟩ := dif_pos h

theorem int32?_neg {n : ℤ} (h : ¬IsInt32 n) : int32? n = none := dif_neg h

theorem isInt32_of_int32? {n : ℤ} {x : Int32Field} (h : int32? n = some x) : IsInt32 n := by
  by_contra hn
  rw [int32?_neg hn] at h
  cases h

theorem ofDict_envelope {e : FMPEnvelope} (hhop : IsInt32 e.hopCount) (hmax : IsInt32 e.maxHops)
    (hseq : IsInt32 e.sequence) :
    EnvelopeFields.ofDict e.toDict = some ⟨e.sourceId,e.targetId,⟨e.hopCount,hhop⟩,
      ⟨e.maxHops,hmax⟩,e.trace,e.messageId,e.timestamp,⟨e.sequence,hseq⟩⟩ := by
  simp [EnvelopeFields.ofDict,FMPEnvelope.toDict,Json.optional,Json.get?,asStr,asInt,asArr,asFloat,
    asInt32,int32?_pos hhop,int32?_pos hmax,int32?_pos hseq,FMPEnvelope.mapM_asStr]

theorem ofDict_control {c : FMPControl} (hseq : IsInt32 c.sequence) (hack : IsInt32 c.ackSeq)
    (hflow : IsInt32 c.flowWindow) :
    ControlFields.ofDict c.toDict = some ⟨⟨c.code.value,isInt32_code c.code⟩,⟨c.sequence,hseq⟩,
      c.timestamp,⟨c.ackSeq,hack⟩,⟨c.flowWindow,hflow⟩,c.reason⟩ := by
  simp [ControlFields.ofDict,FMPControl.toDict,Json.optional,Json.get?,asStr,asInt,asFloat,asInt32,
    int32?_pos hseq,int32?_pos hack,int32?_pos hflow,int32?_pos (isInt32_code c.code)]

theorem ofDict_payload {p : FMPPayload} (hround : IsInt32 p.roundNumber)
    (hmax : IsInt32 p.maxRounds) :
    PayloadFields.ofDict p.toDict = some ⟨⟨p.payloadType.value,isInt32_payloadType p.payloadType⟩,
      encodeUtf8 (Base64.encode p.data),p.roundId,⟨p.roundNumber,hround⟩,⟨p.maxRounds,hmax⟩,
      p.compressed⟩ := by
  simp [PayloadFields.ofDict,FMPPayload.toDict,FMPPayload.dictWith,Json.optional,Json.get?,asStr,
    asInt,asBool,asInt32,int32?_pos hround,int32?_pos hmax,
    int32?_pos (isInt32_payloadType p.payloadType)]

theorem fits_of_ofDict_envelope {e : FMPEnvelope} {f : EnvelopeFields}
    (h : EnvelopeFields.ofDict e.toDict = some f) :
    IsInt32 e.hopCount ∧ IsInt32 e.maxHops ∧ IsInt32 e.sequence := by
  simp only [EnvelopeFields.ofDict,FMPEnvelope.toDict,Option.bind_eq_bind,
    Option.bind_eq_some_iff] at h
  obtain ⟨_,-,_,-,hop,hhop,maxHops,hmax,_,-,_,-,_,-,_,-,sequence,hseq,-⟩ := h
  exact ⟨isInt32_of_int32? hhop,isInt32_of_int32? hmax,isInt32_of_int32? hseq⟩

theorem fits_of_ofDict_control {c : FMPControl} {f : ControlFields}
    (h : ControlFields.ofDict c.toDict = some f) :
    IsInt32 c.sequence ∧ IsInt32 c.ackSeq ∧ IsInt32 c.flowWindow := by
  simp only [ControlFields.ofDict,FMPControl.toDict,Option.bind_eq_bind,
    Option.bind_eq_some_iff] at h
  obtain ⟨_,-,sequence,hseq,_,-,ackSeq,hack,flowWindow,hflow,-⟩ := h
  exact ⟨isInt32_of_int32? hseq,isInt32_of_int32? hack,isInt32_of_int32? hflow⟩

theorem fits_of_ofDict_payload {p : FMPPayload} {f : PayloadFields}
    (h : PayloadFields.ofDict p.toDict = some f) :
    IsInt32 p.roundNumber ∧ IsInt32 p.maxRounds := by
  simp only [PayloadFields.ofDict,FMPPayload.toDict,FMPPayload.dictWith,Option.bind_eq_bind,
    Option.bind_eq_some_iff] at h
  obtain ⟨_,-,_,-,_,-,roundNumber,hround,maxRounds,hmax,-⟩ := h
  exact ⟨isInt32_of_int32? hround,isInt32_of_int32? hmax⟩

theorem ofDict_frame (m : FMPProtoMessage) :
    FMPFrame.ofDict m.toDict = (EnvelopeFields.ofDict m.envelope.toDict).bind fun envelope =>
      (ControlFields.ofDict m.control.toDict).bind fun control =>
      (PayloadFields.ofDict m.payload.toDict).bind fun payload =>
        some ⟨envelope,control,payload,m.encrypted,""⟩ := by
  simp [FMPFrame.ofDict,toDict,Json.optional,Json.get?,asBool]

theorem ofDict_toDict {m : FMPProtoMessage} (h : m.FitsInt32) :
    ∃ f, FMPFrame.ofDict m.toDict = some f ∧ f.payloadJson = "" ∧
      f.toDict = m.textForData.toDict := by
  rw [ofDict_frame,ofDict_envelope h.hopCount h.maxHops h.sequence,
    ofDict_control h.controlSequence h.ackSeq h.flowWindow,
    ofDict_payload h.roundNumber h.maxRounds]
  exact ⟨_,rfl,rfl,rfl⟩

theorem ofDict_toDict_none {m : FMPProtoMessage} (h : ¬m.FitsInt32) :
    FMPFrame.ofDict m.toDict = none := by
  by_contra hne
  obtain ⟨f,hf⟩ := Option.ne_none_iff_exists'.mp hne
  rw [ofDict_frame] at hf
  obtain ⟨envelope,henvelope,hf⟩ := Option.bind_eq_some_iff.mp hf
  obtain ⟨control,hcontrol,hf⟩ := Option.bind_eq_some_iff.mp hf
  obtain ⟨payload,hpayload,-⟩ := Option.bind_eq_some_iff.mp hf
  obtain ⟨hhop,hmax,hseq⟩ := fits_of_ofDict_envelope henvelope
  obtain ⟨hcseq,hack,hflow⟩ := fits_of_ofDict_control hcontrol
  obtain ⟨hround,hmaxRounds⟩ := fits_of_ofDict_payload hpayload
  exact h ⟨hhop,hmax,hseq,hcseq,hack,hflow,hround,hmaxRounds⟩

structure Lossless (inst : Installation) : Prop where
  protobuf : ∀ lib, inst.protobuf = some lib →
    ∀ frame, lib.parseFromString (lib.serializeToString frame) = some frame
  msgpack : ∀ lib, inst.msgpack = some lib →
    ∀ d b, lib.packb d = some b → lib.unpackb b = some d

structure Reads (sender receiver : Installation) : Prop where
  protobuf : ∀ lib, sender.protobuf = some lib → receiver.protobuf = some lib
  msgpack : ∀ lib, sender.msgpack = some lib → receiver.msgpack = some lib

def UsesProtobuf (inst : Installation) (m : FMPProtoMessage) : Prop :=
  inst.protobuf.isSome = true ∧ m.FitsInt32

/-- The payload of the message is written, and is no larger than a frame may have it. -/
def WithinLimit (inst : Installation) (m : FMPProtoMessage) : Prop :=
  ∃ e, encodePayload inst m.toDict = some e ∧ e.2.length ≤ fmpProtoMaxPayload

theorem decodePayload_protobuf {sender receiver : Installation} {m : FMPProtoMessage}
    {e : UInt8 × Bytes} (hl : Lossless sender) (hr : Reads sender receiver)
    (hp : UsesProtobuf sender m) (he : encodePayload sender m.toDict = some e) :
    e.1 = flagProtobuf ∧ ∀ flags, flags &&& flagProtobuf ≠ 0 →
      decodePayload receiver flags e.2 = some m.textForData.toDict := by
  obtain ⟨lib,hlib⟩ := Option.isSome_iff_exists.mp hp.1
  obtain ⟨f,hf,hjson,hdict⟩ := ofDict_toDict hp.2
  simp only [encodePayload,hlib,Option.bind_some,tryProtobufEncode,hf,Option.map_some,
    Option.some.injEq] at he
  subst he
  refine ⟨rfl,fun flags hflags => ?_⟩
  rw [decodePayload,if_pos hflags,hr.protobuf lib hlib,Option.bind_some,tryProtobufDecode,
    hl.protobuf lib hlib f,Option.bind_some]
  simp only [hjson,ne_eq,not_true_eq_false,false_and,if_false,hdict]

theorem decodePayload_other {sender receiver : Installation} {m : FMPProtoMessage}
    {e : UInt8 × Bytes} (hl : Lossless sender) (hr : Reads sender receiver)
    (hp : ¬UsesProtobuf sender m) (he : encodePayload sender m.toDict = some e) :
    (e.1 = flagMsgpack ∨ e.1 = 0) ∧ ∀ flags, flags &&& flagProtobuf = 0 →
      flags &&& flagMsgpack = e.1 → decodePayload receiver flags e.2 = some m.toDict := by
  have hnone : (sender.protobuf.bind fun lib => tryProtobufEncode lib m.toDict) = none := by
    cases hlib : sender.protobuf with
    | none => rfl
    | some lib =>
      have hfits : ¬m.FitsInt32 := fun h => hp ⟨by rw [hlib]; rfl,h⟩
      rw [Option.bind_some,tryProtobufEncode,ofDict_toDict_none hfits,Option.map_none]
  simp only [encodePayload,hnone] at he
  cases hlib : sender.msgpack with
  | none =>
    rw [hlib] at he
    cases he
    refine ⟨Or.inr rfl,fun flags hproto hpack => ?_⟩
    rw [decodePayload,if_neg (not_not.mpr hproto),if_neg (not_not.mpr hpack),
      Json.decode_encodeAscii]
  | some lib =>
    rw [hlib] at he
    obtain ⟨b,hb,rfl⟩ := Option.map_eq_some_iff.mp he
    refine ⟨Or.inl rfl,fun flags hproto hpack => ?_⟩
    have hne : flags &&& flagMsgpack ≠ 0 := by
      rw [hpack]
      show flagMsgpack ≠ 0
      decide
    rw [decodePayload,if_neg (not_not.mpr hproto),if_pos hne,hr.msgpack lib hlib,
      Option.bind_some,hl.msgpack lib hlib _ _ hb]

theorem textForData_eq_iff (m : FMPProtoMessage) : m.textForData = m ↔ m.payload.data = [] := by
  constructor
  · intro h
    have hdata : encodeUtf8 (Base64.encode m.payload.data) = m.payload.data :=
      congrArg (fun m => m.payload.data) h
    by_contra hne
    have hlong := Base64.lt_length_encode hne
    have hutf := length_le_encodeUtf8 (Base64.encode m.payload.data)
    rw [hdata] at hutf
    omega
  · intro h
    obtain ⟨envelope,control,payload,encrypted⟩ := m
    obtain ⟨payloadType,data,roundId,roundNumber,maxRounds,compressed⟩ := payload
    obtain rfl : data = [] := h
    rfl

theorem deserialize_serialize {sender receiver : Installation} (hl : Lossless sender)
    (hr : Reads sender receiver) (fresh : Fresh) (m read : FMPProtoMessage)
    (hread : UsesProtobuf sender m ∧ read = m.textForData ∨ ¬UsesProtobuf sender m ∧ read = m)
    (hlimit : WithinLimit sender m) :
    (m.serialize sender).bind (deserialize receiver fresh) = some read := by
  obtain ⟨e,he,hlen⟩ := hlimit
  obtain ⟨header,hheader⟩ :=
    packHeader_isSome ((if m.encrypted then flagEncrypted else 0) ||| e.1) hlen
  have hserialize : m.serialize sender = some (header ++ e.2) := by
    simp only [serialize,he,Option.bind_eq_bind,Option.bind_some,hheader]
    rfl
  rw [hserialize,Option.bind_some,deserialize_frame receiver fresh hheader,
    if_neg (Nat.not_lt.mpr hlen)]
  rcases hread with ⟨hp,rfl⟩ | ⟨hp,rfl⟩
  · obtain ⟨hflag,hdecode⟩ := decodePayload_protobuf hl hr hp he
    have henc : decide (((if m.encrypted then flagEncrypted else 0) ||| e.1) &&& flagEncrypted ≠
        0) = m.textForData.encrypted := by
      rw [hflag]
      show _ = m.encrypted
      cases m.encrypted <;> decide
    rw [hdecode _ (by rw [hflag]; cases m.encrypted <;> decide),Option.bind_some,henc,
      fromDict_toDict]
  · obtain ⟨hflag,hdecode⟩ := decodePayload_other hl hr hp he
    have henc : decide (((if read.encrypted then flagEncrypted else 0) ||| e.1) &&& flagEncrypted ≠
        0) = read.encrypted := by
      rcases hflag with hflag | hflag <;> rw [hflag] <;> cases read.encrypted <;> decide
    have hproto : ((if read.encrypted then flagEncrypted else 0) ||| e.1) &&& flagProtobuf = 0 := by
      rcases hflag with hflag | hflag <;> rw [hflag] <;> cases read.encrypted <;> decide
    have hpack : ((if read.encrypted then flagEncrypted else 0) ||| e.1) &&& flagMsgpack = e.1 := by
      rcases hflag with hflag | hflag <;> rw [hflag] <;> cases read.encrypted <;> decide
    rw [hdecode _ hproto hpack,Option.bind_some,henc,fromDict_toDict]

theorem serialize_beyond_limit {sender receiver : Installation} (fresh : Fresh)
    (m : FMPProtoMessage) (h : ¬WithinLimit sender m) :
    (m.serialize sender).bind (deserialize receiver fresh) = none := by
  cases he : encodePayload sender m.toDict with
  | none => simp [serialize,he]
  | some e =>
    have hlen : fmpProtoMaxPayload < e.2.length := by
      by_contra hle
      exact h ⟨e,he,Nat.le_of_not_lt hle⟩
    cases hheader : packHeader ((if m.encrypted then flagEncrypted else 0) ||| e.1) e.2.length with
    | none => simp [serialize,he,hheader]
    | some header =>
      have hserialize : m.serialize sender = some (header ++ e.2) := by
        simp only [serialize,he,Option.bind_eq_bind,Option.bind_some,hheader]
        rfl
      rw [hserialize,Option.bind_some,deserialize_frame receiver fresh hheader,if_pos hlen]

/-- A message within the size limit comes back as it was sent, on whichever path, unless it is
sent by protobuf with data: the protobuf path stores the base64 text and encodes it again. -/
theorem deserialize_serialize_iff {sender receiver : Installation} (hl : Lossless sender)
    (hr : Reads sender receiver) (fresh : Fresh) (m : FMPProtoMessage) :
    (m.serialize sender).bind (deserialize receiver fresh) = some m ↔
      WithinLimit sender m ∧ (UsesProtobuf sender m → m.payload.data = []) := by
  by_cases hlimit : WithinLimit sender m
  · by_cases hp : UsesProtobuf sender m
    · rw [deserialize_serialize hl hr fresh m m.textForData (Or.inl ⟨hp,rfl⟩) hlimit,
        Option.some.injEq,textForData_eq_iff]
      exact ⟨fun h => ⟨hlimit,fun _ => h⟩,fun h => h.2 hp⟩
    · rw [deserialize_serialize hl hr fresh m m (Or.inr ⟨hp,rfl⟩) hlimit]
      exact ⟨fun _ => ⟨hlimit,fun h => absurd h hp⟩,fun _ => rfl⟩
  · rw [serialize_beyond_limit fresh m hlimit]
    exact ⟨fun h => absurd h.symm (Option.some_ne_none m),fun h => absurd h.1 hlimit⟩

/-- A protobuf library that writes the fields as JSON text. -/
def jsonProtobuf : Protobuf where
  serializeToString f := Json.encode (.arr [f.toDict,.str f.payloadJson])
  parseFromString b := (Json.decode b).bind fun
    | .arr [d,.str payloadJson] => do
      let f ← FMPFrame.ofDict d
      let text ← decodeUtf8 f.payload.data
      let data ← Base64.decode text
      return { f with payload := { f.payload with data := data }, payloadJson := payloadJson }
    | _ => none

theorem int32?_val (x : Int32Field) : int32? x.1 = some x := int32?_pos x.2

theorem ofDict_envelopeFields (e : EnvelopeFields) : EnvelopeFields.ofDict e.toDict = some e := by
  simp [EnvelopeFields.ofDict,EnvelopeFields.toDict,Json.optional,Json.get?,asStr,asInt,asArr,
    asFloat,asInt32,int32?_val,FMPEnvelope.mapM_asStr]

theorem ofDict_controlFields (c : ControlFields) : ControlFields.ofDict c.toDict = some c := by
  simp [ControlFields.ofDict,ControlFields.toDict,Json.optional,Json.get?,asStr,asInt,asFloat,
    asInt32,int32?_val]

theorem ofDict_payloadFields (p : PayloadFields) :
    PayloadFields.ofDict p.toDict = some { p with data := encodeUtf8 (Base64.encode p.data) } := by
  simp [PayloadFields.ofDict,PayloadFields.toDict,Json.optional,Json.get?,asStr,asInt,asBool,
    asInt32,int32?_val]

theorem jsonProtobuf_lossless (f : FMPFrame) :
    jsonProtobuf.parseFromString (jsonProtobuf.serializeToString f) = some f := by
  have hframe : FMPFrame.ofDict f.toDict = some { f with
      payload := { f.payload with data := encodeUtf8 (Base64.encode f.payload.data) },
      payloadJson := "" } := by
    simp [FMPFrame.ofDict,FMPFrame.toDict,Json.optional,Json.get?,asBool,ofDict_envelopeFields,
      ofDict_controlFields,ofDict_payloadFields]
  simp [jsonProtobuf,hframe]

def onlyProtobuf : Installation := ⟨some jsonProtobuf,none⟩

theorem onlyProtobuf_lossless : Lossless onlyProtobuf where
  protobuf lib h frame := by
    cases h
    exact jsonProtobuf_lossless frame
  msgpack _ h := nomatch h

theorem Reads.self (inst : Installation) : Reads inst inst := ⟨fun _ h => h,fun _ h => h⟩

def taskMessage (sequence : ℤ) (data : Bytes) : FMPProtoMessage where
  envelope := ⟨"n1","n2",0,3,[],"env_1",⟨false,1,[5],rfl⟩,0,by decide,by decide⟩
  control := ⟨.heartbeat,sequence,⟨false,1,[5],rfl⟩,0,64,"",by decide⟩
  payload := ⟨.taskAssign,data,"env_1",0,10,false⟩
  encrypted := false

theorem within_taskMessage :
    WithinLimit onlyProtobuf (taskMessage 7 [0x61]) ∧
      WithinLimit onlyProtobuf (taskMessage 3000000000 [0x61]) := by
  constructor
  · exact ⟨_,rfl,by decide +kernel⟩
  · exact ⟨_,rfl,by decide +kernel⟩

theorem notProtobuf_large : ¬UsesProtobuf onlyProtobuf (taskMessage 3000000000 [0x61]) :=
  fun h => absurd h.2.controlSequence (by decide)

def later : Fresh := ⟨"env_2",.ofNat 1,by decide,rfl⟩

/-- A number of 32 bits without sign does not fit protobuf's fields, and the message goes out as
JSON text. -/
theorem deserialize_serialize_iff_large :
    ((taskMessage 3000000000 [0x61]).serialize onlyProtobuf).bind
      (deserialize onlyProtobuf later) = some (taskMessage 3000000000 [0x61]) :=
  (deserialize_serialize_iff onlyProtobuf_lossless (Reads.self onlyProtobuf) later _).mpr
    ⟨within_taskMessage.2,fun h => absurd h notProtobuf_large⟩

theorem usesProtobuf_small : UsesProtobuf onlyProtobuf (taskMessage 7 [0x61]) :=
  ⟨rfl,by decide,by decide,by decide,by decide,by decide,by decide,by decide,by decide⟩

theorem protobuf_payload_garbled :
    Lossless onlyProtobuf ∧
      ((taskMessage 7 [0x61]).serialize onlyProtobuf).bind (deserialize onlyProtobuf later) =
        some (taskMessage 7 [0x59,0x51,0x3d,0x3d]) ∧
      taskMessage 7 [0x59,0x51,0x3d,0x3d] ≠ taskMessage 7 [0x61] := by
  refine ⟨onlyProtobuf_lossless,?_,by decide⟩
  rw [deserialize_serialize onlyProtobuf_lossless (Reads.self onlyProtobuf) later _ _
    (Or.inl ⟨usesProtobuf_small,rfl⟩) within_taskMessage.1]
  decide

end FMPProtoMessage
end Proto
end FusionMultiNodes
