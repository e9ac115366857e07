import FusionMultiNodes.Lib.Json
import FusionMultiNodes.Lib.Base64

/-! FMP messages and the binary frame they are read from. -/
namespace FusionMultiNodes

inductive PayloadType where
  | heartbeat
  | register
  | taskAssign
  | taskResult
  | kvTransfer
  | kvLookup
  | faultReport
  | chatCompletion
  | embedding
  | control
  | ack
  | nack
  | shardSync
  | shardAck
  | kvGet
  | kvGetResp
  | kvPut
  | kvPutAck
  deriving DecidableEq

namespace PayloadType

def value : PayloadType → String
  | heartbeat => "heartbeat"
  | register => "register"
  | taskAssign => "task_assign"
  | taskResult => "task_result"
  | kvTransfer => "kv_transfer"
  | kvLookup => "kv_lookup"
  | faultReport => "fault_report"
  | chatCompletion => "chat_completion"
  | embedding => "embedding"
  | control => "control"
  | ack => "ack"
  | nack => "nack"
  | shardSync => "shard_sync"
  | shardAck => "shard_ack"
  | kvGet => "kv_get"
  | kvGetResp => "kv_get_resp"
  | kvPut => "kv_put"
  | kvPutAck => "kv_put_ack"

def members : List PayloadType :=
  [heartbeat,register,taskAssign,taskResult,kvTransfer,kvLookup,faultReport,chatCompletion,
    embedding,control,ack,nack,shardSync,shardAck,kvGet,kvGetResp,kvPut,kvPutAck]

def ofValue (v : String) : Option PayloadType := members.find? fun t => decide (t.value = v)

end PayloadType

inductive ControlType where
  | heartbeat
  | ack
  | nack
  | flowControl
  | disconnect
  deriving DecidableEq

namespace ControlType

def value : ControlType → String
  | heartbeat => "heartbeat"
  | ack => "ack"
  | nack => "nack"
  | flowControl => "flow_control"
  | disconnect => "disconnect"

def members : List ControlType := [heartbeat,ack,nack,flowControl,disconnect]

def ofValue (v : String) : Option ControlType := members.find? fun t => decide (t.value = v)

end ControlType

structure FMPLinkLayer where
  sourceId : String
  targetId : String
  hopCount : ℤ := 0
  maxHops : ℤ := 3
  trace : List String := []
  deriving DecidableEq

structure FMPBusinessLayer where
  payloadType : PayloadType
  payload : Bytes
  roundId : String := ""
  roundNumber : ℤ := 0
  maxRounds : ℤ := 10
  deriving DecidableEq

structure FMPControlLayer where
  controlType : ControlType
  sequence : ℤ := 0
  timestamp : Decimal := .ofNat 0
  ackSeq : ℤ := 0
  flowWindow : ℤ := 64
  deriving DecidableEq

structure FMPMessage where
  messageId : String
  link : FMPLinkLayer
  business : FMPBusinessLayer
  control : FMPControlLayer
  encrypted : Bool := false
  deriving DecidableEq

open Json

/-- `from_dict`; `none` where a member is missing or not of its declared type. -/
def FMPLinkLayer.fromDict (d : Json) : Option FMPLinkLayer := do
  let sourceId ← d.required asStr "source_id"
  let targetId ← d.required asStr "target_id"
  let hopCount ← d.optional asInt "hop_count" 0
  let maxHops ← d.optional asInt "max_hops" 3
  let trace ← d.optional asArr "trace" []
  return ⟨sourceId,targetId,hopCount,maxHops,← trace.mapM asStr⟩

def FMPBusinessLayer.fromDict (d : Json) : Option FMPBusinessLayer := do
  let raw ← d.required asStr "payload"
  let payload ← Base64.decode raw.toList
  let payloadType ← (← d.required asStr "payload_type") |> PayloadType.ofValue
  let roundId ← d.optional asStr "round_id" ""
  let roundNumber ← d.optional asInt "round_number" 0
  let maxRounds ← d.optional asInt "max_rounds" 10
  return ⟨payloadType,payload,roundId,roundNumber,maxRounds⟩

def FMPControlLayer.fromDict (d : Json) : Option FMPControlLayer := do
  let controlType ← (← d.required asStr "control_type") |> ControlType.ofValue
  let sequence ← d.optional asInt "sequence" 0
  let timestamp ← d.optional asFloat "timestamp" (.ofNat 0)
  let ackSeq ← d.optional asInt "ack_seq" 0
  let flowWindow ← d.optional asInt "flow_window" 64
  return ⟨controlType,sequence,timestamp,ackSeq,flowWindow⟩

/-- `FMPMessage.from_dict`, with the flag the frame carries. -/
def FMPMessage.fromDict (d : Json) (encrypted : Bool) : Option FMPMessage := do
  let messageId ← d.required asStr "message_id"
  let link ← FMPLinkLayer.fromDict (← d.required asObj "link")
  let business ← FMPBusinessLayer.fromDict (← d.required asObj "business")
  let control ← FMPControlLayer.fromDict (← d.required asObj "control")
  return ⟨messageId,link,business,control,encrypted⟩

def fmpMagic : Bytes := [0x46,0x4d,0x50,0x01]

def fmpVersion : UInt8 := 1

def fmpHeaderSize : ℕ := 12

def fmpMaxPayloadSize : ℕ := 16 * 1024 * 1024

/-- The payload of a frame, by the format its flags name; `unpackb` is the msgpack reader. -/
def readPayload (unpackb : Bytes → Option Json) (flags : UInt8) (payload : Bytes) : Option Json :=
  if flags &&& 2 ≠ 0 then unpackb payload else Json.decode payload

/-- `FMPMessage.deserialize`; `none` where it raises. Bytes behind the payload are ignored. -/
def FMPMessage.deserialize (unpackb : Bytes → Option Json) (data : Bytes) : Option FMPMessage :=
  let payloadLen := fromBytes ((data.drop 6).take 4)
  if data.length < fmpHeaderSize then none
  else if data.take 4 ≠ fmpMagic then none
  else if data[4]? ≠ some fmpVersion then none
  else if fmpMaxPayloadSize < payloadLen then none
  else if data.length < fmpHeaderSize + payloadLen then none
  else
    let flags := data[5]?.getD 0
    ((readPayload unpackb flags ((data.drop fmpHeaderSize).take payloadLen)).bind asObj).bind
      (FMPMessage.fromDict · (flags &&& 1 ≠ 0))

structure AesGcm where
  encrypt : Bytes → Bytes → Bytes → Bytes
  decrypt : Bytes → Bytes → Bytes → Option Bytes

structure FMPCrypto where
  aesgcm : Option AesGcm

namespace FMPCrypto

def decrypt (crypto : FMPCrypto) (data aad : Bytes) : Option Bytes :=
  crypto.aesgcm.bind fun a => a.decrypt (data.take 12) (data.drop 12) aad

def aad (link : FMPLinkLayer) : Bytes := encodeUtf8 (link.sourceId ++ ":" ++ link.targetId).toList

def decryptMessage (crypto : FMPCrypto) (msg : FMPMessage) : Option FMPMessage :=
  if msg.encrypted then
    (crypto.decrypt msg.business.payload (aad msg.link)).map fun payload =>
      { msg with business := { msg.business with payload := payload }, encrypted := false }
  else some msg

end FMPCrypto
end FusionMultiNodes
