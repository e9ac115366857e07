import FusionMultiNodes.Fmp.Protobuf
import FusionMultiNodes.Fmp.Server

/-! The frame that a message is sent in, against the sizes that its receiver takes. -/
namespace FusionMultiNodes

open Json

def FMPLinkLayer.toDict (l : FMPLinkLayer) : Json :=
  .obj [("source_id",.str l.sourceId),("target_id",.str l.targetId),("hop_count",.int l.hopCount),
    ("max_hops",.int l.maxHops),("trace",.arr (l.trace.map .str))]

def FMPBusinessLayer.toDict (b : FMPBusinessLayer) : Json :=
  .obj [("payload_type",.str b.payloadType.value),
    ("payload",.str (String.ofList (Base64.encode b.payload))),("round_id",.str b.roundId),
    ("round_number",.int b.roundNumber),("max_rounds",.int b.maxRounds)]

def FMPControlLayer.toDict (c : FMPControlLayer) : Json :=
  .obj [("control_type",.str c.controlType.value),("sequence",.int c.sequence),
    ("timestamp",.float c.timestamp),("ack_seq",.int c.ackSeq),("flow_window",.int c.flowWindow)]

def FMPMessage.toDict (m : FMPMessage) : Json :=
  .obj [("message_id",.str m.messageId),("link",m.link.toDict),("business",m.business.toDict),
    ("control",m.control.toDict),("encrypted",.bool m.encrypted)]

@[simp] theorem PayloadType.ofValue_value (t : PayloadType) : ofValue t.value = some t := by
  cases t <;> rfl

@[simp] theorem ControlType.ofValue_value (t : ControlType) : ofValue t.value = some t := by
  cases t <;> rfl

@[simp] theorem FMPLinkLayer.fromDict_toDict (l : FMPLinkLayer) : fromDict l.toDict = some l := by
  simp [fromDict,toDict,Json.required,Json.optional,Json.get?,asStr,asInt,asArr,
    Proto.FMPEnvelope.mapM_asStr]

@[simp] theorem FMPBusinessLayer.fromDict_toDict (b : FMPBusinessLayer) :
    fromDict b.toDict = some b := by
  simp [fromDict,toDict,Json.required,Json.optional,Json.get?,asStr,asInt]

@[simp] theorem FMPControlLayer.fromDict_toDict (c : FMPControlLayer) :
    fromDict c.toDict = some c := by
  simp [fromDict,toDict,Json.required,Json.optional,Json.get?,asStr,asInt,asFloat]

theorem FMPMessage.fromDict_toDict (m : FMPMessage) : fromDict m.toDict m.encrypted = some m := by
  have hlink : asObj m.link.toDict = some m.link.toDict := rfl
  have hbusiness : asObj m.business.toDict = some m.business.toDict := rfl
  have hcontrol : asObj m.control.toDict = some m.control.toDict := rfl
  simp [fromDict,toDict,Json.required,Json.get?,asStr,hlink,hbusiness,hcontrol]

namespace FMPMessage

/-- `struct.pack("!4sBBIH", ..)`; `none` where the length does not fit. -/
def packHeader (flags : UInt8) (payloadLen : ℕ) : Option Bytes :=
  (toBytes 4 payloadLen).map fun len => fmpMagic ++ fmpVersion::flags::len ++ [0,0]

/-- The format flag and the payload: msgpack where it is wanted and can be imported, or JSON. -/
def encodePayload (msgpack : Option Proto.Msgpack) (useMsgpack : Bool) (m : FMPMessage) :
    Option (UInt8 × Bytes) :=
  match if useMsgpack then msgpack else none with
  | some lib => (lib.packb m.toDict).map fun b => (0x02,b)
  | none => some (0,encodeAscii m.toDict)

def serialize (msgpack : Option Proto.Msgpack) (useMsgpack : Bool) (m : FMPMessage) :
    Option Bytes := do
  let flags := if m.encrypted then 0x01 else 0x00
  let (format,payloadBytes) ← encodePayload msgpack useMsgpack m
  let header ← packHeader (flags ||| format) payloadBytes.length
  return header ++ payloadBytes

/-- The frame that `send` writes behind its length; `none` where it refuses. -/
def sendFrame (msgpack : Option Proto.Msgpack) (useMsgpack : Bool) (m : FMPMessage) :
    Option Bytes := do
  let data ← m.serialize msgpack useMsgpack
  let _ ← toBytes 4 data.length
  return data

def AcceptsLength (data : Bytes) : Prop := 0 < data.length ∧ data.length ≤ maxFrameLength

theorem deserialize_frame (unpackb : Bytes → Option Json) {flags : UInt8} {payload header : Bytes}
    (h : packHeader flags payload.length = some header) :
    deserialize unpackb (header ++ payload) =
      if fmpMaxPayloadSize < payload.length then none
      else ((readPayload unpackb flags payload).bind asObj).bind fun d =>
        fromDict d (flags &&& 1 ≠ 0) := by
  obtain ⟨len,hlen,rfl⟩ := Option.map_eq_some_iff.mp h
  obtain ⟨hlt,rfl⟩ : payload.length < 256 ^ 4 ∧ bigEndian 4 payload.length = len := by
    rw [toBytes] at hlen
    split_ifs at hlen with hlt
    exact ⟨hlt,Option.some.inj hlen⟩
  have hfour := length_bigEndian 4 payload.length
  have hfield : ((fmpMagic ++ fmpVersion::flags::bigEndian 4 payload.length ++ [0,0] ++
      payload).drop 6).take 4 = bigEndian 4 payload.length := by
    show ((bigEndian 4 payload.length ++ [0,0]) ++ payload).take 4 = _
    rw [List.append_assoc,List.take_left' hfour]
  have hbody : (fmpMagic ++ fmpVersion::flags::bigEndian 4 payload.length ++ [0,0] ++
      payload).drop fmpHeaderSize = payload :=
    List.drop_left' (by simp [fmpMagic,fmpHeaderSize,hfour])
  have hall : (fmpMagic ++ fmpVersion::flags::bigEndian 4 payload.length ++ [0,0] ++
      payload).length = fmpHeaderSize + payload.length := by
    simp [fmpMagic,fmpHeaderSize,hfour]
    omega
  have hmagic : (fmpMagic ++ fmpVersion::flags::bigEndian 4 payload.length ++ [0,0] ++
      payload).take 4 = fmpMagic := rfl
  have hversion : (fmpMagic ++ fmpVersion::flags::bigEndian 4 payload.length ++ [0,0] ++
      payload)[4]? = some fmpVersion := rfl
  have hflags : (fmpMagic ++ fmpVersion::flags::bigEndian 4 payload.length ++ [0,0] ++
      payload)[5]?.getD 0 = flags := rfl
  simp only [deserialize,hfield,hbody,hall,hmagic,hversion,hflags,fromBytes_bigEndian hlt,
    ne_eq,not_true_eq_false,if_false,Nat.lt_irrefl,List.take_length,
    if_neg (Nat.not_lt.mpr (Nat.le_add_right fmpHeaderSize payload.length))]

theorem packHeader_spec {flags : UInt8} {n : ℕ} {header : Bytes}
    (h : packHeader flags n = some header) : header.length = 12 := by
  obtain ⟨len,hlen,rfl⟩ := Option.map_eq_some_iff.mp h
  rw [toBytes] at hlen
  split_ifs at hlen
  obtain rfl := Option.some.inj hlen
  simp [fmpMagic,length_bigEndian]

/-- The frame of a payload, if its length fits the header and the field before the frame. -/
theorem sendFrame_eq_some {msgpack : Option Proto.Msgpack} {useMsgpack : Bool} {m : FMPMessage}
    {data : Bytes} : m.sendFrame msgpack useMsgpack = some data ↔
      ∃ e header, m.encodePayload msgpack useMsgpack = some e ∧
        packHeader ((if m.encrypted then 0x01 else 0x00) ||| e.1) e.2.length = some header ∧
        e.2.length+12 < 2^32 ∧ data = header ++ e.2 := by
  simp only [sendFrame,serialize,Option.bind_eq_bind,Option.bind_assoc,Option.bind_eq_some_iff,
    Option.pure_def,Option.bind_some,Option.some.injEq]
  constructor
  · rintro ⟨e,he,header,hheader,field,hfield,rfl⟩
    refine ⟨e,header,he,hheader,?_,rfl⟩
    rw [toBytes] at hfield
    split_ifs at hfield with hlt
    rw [List.length_append,packHeader_spec hheader] at hlt
    omega
  · rintro ⟨e,header,he,hheader,hlt,rfl⟩
    have hlength : (header ++ e.2).length < 256^4 := by
      rw [List.length_append,packHeader_spec hheader]
      omega
    exact ⟨e,he,header,hheader,_,if_pos hlength,rfl⟩

/-- The receiver can read what the sender packs with msgpack. -/
def Unpacks (msgpack : Option Proto.Msgpack) (unpackb : Bytes → Option Json) : Prop :=
  ∀ lib, msgpack = some lib → ∀ d b, lib.packb d = some b → unpackb b = some d

theorem flags_spec (encrypted : Bool) {format : UInt8} (h : format = 0x02 ∨ format = 0) :
    ((if encrypted then 0x01 else 0x00) ||| format) &&& 2 = format ∧
      decide (((if encrypted then 0x01 else 0x00) ||| format) &&& 1 ≠ 0) = encrypted := by
  rcases h with rfl | rfl <;> cases encrypted <;> decide

theorem readPayload_encodePayload {msgpack : Option Proto.Msgpack} {useMsgpack : Bool}
    {unpackb : Bytes → Option Json} (hl : Unpacks msgpack unpackb) {m : FMPMessage}
    {e : UInt8 × Bytes} (he : m.encodePayload msgpack useMsgpack = some e) :
    readPayload unpackb ((if m.encrypted then 0x01 else 0x00) ||| e.1) e.2 = some m.toDict ∧
      decide (((if m.encrypted then 0x01 else 0x00) ||| e.1) &&& 1 ≠ 0) = m.encrypted := by
  unfold encodePayload at he
  cases hlib : if useMsgpack then msgpack else none with
  | none =>
    rw [hlib] at he
    obtain rfl := Option.some.inj he
    obtain ⟨hformat,hflag⟩ := flags_spec m.encrypted (.inr rfl)
    refine ⟨?_,hflag⟩
    rw [readPayload,if_neg (not_not.mpr hformat),Json.decode_encodeAscii]
  | some lib =>
    rw [hlib] at he
    obtain ⟨b,hb,rfl⟩ := Option.map_eq_some_iff.mp he
    have hsome : msgpack = some lib := by
      split_ifs at hlib
      exact hlib
    obtain ⟨hformat,hflag⟩ := flags_spec m.encrypted (.inl rfl)
    refine ⟨?_,hflag⟩
    rw [readPayload,if_pos (by rw [hformat]; decide)]
    exact hl lib hsome _ _ hb

/-- A frame that is sent comes back as its message and is accepted where it keeps to the
receiver's limit, which the sender does not look at. -/
theorem received_iff {msgpack : Option Proto.Msgpack} {useMsgpack : Bool}
    {unpackb : Bytes → Option Json} (hl : Unpacks msgpack unpackb) {m : FMPMessage}
    {e : UInt8 × Bytes} {header : Bytes} (he : m.encodePayload msgpack useMsgpack = some e)
    (hheader : packHeader ((if m.encrypted then 0x01 else 0x00) ||| e.1) e.2.length =
      some header) :
    AcceptsLength (header ++ e.2) ∧ deserialize unpackb (header ++ e.2) = some m ↔
      e.2.length+12 ≤ maxFrameLength := by
  have hlength : (header ++ e.2).length = e.2.length+12 := by
    rw [List.length_append,packHeader_spec hheader,Nat.add_comm]
  unfold AcceptsLength
  rw [hlength]
  constructor
  · exact fun h => h.1.2
  · intro h
    obtain ⟨hread,hflag⟩ := readPayload_encodePayload hl he
    have hobj : asObj m.toDict = some m.toDict := rfl
    have hfits : ¬fmpMaxPayloadSize < e.2.length := by
      have hsame : fmpMaxPayloadSize = maxFrameLength := rfl
      omega
    refine ⟨⟨Nat.succ_pos _,h⟩,?_⟩
    rw [deserialize_frame unpackb hheader,if_neg hfits,hread,Option.bind_some,hobj,
      Option.bind_some,hflag,fromDict_toDict]

end FMPMessage

namespace Json

/-- The text of a value stands as it is in that of the rest of an object. -/
theorem writeMembers_member (esc : Char → List Char) (pre post : List (String × Json))
    (key : String) : ∃ before behind, ∀ v,
      writeMembers esc (pre ++ (key,v)::post) = before ++ write esc v ++ behind := by
  induction pre with
  | nil =>
    exact ⟨',' :: ' ' :: quote esc key ++ [':',' '],writeMembers esc post,
      fun v => by simp [writeMembers]⟩
  | cons p pre ih =>
    obtain ⟨before,behind,heq⟩ := ih
    refine ⟨',' :: ' ' :: quote esc p.1 ++ ':' :: ' ' :: write esc p.2 ++ before,behind,?_⟩
    intro v
    rw [List.cons_append,writeMembers,heq]
    simp

theorem write_member (esc : Char → List Char) (pre post : List (String × Json)) (key : String) :
    ∃ before behind, ∀ v,
      write esc (.obj (pre ++ (key,v)::post)) = before ++ write esc v ++ behind := by
  cases pre with
  | nil =>
    exact ⟨'{' :: quote esc key ++ [':',' '],writeMembers esc post,fun v => by simp [write]⟩
  | cons p pre =>
    obtain ⟨before,behind,heq⟩ := writeMembers_member esc pre post key
    refine ⟨'{' :: quote esc p.1 ++ ':' :: ' ' :: write esc p.2 ++ before,behind,?_⟩
    intro v
    rw [List.cons_append,write,heq]
    simp

theorem escapeAscii_base64 (b : Bytes) : ∀ c ∈ Base64.encode b, escapeAscii c = [c] :=
  Base64.forall_encode (by decide) (by decide) b

theorem write_base64 (b : Bytes) : write escapeAscii (.str (String.ofList (Base64.encode b))) =
    ['"'] ++ Base64.encode b ++ ['"'] := by
  have hquote : (Base64.encode b).flatMap escapeAscii = Base64.encode b := by
    rw [List.flatMap_congr (escapeAscii_base64 b)]
    simp
  simp [write,quote,hquote]

end Json

namespace FMPMessage

def withPayload (m : FMPMessage) (payload : Bytes) : FMPMessage :=
  { m with business := { m.business with payload := payload } }

/-- The bytes of the JSON text of a message besides its payload. -/
def overhead (m : FMPMessage) : ℕ := (encodeAscii (m.withPayload []).toDict).length

theorem length_encodeAscii (m : FMPMessage) : (encodeAscii m.toDict).length =
    m.overhead+4*((m.business.payload.length+2)/3) := by
  obtain ⟨a,d,houter⟩ := Json.write_member escapeAscii
    [("message_id",.str m.messageId),("link",m.link.toDict)]
    [("control",m.control.toDict),("encrypted",.bool m.encrypted)] "business"
  obtain ⟨b,c,hinner⟩ := Json.write_member escapeAscii
    [("payload_type",.str m.business.payloadType.value)]
    [("round_id",.str m.business.roundId),("round_number",.int m.business.roundNumber),
      ("max_rounds",.int m.business.maxRounds)] "payload"
  have htext : ∀ payload, (encodeAscii (m.withPayload payload).toDict).length =
      (encodeUtf8 a).length+(encodeUtf8 b).length+1+4*((payload.length+2)/3)+1+
        (encodeUtf8 c).length+(encodeUtf8 d).length := by
    intro payload
    have hwrite : dumpsAscii (m.withPayload payload).toDict =
        a ++ (b ++ (['"'] ++ Base64.encode payload ++ ['"']) ++ c) ++ d := by
      rw [← Json.write_base64,← hinner,← houter]
      rfl
    rw [encodeAscii,hwrite]
    simp only [encodeUtf8_append,List.length_append,
      length_encodeUtf8_ascii (Base64.encode_ascii payload),Base64.length_encode]
    have hmark : (encodeUtf8 ['"']).length = 1 := by decide
    rw [hmark]
    omega
  have hself : m.withPayload m.business.payload = m := rfl
  have hlength := htext m.business.payload
  rw [hself] at hlength
  have hempty := htext []
  rw [hlength,overhead,hempty]
  simp only [List.length_nil]
  omega

/-- The length of the payload of the frame; `none` where msgpack refuses the message. -/
def encodedLength (msgpack : Option Proto.Msgpack) (useMsgpack : Bool) (m : FMPMessage) :
    Option ℕ :=
  match if useMsgpack then msgpack else none with
  | some lib => (lib.packb m.toDict).map List.length
  | none => some (m.overhead+4*((m.business.payload.length+2)/3))

theorem encodedLength_eq (msgpack : Option Proto.Msgpack) (useMsgpack : Bool) (m : FMPMessage) :
    m.encodedLength msgpack useMsgpack =
      (m.encodePayload msgpack useMsgpack).map fun e => e.2.length := by
  unfold encodedLength encodePayload
  cases if useMsgpack then msgpack else none with
  | none =>
    rw [← length_encodeAscii]
    rfl
  | some lib =>
    simp only [Option.map_map]
    rfl

/-- A message is refused by the sender or comes back as it is, in a frame that the receiver
accepts, if and only if its frame keeps to 16 MiB or is too long for the length field. -/
theorem frame_limits_iff (msgpack : Option Proto.Msgpack) (unpackb : Bytes → Option Json)
    (hl : Unpacks msgpack unpackb) (useMsgpack : Bool) (m : FMPMessage) :
    (∀ data, m.sendFrame msgpack useMsgpack = some data →
      AcceptsLength data ∧ deserialize unpackb data = some m) ↔
    ∀ n, m.encodedLength msgpack useMsgpack = some n → n+12 ≤ maxFrameLength ∨ 2^32 ≤ n+12 := by
  rw [encodedLength_eq]
  constructor
  · intro h n hn
    obtain ⟨e,he,rfl⟩ := Option.map_eq_some_iff.mp hn
    by_cases hlt : e.2.length+12 < 2^32
    · obtain ⟨header,hheader⟩ : ∃ header,
          packHeader ((if m.encrypted then 0x01 else 0x00) ||| e.1) e.2.length = some header := by
        have hfits : e.2.length < 256^4 := by omega
        exact ⟨_,by rw [packHeader,toBytes,if_pos hfits]; rfl⟩
      have hsent := sendFrame_eq_some.mpr ⟨e,header,he,hheader,hlt,rfl⟩
      exact .inl ((received_iff hl he hheader).mp (h _ hsent))
    · exact .inr (by omega)
  · intro h data hdata
    obtain ⟨e,header,he,hheader,hlt,rfl⟩ := sendFrame_eq_some.mp hdata
    have hlimit := h e.2.length (by rw [he]; rfl)
    exact (received_iff hl he hheader).mpr (by omega)

def taskResult (payload : Bytes) : FMPMessage where
  messageId := "fmp_1"
  link := { sourceId := "a", targetId := "b" }
  business := { payloadType := .taskResult, payload := payload }
  control := { controlType := .ack }

theorem overhead_taskResult (payload : Bytes) : (taskResult payload).overhead = 348 := by
  show (taskResult []).overhead = 348
  decide +kernel

theorem frame_limits_iff_small : ∃ data,
    (taskResult [1,2,3,4]).sendFrame none false = some data ∧
      AcceptsLength data ∧ deserialize (fun _ => none) data = some (taskResult [1,2,3,4]) := by
  have hsome : ((taskResult [1,2,3,4]).sendFrame none false).isSome = true := by decide +kernel
  obtain ⟨data,hdata⟩ := Option.isSome_iff_exists.mp hsome
  refine ⟨data,hdata,(frame_limits_iff none (fun _ => none) (fun _ h => nomatch h) false
    (taskResult [1,2,3,4])).mpr ?_ data hdata⟩
  intro n hn
  left
  obtain rfl := Option.some.inj hn
  rw [overhead_taskResult]
  decide

/-- A payload of 16 MiB goes out, and the receiver takes neither its frame nor the message. -/
theorem oversized_frame_is_sent : ∃ data,
    (taskResult (List.replicate fmpMaxPayloadSize 0)).sendFrame none false = some data ∧
      ¬AcceptsLength data ∧ deserialize (fun _ => none) data = none := by
  set m := taskResult (List.replicate fmpMaxPayloadSize 0) with hm
  have hlength : (encodeAscii m.toDict).length = 348+4*((16*1024*1024+2)/3) := by
    have hpayload : m.business.payload.length = 16*1024*1024 := List.length_replicate
    rw [length_encodeAscii,hpayload,hm,overhead_taskResult]
  have hfits : (encodeAscii m.toDict).length < 256^4 := by omega
  obtain ⟨header,hheader⟩ : ∃ header,
      packHeader ((if m.encrypted then 0x01 else 0x00) ||| 0) (encodeAscii m.toDict).length =
        some header := ⟨_,by rw [packHeader,toBytes,if_pos hfits]; rfl⟩
  refine ⟨header ++ encodeAscii m.toDict,?_,?_,?_⟩
  · refine sendFrame_eq_some.mpr ⟨(0,encodeAscii m.toDict),header,rfl,hheader,?_,rfl⟩
    show (encodeAscii m.toDict).length+12 < 2^32
    omega
  · rintro ⟨-,hle⟩
    rw [List.length_append,packHeader_spec hheader,maxFrameLength] at hle
    omega
  · rw [deserialize_frame _ hheader,if_pos]
    rw [fmpMaxPayloadSize]
    omega

end FMPMessage
end FusionMultiNodes
