import FusionMultiNodes.Fmp.Message
import FusionMultiNodes.Lib.Machine

/-! The read loop of one FMP connection: a length field, a body, a callback. The callback is
a coroutine function, and a loop has to schedule the coroutine that it returns. -/
namespace FusionMultiNodes

/-- A server: its decryption, its msgpack reader, and the payload types that have a handler
(all of them where a default is set). -/
structure FMPServer where
  crypto : Option FMPCrypto
  unpackb : Bytes → Option Json
  handles : PayloadType → Bool

/-- The message of a frame; `none` where the loop gets an exception. -/
def FMPServer.receive (srv : FMPServer) (data : Bytes) : Option FMPMessage :=
  (FMPMessage.deserialize srv.unpackb data).bind fun msg =>
    match srv.crypto with
    | some crypto => if msg.encrypted then crypto.decryptMessage msg else some msg
    | none => some msg

def maxFrameLength : ℕ := 16 * 1024 * 1024

/-- A well-formed frame: the body behind a length field the loop accepts. -/
structure FMPFrame (srv : FMPServer) where
  body : Bytes
  message : FMPMessage
  positive : 0 < body.length
  bounded : body.length ≤ maxFrameLength
  receives : srv.receive body = some message

def wire {srv : FMPServer} (frames : List (FMPFrame srv)) : Bytes :=
  frames.flatMap fun f => bigEndian 4 f.body.length ++ f.body

/-- The messages that a registered handler is to be given. -/
def wanted {srv : FMPServer} (frames : List (FMPFrame srv)) : List FMPMessage :=
  (frames.map FMPFrame.message).filter fun m => srv.handles m.business.payloadType

inductive Awaited where
  | header
  | body (length : ℕ)
  deriving DecidableEq

/-- What a read loop does with the coroutine its callback returns: `_InboundPeer` drops it,
`FMPConnection` makes it a task. -/
inductive Callback where
  | dropped
  | scheduled
  deriving DecidableEq

/-- One connection. `inFlight` has been sent and not yet arrived, `buffer` is what the reader
holds, `tasks` are the dispatches the event loop has still to run and `handed` the calls of
handlers. -/
structure InboundPeer where
  inFlight : Bytes
  buffer : Bytes := []
  awaited : Awaited := .header
  alive : Bool := true
  tasks : List FMPMessage := []
  handed : List FMPMessage := []
  deriving DecidableEq

inductive InboundEvent where
  | arrive (n : ℕ)
  | read
  | timeout
  | eof
  | runTask
  deriving DecidableEq

namespace InboundPeer

def connect {srv : FMPServer} (frames : List (FMPFrame srv)) : InboundPeer :=
  { inFlight := wire frames }

variable (srv : FMPServer) (callback : Callback) (p : InboundPeer)

/-- How many bytes the pending `readexactly` asks for. -/
def needed : ℕ :=
  match p.awaited with
  | .header => 4
  | .body n => n

/-- `_on_message(msg)`: a call of a coroutine function runs nothing of its body. -/
def onMessage (msg : FMPMessage) : InboundPeer :=
  match callback with
  | .dropped => p
  | .scheduled => { p with tasks := p.tasks ++ [msg] }

def dispatch (msg : FMPMessage) : InboundPeer :=
  if srv.handles msg.business.payloadType then { p with handed := p.handed ++ [msg] } else p

/-- The pending read completes with `data`. -/
def complete (data : Bytes) : InboundPeer :=
  match p.awaited with
  | .header =>
    let n := fromBytes data
    if n ≤ 0 ∨ maxFrameLength < n then { p with alive := false } else { p with awaited := .body n }
  | .body _ =>
    match srv.receive data with
    | none => { p with alive := false }
    | some msg => { p with awaited := .header }.onMessage callback msg

/-- A timeout goes back to the top of the loop; a read that was cut off consumes nothing. -/
def step : InboundEvent → Option InboundPeer
  | .arrive n =>
    some { p with buffer := p.buffer ++ p.inFlight.take n, inFlight := p.inFlight.drop n }
  | .read =>
    if p.alive = true ∧ p.needed ≤ p.buffer.length then
      some ({ p with buffer := p.buffer.drop p.needed }.complete srv callback
        (p.buffer.take p.needed))
    else none
  | .timeout => if p.alive then some { p with awaited := .header } else none
  | .eof =>
    if p.alive = true ∧ p.inFlight = [] ∧ p.buffer.length < p.needed then
      some { p with buffer := [], alive := false }
    else none
  | .runTask =>
    match p.tasks with
    | [] => none
    | msg::rest => some ({ p with tasks := rest }.dispatch srv msg)

def machine : Machine InboundPeer InboundEvent := ⟨fun p => p.step srv callback⟩

def Settled : Prop :=
  p.inFlight = [] ∧ p.step srv callback .read = none ∧ p.tasks = []

end InboundPeer
end FusionMultiNodes
