import FusionMultiNodes.Lib.Dict
import FusionMultiNodes.Lib.Machine

/-! The audit log: each event gets a place in a chain of hashes, and a line of the file. The head of
the chain is in memory, and only the file is written under a lock. -/
namespace FusionMultiNodes

/-- A `str`: any code points, surrogates too. -/
abbrev PyStr := List (Fin 0x110000)

def PyStr.encodes (s : PyStr) : Bool := s.all fun c => decide (c.val < 0xD800 ∨ 0xDFFF < c.val)

structure AuditEvent where
  ts : PyStr
  actor : PyStr
  action : PyStr
  path : PyStr
  method : PyStr
  nodeId : PyStr
  result : PyStr
  detail : PyStr
  deriving DecidableEq

def AuditEvent.encodes (e : AuditEvent) : Bool :=
  [e.ts,e.actor,e.action,e.path,e.method,e.nodeId,e.result,e.detail].all PyStr.encodes

/-- Hex digests. Both functions are ideal: what is hashed can be told from the digest. -/
inductive Digest
  /-- The empty string. -/
  | empty
  /-- Under the chain key, of the canonical form of a record without its MAC. -/
  | hmac (event : AuditEvent) (seq : ℕ) (prevHash : Digest)
  /-- Of the canonical form of a record. -/
  | sha256 (event : AuditEvent) (seq : ℕ) (prevHash mac : Digest)
  deriving DecidableEq

structure ChainedRecord where
  event : AuditEvent
  seq : ℕ
  prevHash : Digest
  mac : Digest
  deriving DecidableEq

namespace ChainedRecord

variable (r : ChainedRecord)

/-- `sha256(_canonical_full(record))`. -/
def hash : Digest := .sha256 r.event r.seq r.prevHash r.mac

/-- `verify_mac` of the payload of the record. -/
def verifies : Bool :=
  decide (r.mac ≠ .empty) && decide (r.mac = .hmac r.event r.seq r.prevHash)

end ChainedRecord

inductive AuditRecord
  | baseline (event : AuditEvent)
  | chained (r : ChainedRecord)
  deriving DecidableEq

def AuditEvent.isAscii (e : AuditEvent) : Bool :=
  [e.ts,e.actor,e.action,e.path,e.method,e.nodeId,e.result,e.detail].all fun s =>
    s.all fun c => decide (c.val < 0x80)

namespace AuditRecord

def event : AuditRecord → AuditEvent
  | baseline event => event
  | chained r => r.event

def chained? : AuditRecord → Option ChainedRecord
  | baseline _ => none
  | chained r => some r

end AuditRecord

structure AuditLogger where
  seq : ℕ
  prevHash : Digest
  chainKeyLoaded : Bool
  /-- The chain key has been derived. -/
  chainKey : Bool

inductive ChainComputation
  | succeeds
  /-- An exception before the new sequence number. -/
  | failsEarly
  /-- An exception after it. -/
  | failsLate

namespace AuditLogger

variable (l : AuditLogger)

def create : AuditLogger := ⟨0,.empty,false,false⟩

/-- `_ensure_chain_key`; `keyReady` says that the key can be derived now. -/
def ensureChainKey (keyReady : Bool) : AuditLogger :=
  if l.chainKeyLoaded then l else { l with chainKeyLoaded := true, chainKey := keyReady }

def sealRecord (event : AuditEvent) : ChainedRecord :=
  ⟨event,l.seq+1,l.prevHash,.hmac event (l.seq+1) l.prevHash⟩

def compute (event : AuditEvent) (keyReady : Bool) (c : ChainComputation) :
    AuditLogger × AuditRecord :=
  let l := l.ensureChainKey keyReady
  if l.chainKey then
    match c with
    | .failsEarly => (l,.baseline event)
    | .failsLate => ({ l with seq := l.seq+1 },.baseline event)
    | .succeeds =>
      -- `_chain_payload` encodes the text of the record
      if event.encodes then
        ({ l with seq := l.seq+1, prevHash := (l.sealRecord event).hash },
          .chained (l.sealRecord event))
      else ({ l with seq := l.seq+1 },.baseline event)
  else (l,.baseline event)

end AuditLogger

/-- A call of `log` between its computation and its write. -/
structure LogCall where
  record : AuditRecord
  /-- History variable: the record this process had chained last. -/
  after : Option ChainedRecord
  /-- History variable: the computations that have failed late since. -/
  skipped : ℕ

inductive AppendOutcome
  | written
  /-- An exception before anything is in the file. -/
  | failed
  /-- An exception when a part of the line is in the file. -/
  | torn
  /-- The same, and the last character is in the file in part. -/
  | cut
  /-- Only the newline is missing. -/
  | unended
  deriving DecidableEq

/-- A line with a record. -/
structure AuditLine where
  /-- History variable: the call that wrote it. -/
  call : ℕ
  record : AuditRecord
  deriving DecidableEq

inductive FileEnd
  | newline
  | withinLine
  | withinCharacter
  /-- Only the newline is missing. -/
  | unended (line : AuditLine)
  deriving DecidableEq

def FileEnd.line? : FileEnd → Option AuditLine
  | unended line => some line
  | _ => none

structure AuditWorld where
  logger : AuditLogger
  nextCall : ℕ
  calls : Dict ℕ LogCall
  /-- History variable: the record this process has chained last. -/
  latest : Option ChainedRecord
  /-- History variable: the computations that have failed late since. -/
  skipped : ℕ
  /-- The lines of the file that are records. -/
  lines : List AuditLine
  fileEnd : FileEnd
  /-- Where more was written behind a part of a character: the lines in the chunks of the file
  before it. -/
  decodable : Option (List AuditLine)
  /-- The last `seq` that the consumer saw. -/
  sinceSeq : ℕ
  /-- The calls whose records the consumer has got. -/
  received : List ℕ

inductive AuditStep
  | compute (event : AuditEvent) (keyReady : Bool) (c : ChainComputation)
  /-- `chunked` lines are in the chunks of the file before the last one. -/
  | append (call : ℕ) (outcome : AppendOutcome) (chunked : ℕ)
  | restart
  | pull

namespace AuditWorld

variable (w : AuditWorld)

/-- A first process on a file with records of an older version. -/
def start (legacy : List AuditEvent) : AuditWorld :=
  ⟨.create,legacy.length,∅,none,0,legacy.mapIdx fun i event => ⟨i,.baseline event⟩,.newline,none,0,[]⟩

def records : List AuditLine := w.lines ++ w.fileEnd.line?.toList

/-- `read`; a chunk that is not UTF-8 ends it, with the lines of the chunks before. -/
def read : List AuditLine := w.decodable.getD w.records

def compute (event : AuditEvent) (keyReady : Bool) (c : ChainComputation) : AuditWorld :=
  let p := w.logger.compute event keyReady c
  { w with
    logger := p.1
    nextCall := w.nextCall+1
    calls := w.calls.set w.nextCall ⟨p.2,w.latest,w.skipped⟩
    latest := p.2.chained?.or w.latest
    skipped := if p.2.chained?.isSome then 0 else w.skipped+(p.1.seq-w.logger.seq) }

/-- Something is written, which no character that was cut off goes on with. -/
def extend (chunked : ℕ) (fileEnd : FileEnd) : AuditWorld :=
  { w with
    fileEnd := fileEnd
    decodable := if w.fileEnd = .withinCharacter then w.decodable.or (some (w.lines.take chunked))
      else w.decodable }

/-- A whole line with its newline or without. -/
def place (line : AuditLine) : Bool → AuditWorld
  | true => { w with lines := w.lines ++ [line] }
  | false => { w with fileEnd := .unended line }

/-- The write of a call. Behind a torn line the new one cannot be read either. -/
def append (line : AuditLine) (outcome : AppendOutcome) (chunked : ℕ) : AuditWorld :=
  if line.record.event.encodes then
    match outcome with
    | .written =>
      if w.fileEnd = .newline then w.place line true else w.extend chunked .newline
    | .failed => w
    | .torn => w.extend chunked .withinLine
    | .cut => w.extend chunked .withinCharacter
    | .unended =>
      if w.fileEnd = .newline then w.place line false else w.extend chunked .withinLine
  else w

def restart : AuditWorld :=
  { w with logger := .create, calls := ∅, latest := none, skipped := 0 }

def chainedRecords : List ChainedRecord := w.records.filterMap fun line => line.record.chained?

def serves (line : AuditLine) : Bool :=
  line.record.chained?.all fun c => decide (w.sinceSeq ≤ c.seq)

/-- A consumer pulls with the last `seq` it saw. -/
def pull : AuditWorld :=
  let served := w.read.filter w.serves
  { w with
    received := w.received ++ served.map AuditLine.call
    sinceSeq := ((served.filterMap fun line => line.record.chained?).getLast?.map
      ChainedRecord.seq).getD w.sinceSeq }

def step : AuditStep → Option AuditWorld
  | .compute event keyReady c => some (w.compute event keyReady c)
  | .append call outcome chunked =>
    (w.calls.get? call).bind fun p =>
      if outcome = .cut ∧ p.record.event.isAscii then none
      else some (({ w with calls := w.calls.erase call } : AuditWorld).append ⟨call,p.record⟩ outcome
        chunked)
  | .restart => some w.restart
  | .pull => some w.pull

end AuditWorld

def auditMachine : Machine AuditWorld AuditStep := ⟨AuditWorld.step⟩

end FusionMultiNodes
