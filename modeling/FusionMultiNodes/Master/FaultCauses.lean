import FusionMultiNodes.Agent.TaskOutcome
import FusionMultiNodes.Master.Step

/-! What is behind the faults that a master records: the answers of its agents, with the truth about
the nodes. -/
namespace FusionMultiNodes

inductive AgentAnswer
  | executed (o : TaskOutcome)
  /-- Status 429 of the agent's own rate limit. -/
  | limited (text : String)
  /-- Another refusal with a client error, such as 400 for a type of task or 403 for a caller. -/
  | refused (status : ℕ) (text : String)
  | serverError (status : ℕ) (text : String)
  /-- The address is no safe peer, and nothing is sent. -/
  | unsafePeer (ipAddress : String)
  /-- The request raises. -/
  | lost (exception message : String)

namespace AgentAnswer

def httpText (n : NodeId) (status : ℕ) (text : String) : String :=
  "agent " ++ n ++ " HTTP " ++ toString status ++ ": " ++ String.ofList (text.toList.take 200)

/-- What `_dispatch_to_node` returns or raises. -/
def reply (n : NodeId) : AgentAnswer → AgentReply
  | .executed o => o.reply
  | .limited text =>
    .dict { TaskOutcome.errorResult
        ("agent " ++ n ++ " 限流 429: " ++ String.ofList (text.toList.take 200)) with
      rateLimited := true }
  | .refused status text => .raised "RuntimeError" (httpText n status text)
  | .serverError status text => .raised "RuntimeError" (httpText n status text)
  | .unsafePeer ipAddress =>
    .raised "RuntimeError" ("节点 " ++ n ++ " ip " ++ ipAddress ++ " 非安全对端, 拒绝派发")
  | .lost exception message => .raised exception message

def failed : AgentAnswer → Bool
  | .executed o => o.nodeFailed
  | .serverError _ _ => true
  | .lost _ _ => true
  | _ => false

end AgentAnswer

/-- What a dispatch path makes of an answer: a fault of the node, a failure, one that is tried
again. -/
structure Verdict where
  fault : Bool
  failure : Bool
  retryable : Bool
  deriving DecidableEq

namespace AgentReply

def isRaised : AgentReply → Bool
  | .raised _ _ => true
  | _ => false

/-- The verdict of `_dispatch_data` on the answer of the only node. -/
def dataVerdict (n : NodeId) (reply : AgentReply) : Verdict :=
  let p := ClusterMaster.collectReply ⟨[],[],false,false⟩ n reply
  ⟨p.2 || reply.isRaised,!p.1.errors.isEmpty,p.1.transientFail && !p.1.logicFail⟩

/-- The verdict of `_dispatch_pipeline` on the answer to a step. -/
def pipelineVerdict (n : NodeId) : AgentReply → Verdict
  | .raised _ _ => ⟨true,true,true⟩
  | .notDict => ⟨false,true,false⟩
  | .dict r =>
    match ClusterMaster.stepFailure n r with
    | some o => ⟨false,true,o.retryable⟩
    | none => ⟨false,false,false⟩

/-- Anything but a result without an error that has no hidden states, which is none of a pipeline
step. -/
def mayBeStep : AgentReply → Bool
  | .dict r => r.error.isSome || r.hiddenStates.isSome || r.upstreamMissing
  | _ => true

end AgentReply

/-- One of the flags that `_dispatch_data` looks for. -/
def AgentResult.flagged (r : AgentResult) : Bool :=
  r.rateLimited || r.overload || r.dedupBlocked || r.sandboxBlocked || r.fencingRejected

/-- An exception, or an object that has one of the flags or neither an error nor the flag for a
missing upstream. -/
def AgentReply.plain : AgentReply → Bool
  | .raised _ _ => true
  | .notDict => false
  | .dict r => r.flagged || (r.error.isNone && !r.upstreamMissing)

structure FaultWatch where
  master : ClusterMaster
  /-- History variable: the answers that a coroutine has got from its nodes. -/
  answers : ℕ → ℕ → Option AgentAnswer
  /-- History variable: the failures of a node or of the link to it. -/
  failures : NodeId → ℕ

inductive FaultEvent
  | answer (cid i : ℕ) (a : AgentAnswer) (now : ℚ)
  /-- `POST /api/nodes/fault`, with whether the node has failed. -/
  | report (id : NodeId) (failed : Bool) (now : ℚ)
  | other (e : MasterEvent)

namespace FaultWatch

variable (w : FaultWatch)

def create (config : MasterConfig) (ha : HaState) : FaultWatch :=
  ⟨.create config ha,fun _ _ => none,fun _ => 0⟩

/-- The node that a coroutine has sent its `i`-th request to. -/
def target (cid i : ℕ) : Option NodeId :=
  match w.master.frames.get? cid with
  | some (.dispatch d) => d.nodeIds[i]?
  | _ => none

def countFailure (n : NodeId) (failed : Bool) : NodeId → ℕ :=
  if failed then Function.update w.failures n (w.failures n+1) else w.failures

def step : FaultEvent → Option FaultWatch
  | .answer cid i a now =>
    (w.target cid i).bind fun n => (w.master.step (.reply cid i (a.reply n) now)).map fun m =>
      ⟨m,Function.update w.answers cid (Function.update (w.answers cid) i (some a)),
        w.countFailure n a.failed⟩
  | .report id failed now => some ⟨w.master.reportFault id now,w.answers,w.countFailure id failed⟩
  | .other e =>
    match e with
    | .reply _ _ _ _ => none
    | .reportFault _ _ => none
    | e => (w.master.step e).map fun m => { w with master := m }

def machine : Machine FaultWatch FaultEvent := ⟨step⟩

/-- The node whose answer the loop of `_dispatch_data` looks at next, with that answer. -/
def collected (cid : ℕ) : Option (NodeId × AgentAnswer) :=
  match w.master.frames.get? cid with
  | some (.dispatch d) =>
    match d.pc with
    | .collect ((n,_)::rest) _ =>
      (w.answers cid (d.nodeIds.length-(rest.length+1))).map fun a => (n,a)
    | _ => none
  | _ => none

/-- The event shows a failure of the node or of the link to it. -/
def Fails (n : NodeId) : FaultEvent → Prop
  | .answer cid i a _ => w.target cid i = some n ∧ a.failed = true
  | .report id failed _ => id = n ∧ failed = true
  | .other (.resume cid _) => ∃ a, w.collected cid = some (n,a) ∧ a.failed = true
  | .other _ => False

def Records (w' : FaultWatch) (n : NodeId) : Prop :=
  (w'.master.faultCounts.get? n).isSome = true ∧
    w'.master.faultCounts.get? n ≠ w.master.faultCounts.get? n

/-- Faults are recorded for failures, bans for as many of them as it takes, and both dispatch paths
take an answer the same way. -/
structure Attributes (w : FaultWatch) (e : FaultEvent) (w' : FaultWatch) : Prop where
  blames : ∀ n, w.Records w' n → w.Fails n e
  bans : ∀ n, w.Records w' n →
    w'.master.bannedNodes.get? n ≠ w.master.bannedNodes.get? n → faultThreshold ≤ w'.failures n
  alike : ∀ cid i a now n, e = .answer cid i a now → w.target cid i = some n →
    (a.reply n).mayBeStep = true → (a.reply n).dataVerdict n = (a.reply n).pipelineVerdict n

def Unmistaken : FaultEvent → Prop
  | .answer cid i a _ => ∀ n, w.target cid i = some n → (a.reply n).plain = true ∧
    ((a.reply n).isRaised = true → w.master.nodes.contains n = true → a.failed = true)
  | .report id failed _ => w.master.nodes.contains id = true → failed = true
  | .other _ => True

end FaultWatch
end FusionMultiNodes
