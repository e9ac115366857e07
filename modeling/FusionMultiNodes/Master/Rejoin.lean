import FusionMultiNodes.Master.JoinAgreement
import FusionMultiNodes.Master.NodeTables

/-! An agent and its master. The agent registers once, when it starts, and only heartbeats from
then on; the master has its tables in memory, and forgets them when it restarts. -/
namespace FusionMultiNodes

/-- What an agent sends to its master; the load goes with each heartbeat. -/
inductive AgentMessage
  | register (req : NodeRegisterRequest)
  | heartbeat (totalMemoryGb availableMemoryGb : ℚ) (activeTasks : ℤ) (supervisorAvailable : Bool)
  | load (metrics : LoadMetrics) (gpuMemoryUsedGb gpuMemoryTotalGb : ℚ)
      (supervisorAvailable : Bool)
  | fault

/-- An agent registers, without a look at the answer, and then heartbeats. -/
inductive AgentPhase
  | stopped | registering | beating
  deriving DecidableEq

structure AgentSetup where
  hosts : JoinHosts
  agent : NodeRegisterRequest
  heartbeatTimeout : ℚ
  timeout_pos : 0 < heartbeatTimeout

/-- The request is one of the agent, whose host and version do not change. -/
def NodeRegisterRequest.IsOf (req a : NodeRegisterRequest) : Prop :=
  req.nodeId = a.nodeId ∧ req.hostname = a.hostname ∧ req.ipAddress = a.ipAddress ∧
    req.protocolVersion = a.protocolVersion

instance (req a : NodeRegisterRequest) : Decidable (req.IsOf a) :=
  inferInstanceAs (Decidable (_ ∧ _))

inductive LinkEvent
  -- the agent
  | start (req : NodeRegisterRequest)
  | registered
  | beat (totalMemoryGb availableMemoryGb : ℚ) (activeTasks : ℤ) (supervisorAvailable : Bool)
      (metrics : LoadMetrics) (gpuMemoryUsedGb gpuMemoryTotalGb : ℚ)
  | stop
  -- the network
  | deliver (i : ℕ)
  | lose (i : ℕ)
  -- the master on its own
  | refresh
  | cleanup
  | probe
  | probed (ok : Bool)
  | dispatchFailed
  | tick (now : ℚ)
  -- its operator
  | approve (approvedBy : String)
  | reject (reason : String)
  | revoke
  | manualJoin (hostname ipAddress : String) (port : ℤ)
  | unregister (banned : Bool)
  | unban
  | restart

/-- No operator acts, the agent is not started or stopped, the master does not restart, and no
message is lost. -/
def LinkEvent.unaided : LinkEvent → Bool
  | .registered | .beat .. | .deliver _ | .refresh | .cleanup | .probe | .probed _
  | .dispatchFailed | .tick _ => true
  | _ => false

/-- The server handles a message of the agent `id`. -/
def JoinState.receive (h : JoinHosts) (id : NodeId) (s : JoinState) (now : ℚ) :
    AgentMessage → JoinState
  | .register req => (s.registerNode h req now).1
  | .heartbeat total available active supervisor => { s with
      domain := s.domain.updateHeartbeat id (some total) (some available) (some active)
        (some supervisor) now }
  | .load metrics used total supervisor => { s with
      domain := s.domain.updateNodeLoad id metrics (some used) (some total) (some supervisor) now }
  | .fault => { s with domain := s.domain.reportFault id now }

/-- A master, one of its agents, and the messages under way; `probing` is a probe of the agent's
node, whose ban has run out. -/
structure AgentLink where
  server : JoinState
  probing : Bool
  phase : AgentPhase
  network : List AgentMessage
  clock : ℚ

namespace AgentLink

variable (p : AgentSetup) (s : AgentLink)

def create (approvals : Option NodeApprovalManager) (clock : ℚ) : AgentLink :=
  ⟨.create approvals,false,.stopped,[],clock⟩

def withDomain (d : NodeDomain) : AgentLink := { s with server := { s.server with domain := d } }

def step : LinkEvent → Option AgentLink
  | .start req =>
    if s.phase = .stopped ∧ req.IsOf p.agent then
      some { s with phase := .registering, network := .register req :: s.network }
    else none
  | .registered => if s.phase = .registering then some { s with phase := .beating } else none
  | .beat total available active supervisor metrics used gpuTotal =>
    if s.phase = .beating then
      some { s with
        network := .heartbeat total available active supervisor ::
          .load metrics used gpuTotal supervisor :: s.network }
    else none
  | .stop =>
    if s.phase = .stopped then none
    else some { s with phase := .stopped, network := .fault :: s.network }
  | .deliver i => (s.network[i]?).map fun msg => { s with
      server := s.server.receive p.hosts p.agent.nodeId s.clock msg
      network := s.network.eraseIdx i }
  | .lose i => (s.network[i]?).map fun _ => { s with network := s.network.eraseIdx i }
  | .refresh => some (s.withDomain (s.server.domain.refreshNodes p.heartbeatTimeout s.clock))
  | .cleanup => some (s.withDomain (s.server.domain.cleanupOfflineNodes s.clock))
  | .probe =>
    if s.probing then none
    else
      some { s.withDomain (s.server.domain.probeBannedNodes s.clock) with
        probing := decide (p.agent.nodeId ∈ s.server.domain.probes s.clock) }
  | .probed ok =>
    if s.probing then
      some { s.withDomain (s.server.domain.probed p.agent.nodeId ok s.clock) with probing := false }
    else none
  | .dispatchFailed => some (s.withDomain (s.server.domain.reportFault p.agent.nodeId s.clock))
  | .tick now => if s.clock ≤ now then some { s with clock := now } else none
  | .approve approvedBy => some { s with
      server := (s.server.approveNode p.hosts p.agent.nodeId approvedBy s.clock).1 }
  | .reject reason => some { s with server := (s.server.rejectNode p.agent.nodeId reason).1 }
  | .revoke => some { s with
      server := { s.server with
        approvals := s.server.approvals.map fun a => (a.revokeApproval p.agent.nodeId).getD a } }
  | .manualJoin hostname ipAddress port =>
    if isSafePathSegment p.agent.nodeId then
      some { s with
        server := s.server.manualJoin p.hosts p.agent.nodeId hostname ipAddress port s.clock }
    else none
  | .unregister banned =>
    some (s.withDomain (s.server.domain.unregisterNode p.agent.nodeId banned s.clock))
  | .unban => some (s.withDomain (s.server.domain.unbanNode p.agent.nodeId))
  | .restart => some { s with
      server := .create (s.server.approvals.map fun _ => .create)
      probing := false }

def machine : Machine AgentLink LinkEvent := ⟨step p⟩

def node? : Option NodeRecord := s.server.domain.nodes.get? p.agent.nodeId

def isRunning : Bool := decide (s.phase ≠ .stopped)

/-- The node is approved, or its host is on the list of those that are let in. -/
def isApproved : Bool := s.server.lets p.hosts p.agent

def isBanned (now : ℚ) : Bool := s.server.domain.isNodeBanned p.agent.nodeId now

/-- The agent is running, and the node is approved and not banned. -/
def isDue : Bool := s.isRunning && s.isApproved p && !s.isBanned p s.clock

/-- `get_online_nodes` returns the node. -/
def Listed : Prop :=
  ∃ n, s.node? p = some n ∧ n ∈ s.server.domain.getOnlineNodes p.heartbeatTimeout s.clock

/-- The node is listed after some steps that nobody has to take for it. -/
def Returns : Prop :=
  ∃ es t, (∀ e ∈ es, e.unaided = true) ∧ (machine p).exec s es = some t ∧ t.Listed p

def Recovers : Prop := s.isDue p = true → s.Returns p

/-- Whether heartbeats bring the node online, if it is on record. -/
def fit? : Option Bool := s.server.domain.fit? p.agent.nodeId

def Accepts : Prop := s.server.roleBlocks p.agent.nodeId = false ∧ p.agent.Valid p.hosts

def Underway : Prop := ∃ req, .register req ∈ s.network

/-- The node is on record without a fault, or not on record and a registration is under way that
is going to be accepted. -/
def Anchored : Prop :=
  s.fit? p = some true ∨ (s.fit? p = none ∧ s.Accepts p ∧ s.Underway)

/-- A fault of the node is on record for ever, as the agent goes on and is not banned for it. -/
def FaultStays : Prop :=
  s.isDue p = true ∧ s.fit? p ≠ none ∧
    (s.server.domain.windowedFaults p.agent.nodeId s.clock).length < faultThreshold

def ReleasedLate : Prop :=
  s.isRunning = true ∧ s.isApproved p = true ∧ s.isBanned p s.clock = true ∧ ¬s.Anchored p

/-- The step leaves the agent running for nothing: its only registration is refused or lost, the
master drops the record, or a fault stays on it. -/
def Strands : LinkEvent → Prop
  | .start _ => s.isApproved p = true ∧ s.isBanned p s.clock = false ∧ s.fit? p ≠ some true ∧
      ¬(s.fit? p = none ∧ s.Accepts p)
  | .deliver i => s.network[i]? = some .fault ∧ s.FaultStays p
  | .dispatchFailed => s.FaultStays p
  | .lose i => s.isDue p = true ∧ s.fit? p ≠ some true ∧
      ∀ req, AgentMessage.register req ∉ s.network.eraseIdx i
  | .cleanup => s.isDue p = true ∧ ¬(s.Accepts p ∧ s.Underway) ∧
      (s.node? p).any (fun n => NodeDomain.isStale s.clock n.toNodeInfo) = true
  | .unregister banned => banned = false ∧ s.isDue p = true ∧ ¬(s.Accepts p ∧ s.Underway)
  | .approve _ => s.isRunning = true ∧ s.isBanned p s.clock = false ∧ ¬s.Anchored p ∧
      p.agent.nodeId ≠ "" ∧ ∃ a r, s.server.approvals = some a ∧
        a.pending.get? p.agent.nodeId = some r ∧
          (s.fit? p = none → p.hosts.registerable r.ipAddress = false)
  | .manualJoin hostname ipAddress _ => s.isRunning = true ∧ s.isBanned p s.clock = false ∧
      ¬s.Anchored p ∧ s.isApproved p = false ∧ ∃ a, s.server.approvals = some a ∧
        a.lets p.hosts.autoApproves p.agent.nodeId hostname ipAddress = true
  | .unban => s.ReleasedLate p
  | .probed ok => ok = true ∧ s.ReleasedLate p
  | .tick now => s.isBanned p now = false ∧ s.ReleasedLate p
  | .restart => s.isRunning = true ∧ ¬(p.agent.Valid p.hosts ∧ s.Underway) ∧
      (s.server.approvals.isSome = true →
        p.hosts.autoApproves p.agent.hostname p.agent.ipAddress = true)
  | _ => False

end AgentLink
end FusionMultiNodes
