import FusionMultiNodes.Agent.Backend
import FusionMultiNodes.Lib.IntText
import FusionMultiNodes.Lib.Machine
import FusionMultiNodes.Master.NodeRecord
import FusionMultiNodes.Security.HostGuards
import FusionMultiNodes.Security.NodeApproval
import FusionMultiNodes.Security.Permission

/-! The ways into the cluster: the two registration routes, and the approval of a pending
request. -/
namespace FusionMultiNodes

structure HttpError where
  statusCode : ℕ
  detail : String
  deriving DecidableEq

def minCompatProtocolVersion : String := "0.8.0"

/-- The numbers in front; a digit that is not decimal ends them, where `int` would raise. -/
def versionParts : List (List Char) → List ℕ
  | [] => []
  | seg::segs =>
    let s := (seg.dropWhile isPySpace).rdropWhile isPySpace
    match s.mapM decimal? with
    | some ds => if s = [] then [] else ofDigits ds :: versionParts segs
    | none => []

def parseVersion (v : String) : List ℕ := versionParts (v.toList.splitOn '.')

/-- `_check_protocol_compat`: the detail of a refusal. -/
def checkProtocolCompat (agentVersion : String) : Except String Unit :=
  if agentVersion = "" then .ok ()
  else
    let av := parseVersion agentVersion
    if av = [] then .ok ()
    else if av < parseVersion minCompatProtocolVersion then
      .error ("协议版本不兼容: agent " ++ agentVersion ++ " < master 最低 " ++
        minCompatProtocolVersion ++ "。请升级该节点 fusion-multi-node 至 >= " ++
        minCompatProtocolVersion ++ " 后重新加入集群")
    else .ok ()

inductive JoinRefusal
  | unsafeNodeId
  | protocol (detail : String)
  | permission
  | notApproved (status : ApprovalStatus)
  | banned
  deriving DecidableEq

/-- What the routes ask of the network: `registerable` is `is_registerable_host`, `autoApproves`
the list of hosts that are let in. -/
structure JoinHosts where
  registerable : String → Bool
  autoApproves : String → String → Bool

structure JoinState where
  approvals : Option NodeApprovalManager
  permissions : PermissionManager
  domain : NodeDomain

/-- The metadata both routes put into the request for approval. -/
def NodeRegisterRequest.metadata (req : NodeRegisterRequest) : JoinMetadata where
  totalMemoryGb := some req.totalMemoryGb
  availableMemoryGb := some req.availableMemoryGb
  maxTasks := some req.maxTasks
  cpuCores := some req.cpuCores
  gpuCores := some req.gpuCores
  arch := some req.arch
  deviceModel := some req.deviceModel
  umaSizeGb := some req.umaSizeGb
  mlxVersion := some req.mlxVersion
  tags := some req.tags

def NodeRegisterRequest.joinRequest (req : NodeRegisterRequest) (now : ℚ) : ApprovalRequest :=
  NodeApprovalManager.joinRequest req.nodeId req.hostname req.ipAddress req.port "" req.metadata now

def ApprovalRequest.nodeRecord (r : ApprovalRequest) (nodeId : String) (now : ℚ) : NodeRecord where
  nodeId := nodeId
  hostname := r.hostname
  ipAddress := r.ipAddress
  port := r.port
  arch := r.metadata.arch.getD ""
  totalMemoryGb := r.metadata.totalMemoryGb.getD 0
  availableMemoryGb := r.metadata.availableMemoryGb.getD 0
  cpuCores := r.metadata.cpuCores.getD 0
  gpuCores := r.metadata.gpuCores.getD 0
  deviceModel := r.metadata.deviceModel.getD ""
  umaSizeGb := r.metadata.umaSizeGb.getD 0
  mlxVersion := r.metadata.mlxVersion.getD ""
  role := "worker"
  status := .online
  tags := r.metadata.tags.getD []
  activeTasks := 0
  maxTasks := r.metadata.maxTasks.getD 4
  drivers := r.metadata.drivers.getD []
  lastHeartbeat := now
  -- the defaults of `NodeInfo`
  networkRttMs := 0
  gpuMemoryUsedGb := 0
  gpuMemoryTotalGb := 0
  draining := false
  supervisorAvailable := false
  resident := false

namespace JoinState

variable (h : JoinHosts) (s : JoinState)

def create (approvals : Option NodeApprovalManager) : JoinState := ⟨approvals,.create,.create⟩

/-- What `request_join` answers, if there is a manager. -/
def joined (req : NodeRegisterRequest) (now : ℚ) : Option (NodeApprovalManager × ApprovalRequest) :=
  s.approvals.map fun a => a.requestJoin h.autoApproves (req.joinRequest now) now

def refusal (req : NodeRegisterRequest) (now : ℚ) : Option ApprovalStatus :=
  (s.joined h req now).bind fun j => if j.2.status = .approved then none else some j.2.status

def registerApproved (req : NodeRegisterRequest) (now : ℚ) : JoinState × Except JoinRefusal Unit :=
  let s₁ : JoinState := { s with approvals := (s.joined h req now).map Prod.fst }
  match s.refusal h req now with
  | some status => (s₁,.error (.notApproved status))
  | none =>
    let registered := s.domain.registerNode h.registerable (req.nodeRecord now) now
    if registered.2 then
      ({ s₁ with
          permissions := s.permissions.assignRole req.nodeId .worker
          domain := registered.1 },.ok ())
    else ({ s₁ with domain := registered.1 },.error .banned)

/-- The node has a role, which does not let it register. -/
def roleBlocks (nodeId : String) : Bool :=
  (s.permissions.getRole nodeId).isSome &&
    !s.permissions.checkPathAccess nodeId "/api/nodes/register" "POST"

/-- A registration; only one of the routes looks at the role of the node. -/
def register (checksRole : Bool) (req : NodeRegisterRequest) (now : ℚ) :
    JoinState × Except JoinRefusal Unit :=
  if isSafePathSegment req.nodeId = false then (s,.error .unsafeNodeId)
  else
    match checkProtocolCompat req.protocolVersion with
    | .error detail => (s,.error (.protocol detail))
    | .ok () =>
      if checksRole && s.roleBlocks req.nodeId then (s,.error .permission)
      else s.registerApproved h req now

def registerNode (req : NodeRegisterRequest) (now : ℚ) : JoinState × Except JoinRefusal Unit :=
  s.register h true req now

def v1RegisterNode (req : NodeRegisterRequest) (now : ℚ) : JoinState × Except JoinRefusal Unit :=
  s.register h false req now

def admitApproved (nodeId : String) (r : ApprovalRequest) (now : ℚ) :
    JoinState × Except HttpError Unit :=
  let registered := s.domain.registerNode h.registerable (r.nodeRecord nodeId now) now
  if registered.2 then ({ s with domain := registered.1 },.ok ())
  else ({ s with domain := registered.1 },
    .error ⟨403,"节点 " ++ nodeId ++ " 处于 ban 期, 拒绝加入"⟩)

def approveNode (nodeId approvedBy : String) (now : ℚ) : JoinState × Except HttpError Unit :=
  match s.approvals with
  | none => (s,.error ⟨400,"审批管理器未启用"⟩)
  | some a =>
    if nodeId = "" then (s,.error ⟨400,"缺少 node_id"⟩)
    else
      match a.approve nodeId approvedBy now with
      | none => (s,.error ⟨404,"无待审批请求: " ++ nodeId⟩)
      | some a' =>
        let s₁ : JoinState := { s with approvals := some a' }
        match a'.approved.get? nodeId, s.domain.nodes.get? nodeId with
        | some r, none => s₁.admitApproved h nodeId r now
        | _, _ => (s₁,.ok ())

def rejectNode (nodeId reason : String) : JoinState × Except HttpError Unit :=
  match s.approvals with
  | none => (s,.error ⟨400,"审批管理器未启用"⟩)
  | some a =>
    if nodeId = "" then (s,.error ⟨400,"缺少 node_id"⟩)
    else
      match a.reject nodeId reason with
      | none => (s,.error ⟨404,"无待审批请求: " ++ nodeId⟩)
      | some a' => ({ s with approvals := some a' },.ok ())

/-- `POST /api/join` after its checks: the request is left for approval. -/
def manualJoin (nodeId hostname ipAddress : String) (port : ℤ) (now : ℚ) : JoinState :=
  { s with
    approvals := s.approvals.map fun a => (a.requestJoin h.autoApproves
      (NodeApprovalManager.joinRequest nodeId hostname ipAddress port "" {} now) now).1 }

end JoinState

inductive JoinEvent
  | registerNode (req : NodeRegisterRequest) (now : ℚ)
  | v1RegisterNode (req : NodeRegisterRequest) (now : ℚ)
  | approveNode (nodeId approvedBy : String) (now : ℚ)
  | rejectNode (nodeId reason : String)
  | revokeApproval (nodeId : String)
  | manualJoin (nodeId hostname ipAddress : String) (port : ℤ) (now : ℚ)
  /-- Whatever else the master does to its nodes and bans. -/
  | elsewhere (domain : NodeDomain)

namespace JoinState

def step (h : JoinHosts) (s : JoinState) : JoinEvent → Option JoinState
  | .registerNode req now => some (s.registerNode h req now).1
  | .v1RegisterNode req now => some (s.v1RegisterNode h req now).1
  | .approveNode nodeId approvedBy now => some (s.approveNode h nodeId approvedBy now).1
  | .rejectNode nodeId reason => some (s.rejectNode nodeId reason).1
  | .revokeApproval nodeId => some { s with
      approvals := s.approvals.map fun a => (a.revokeApproval nodeId).getD a }
  | .manualJoin nodeId hostname ipAddress port now =>
    some (s.manualJoin h nodeId hostname ipAddress port now)
  | .elsewhere domain => some { s with domain := domain }

def machine (h : JoinHosts) : Machine JoinState JoinEvent := ⟨step h⟩

end JoinState
end FusionMultiNodes
