import FusionMultiNodes.Master.Membership

/-! The full node records and the tables that `_nodes_lock` protects. A registration builds a
record from the request and copies some fields of the old one back, so that it is a patch exactly
where the fields it forgets have their initial values. -/
namespace FusionMultiNodes

/-- A `NodeInfo` with the fields that no choice of nodes looks at. -/
structure NodeRecord extends NodeInfo where
  hostname : String
  ipAddress : String
  port : ℤ
  arch : String
  cpuCores : ℤ
  mlxVersion : String
  gpuCores : ℤ
  deviceModel : String
  umaSizeGb : ℚ
  resident : Bool
  deriving DecidableEq

structure NodeRegisterRequest where
  nodeId : NodeId
  hostname : String
  ipAddress : String
  port : ℤ
  arch : String := "arm64"
  totalMemoryGb : ℚ := 0
  availableMemoryGb : ℚ := 0
  cpuCores : ℤ := 0
  gpuCores : ℤ := 0
  deviceModel : String := ""
  umaSizeGb : ℚ := 0
  mlxVersion : String := ""
  protocolVersion : String := ""
  role : String := "worker"
  tags : List String := []
  activeTasks : ℤ := 0
  maxTasks : ℤ := 4
  networkRttMs : ℚ := 0
  supervisorAvailable : Bool := false
  drivers : List String := []
  resident : Bool := false

/-- The record the two routes build. The role a request declares is not trusted. -/
def NodeRegisterRequest.nodeRecord (req : NodeRegisterRequest) (now : ℚ) : NodeRecord where
  nodeId := req.nodeId
  hostname := req.hostname
  ipAddress := req.ipAddress
  port := req.port
  arch := req.arch
  totalMemoryGb := req.totalMemoryGb
  availableMemoryGb := req.availableMemoryGb
  cpuCores := req.cpuCores
  gpuCores := req.gpuCores
  deviceModel := req.deviceModel
  umaSizeGb := req.umaSizeGb
  mlxVersion := req.mlxVersion
  role := "worker"
  status := .online
  tags := req.tags
  activeTasks := req.activeTasks
  maxTasks := req.maxTasks
  networkRttMs := req.networkRttMs
  supervisorAvailable := req.supervisorAvailable
  drivers := req.drivers
  resident := req.resident
  lastHeartbeat := now
  -- not in the request
  gpuMemoryUsedGb := 0
  gpuMemoryTotalGb := 0
  draining := false

/-- The record a registration is to leave of a known node: `old`, with what the agent reports. A
node that was taken for offline is online again, as it has just been heard of. -/
def NodeRecord.patch (old : NodeRecord) (req : NodeRegisterRequest) (now : ℚ) : NodeRecord :=
  { old with
    hostname := req.hostname
    ipAddress := req.ipAddress
    port := req.port
    arch := req.arch
    totalMemoryGb := req.totalMemoryGb
    availableMemoryGb := req.availableMemoryGb
    cpuCores := req.cpuCores
    gpuCores := req.gpuCores
    deviceModel := req.deviceModel
    umaSizeGb := req.umaSizeGb
    mlxVersion := req.mlxVersion
    tags := req.tags
    supervisorAvailable := req.supervisorAvailable
    drivers := req.drivers
    resident := req.resident
    status := if old.status = .offline then .online else old.status
    lastHeartbeat := now }

/-- The fields that a registration sets and no request has are as it sets them. -/
def NodeRecord.AsRegistered (n : NodeRecord) : Prop :=
  n.draining = false ∧ n.role = "worker" ∧ n.gpuMemoryUsedGb = 0 ∧ n.gpuMemoryTotalGb = 0

def Keyed (nodes : Dict NodeId NodeRecord) : Prop :=
  ∀ id n, nodes.get? id = some n → n.nodeId = id

theorem keyed_empty : Keyed ∅ := fun _ _ h => nomatch h

theorem Keyed.set {nodes : Dict NodeId NodeRecord} (h : Keyed nodes) {id : NodeId} {n : NodeRecord}
    (hn : n.nodeId = id) : Keyed (nodes.set id n) := by
  intro id' n' hget
  rw [Dict.get?_set] at hget
  split_ifs at hget with hid
  · cases hget
    exact hn.trans hid.symm
  · exact h id' n' hget

theorem Keyed.modify {nodes : Dict NodeId NodeRecord} (h : Keyed nodes) (id : NodeId)
    {f : NodeRecord → NodeRecord} (hf : ∀ n, (f n).nodeId = n.nodeId) :
    Keyed (nodes.modify id f) := by
  intro id' n' hget
  rw [Dict.get?_modify] at hget
  split_ifs at hget
  · obtain ⟨n,hn,rfl⟩ := Option.map_eq_some_iff.mp hget
    exact (hf n).trans (h id' n hn)
  · exact h id' n' hget

structure NodeDomain where
  nodes : Dict NodeId NodeRecord
  loadRouter : LoadRouter
  bannedNodes : Dict NodeId ℚ
  faultCounts : Dict NodeId (List ℚ)
  keyed : Keyed nodes

namespace NodeDomain

def create : NodeDomain := ⟨∅,.create,∅,∅,keyed_empty⟩

variable (d : NodeDomain)

def isNodeBanned (id : NodeId) (now : ℚ) : Bool :=
  (d.bannedNodes.get? id).any fun unbanAt => decide (now < unbanAt)

def banLapsed (id : NodeId) (now : ℚ) : Bool :=
  d.bannedNodes.contains id && !d.isNodeBanned id now

/-- `_is_node_banned_locked` on an expired entry. -/
def dropExpiredBan (id : NodeId) (now : ℚ) : NodeDomain :=
  if d.banLapsed id now = true then
    { d with bannedNodes := d.bannedNodes.erase id, faultCounts := d.faultCounts.erase id }
  else d

def setNodeDraining (id : NodeId) (draining : Bool) : NodeDomain :=
  { d with
    nodes := d.nodes.modify id fun n => { n with draining := draining }
    keyed := d.keyed.modify id fun _ => rfl }

/-- The record `register_node` stores. -/
def registeredNode (info : NodeRecord) (now : ℚ) : NodeRecord :=
  match d.nodes.get? info.nodeId with
  | some old =>
    { info with
      status := if old.status = .offline then .online else old.status
      lastHeartbeat := now
      activeTasks := old.activeTasks
      maxTasks := old.maxTasks
      networkRttMs := old.networkRttMs }
  | none => { info with status := .online, lastHeartbeat := now }

variable {d} in
theorem registeredNode_unknown {info : NodeRecord} (h : d.nodes.get? info.nodeId = none)
    (now : ℚ) : d.registeredNode info now = { info with status := .online, lastHeartbeat := now } := by
  rw [registeredNode,h]

theorem nodeId_registeredNode (info : NodeRecord) (now : ℚ) :
    (d.registeredNode info now).nodeId = info.nodeId := by
  unfold registeredNode
  cases d.nodes.get? info.nodeId with
  | none => rfl
  | some old => rfl

/-- `register_node` accepts the record; `registerable` is `is_registerable_host`, which asks the
resolver. -/
def admits (registerable : String → Bool) (info : NodeRecord) (now : ℚ) : Bool :=
  registerable info.ipAddress && !d.isNodeBanned info.nodeId now

/-- The lock section of `register_node`. -/
def registerNode (registerable : String → Bool) (info : NodeRecord) (now : ℚ) :
    NodeDomain × Bool :=
  if d.admits registerable info now = true then
    let node := d.registeredNode info now
    ({ d.dropExpiredBan info.nodeId now with
        nodes := d.nodes.set info.nodeId node
        loadRouter := d.loadRouter.updateMetrics info.nodeId (node.loadMetrics now) now
        keyed := d.keyed.set (d.nodeId_registeredNode info now) },true)
  else (d,false)

/-- The master has the nodes, metrics, bans and faults of the domain. -/
structure Views (m : ClusterMaster) : Prop where
  nodes : m.nodes = d.nodes.mapValues fun _ n => n.toNodeInfo
  loadRouter : m.loadRouter = d.loadRouter
  bannedNodes : m.bannedNodes = d.bannedNodes
  faultCounts : m.faultCounts = d.faultCounts

variable {d}

theorem Views.isNodeBanned {m : ClusterMaster} (h : d.Views m) (id : NodeId) (now : ℚ) :
    m.isNodeBanned id now = d.isNodeBanned id now := by
  rw [ClusterMaster.isNodeBanned,h.bannedNodes,NodeDomain.isNodeBanned]

theorem Views.registeredNode {m : ClusterMaster} (h : d.Views m) (info : NodeRecord) (now : ℚ) :
    m.registeredNode info.toNodeInfo now = (d.registeredNode info now).toNodeInfo := by
  rw [ClusterMaster.registeredNode,NodeDomain.registeredNode,h.nodes,Dict.get?_mapValues]
  cases d.nodes.get? info.nodeId with
  | none => rfl
  | some old => rfl

theorem Views.dropExpiredBan {m : ClusterMaster} (h : d.Views m) (id : NodeId) (now : ℚ) :
    (d.dropExpiredBan id now).Views (m.dropExpiredBan id now) := by
  rw [ClusterMaster.dropExpiredBan,NodeDomain.dropExpiredBan,banLapsed,h.isNodeBanned,h.bannedNodes,
    h.faultCounts]
  split_ifs
  · exact ⟨h.nodes,h.loadRouter,rfl,rfl⟩
  · exact h

/-- The registration of full records is the one of the scheduler's records. -/
theorem Views.registerNode {m : ClusterMaster} (h : d.Views m) {registerable : String → Bool}
    {info : NodeRecord} (hhost : registerable info.ipAddress = true) (now : ℚ) :
    (d.registerNode registerable info now).1.Views (m.registerNode info.toNodeInfo now) := by
  have hdrop := h.dropExpiredBan info.nodeId now
  unfold NodeDomain.registerNode ClusterMaster.registerNode
  rw [admits,hhost,h.isNodeBanned,h.registeredNode]
  cases d.isNodeBanned info.nodeId now with
  | true => exact h
  | false =>
    refine ⟨?_,?_,hdrop.bannedNodes,hdrop.faultCounts⟩
    · show m.nodes.set info.nodeId (d.registeredNode info now).toNodeInfo = _
      rw [h.nodes]
      exact (Dict.mapValues_set _ _ _ _).symm
    · show m.loadRouter.updateMetrics info.nodeId _ now = _
      rw [h.loadRouter]
      rfl

variable (d)

theorem registerNode_of_admits {registerable : String → Bool} {info : NodeRecord} {now : ℚ}
    (h : d.admits registerable info now = true) :
    (d.registerNode registerable info now).1.nodes =
        d.nodes.set info.nodeId (d.registeredNode info now) ∧
      (d.registerNode registerable info now).1.bannedNodes =
        (d.dropExpiredBan info.nodeId now).bannedNodes ∧
      (d.registerNode registerable info now).1.faultCounts =
        (d.dropExpiredBan info.nodeId now).faultCounts := by
  rw [registerNode,if_pos h]
  exact ⟨rfl,rfl,rfl⟩

theorem registerNode_of_refused {registerable : String → Bool} {info : NodeRecord} {now : ℚ}
    (h : d.admits registerable info now ≠ true) : (d.registerNode registerable info now).1 = d := by
  rw [registerNode,if_neg h]

/-- A registration leaves the records of a node in `d` a patch of what they were: an accepted one
the record `patch`, a refused one the old record; other nodes, bans and faults stay, but for a
ban that has run out and its faults. -/
structure Patched (registerable : String → Bool) (req : NodeRegisterRequest) (now : ℚ)
    (after : NodeDomain) : Prop where
  accepted : ∀ old, d.nodes.get? req.nodeId = some old →
    d.admits registerable (req.nodeRecord now) now = true →
    after.nodes.get? req.nodeId = some (old.patch req now)
  refused : d.admits registerable (req.nodeRecord now) now = false →
    after.nodes.get? req.nodeId = d.nodes.get? req.nodeId
  others : ∀ id, id ≠ req.nodeId → after.nodes.get? id = d.nodes.get? id
  bans : ∀ id, d.banLapsed id now = false → after.bannedNodes.get? id = d.bannedNodes.get? id
  faults : ∀ id, d.banLapsed id now = false → after.faultCounts.get? id = d.faultCounts.get? id

theorem registeredNode_eq_patch_iff {req : NodeRegisterRequest} {now : ℚ} {old : NodeRecord}
    (hold : d.nodes.get? req.nodeId = some old) :
    d.registeredNode (req.nodeRecord now) now = old.patch req now ↔ old.AsRegistered := by
  have hold' : d.nodes.get? (req.nodeRecord now).nodeId = some old := hold
  rw [registeredNode,hold']
  constructor
  · intro h
    have hinfo := congrArg NodeRecord.toNodeInfo h
    exact ⟨(congrArg NodeInfo.draining hinfo).symm,(congrArg NodeInfo.role hinfo).symm,
      (congrArg NodeInfo.gpuMemoryUsedGb hinfo).symm,
      (congrArg NodeInfo.gpuMemoryTotalGb hinfo).symm⟩
  · rintro ⟨hdrain,hrole,hused,htotal⟩
    have hid := d.keyed req.nodeId old hold
    simp only [NodeRecord.patch,NodeRegisterRequest.nodeRecord,hid,hdrain,hrole,hused,htotal]

theorem get?_dropExpiredBan {id : NodeId} (id' : NodeId) {now : ℚ}
    (h : d.banLapsed id now = false) :
    (d.dropExpiredBan id' now).bannedNodes.get? id = d.bannedNodes.get? id ∧
      (d.dropExpiredBan id' now).faultCounts.get? id = d.faultCounts.get? id := by
  unfold dropExpiredBan
  split_ifs with hlapsed
  · have hne : id ≠ id' := by
      rintro rfl
      rw [h] at hlapsed
      exact Bool.false_ne_true hlapsed
    simp only [Dict.get?_erase,hne,if_false,and_self]
  · exact ⟨rfl,rfl⟩

/-- A registration is a patch if and only if it is refused, or the node is new, or none of the
fields it forgets has been set: the node is not draining, is a worker, and has reported no GPU
memory. -/
theorem registration_patch_iff (registerable : String → Bool) (req : NodeRegisterRequest)
    (now : ℚ) :
    d.Patched registerable req now (d.registerNode registerable (req.nodeRecord now) now).1 ↔
      (registerable req.ipAddress = true → d.isNodeBanned req.nodeId now = false →
        ∀ old, d.nodes.get? req.nodeId = some old → old.AsRegistered) := by
  have hadmits : d.admits registerable (req.nodeRecord now) now = true ↔
      registerable req.ipAddress = true ∧ d.isNodeBanned req.nodeId now = false := by
    simp [admits,NodeRegisterRequest.nodeRecord]
  constructor
  · intro h hhost hfree old hold
    have hadm := hadmits.mpr ⟨hhost,hfree⟩
    have hget := h.accepted old hold hadm
    rw [(d.registerNode_of_admits hadm).1] at hget
    have hset := (Dict.get?_set_self d.nodes req.nodeId
      (d.registeredNode (req.nodeRecord now) now)).symm.trans hget
    exact (d.registeredNode_eq_patch_iff hold).mp (Option.some.inj hset)
  · intro h
    by_cases hadm : d.admits registerable (req.nodeRecord now) now = true
    · obtain ⟨hnodes,hbans,hfaults⟩ := d.registerNode_of_admits hadm
      obtain ⟨hhost,hfree⟩ := hadmits.mp hadm
      refine ⟨?_,?_,?_,?_,?_⟩
      · intro old hold _
        rw [hnodes,← (d.registeredNode_eq_patch_iff hold).mpr (h hhost hfree old hold)]
        exact Dict.get?_set_self _ _ _
      · intro hrefused
        rw [hadm] at hrefused
        cases hrefused
      · intro id hne
        rw [hnodes]
        exact Dict.get?_set_ne _ _ hne
      · intro id hlapsed
        rw [hbans]
        exact (d.get?_dropExpiredBan _ hlapsed).1
      · intro id hlapsed
        rw [hfaults]
        exact (d.get?_dropExpiredBan _ hlapsed).2
    · rw [d.registerNode_of_refused hadm]
      exact ⟨fun _ _ h' => absurd h' hadm,fun _ => rfl,fun _ _ => rfl,fun _ _ => rfl,
        fun _ _ => rfl⟩

/-- The request `n1` makes each time it starts. -/
def startRequest : NodeRegisterRequest where
  nodeId := "n1"
  hostname := "n1"
  ipAddress := "10.0.0.1"
  port := 11458

/-- The tables after `n1` has registered at 0 s and an operator has drained it. -/
def drainedDomain : NodeDomain :=
  (create.registerNode (fun _ => true) (startRequest.nodeRecord 0) 0).1.setNodeDraining "n1" true

theorem restart_undoes_drain : ¬∀ (d : NodeDomain) (registerable : String → Bool)
    (req : NodeRegisterRequest) (now : ℚ),
    d.Patched registerable req now (d.registerNode registerable (req.nodeRecord now) now).1 := by
  intro h
  have hpatched := h drainedDomain (fun _ => true) startRequest 10
  have hdrained : (drainedDomain.nodes.get? "n1").any (fun n => n.draining) = true := by
    decide
  obtain ⟨old,hold,hdraining⟩ := (Option.any_eq_true _ _).mp hdrained
  have hget := hpatched.accepted old hold (by decide)
  have hafter : ((drainedDomain.registerNode (fun _ => true) (startRequest.nodeRecord 10)
      10).1.nodes.get? "n1").all (fun n => !n.draining) = true := by
    decide
  rw [show "n1" = startRequest.nodeId from rfl,hget,Option.all_some] at hafter
  have hpatch : (old.patch startRequest 10).draining = true := hdraining
  rw [hpatch] at hafter
  cases hafter

end NodeDomain
end FusionMultiNodes
