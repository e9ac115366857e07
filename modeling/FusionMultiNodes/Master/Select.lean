import FusionMultiNodes.Master.State

/-! The choice of nodes for a task. -/
namespace FusionMultiNodes
namespace ClusterMaster

def getOnlineNodes (m : ClusterMaster) (now : ℚ) : List NodeInfo :=
  m.nodes.values.filter fun n =>
    (decide (n.status = .online) || decide (n.status = .busy)) &&
      decide (now-n.lastHeartbeat < m.config.heartbeatTimeout)

/-- The roles a node must have for a task, if its role matters. -/
def rolesFor (m : ClusterMaster) (t : ClusterTask) : Option (List String) :=
  if t.mode = .pipeline then
    m.config.shardRoles.map fun roles => if roles = [] then ["heavy"] else roles
  else none

/-- The filters `select_nodes` applies before any score is computed. -/
def eligible (m : ClusterMaster) (t : ClusterTask) (requiredMem now : ℚ) (n : NodeInfo) : Bool :=
  !(m.isNodeBanned n.nodeId now) && !n.draining &&
    (m.rolesFor t).all (fun roles => decide (n.role ∈ roles)) &&
    decide (n.nodeId ∉ t.excludeNodes) &&
    (decide (t.pinnedNodeId = "") || decide (n.nodeId = t.pinnedNodeId)) &&
    n.provides t.requiredCapability &&
    (decide (requiredMem ≤ 0) || decide (requiredMem ≤ n.availableMemoryGb))

/-- The order of the fallback: `score` for pipelines, else the free nodes first. -/
def sortCandidates (mode : ParallelMode) (l : List NodeInfo) : List NodeInfo :=
  if mode = .pipeline then sortDescending NodeInfo.score l
  else l.insertionSort fun a b =>
    a.activeTasks < b.activeTasks ∨ (a.activeTasks = b.activeTasks ∧ b.score ≤ a.score)

/-- `select_nodes` for a task, after `get_online_nodes`. -/
def selectNodes (m : ClusterMaster) (t : ClusterTask) (requiredMem now : ℚ) : List NodeInfo :=
  let candidates := (m.getOnlineNodes now).filter (m.eligible t requiredMem now)
  let total := (candidates.map NodeInfo.totalMemoryGb).sum
  let requiredUma := requiredMem/max (if total = 0 then 1 else total) 1
  let selected :=
    m.loadRouter.selectN candidates t.need t.preferredNodeId requiredUma t.tier now
  if selected ≠ [] then selected
  else
    let preferredFirst :=
      if t.preferredNodeId = "" then candidates
      else candidates.filter (fun n => decide (n.nodeId = t.preferredNodeId)) ++
        candidates.filter fun n => decide (n.nodeId ≠ t.preferredNodeId)
    (sortCandidates t.mode preferredFirst).take t.need

/-- The tests `_select_free_nodes_locked` makes before it looks at the bans. -/
def isFree (exclude : List NodeId) (n : NodeInfo) : Bool :=
  decide (n.status = .online) && decide (n.nodeId ∉ exclude) && decide (n.activeTasks < n.maxTasks)

def selectFreeNodesLocked (m : ClusterMaster) (t : ClusterTask) (requiredMem : ℚ)
    (exclude : List NodeId) (count : ℕ) (now : ℚ) : List NodeInfo :=
  let candidates := m.nodes.values.filter fun n =>
    isFree exclude n && !(m.isNodeBanned n.nodeId now) && !n.draining &&
      n.provides t.requiredCapability &&
      (decide (requiredMem ≤ 0) || decide (requiredMem ≤ n.availableMemoryGb))
  (sortCandidates t.mode candidates).take count

/-- The expired bans `_select_free_nodes_locked` removes on its way. -/
def dropExpiredBans (m : ClusterMaster) (exclude : List NodeId) (now : ℚ) : ClusterMaster :=
  (m.nodes.values.filter (isFree exclude)).foldl (fun s n => s.dropExpiredBan n.nodeId now) m

end ClusterMaster
end FusionMultiNodes
