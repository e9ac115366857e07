import FusionMultiNodes.Master.State

/-! Registration, heartbeats, draining and bans of nodes. -/
namespace FusionMultiNodes
namespace ClusterMaster

/-- The node record `register_node` stores. -/
def registeredNode (m : ClusterMaster) (info : NodeInfo) (now : ℚ) : NodeInfo :=
  match m.nodes.get? info.nodeId with
  | some old =>
    { info with
      status := if old.status = .offline then .online else old.status
      lastHeartbeat := now
      activeTasks := old.activeTasks
      maxTasks := old.maxTasks
      networkRttMs := old.networkRttMs }
  | none => { info with status := .online, lastHeartbeat := now }

/-- `register_node` for a host that may register, up to the drain. -/
def registerNode (m : ClusterMaster) (info : NodeInfo) (now : ℚ) : ClusterMaster :=
  if m.isNodeBanned info.nodeId now then m
  else
    let m₁ := m.dropExpiredBan info.nodeId now
    let node := m.registeredNode info now
    { m₁ with
      nodes := m.nodes.set info.nodeId node
      loadRouter := m.loadRouter.updateMetrics info.nodeId (node.loadMetrics now) now }.spawn
      .drainStart

/-- `unregister_node`; the flag is the reason "banned". -/
def unregisterNode (m : ClusterMaster) (id : NodeId) (banned : Bool) (now : ℚ) : ClusterMaster :=
  { m with
    nodes := m.nodes.erase id
    loadRouter := m.loadRouter.removeNode id
    bannedNodes := if banned then m.bannedNodes.set id (now+banDurationS) else m.bannedNodes }

def unbanNode (m : ClusterMaster) (id : NodeId) : ClusterMaster :=
  { m with bannedNodes := m.bannedNodes.erase id, faultCounts := m.faultCounts.erase id }

def updateHeartbeat (m : ClusterMaster) (id : NodeId) (totalMemoryGb availableMemoryGb : Option ℚ)
    (activeTasks : Option ℤ) (supervisorAvailable : Option Bool) (now : ℚ) : ClusterMaster :=
  { m with
    nodes := m.nodes.modify id fun n =>
      { n with
        lastHeartbeat := now
        totalMemoryGb := totalMemoryGb.getD n.totalMemoryGb
        availableMemoryGb := availableMemoryGb.getD n.availableMemoryGb
        activeTasks := activeTasks.getD n.activeTasks
        supervisorAvailable := supervisorAvailable.getD n.supervisorAvailable
        status := if n.status = .offline then .online else n.status } }

def updateNodeLoad (m : ClusterMaster) (id : NodeId) (metrics : LoadMetrics)
    (gpuMemoryUsedGb gpuMemoryTotalGb : Option ℚ) (supervisorAvailable : Option Bool) (now : ℚ) :
    ClusterMaster :=
  if m.nodes.contains id then
    { m with
      loadRouter := m.loadRouter.updateMetrics id metrics now
      nodes := m.nodes.modify id fun n =>
        { n with
          availableMemoryGb := n.totalMemoryGb*(1-metrics.umaUsedRatio)
          activeTasks := metrics.taskQueueLen
          networkRttMs := metrics.netRttMs
          gpuMemoryUsedGb := gpuMemoryUsedGb.getD n.gpuMemoryUsedGb
          gpuMemoryTotalGb := gpuMemoryTotalGb.getD n.gpuMemoryTotalGb
          supervisorAvailable := supervisorAvailable.getD n.supervisorAvailable } }
  else m

def setNodeDraining (m : ClusterMaster) (id : NodeId) (draining : Bool) : ClusterMaster :=
  { m with nodes := m.nodes.modify id fun n => { n with draining := draining } }

def checkHeartbeat (m : ClusterMaster) (id : NodeId) (now : ℚ) : ClusterMaster :=
  { m with
    nodes := m.nodes.modify id fun n =>
      if m.config.heartbeatTimeout < now-n.lastHeartbeat then { n with status := .offline } else n }

def cleanupOfflineNodes (m : ClusterMaster) (now : ℚ) : ClusterMaster :=
  { m with
    nodes := m.nodes.filter fun _ n =>
      !(decide (n.status = .offline) && decide (3600 < now-n.lastHeartbeat)) }

def expiredBans (m : ClusterMaster) (now : ℚ) : List NodeId :=
  m.bannedNodes.keys.filter fun id => !(m.isNodeBanned id now)

/-- The lock section of `_probe_banned_nodes`: expired bans of unknown nodes go, the other nodes
are probed one after the other. -/
def probeBannedNodes (m : ClusterMaster) (now : ℚ) : ClusterMaster :=
  let unknown := (m.expiredBans now).filter fun id => !(m.nodes.contains id)
  let m₁ := unknown.foldl unbanNode m
  m₁.spawn (.probing ((m.expiredBans now).filter m.nodes.contains))

def probed (m : ClusterMaster) (cid : ℕ) (id : NodeId) (rest : List NodeId) (ok : Bool) (now : ℚ) :
    ClusterMaster :=
  let m₁ : ClusterMaster :=
    if ok then m.unbanNode id
    else
      { m with
        bannedNodes := m.bannedNodes.set id (now+banDurationS)
        faultCounts := m.faultCounts.erase id }
  m₁.setFrame cid (.probing rest)

/-- The node part of `receive_synced_state`. -/
def receiveSyncedState (m : ClusterMaster) (infos : List NodeInfo) (banned : List (NodeId × ℚ))
    (now : ℚ) : ClusterMaster :=
  let known := infos.filter fun n => decide (n.nodeId ≠ "")
  { m with
    nodes := known.foldl (fun d n => d.set n.nodeId n) m.nodes
    loadRouter := known.foldl (fun r n => r.updateMetrics n.nodeId (n.loadMetrics now) now) m.loadRouter
    bannedNodes := banned.foldl
      (fun d p =>
        if now < p.2 ∧ ((d.get? p.1).all fun cur => decide (cur < p.2)) = true then d.set p.1 p.2
        else d) m.bannedNodes }

end ClusterMaster
end FusionMultiNodes
