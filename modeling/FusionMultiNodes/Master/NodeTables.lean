import FusionMultiNodes.Master.NodeRecord
import FusionMultiNodes.Master.Lifecycle
import FusionMultiNodes.Master.Select

/-! What else the master does to the tables that `_nodes_lock` protects, on the full records. The
scheduler's master does the same to its view of them. -/
namespace FusionMultiNodes

theorem Keyed.filter {nodes : Dict NodeId NodeRecord} (h : Keyed nodes)
    (p : NodeId → NodeRecord → Bool) : Keyed (nodes.filter p) := by
  intro id n hget
  rw [Dict.get?_filter] at hget
  exact h id n (Option.filter_eq_some_iff.mp hget).1

theorem Keyed.mapValues {nodes : Dict NodeId NodeRecord} (h : Keyed nodes)
    (f : NodeRecord → NodeRecord) (hf : ∀ n, (f n).nodeId = n.nodeId) :
    Keyed (nodes.mapValues fun _ n => f n) := by
  intro id n' hget
  rw [Dict.get?_mapValues] at hget
  obtain ⟨n,hn,rfl⟩ := Option.map_eq_some_iff.mp hget
  exact (hf n).trans (h id n hn)

namespace NodeDomain

variable (d : NodeDomain)

def getOnlineNodes (heartbeatTimeout now : ℚ) : List NodeRecord :=
  d.nodes.values.filter fun n =>
    (decide (n.status = .online) || decide (n.status = .busy)) &&
      decide (now-n.lastHeartbeat < heartbeatTimeout)

def updateHeartbeat (id : NodeId) (totalMemoryGb availableMemoryGb : Option ℚ)
    (activeTasks : Option ℤ) (supervisorAvailable : Option Bool) (now : ℚ) : NodeDomain :=
  { d with
    nodes := d.nodes.modify id fun n =>
      { n with
        lastHeartbeat := now
        totalMemoryGb := totalMemoryGb.getD n.totalMemoryGb
        availableMemoryGb := availableMemoryGb.getD n.availableMemoryGb
        activeTasks := activeTasks.getD n.activeTasks
        supervisorAvailable := supervisorAvailable.getD n.supervisorAvailable
        status := if n.status = .offline then .online else n.status }
    keyed := d.keyed.modify id fun _ => rfl }

def updateNodeLoad (id : NodeId) (metrics : LoadMetrics)
    (gpuMemoryUsedGb gpuMemoryTotalGb : Option ℚ) (supervisorAvailable : Option Bool) (now : ℚ) :
    NodeDomain :=
  if d.nodes.contains id then
    { d with
      loadRouter := d.loadRouter.updateMetrics id metrics now
      nodes := d.nodes.modify id fun n =>
        { n with
          availableMemoryGb := n.totalMemoryGb*(1-metrics.umaUsedRatio)
          activeTasks := metrics.taskQueueLen
          networkRttMs := metrics.netRttMs
          gpuMemoryUsedGb := gpuMemoryUsedGb.getD n.gpuMemoryUsedGb
          gpuMemoryTotalGb := gpuMemoryTotalGb.getD n.gpuMemoryTotalGb
          supervisorAvailable := supervisorAvailable.getD n.supervisorAvailable }
      keyed := d.keyed.modify id fun _ => rfl }
  else d

/-- The faults of a node that count, with one at `now`. -/
def windowedFaults (id : NodeId) (now : ℚ) : List ℚ :=
  ((d.faultCounts.get? id).getD [] ++ [now]).filter fun t => decide (now-t ≤ faultWindowS)

def reportFault (id : NodeId) (now : ℚ) : NodeDomain :=
  if d.nodes.contains id then
    { d with
      nodes := d.nodes.modify id fun n => { n with status := .fault }
      faultCounts := d.faultCounts.set id (d.windowedFaults id now)
      bannedNodes :=
        if faultThreshold ≤ (d.windowedFaults id now).length then
          d.bannedNodes.set id (now+banDurationS)
        else d.bannedNodes
      keyed := d.keyed.modify id fun _ => rfl }
  else d

/-- `unregister_node`; the flag is the reason "banned". -/
def unregisterNode (id : NodeId) (banned : Bool) (now : ℚ) : NodeDomain :=
  { d with
    nodes := d.nodes.erase id
    loadRouter := d.loadRouter.removeNode id
    bannedNodes := if banned then d.bannedNodes.set id (now+banDurationS) else d.bannedNodes
    keyed := d.keyed.filter _ }

def unbanNode (id : NodeId) : NodeDomain :=
  { d with bannedNodes := d.bannedNodes.erase id, faultCounts := d.faultCounts.erase id }

/-- The new status `_refresh_node_statuses` gives a node. -/
def refreshedStatus (heartbeatTimeout now : ℚ) (n : NodeRecord) : NodeStatus :=
  if n.status = .online ∨ n.status = .busy then
    if heartbeatTimeout ≤ now-n.lastHeartbeat then .offline
    else if n.maxTasks ≤ n.activeTasks then .busy
    else .online
  else n.status

/-- The node part of `_refresh_node_statuses`. -/
def refreshNodes (heartbeatTimeout now : ℚ) : NodeDomain :=
  { d with
    nodes := d.nodes.mapValues fun _ n =>
      { n with status := refreshedStatus heartbeatTimeout now n }
    keyed := d.keyed.mapValues (fun n =>
      { n with status := refreshedStatus heartbeatTimeout now n }) fun _ => rfl }

/-- `_cleanup_offline_nodes` takes the node for gone. -/
def isStale (now : ℚ) (n : NodeInfo) : Bool :=
  decide (n.status = .offline) && decide (3600 < now-n.lastHeartbeat)

def cleanupOfflineNodes (now : ℚ) : NodeDomain :=
  { d with
    nodes := d.nodes.filter fun _ n => !isStale now n.toNodeInfo
    keyed := d.keyed.filter _ }

def expiredBans (now : ℚ) : List NodeId :=
  d.bannedNodes.keys.filter fun id => !d.isNodeBanned id now

/-- The nodes `_probe_banned_nodes` probes. -/
def probes (now : ℚ) : List NodeId := (d.expiredBans now).filter d.nodes.contains

/-- The lock section of `_probe_banned_nodes`: expired bans of unknown nodes go. -/
def probeBannedNodes (now : ℚ) : NodeDomain :=
  ((d.expiredBans now).filter fun id => !d.nodes.contains id).foldl unbanNode d

def probed (id : NodeId) (ok : Bool) (now : ℚ) : NodeDomain :=
  if ok then d.unbanNode id
  else
    { d with
      bannedNodes := d.bannedNodes.set id (now+banDurationS)
      faultCounts := d.faultCounts.erase id }

/-- Whether a node that heartbeats comes online, if it is on record: neither a heartbeat nor the
health check takes back a fault. -/
def fit? (id : NodeId) : Option Bool :=
  (d.nodes.get? id).map fun n => decide (n.status ≠ .fault) && decide (n.status ≠ .error)

variable {d} {m : ClusterMaster}

theorem Views.getOnlineNodes (h : d.Views m) (now : ℚ) :
    m.getOnlineNodes now =
      (d.getOnlineNodes m.config.heartbeatTimeout now).map NodeRecord.toNodeInfo := by
  unfold ClusterMaster.getOnlineNodes NodeDomain.getOnlineNodes
  rw [h.nodes]
  show ((d.nodes.entries.map _).map Prod.snd).filter _ = _
  rw [List.map_map,List.filter_map,Dict.values,List.filter_map,List.map_map]
  rfl

theorem Views.contains (h : d.Views m) (id : NodeId) :
    m.nodes.contains id = d.nodes.contains id := by
  rw [h.nodes,Dict.contains,Dict.get?_mapValues,Option.isSome_map,Dict.contains]

theorem Views.modify (h : d.Views m) (id : NodeId) {f : NodeRecord → NodeRecord}
    {g : NodeInfo → NodeInfo} (hf : ∀ n, (f n).toNodeInfo = g n.toNodeInfo) :
    m.nodes.modify id g = (d.nodes.modify id f).mapValues fun _ n => n.toNodeInfo := by
  rw [h.nodes]
  exact (Dict.mapValues_modify d.nodes hf).symm

theorem Views.updateHeartbeat (h : d.Views m) (id : NodeId) (total available : Option ℚ)
    (active : Option ℤ) (supervisor : Option Bool) (now : ℚ) :
    (d.updateHeartbeat id total available active supervisor now).Views
      (m.updateHeartbeat id total available active supervisor now) := by
  refine ⟨?_,h.loadRouter,h.bannedNodes,h.faultCounts⟩
  dsimp only [NodeDomain.updateHeartbeat,ClusterMaster.updateHeartbeat]
  exact h.modify id fun _ => rfl

theorem Views.updateNodeLoad (h : d.Views m) (id : NodeId) (metrics : LoadMetrics)
    (used total : Option ℚ) (supervisor : Option Bool) (now : ℚ) :
    (d.updateNodeLoad id metrics used total supervisor now).Views
      (m.updateNodeLoad id metrics used total supervisor now) := by
  unfold NodeDomain.updateNodeLoad ClusterMaster.updateNodeLoad
  rw [h.contains]
  split_ifs
  · rw [h.loadRouter]
    refine ⟨?_,rfl,h.bannedNodes,h.faultCounts⟩
    dsimp only
    exact h.modify id fun _ => rfl
  · exact h

theorem Views.reportFault (h : d.Views m) (id : NodeId) (now : ℚ) :
    (d.reportFault id now).Views (m.reportFault id now) := by
  unfold NodeDomain.reportFault ClusterMaster.reportFault windowedFaults
  rw [h.contains,h.faultCounts,h.bannedNodes]
  by_cases hin : d.nodes.contains id = true
  · rw [if_pos hin,if_pos hin]
    refine ⟨?_,h.loadRouter,rfl,rfl⟩
    dsimp only
    exact h.modify id fun _ => rfl
  · rw [if_neg hin,if_neg hin]
    exact h

theorem Views.unregisterNode (h : d.Views m) (id : NodeId) (banned : Bool) (now : ℚ) :
    (d.unregisterNode id banned now).Views (m.unregisterNode id banned now) := by
  unfold NodeDomain.unregisterNode ClusterMaster.unregisterNode
  rw [h.loadRouter,h.bannedNodes]
  refine ⟨?_,rfl,rfl,h.faultCounts⟩
  dsimp only [Dict.erase]
  rw [h.nodes]
  exact (Dict.mapValues_filter d.nodes NodeRecord.toNodeInfo _).symm

theorem Views.unbanNode (h : d.Views m) (id : NodeId) :
    (d.unbanNode id).Views (m.unbanNode id) := by
  unfold NodeDomain.unbanNode ClusterMaster.unbanNode
  rw [h.bannedNodes,h.faultCounts]
  exact ⟨h.nodes,h.loadRouter,rfl,rfl⟩

theorem Views.refreshNodes (h : d.Views m) (now : ℚ) :
    (d.refreshNodes m.config.heartbeatTimeout now).Views (m.refreshNodes now) := by
  have hnodes : m.nodes.mapValues (fun _ n => { n with status := m.refreshedStatus now n }) =
      (d.refreshNodes m.config.heartbeatTimeout now).nodes.mapValues fun _ n => n.toNodeInfo := by
    dsimp only [NodeDomain.refreshNodes]
    rw [h.nodes,Dict.mapValues_mapValues,Dict.mapValues_mapValues]
    rfl
  unfold ClusterMaster.refreshNodes
  dsimp only
  split_ifs <;> exact ⟨hnodes,h.loadRouter,h.bannedNodes,h.faultCounts⟩

theorem Views.cleanupOfflineNodes (h : d.Views m) (now : ℚ) :
    (d.cleanupOfflineNodes now).Views (m.cleanupOfflineNodes now) := by
  refine ⟨?_,h.loadRouter,h.bannedNodes,h.faultCounts⟩
  dsimp only [ClusterMaster.cleanupOfflineNodes,NodeDomain.cleanupOfflineNodes]
  rw [h.nodes]
  exact (Dict.mapValues_filter d.nodes NodeRecord.toNodeInfo _).symm

theorem Views.foldl_unbanNode (h : d.Views m) (ids : List NodeId) :
    (ids.foldl NodeDomain.unbanNode d).Views (ids.foldl ClusterMaster.unbanNode m) := by
  induction ids generalizing d m with
  | nil => exact h
  | cons id ids ih => exact ih (h.unbanNode id)

theorem Views.expiredBans (h : d.Views m) (now : ℚ) : m.expiredBans now = d.expiredBans now := by
  unfold ClusterMaster.expiredBans NodeDomain.expiredBans
  rw [h.bannedNodes]
  simp only [h.isNodeBanned]

theorem Views.probeBannedNodes (h : d.Views m) (now : ℚ) :
    (d.probeBannedNodes now).Views (m.probeBannedNodes now) := by
  have hunknown := h.foldl_unbanNode ((d.expiredBans now).filter fun id => !d.nodes.contains id)
  unfold ClusterMaster.probeBannedNodes NodeDomain.probeBannedNodes
  simp only [h.expiredBans,h.contains]
  exact ⟨hunknown.nodes,hunknown.loadRouter,hunknown.bannedNodes,hunknown.faultCounts⟩

theorem Views.probed (h : d.Views m) (cid : ℕ) (id : NodeId) (rest : List NodeId) (ok : Bool)
    (now : ℚ) : (d.probed id ok now).Views (m.probed cid id rest ok now) := by
  unfold ClusterMaster.probed NodeDomain.probed
  cases ok with
  | true =>
    have hunban := h.unbanNode id
    exact ⟨hunban.nodes,hunban.loadRouter,hunban.bannedNodes,hunban.faultCounts⟩
  | false =>
    rw [h.bannedNodes,h.faultCounts]
    exact ⟨h.nodes,h.loadRouter,rfl,rfl⟩

section fit

variable (d : NodeDomain) (id : NodeId) (now : ℚ)

theorem fit?_updateHeartbeat (total available : Option ℚ) (active : Option ℤ)
    (supervisor : Option Bool) :
    (d.updateHeartbeat id total available active supervisor now).fit? id = d.fit? id := by
  unfold fit? updateHeartbeat
  dsimp only
  rw [Dict.get?_modify,if_pos rfl,Option.map_map]
  congr 1
  funext n
  by_cases hoff : n.status = .offline <;> simp [hoff]

theorem fit?_updateNodeLoad (metrics : LoadMetrics) (used total : Option ℚ)
    (supervisor : Option Bool) :
    (d.updateNodeLoad id metrics used total supervisor now).fit? id = d.fit? id := by
  unfold updateNodeLoad
  split_ifs
  · unfold fit?
    dsimp only
    rw [Dict.get?_modify,if_pos rfl,Option.map_map]
    rfl
  · rfl

theorem fit?_reportFault : (d.reportFault id now).fit? id = (d.fit? id).map fun _ => false := by
  unfold reportFault
  by_cases hin : d.nodes.contains id = true
  · rw [if_pos hin]
    unfold fit?
    dsimp only
    rw [Dict.get?_modify,if_pos rfl,Option.map_map,Option.map_map]
    rfl
  · have hnone : d.nodes.get? id = none := by
      simpa [Dict.contains] using hin
    rw [if_neg hin,fit?,hnone]
    rfl

theorem fit?_unregisterNode (banned : Bool) : (d.unregisterNode id banned now).fit? id = none := by
  unfold fit? unregisterNode
  dsimp only
  rw [Dict.get?_erase,if_pos rfl]
  rfl

theorem fit?_refreshNodes (heartbeatTimeout : ℚ) :
    (d.refreshNodes heartbeatTimeout now).fit? id = d.fit? id := by
  unfold fit? refreshNodes
  dsimp only
  rw [Dict.get?_mapValues,Option.map_map]
  congr 1
  funext n
  dsimp only [Function.comp_apply,refreshedStatus]
  split_ifs with hup <;> first | rfl | (rcases hup with hup | hup <;> rw [hup] <;> rfl)

theorem fit?_cleanupOfflineNodes : (d.cleanupOfflineNodes now).fit? id =
    if (d.nodes.get? id).any (fun n => isStale now n.toNodeInfo) = true then none
    else d.fit? id := by
  unfold fit? cleanupOfflineNodes
  dsimp only
  rw [Dict.get?_filter]
  cases d.nodes.get? id with
  | none => rfl
  | some n =>
    rw [Option.filter_some,Option.any_some]
    cases isStale now n.toNodeInfo <;> rfl

/-- A node that is taken for gone was offline, and would have come back. -/
theorem fit?_of_isStale (h : (d.nodes.get? id).any (fun n => isStale now n.toNodeInfo) = true) :
    d.fit? id = some true := by
  obtain ⟨n,hn,hstale⟩ := (Option.any_eq_true _ _).mp h
  have hoff : n.status = .offline := of_decide_eq_true (Bool.and_eq_true_iff.mp hstale).1
  rw [fit?,hn,Option.map_some,hoff]
  rfl

theorem foldl_unbanNode_nodes (ids : List NodeId) : (ids.foldl unbanNode d).nodes = d.nodes := by
  induction ids generalizing d with
  | nil => rfl
  | cons id ids ih => exact ih (d.unbanNode id)

theorem fit?_probeBannedNodes : (d.probeBannedNodes now).fit? id = d.fit? id := by
  rw [fit?,probeBannedNodes,foldl_unbanNode_nodes,fit?]

theorem fit?_probed (ok : Bool) : (d.probed id ok now).fit? id = d.fit? id := by
  cases ok <;> rfl

theorem fit?_registeredNode (info : NodeRecord) (hinfo : info.nodeId = id) :
    ((d.nodes.set id (d.registeredNode info now)).get? id).map
        (fun n => decide (n.status ≠ .fault) && decide (n.status ≠ .error)) =
      some ((d.fit? id).getD true) := by
  rw [Dict.get?_set_self,Option.map_some,registeredNode,hinfo,fit?]
  cases d.nodes.get? id with
  | none => rfl
  | some old =>
    dsimp only [Option.map_some,Option.getD_some]
    split_ifs with hoff
    · rw [hoff]
      rfl
    · rfl

theorem isNodeBanned_updateNodeLoad (metrics : LoadMetrics) (used total : Option ℚ)
    (supervisor : Option Bool) :
    (d.updateNodeLoad id metrics used total supervisor now).isNodeBanned id now =
      d.isNodeBanned id now := by
  unfold updateNodeLoad
  split_ifs <;> rfl

theorem isNodeBanned_reportFault : (d.reportFault id now).isNodeBanned id now =
    (d.isNodeBanned id now || ((d.fit? id).isSome &&
      decide (faultThreshold ≤ (d.windowedFaults id now).length))) := by
  unfold reportFault
  have hin : (d.fit? id).isSome = d.nodes.contains id := by
    rw [fit?,Option.isSome_map,Dict.contains]
  rw [hin]
  by_cases hknown : d.nodes.contains id = true
  · rw [if_pos hknown,hknown,Bool.true_and]
    unfold isNodeBanned
    dsimp only
    split_ifs with hmany
    · rw [Dict.get?_set_self,decide_eq_true hmany,Bool.or_true,Option.any_some]
      exact decide_eq_true (lt_add_of_pos_right _ (by norm_num [banDurationS]))
    · rw [decide_eq_false hmany,Bool.or_false]
  · rw [if_neg hknown,Bool.eq_false_iff.mpr hknown,Bool.false_and,Bool.or_false]

theorem isNodeBanned_unregisterNode (banned : Bool) :
    (d.unregisterNode id banned now).isNodeBanned id now = (d.isNodeBanned id now || banned) := by
  unfold isNodeBanned unregisterNode
  cases banned with
  | false => rw [Bool.or_false]; rfl
  | true =>
    rw [Bool.or_true]
    dsimp only
    rw [if_pos rfl,Dict.get?_set_self,Option.any_some]
    exact decide_eq_true (lt_add_of_pos_right _ (by norm_num [banDurationS]))

theorem isNodeBanned_unbanNode : (d.unbanNode id).isNodeBanned id now = false := by
  unfold isNodeBanned unbanNode
  dsimp only
  rw [Dict.get?_erase,if_pos rfl]
  rfl

theorem isNodeBanned_probed (ok : Bool) : (d.probed id ok now).isNodeBanned id now = !ok := by
  cases ok with
  | true => exact isNodeBanned_unbanNode d id now
  | false =>
    unfold isNodeBanned probed
    rw [if_neg Bool.false_ne_true]
    dsimp only
    rw [Dict.get?_set_self,Option.any_some]
    exact decide_eq_true (lt_add_of_pos_right _ (by norm_num [banDurationS]))

theorem isNodeBanned_probeBannedNodes :
    (d.probeBannedNodes now).isNodeBanned id now = d.isNodeBanned id now := by
  have hfold : ∀ (ids : List NodeId) (d : NodeDomain), (id ∈ ids → d.isNodeBanned id now = false) →
      (ids.foldl unbanNode d).isNodeBanned id now = d.isNodeBanned id now := by
    intro ids
    induction ids with
    | nil => exact fun _ _ => rfl
    | cons id' ids ih =>
      intro d hfree
      have hstep : (d.unbanNode id').isNodeBanned id now = d.isNodeBanned id now := by
        by_cases hid : id = id'
        · subst hid
          rw [isNodeBanned_unbanNode,hfree (List.mem_cons_self ..)]
        · unfold isNodeBanned unbanNode
          dsimp only
          rw [Dict.get?_erase,if_neg hid]
      refine (ih (d.unbanNode id') fun hin => ?_).trans hstep
      rw [hstep]
      exact hfree (List.mem_cons_of_mem _ hin)
  refine hfold _ d fun hin => ?_
  have hexp := (List.mem_filter.mp (List.mem_filter.mp hin).1).2
  simpa using hexp

end fit

end NodeDomain
end FusionMultiNodes
