import FusionMultiNodes.Master.NodeRecord
import FusionMultiNodes.Master.Select
import FusionMultiNodes.Master.StateSync

/-! The dictionaries in which a master pushes its nodes, and the tables a standby makes of them.
The codec leaves out the drivers, so that the standby chooses from the same candidates exactly
where no node has any. -/
namespace FusionMultiNodes

def NodeStatus.value : NodeStatus → String
  | .online => "online"
  | .offline => "offline"
  | .busy => "busy"
  | .fault => "fault"
  | .error => "error"

def NodeStatus.ofValue? (value : String) : Option NodeStatus :=
  [NodeStatus.online,.offline,.busy,.fault,.error].find? fun s => decide (s.value = value)

structure NodeDict where
  nodeId : Option String := none
  hostname : Option String := none
  ipAddress : Option String := none
  port : Option ℤ := none
  arch : Option String := none
  totalMemoryGb : Option ℚ := none
  availableMemoryGb : Option ℚ := none
  cpuCores : Option ℤ := none
  mlxVersion : Option String := none
  gpuCores : Option ℤ := none
  deviceModel : Option String := none
  umaSizeGb : Option ℚ := none
  role : Option String := none
  status : Option String := none
  lastHeartbeat : Option ℚ := none
  tags : Option (List String) := none
  activeTasks : Option ℤ := none
  maxTasks : Option ℤ := none
  networkRttMs : Option ℚ := none
  gpuMemoryUsedGb : Option ℚ := none
  gpuMemoryTotalGb : Option ℚ := none
  draining : Option Bool := none
  supervisorAvailable : Option Bool := none

def nodeToDict (n : NodeRecord) : NodeDict where
  nodeId := some n.nodeId
  hostname := some n.hostname
  ipAddress := some n.ipAddress
  port := some n.port
  arch := some n.arch
  totalMemoryGb := some n.totalMemoryGb
  availableMemoryGb := some n.availableMemoryGb
  cpuCores := some n.cpuCores
  mlxVersion := some n.mlxVersion
  gpuCores := some n.gpuCores
  deviceModel := some n.deviceModel
  umaSizeGb := some n.umaSizeGb
  role := some n.role
  status := some n.status.value
  lastHeartbeat := some n.lastHeartbeat
  tags := some n.tags
  activeTasks := some n.activeTasks
  maxTasks := some n.maxTasks
  networkRttMs := some n.networkRttMs
  gpuMemoryUsedGb := some n.gpuMemoryUsedGb
  gpuMemoryTotalGb := some n.gpuMemoryTotalGb
  draining := some n.draining
  supervisorAvailable := some n.supervisorAvailable

def nodeFromDict (d : NodeDict) : NodeRecord where
  nodeId := d.nodeId.getD ""
  hostname := d.hostname.getD ""
  ipAddress := d.ipAddress.getD ""
  port := d.port.getD 0
  arch := d.arch.getD "arm64"
  totalMemoryGb := d.totalMemoryGb.getD 0
  availableMemoryGb := d.availableMemoryGb.getD 0
  cpuCores := d.cpuCores.getD 0
  mlxVersion := d.mlxVersion.getD ""
  gpuCores := d.gpuCores.getD 0
  deviceModel := d.deviceModel.getD ""
  umaSizeGb := d.umaSizeGb.getD 0
  role := d.role.getD "worker"
  status := (NodeStatus.ofValue? (d.status.getD "offline")).getD .offline
  lastHeartbeat := d.lastHeartbeat.getD 0
  tags := d.tags.getD []
  activeTasks := d.activeTasks.getD 0
  maxTasks := d.maxTasks.getD 4
  networkRttMs := d.networkRttMs.getD 0
  gpuMemoryUsedGb := d.gpuMemoryUsedGb.getD 0
  gpuMemoryTotalGb := d.gpuMemoryTotalGb.getD 0
  draining := d.draining.getD false
  supervisorAvailable := d.supervisorAvailable.getD false
  -- not looked up
  drivers := []
  resident := false

theorem ofValue?_value (s : NodeStatus) : NodeStatus.ofValue? s.value = some s := by
  cases s <;> decide

theorem nodeFromDict_nodeToDict (n : NodeRecord) :
    nodeFromDict (nodeToDict n) = { n with drivers := [], resident := false } := by
  simp only [nodeFromDict,nodeToDict,Option.getD_some,ofValue?_value]

/-- The codec carries every field that the choice of nodes, the routing or the membership looks
at: all but `resident`. -/
def NodeRecord.Carried (n : NodeRecord) : Prop :=
  { nodeFromDict (nodeToDict n) with resident := n.resident } = n

theorem NodeRecord.carried_iff (n : NodeRecord) : n.Carried ↔ n.drivers = [] := by
  rw [NodeRecord.Carried,nodeFromDict_nodeToDict]
  constructor
  · intro h
    exact (congrArg (fun n : NodeRecord => n.drivers) h).symm
  · intro h
    rw [← h]

theorem NodeRecord.Carried.toNodeInfo {n : NodeRecord} (h : n.Carried) :
    (nodeFromDict (nodeToDict n)).toNodeInfo = n.toNodeInfo := by
  unfold Carried at h
  have hinfo := congrArg NodeRecord.toNodeInfo h
  exact hinfo

namespace NodeDomain

variable (d : NodeDomain)

structure Pushed where
  nodes : List NodeDict
  bannedNodes : List (NodeId × ℚ)

def pushed (now : ℚ) : Pushed where
  nodes := d.nodes.values.map nodeToDict
  bannedNodes := (d.bannedNodes.filter fun _ unbanAt => decide (now < unbanAt)).entries

/-- One node of a pushed state; a record without an id is left out. -/
def mergeNode (now : ℚ) (d : NodeDomain) (dict : NodeDict) : NodeDomain :=
  let info := nodeFromDict dict
  if info.nodeId = "" then d
  else
    { d with
      nodes := d.nodes.set info.nodeId info
      loadRouter := d.loadRouter.updateMetrics info.nodeId (info.loadMetrics now) now
      keyed := d.keyed.set rfl }

def mergeBan (now : ℚ) (banned : Dict NodeId ℚ) (p : NodeId × ℚ) : Dict NodeId ℚ :=
  if now < p.2 ∧ ((banned.get? p.1).all fun cur => decide (cur < p.2)) = true then
    banned.set p.1 p.2
  else banned

/-- The section of `receive_synced_state` under `_nodes_lock`. -/
def receive (p : Pushed) (now : ℚ) : NodeDomain :=
  let merged := p.nodes.foldl (mergeNode now) d
  { merged with bannedNodes := p.bannedNodes.foldl (mergeBan now) merged.bannedNodes }

def infoFromDict (dict : NodeDict) : NodeInfo := (nodeFromDict dict).toNodeInfo

def Pushed.snapshot (p : Pushed) (savedAt : ℚ) : SyncSnapshot :=
  ⟨p.nodes.map infoFromDict,p.bannedNodes,savedAt⟩

variable {d}

theorem Views.mergeNodes {m : ClusterMaster} (h : d.Views m) (dicts : List NodeDict) (now : ℚ) :
    (dicts.foldl (mergeNode now) d).Views (m.receiveSyncedState (dicts.map infoFromDict) [] now) := by
  induction dicts generalizing d m with
  | nil => exact ⟨h.nodes,h.loadRouter,h.bannedNodes,h.faultCounts⟩
  | cons dict dicts ih =>
    rw [List.foldl_cons,List.map_cons,mergeNode]
    by_cases hid : (nodeFromDict dict).nodeId = ""
    · have hskip : m.receiveSyncedState (infoFromDict dict :: dicts.map infoFromDict) [] now =
          m.receiveSyncedState (dicts.map infoFromDict) [] now := by
        simp only [ClusterMaster.receiveSyncedState,infoFromDict,List.filter_cons,hid,ne_eq,
          not_true_eq_false,decide_false,Bool.false_eq_true,if_false]
      rw [hskip,if_pos hid]
      exact ih h
    · have htake : m.receiveSyncedState (infoFromDict dict :: dicts.map infoFromDict) [] now =
          (m.receiveSyncedState [infoFromDict dict] [] now).receiveSyncedState
            (dicts.map infoFromDict) [] now := by
        simp only [ClusterMaster.receiveSyncedState,infoFromDict,List.filter_cons,List.filter_nil,
          hid,ne_eq,not_false_eq_true,decide_true,if_true,List.foldl_cons,List.foldl_nil]
      rw [htake,if_neg hid]
      apply ih
      refine ⟨?_,?_,h.bannedNodes,h.faultCounts⟩
      · simp only [ClusterMaster.receiveSyncedState,infoFromDict,List.filter_cons,List.filter_nil,
          hid,ne_eq,not_false_eq_true,decide_true,if_true,List.foldl_cons,List.foldl_nil,h.nodes,
          Dict.mapValues_set]
      · simp only [ClusterMaster.receiveSyncedState,infoFromDict,List.filter_cons,List.filter_nil,
          hid,ne_eq,not_false_eq_true,decide_true,if_true,List.foldl_cons,List.foldl_nil,
          h.loadRouter]

/-- The merge of full records is the one of the scheduler's records. -/
theorem Views.receive {m : ClusterMaster} (h : d.Views m) (p : Pushed) (savedAt now : ℚ) :
    (d.receive p now).Views (m.receive (p.snapshot savedAt) now) := by
  have hmerge := h.mergeNodes p.nodes now
  refine ⟨hmerge.nodes,hmerge.loadRouter,?_,hmerge.faultCounts⟩
  have hbanned : m.bannedNodes = (p.nodes.foldl (mergeNode now) d).bannedNodes :=
    hmerge.bannedNodes
  show p.bannedNodes.foldl (mergeBan now) m.bannedNodes = _
  rw [hbanned]
  rfl

variable (d)

theorem node?_pushed (t savedAt : ℚ) {id : NodeId} (hid : id ≠ "") :
    ((d.pushed t).snapshot savedAt).node? id =
      (d.nodes.get? id).map fun n => infoFromDict (nodeToDict n) := by
  have hsame : ∀ n, (infoFromDict (nodeToDict n)).nodeId = n.nodeId := fun _ => rfl
  cases hfind : ((d.pushed t).snapshot savedAt).node? id with
  | some x =>
    have hx := List.mem_of_find?_eq_some hfind
    rw [List.mem_reverse,List.mem_filter] at hx
    obtain ⟨dict,hdict,rfl⟩ := List.mem_map.mp hx.1
    obtain ⟨n,hn,rfl⟩ := List.mem_map.mp hdict
    obtain ⟨k,hk⟩ := Dict.mem_values_iff.mp hn
    have hfound := List.find?_some (p := fun x : NodeInfo => decide (x.nodeId = id)) hfind
    have hname : n.nodeId = id := (hsame n).symm.trans (of_decide_eq_true hfound)
    have hkey := d.keyed k n hk
    rw [← hname,hkey,hk,Option.map_some]
  | none =>
    cases hget : d.nodes.get? id with
    | none => rfl
    | some n =>
      have hname := (hsame n).trans (d.keyed id n hget)
      have hmem : infoFromDict (nodeToDict n) ∈ (d.pushed t).nodes.map infoFromDict :=
        List.mem_map_of_mem (List.mem_map_of_mem (Dict.mem_values_iff.mpr ⟨id,hget⟩))
      have hnone := List.find?_eq_none.mp hfind (infoFromDict (nodeToDict n))
        (List.mem_reverse.mpr (List.mem_filter.mpr ⟨hmem,decide_eq_true (hname.trans_ne hid)⟩))
      exact absurd (decide_eq_true hname) hnone

theorem bans_pushed {t later : ℚ} (hle : t ≤ later) (savedAt : ℚ) (id : NodeId) :
    ((d.pushed t).snapshot savedAt).bans id later = d.isNodeBanned id later := by
  rw [Bool.eq_iff_iff]
  unfold SyncSnapshot.bans isNodeBanned
  rw [List.any_eq_true,Option.any_eq_true]
  constructor
  · rintro ⟨⟨k,u⟩,hmem,hruns⟩
    obtain ⟨hin,-⟩ := List.mem_filter.mp hmem
    rw [Bool.and_eq_true] at hruns
    obtain rfl : k = id := of_decide_eq_true hruns.1
    exact ⟨u,Dict.get?_eq_some_iff.mpr hin,hruns.2⟩
  · rintro ⟨u,hu,hruns⟩
    refine ⟨(id,u),List.mem_filter.mpr ⟨Dict.get?_eq_some_iff.mp hu,?_⟩,?_⟩
    · exact decide_eq_true (hle.trans_lt (of_decide_eq_true hruns))
    · rw [Bool.and_eq_true]
      exact ⟨decide_eq_true rfl,hruns⟩

/-- A standby that has no node the master does not have, and no ban that goes on longer. -/
structure Covers (standby : NodeDomain) : Prop where
  nodes : ∀ id, d.nodes.get? id = none → standby.nodes.get? id = none
  bans : ∀ id now, standby.isNodeBanned id now = true → d.isNodeBanned id now = true

end NodeDomain

namespace ClusterMaster

def withTables (m : ClusterMaster) (d : NodeDomain) : ClusterMaster :=
  { m with
    nodes := d.nodes.mapValues fun _ n => n.toNodeInfo
    loadRouter := d.loadRouter
    bannedNodes := d.bannedNodes
    faultCounts := d.faultCounts }

theorem views_withTables (m : ClusterMaster) (d : NodeDomain) : d.Views (m.withTables d) :=
  ⟨rfl,rfl,rfl,rfl⟩

/-- A record passes the filters of `select_nodes`. -/
def passes (m : ClusterMaster) (t : ClusterTask) (requiredMem now : ℚ) (n : NodeInfo) : Bool :=
  (decide (n.status = .online) || decide (n.status = .busy)) &&
    decide (now-n.lastHeartbeat < m.config.heartbeatTimeout) && m.eligible t requiredMem now n

/-- The node is among the candidates of `select_nodes`. -/
def IsCandidate (m : ClusterMaster) (t : ClusterTask) (requiredMem now : ℚ) (id : NodeId) : Prop :=
  ∃ n ∈ (m.getOnlineNodes now).filter (m.eligible t requiredMem now), n.nodeId = id

end ClusterMaster

namespace NodeDomain

variable {d : NodeDomain}

theorem Views.isCandidate_iff {m : ClusterMaster} (h : d.Views m) (t : ClusterTask)
    (requiredMem now : ℚ) (id : NodeId) :
    m.IsCandidate t requiredMem now id ↔
      ∃ n, m.nodes.get? id = some n ∧ m.passes t requiredMem now n = true := by
  have hkeyed : ∀ k n, m.nodes.get? k = some n → n.nodeId = k := by
    intro k n hn
    rw [h.nodes,Dict.get?_mapValues] at hn
    obtain ⟨r,hr,rfl⟩ := Option.map_eq_some_iff.mp hn
    exact d.keyed k r hr
  unfold ClusterMaster.IsCandidate ClusterMaster.getOnlineNodes ClusterMaster.passes
  constructor
  · rintro ⟨n,hn,rfl⟩
    obtain ⟨hon,helig⟩ := List.mem_filter.mp hn
    obtain ⟨hmem,hlive⟩ := List.mem_filter.mp hon
    obtain ⟨k,hk⟩ := Dict.mem_values_iff.mp hmem
    refine ⟨n,?_,?_⟩
    · rwa [hkeyed k n hk]
    · rw [Bool.and_eq_true]
      exact ⟨hlive,helig⟩
  · rintro ⟨n,hn,hpass⟩
    rw [Bool.and_eq_true] at hpass
    refine ⟨n,List.mem_filter.mpr ⟨List.mem_filter.mpr ⟨?_,hpass.1⟩,hpass.2⟩,hkeyed id n hn⟩
    exact Dict.mem_values_iff.mpr ⟨id,hn⟩

theorem passes_congr {m m' : ClusterMaster} (hconfig : m.config = m'.config) (t : ClusterTask)
    (requiredMem : ℚ) {now : ℚ} (hbans : ∀ id, m.isNodeBanned id now = m'.isNodeBanned id now)
    (n : NodeInfo) : m.passes t requiredMem now n = m'.passes t requiredMem now n := by
  simp only [ClusterMaster.passes,ClusterMaster.eligible,ClusterMaster.rolesFor,hconfig,hbans]

/-- The standby's tables after the push are what its scheduler makes of it. -/
theorem withTables_receive (m : ClusterMaster) (d : NodeDomain) (p : Pushed) (savedAt now : ℚ) :
    m.withTables (d.receive p now) = (m.withTables d).receive (p.snapshot savedAt) now := by
  have h := (m.views_withTables d).receive p savedAt now
  show { (m.withTables d).receive (p.snapshot savedAt) now with
    nodes := (d.receive p now).nodes.mapValues fun _ (n : NodeRecord) => n.toNodeInfo
    loadRouter := (d.receive p now).loadRouter
    bannedNodes := (d.receive p now).bannedNodes
    faultCounts := (d.receive p now).faultCounts } = _
  rw [← h.nodes,← h.loadRouter,← h.bannedNodes,← h.faultCounts]

/-- A standby that has merged what the master pushed chooses from the same candidates, if no node
has a driver. -/
theorem isCandidate_pushed (hplain : ∀ id n, d.nodes.get? id = some n → n.drivers = [])
    (m : ClusterMaster) {standby : NodeDomain} (hcovers : d.Covers standby)
    {savedAt received now : ℚ} (hsaved : savedAt ≤ now) (hreceived : received ≤ now)
    (t : ClusterTask) (requiredMem : ℚ) {id : NodeId} (hid : id ≠ "") :
    (m.withTables d).IsCandidate t requiredMem now id ↔
      (m.withTables (standby.receive (d.pushed savedAt) received)).IsCandidate t requiredMem now
        id := by
  rw [(m.views_withTables d).isCandidate_iff,(m.views_withTables _).isCandidate_iff,
    withTables_receive m standby (d.pushed savedAt) savedAt received]
  set m' := (m.withTables standby).receive ((d.pushed savedAt).snapshot savedAt) received
  have hbans : ∀ k, (m.withTables d).isNodeBanned k now = m'.isNodeBanned k now := by
    intro k
    have hlater := (m.withTables standby).isNodeBanned_receive_later
      ((d.pushed savedAt).snapshot savedAt) hreceived k
    rw [d.bans_pushed hsaved,(m.views_withTables standby).isNodeBanned] at hlater
    rw [hlater,(m.views_withTables d).isNodeBanned]
    cases hs : standby.isNodeBanned k now with
    | false => rfl
    | true => rw [hcovers.bans k now hs,Bool.or_true]
  have hnodes : m'.nodes.get? id = (m.withTables d).nodes.get? id := by
    have hget := (m.withTables standby).get?_receive ((d.pushed savedAt).snapshot savedAt)
      received id
    rw [d.node?_pushed savedAt savedAt hid] at hget
    rw [hget,(m.views_withTables d).nodes,(m.views_withTables standby).nodes,
      Dict.get?_mapValues,Dict.get?_mapValues]
    cases hd : d.nodes.get? id with
    | none =>
      rw [hcovers.nodes id hd]
      rfl
    | some n =>
      exact congrArg some (n.carried_iff.mpr (hplain id n hd)).toNodeInfo
  rw [hnodes]
  have hconfig : (m.withTables d).config = m'.config := rfl
  refine exists_congr fun n => and_congr_right fun _ => ?_
  rw [passes_congr hconfig t requiredMem hbans]

/-- The codec carries what the scheduler looks at, and a standby that has merged a pushed state
chooses from the same candidates for every task, if and only if no node has a driver. -/
theorem node_codec_iff (d : NodeDomain) (m : ClusterMaster) :
    ((∀ id n, d.nodes.get? id = some n → n.Carried) ∧
      ∀ standby, d.Covers standby → ∀ savedAt received now, savedAt ≤ now → received ≤ now →
        ∀ (t : ClusterTask) (requiredMem : ℚ) (id : NodeId), id ≠ "" →
          ((m.withTables d).IsCandidate t requiredMem now id ↔
            (m.withTables (standby.receive (d.pushed savedAt) received)).IsCandidate t requiredMem
              now id)) ↔
    ∀ id n, d.nodes.get? id = some n → n.drivers = [] := by
  constructor
  · rintro ⟨hcarried,-⟩ id n hn
    exact n.carried_iff.mp (hcarried id n hn)
  · intro hplain
    refine ⟨fun id n hn => n.carried_iff.mpr (hplain id n hn),?_⟩
    intro standby hcovers savedAt received now hsaved hreceived t requiredMem id hid
    exact isCandidate_pushed hplain m hcovers hsaved hreceived t requiredMem hid

def cameraDomain : NodeDomain :=
  (create.registerNode (fun _ => true)
    ({ startRequest with drivers := ["camera"] }.nodeRecord 0) 0).1

/-- The standby has no candidate for a task the leader had one for. -/
theorem codec_loses_drivers : ¬∀ (d : NodeDomain) (m : ClusterMaster),
    (∀ id n, d.nodes.get? id = some n → n.Carried) ∧
      ∀ standby, d.Covers standby → ∀ savedAt received now, savedAt ≤ now → received ≤ now →
        ∀ (t : ClusterTask) (requiredMem : ℚ) (id : NodeId), id ≠ "" →
          ((m.withTables d).IsCandidate t requiredMem now id ↔
            (m.withTables (standby.receive (d.pushed savedAt) received)).IsCandidate t requiredMem
              now id) := by
  intro h
  have hempty : cameraDomain.Covers create := ⟨fun _ _ => rfl,fun _ _ hban => nomatch hban⟩
  have hsame := (h cameraDomain (.create ClusterMaster.defaultConfig .create)).2 create hempty 0 0 0
    le_rfl le_rfl { ClusterMaster.noTask with requiredCapability := "camera" } 0 "n1" (by decide)
  unfold ClusterMaster.IsCandidate at hsame
  have hstandby := hsame.mp (by decide +kernel)
  revert hstandby
  decide +kernel

end NodeDomain
end FusionMultiNodes
