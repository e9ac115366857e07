import Mathlib.Data.List.Sort
import Mathlib.Data.Rat.Floor
import FusionMultiNodes.Lib.Dict
import FusionMultiNodes.Master.Task

/-! Nodes, their load metrics and `LoadRouter`. -/
namespace FusionMultiNodes

inductive NodeStatus
  | online | offline | busy | fault | error
  deriving DecidableEq

structure NodeInfo where
  nodeId : NodeId
  role : String
  status : NodeStatus
  lastHeartbeat : ℚ
  tags : List String
  drivers : List String
  activeTasks : ℤ
  maxTasks : ℤ
  totalMemoryGb : ℚ
  availableMemoryGb : ℚ
  networkRttMs : ℚ
  gpuMemoryUsedGb : ℚ
  gpuMemoryTotalGb : ℚ
  draining : Bool
  supervisorAvailable : Bool
  deriving DecidableEq

namespace NodeInfo

def score (n : NodeInfo) : ℚ :=
  let memScore := n.availableMemoryGb/max n.totalMemoryGb 1
  let taskScore := 1-(n.activeTasks : ℚ)/max (n.maxTasks : ℚ) 1
  let netPenalty := min (n.networkRttMs/100) 1
  (memScore*(4/10)+taskScore*(4/10))*(1-netPenalty*(2/10))

/-- `required_capability` is empty, or among the tags or drivers. -/
def provides (n : NodeInfo) (capability : String) : Bool :=
  decide (capability = "") || decide (capability ∈ n.tags) || decide (capability ∈ n.drivers)

def release (n : NodeInfo) : NodeInfo := { n with activeTasks := max 0 (n.activeTasks-1) }

def occupy (n : NodeInfo) : NodeInfo := { n with activeTasks := n.activeTasks+1 }

end NodeInfo

structure LoadMetrics where
  umaUsedRatio : ℚ
  cpuPercent : ℚ
  metalUtil : ℚ
  taskQueueLen : ℤ
  netRttMs : ℚ
  timestamp : ℚ
  deriving DecidableEq

def LoadMetrics.umaAvailableRatio (m : LoadMetrics) : ℚ := max 0 (1-m.umaUsedRatio)

inductive RoutingStrategy
  | balanced | vramFirst | localityFirst | lowLatency
  deriving DecidableEq

structure RoutingWeights where
  uma : ℚ
  cpu : ℚ
  metal : ℚ
  queue : ℚ
  net : ℚ

def RoutingStrategy.weights : RoutingStrategy → RoutingWeights
  | .balanced => ⟨3/10,2/10,15/100,2/10,15/100⟩
  | .vramFirst => ⟨5/10,15/100,2/10,1/10,5/100⟩
  | .localityFirst => ⟨15/100,15/100,1/10,1/10,5/10⟩
  | .lowLatency => ⟨1/10,1/10,1/10,2/10,5/10⟩

structure LoadRouter where
  strategy : RoutingStrategy
  metrics : Dict NodeId LoadMetrics

/-- Stable sort, largest key first, as `sort(key=…, reverse=True)` does. -/
def sortDescending {α : Type} (key : α → ℚ) (l : List α) : List α :=
  l.insertionSort fun a b => key b ≤ key a

namespace LoadRouter

def staleThreshold : ℚ := 30

def queueCapacity : ℚ := 8

def create : LoadRouter := ⟨.balanced,∅⟩

def setStrategy (r : LoadRouter) (s : RoutingStrategy) : LoadRouter := { r with strategy := s }

def updateMetrics (r : LoadRouter) (id : NodeId) (m : LoadMetrics) (now : ℚ) : LoadRouter :=
  { r with metrics := r.metrics.set id { m with timestamp := now } }

def removeNode (r : LoadRouter) (id : NodeId) : LoadRouter :=
  { r with metrics := r.metrics.erase id }

def computeScore (w : RoutingWeights) (m : LoadMetrics) : ℚ :=
  let umaScore := max 0 (1-m.umaUsedRatio)
  let cpuScore := max 0 (1-m.cpuPercent/100)
  let metalScore := max 0 (1-m.metalUtil)
  let queueScore := max 0 (1-(m.taskQueueLen : ℚ)/max queueCapacity 1)
  let netScore := max 0 (1-min (m.netRttMs/100) 1)
  max 0 (min 1 (umaScore*w.uma+cpuScore*w.cpu+metalScore*w.metal+queueScore*w.queue+
    netScore*w.net))

/-- The score `select_n` gives one candidate; `none` if it is skipped. -/
def candidateScore (r : LoadRouter) (preferred : NodeId) (requiredUmaRatio : ℚ) (tier : String)
    (now : ℚ) (n : NodeInfo) : Option ℚ :=
  (r.metrics.get? n.nodeId).bind fun m =>
    if staleThreshold < now-m.timestamp then none
    else if 0 < requiredUmaRatio ∧ m.umaAvailableRatio < requiredUmaRatio then none
    else
      let preferredBonus : ℚ := if n.nodeId = preferred then 1/10 else 0
      let tierBonus : ℚ := if tier = "heavy" ∧ n.role = "heavy" then 15/100 else 0
      some (min 1 (computeScore r.strategy.weights m+preferredBonus+tierBonus))

def selectN (r : LoadRouter) (candidates : List NodeInfo) (count : ℕ) (preferred : NodeId)
    (requiredUmaRatio : ℚ) (tier : String) (now : ℚ) : List NodeInfo :=
  let scored := candidates.filterMap fun n =>
    (r.candidateScore preferred requiredUmaRatio tier now n).map fun s => (n,s)
  ((sortDescending Prod.snd scored).map Prod.fst).take count

end LoadRouter

/-- `round(x, 3)`, with ties to the even neighbour. -/
def round3 (x : ℚ) : ℚ :=
  let y := x*1000
  let f := ⌊y⌋
  let up := if y-f = 1/2 then decide (f % 2 = 1) else decide (1/2 < y-f)
  ((if up then f+1 else f : ℤ) : ℚ)/1000

/-- The metrics `_sync_node_metrics` derives from a node. -/
def NodeInfo.loadMetrics (n : NodeInfo) (now : ℚ) : LoadMetrics where
  umaUsedRatio := 1-n.availableMemoryGb/max n.totalMemoryGb 1
  cpuPercent := 0
  metalUtil :=
    if 0 < n.gpuMemoryTotalGb then
      round3 (min 1 (n.gpuMemoryUsedGb/max n.gpuMemoryTotalGb (1/1000)))
    else 0
  taskQueueLen := n.activeTasks
  netRttMs := n.networkRttMs
  timestamp := now

end FusionMultiNodes
