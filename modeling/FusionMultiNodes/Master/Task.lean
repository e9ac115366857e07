import Mathlib.Data.Rat.Floor
import FusionMultiNodes.Election.Node
import FusionMultiNodes.Lib.IntText

/-! `ClusterTask`, the record it is stored as, and what is read off its model name. -/
namespace FusionMultiNodes

abbrev TaskId := String

/-- The address of a task object: the lists and coroutines of a master hold objects, its task
table maps ids to them. -/
abbrev Ref := ℕ

inductive ParallelMode
  | pipeline | data
  deriving DecidableEq

inductive TaskStatus
  | pending | running | completed | failed | cancelled | migrated | timeout | partialDone
  deriving DecidableEq

structure ModelShard where
  shardIndex : ℤ
  layerRange : List ℤ
  deriving DecidableEq

structure AgentOutput where
  nodeId : NodeId
  body : String
  deriving DecidableEq

/-- The `result` dictionary of a finished dispatch. -/
structure TaskResult where
  outputs : List AgentOutput
  errors : List String
  nodeCount : ℕ
  hiddenStates : Option String
  steps : List NodeId
  deriving DecidableEq

structure ClusterTask where
  taskId : TaskId
  name : String
  mode : ParallelMode
  modelName : String
  modelShards : List ModelShard
  assignedNodes : List NodeId
  status : TaskStatus
  createdAt : ℚ
  startedAt : ℚ
  completedAt : ℚ
  timeoutSeconds : ℚ
  error : String
  user : String
  requiredCapability : String
  preferredNodeId : NodeId
  excludeNodes : List NodeId
  ownerMaster : NodeId
  pinnedNodeId : NodeId
  batchId : String
  tier : String
  priority : ℤ
  degradedFromModel : String
  degradationCount : ℕ
  maxDegradations : ℕ
  subTasks : List TaskId
  cancelReason : String
  taskType : String
  result : Option TaskResult
  /-- The attribute `_retry_count`. -/
  retryCount : ℕ
  /-- The attribute `next_retry_at`. -/
  nextRetryAt : ℚ
  /-- The attribute `_partial_prev_outputs`, if it was ever set. -/
  partialPrevOutputs : Option (List AgentOutput)
  deriving DecidableEq

/-- The dictionary `_task_to_dict` makes of a task. -/
structure TaskRecord where
  taskId : TaskId
  name : String
  mode : ParallelMode
  modelName : String
  modelShards : List ModelShard
  assignedNodes : List NodeId
  status : TaskStatus
  createdAt : ℚ
  startedAt : ℚ
  completedAt : ℚ
  timeoutSeconds : ℚ
  error : String
  user : String
  requiredCapability : String
  preferredNodeId : NodeId
  excludeNodes : List NodeId
  ownerMaster : NodeId
  pinnedNodeId : NodeId
  batchId : String
  tier : String
  priority : ℤ
  degradedFromModel : String
  degradationCount : ℕ
  maxDegradations : ℕ
  subTasks : List TaskId
  cancelReason : String
  taskType : String
  result : Option TaskResult
  retryCount : ℕ
  nextRetryAt : ℚ
  deriving DecidableEq

/-- Append the ids that are not yet in a list, as the `seen` loops do. -/
def appendMissing (ids : List NodeId) : List NodeId → List NodeId
  | [] => ids
  | n::rest => appendMissing (if n ∈ ids then ids else ids ++ [n]) rest

namespace ClusterTask

def need (t : ClusterTask) : ℕ := if t.modelShards.length = 0 then 1 else t.modelShards.length

def toDict (t : ClusterTask) : TaskRecord where
  taskId := t.taskId
  name := t.name
  mode := t.mode
  modelName := t.modelName
  modelShards := t.modelShards
  assignedNodes := t.assignedNodes
  status := t.status
  createdAt := t.createdAt
  startedAt := t.startedAt
  completedAt := t.completedAt
  timeoutSeconds := t.timeoutSeconds
  error := t.error
  user := t.user
  requiredCapability := t.requiredCapability
  preferredNodeId := t.preferredNodeId
  excludeNodes := t.excludeNodes
  ownerMaster := t.ownerMaster
  pinnedNodeId := t.pinnedNodeId
  batchId := t.batchId
  tier := t.tier
  priority := t.priority
  degradedFromModel := t.degradedFromModel
  degradationCount := t.degradationCount
  maxDegradations := t.maxDegradations
  subTasks := t.subTasks
  cancelReason := t.cancelReason
  taskType := t.taskType
  result := t.result
  retryCount := t.retryCount
  nextRetryAt := t.nextRetryAt

end ClusterTask

namespace TaskRecord

def wasRunning (d : TaskRecord) : Bool :=
  decide (d.status = .running) || decide (d.status = .migrated)

def prevOutputs (d : TaskRecord) : List AgentOutput :=
  (d.result.map TaskResult.outputs).getD []

/-- `_task_from_dict` without its last part. -/
def load (d : TaskRecord) : ClusterTask where
  taskId := d.taskId
  name := d.name
  mode := d.mode
  modelName := d.modelName
  modelShards := d.modelShards
  assignedNodes := if d.wasRunning then [] else d.assignedNodes
  status := if d.wasRunning then .pending else d.status
  createdAt := d.createdAt
  startedAt := if d.wasRunning then 0 else d.startedAt
  completedAt := 0
  timeoutSeconds := d.timeoutSeconds
  error := d.error
  user := d.user
  requiredCapability := d.requiredCapability
  preferredNodeId := d.preferredNodeId
  excludeNodes :=
    if d.wasRunning then
      appendMissing d.excludeNodes (d.assignedNodes.filter fun n => decide (n ≠ d.pinnedNodeId))
    else d.excludeNodes
  ownerMaster := d.ownerMaster
  pinnedNodeId := d.pinnedNodeId
  batchId := d.batchId
  tier := d.tier
  priority := d.priority
  degradedFromModel := d.degradedFromModel
  degradationCount := d.degradationCount
  maxDegradations := d.maxDegradations
  subTasks := d.subTasks
  cancelReason := d.cancelReason
  taskType := d.taskType
  result := d.result
  retryCount := d.retryCount
  nextRetryAt := d.nextRetryAt
  partialPrevOutputs := none

/-- `_task_from_dict`; the flag is the environment variable `FUSION_PARTIAL_RECOVERY`. -/
def fromDict (partialRecovery : Bool) (d : TaskRecord) : ClusterTask :=
  if d.status = .partialDone ∧ partialRecovery = true then
    let succeeded := (d.prevOutputs.map AgentOutput.nodeId).filter fun n => decide (n ≠ "")
    { d.load with
      status := .pending
      assignedNodes := []
      startedAt := 0
      excludeNodes := appendMissing d.excludeNodes succeeded
      partialPrevOutputs := if succeeded = [] then none else some d.prevOutputs }
  else d.load

end TaskRecord

/-- `\d` of a pattern. -/
def isDecimal (c : Char) : Bool :=
  decimalZeros.any fun z => decide (z ≤ c.toNat) && decide (c.toNat < z+10)

/-- Case folding as far as it matters for a size such as `8b`. -/
def lowerChar (c : Char) : Char := if c = 'B' then 'b' else c

def startsWithSize (size name : List Char) : Bool := decide (size <+: name.map lowerChar)

/-- The pattern `(?<!\d)size(?!\d)` matches here, with `prev` the character before. -/
def sizeHere (size : List Char) (prev : Option Char) (name : List Char) : Bool :=
  !(prev.any isDecimal) && startsWithSize size name && !((name.drop size.length).head?.any isDecimal)

def findSize (size : List Char) : Option Char → List Char → Bool
  | prev, [] => sizeHere size prev []
  | prev, c::rest => sizeHere size prev (c::rest) || findSize size (some c) rest

/-- `re.sub` for a size; `skip` characters belong to the match that was just replaced. -/
def replaceSize (size new : List Char) : ℕ → Option Char → List Char → List Char
  | _, _, [] => []
  | skip+1, _, c::rest => replaceSize size new skip (some c) rest
  | 0, prev, c::rest =>
    if sizeHere size prev (c::rest) then new ++ replaceSize size new (size.length-1) (some c) rest
    else c::replaceSize size new 0 (some c) rest

/-- `_match_model_size`; the keys are listed in descending order. -/
def matchModelSize (modelName : String) (sizeKeys : List String) : Option String :=
  if modelName = "" then none
  else sizeKeys.find? fun k => findSize k.toList none modelName.toList

def modelDegradationChain : List (String × String) :=
  [("70b","32b"),("32b","13b"),("13b","8b"),("8b","3b"),("3b","1b")]

def modelMemoryProfile : List (String × ℚ) :=
  [("70b",34),("32b",18),("13b",12),("8b",8),("3b",6),("1b",4),("0.5b",2)]

def baseMemoryGb : ℚ := 2

def defaultModelMemoryGb : ℚ := 4

def localForceMemoryGb : ℚ := 4

def localForceModelSizes : List String := ["0.5b"]

def vramFirstModelSizes : List String := ["70b","32b","13b"]

namespace ClusterTask

/-- `_extract_model_size` with the entry of the chain it is looked up for. -/
def nextModelSize (t : ClusterTask) : Option (String × String) :=
  (matchModelSize t.modelName (modelDegradationChain.map Prod.fst)).bind fun size =>
    modelDegradationChain.find? fun p => decide (p.1 = size)

def estimateMemory (t : ClusterTask) : ℚ :=
  if t.modelName = "" then baseMemoryGb
  else
    let profile := (matchModelSize t.modelName (modelMemoryProfile.map Prod.fst)).bind fun size =>
      (modelMemoryProfile.find? fun p => decide (p.1 = size)).map Prod.snd
    baseMemoryGb+defaultModelMemoryGb+(profile.map fun mem => mem-defaultModelMemoryGb).getD 0

def isLocalForce (t : ClusterTask) (requiredMem : ℚ) : Bool :=
  (decide (t.modelName ≠ "") && (matchModelSize t.modelName localForceModelSizes).isSome) ||
    decide (requiredMem ≤ localForceMemoryGb)

def isVramFirst (t : ClusterTask) : Bool :=
  (matchModelSize t.modelName vramFirstModelSizes).isSome

end ClusterTask

/-- The digits after the point, at most `k` of them, without zeros at the end. -/
def fractionDigits (den : ℕ) : ℕ → ℕ → String
  | _, 0 => ""
  | 0, _ => ""
  | k+1, num => toString (10*num/den) ++ fractionDigits den k (10*num%den)

/-- `str` of a float between 0.0001 and 10^16, or of its negative. -/
def floatText (q : ℚ) : String :=
  let n := q.num.natAbs
  (if q < 0 then "-" else "") ++ toString (n/q.den) ++ "." ++
    if n%q.den = 0 then "0" else fractionDigits q.den 16 (n%q.den)

def timeoutText (timeoutSeconds : ℚ) : String := "任务超时 (" ++ floatText timeoutSeconds ++ "s)"

example : timeoutText 300 = "任务超时 (300.0s)" ∧ timeoutText (1/8) = "任务超时 (0.125s)" := by
  decide +kernel

end FusionMultiNodes
