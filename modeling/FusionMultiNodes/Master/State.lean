import FusionMultiNodes.Master.HaState
import FusionMultiNodes.Master.NodeInfo

/-! The state of a `ClusterMaster`: its tables, the coroutines that are suspended, and the
operations on task objects the coroutines share. -/
namespace FusionMultiNodes

/-- Where `assign_task` is suspended. `requiredMem` is a local variable. -/
inductive AssignPc
  | guards
  | quota
  | localCheck (requiredMem : ℚ)
  | localCommit (requiredMem : ℚ)
  | route (requiredMem : ℚ)
  | selecting (requiredMem : ℚ) (original : RoutingStrategy)
  | enqueueShort
  | confirm (requiredMem : ℚ) (nodes : List NodeId)
  | writing (w : ℕ)
  | trigger
  | returned (ok : Bool)
  deriving DecidableEq

inductive Caller
  | submit
  | drain (rest : List Ref)
  | retry (now : ℚ) (rest : List Ref)
  | migrate
  | degrade
  deriving DecidableEq

structure AgentResult where
  rateLimited : Bool
  overload : Bool
  dedupBlocked : Bool
  sandboxBlocked : Bool
  fencingRejected : Bool
  upstreamMissing : Bool
  error : Option String
  hiddenStates : Option String
  body : String
  deriving DecidableEq

inductive AgentReply
  | raised (exception message : String)
  | notDict
  | dict (r : AgentResult)
  deriving DecidableEq

/-- The arguments of `_finalize_task`, and what `_partial_prev_outputs` is set to after it. -/
structure DispatchOutcome where
  success : Bool
  error : String
  result : Option TaskResult
  retryable : Bool
  partially : Bool
  prevOutputs : Option (List AgentOutput)
  deriving DecidableEq

/-- The local variables of the loop over the results of `_dispatch_data`. -/
structure Collected where
  outputs : List AgentOutput
  errors : List String
  transientFail : Bool
  logicFail : Bool
  deriving DecidableEq

inductive DispatchPc
  | start
  | snapshot
  | data (replies : List (Option AgentReply))
  | collect (rest : List (NodeId × AgentReply)) (acc : Collected)
  | pipeline (present : List NodeId) (idx : ℕ) (hidden : Option String) (steps : List NodeId)
  | finalizing (o : DispatchOutcome)
  | tail (w : ℕ) (o : DispatchOutcome)
  deriving DecidableEq

/-- A `_dispatch_task` coroutine. `nodeIds` is its local variable; `attempt` is a history
variable, the number of assignments of the task when the coroutine read its nodes. -/
structure Dispatch where
  task : Ref
  attempt : ℕ
  nodeIds : List NodeId
  pc : DispatchPc
  deriving DecidableEq

inductive Frame
  | assign (task : Ref) (pc : AssignPc) (k : Caller)
  | drainStart
  | draining (rest : List Ref)
  | retrying (now : ℚ) (rest : List Ref)
  | cancelling (w : ℕ)
  | refreshing (offline : List NodeId)
  | probing (rest : List NodeId)
  | dispatch (d : Dispatch)
  deriving DecidableEq

def Frame.dispatch? : Frame → Option Dispatch
  | .dispatch d => some d
  | _ => none

theorem Frame.dispatch?_eq_some {f : Frame} {d : Dispatch} :
    f.dispatch? = some d ↔ f = .dispatch d := by
  cases f <;> simp [Frame.dispatch?]

structure TestJob where
  jobId : String
  taskId : TaskId
  requiredDriver : String
  createdAt : ℚ
  nodeId : NodeId
  deriving DecidableEq

structure TestBatch where
  batchId : String
  createdAt : ℚ
  ownerMaster : NodeId
  jobs : List TestJob
  status : String
  deriving DecidableEq

structure ClusterSession where
  sessionId : String
  originNode : NodeId
  hostNode : NodeId
  state : String
  owner : String
  createdAt : ℚ
  updatedAt : ℚ
  deriving DecidableEq

structure StoreContent where
  tasks : List TaskRecord
  batches : List TestBatch
  sessions : List ClusterSession
  runs : List (String × TaskId)
  deriving DecidableEq

/-- A thread in `_write_task_store`: it has its snapshot, or has written the temporary file. -/
inductive WriteJob
  | opened (pending : List TaskRecord)
  | filled
  deriving DecidableEq

structure TaskStore where
  file : Option StoreContent
  tmp : Option StoreContent
  pendingBatchSnap : List TestBatch
  pendingSessionSnap : List ClusterSession
  pendingRunsSnap : List (String × TaskId)
  writes : Dict ℕ WriteJob
  nextWrite : ℕ
  lastPersistTs : ℚ
  persistDirty : Bool

structure MasterConfig where
  heartbeatTimeout : ℚ
  /-- `parallel.pipeline_shard_roles`, if a cluster configuration is loaded. -/
  shardRoles : Option (List String)
  partialRecovery : Bool
  maxCompletedTasks : ℕ

/-- A request posted to `/api/execute` of an agent. -/
structure ExecuteRequest where
  target : NodeId
  dispatchId : String
  taskType : String
  modelName : String
  fencingToken : ℕ
  leaderId : NodeId
  deriving DecidableEq

structure ClusterMaster where
  config : MasterConfig
  ha : HaState
  nodes : Dict NodeId NodeInfo
  loadRouter : LoadRouter
  bannedNodes : Dict NodeId ℚ
  faultCounts : Dict NodeId (List ℚ)
  objects : Ref → ClusterTask
  nextRef : Ref
  tasks : Dict TaskId Ref
  pendingQueue : List Ref
  pendingRetry : List Ref
  tenantMaxConcurrent : ℕ
  tenantQuotas : Dict String ℕ
  maxPendingQueue : ℕ
  testBatches : Dict String TestBatch
  sessions : Dict String ClusterSession
  runIds : Dict String TaskId
  store : TaskStore
  frames : Dict ℕ Frame
  nextFrame : ℕ
  dispatchTasks : Dict TaskId ℕ
  doneCallbacks : List TaskId
  requests : List ExecuteRequest
  /-- History variable: how often a task went to `RUNNING`. -/
  attempts : TaskId → ℕ
  /-- History variable: the dispatches that were started. -/
  launched : List Ref

def maxRetryAttempts : ℕ := 1

def maxRetryLoopAttempts : ℕ := 10

def retryBackoffBaseS : ℚ := 30

def retryBackoffMaxS : ℚ := 600

def persistThrottleS : ℚ := 5

def faultWindowS : ℚ := 60

def faultThreshold : ℕ := 3

def banDurationS : ℚ := 300

def insertByPriority (priority : Ref → ℤ) (r : Ref) : List Ref → List Ref
  | [] => [r]
  | q::rest => if priority q < priority r then r::q::rest else q::insertByPriority priority r rest

def releaseNodes (nodes : Dict NodeId NodeInfo) : List NodeId → Dict NodeId NodeInfo
  | [] => nodes
  | n::rest => releaseNodes (nodes.modify n NodeInfo.release) rest

def occupyNodes (nodes : Dict NodeId NodeInfo) : List NodeId → Dict NodeId NodeInfo
  | [] => nodes
  | n::rest => occupyNodes (nodes.modify n NodeInfo.occupy) rest

namespace ClusterMaster

def spawn (m : ClusterMaster) (f : Frame) : ClusterMaster :=
  { m with frames := m.frames.set m.nextFrame f, nextFrame := m.nextFrame+1 }

def setFrame (m : ClusterMaster) (cid : ℕ) (f : Frame) : ClusterMaster :=
  { m with frames := m.frames.set cid f }

def endFrame (m : ClusterMaster) (cid : ℕ) : ClusterMaster :=
  { m with frames := m.frames.erase cid }

def modifyTask (m : ClusterMaster) (r : Ref) (f : ClusterTask → ClusterTask) : ClusterMaster :=
  { m with objects := Function.update m.objects r (f (m.objects r)) }

def task? (m : ClusterMaster) (id : TaskId) : Option ClusterTask := (m.tasks.get? id).map m.objects

def isRunning (m : ClusterMaster) (id : TaskId) : Bool :=
  (m.task? id).any fun t => decide (t.status = .running)

def isQueued (m : ClusterMaster) (id : TaskId) : Bool :=
  m.pendingQueue.any fun r => decide ((m.objects r).taskId = id)

def runningCountForUser (m : ClusterMaster) (user : String) : ℕ :=
  (m.tasks.values.filter fun r =>
    decide ((m.objects r).status = .running) && decide ((m.objects r).user = user)).length

def tenantLimitFor (m : ClusterMaster) (user : String) : ℕ :=
  if user = "" then m.tenantMaxConcurrent
  else (m.tenantQuotas.get? user).getD m.tenantMaxConcurrent

/-- A task goes into the priority queue and the task table. -/
def park (m : ClusterMaster) (r : Ref) : ClusterMaster :=
  { m.modifyTask r fun t => { t with status := .pending, assignedNodes := [] } with
    tasks := m.tasks.set (m.objects r).taskId r
    pendingQueue := insertByPriority (fun q => (m.objects q).priority) r m.pendingQueue }

def enqueuePending (m : ClusterMaster) (r : Ref) (force : Bool) : ClusterMaster × Bool :=
  if force = false ∧ m.maxPendingQueue ≤ m.pendingQueue.length then (m,false)
  else (m.park r,true)

/-- What `_enqueue_retry` does to a task within its budget. -/
def retryTask (t : ClusterTask) (now : ℚ) : ClusterTask :=
  { t with
    excludeNodes :=
      appendMissing t.excludeNodes (t.assignedNodes.filter fun n => decide (n ≠ t.pinnedNodeId))
    retryCount := t.retryCount+1
    status := .pending
    assignedNodes := []
    nextRetryAt := now+min (retryBackoffBaseS*2^t.retryCount) retryBackoffMaxS }

def giveUpTask (t : ClusterTask) (error : String) : ClusterTask :=
  { t with status := .failed, error := error }

def enqueueRetry (m : ClusterMaster) (r : Ref) (now : ℚ) : ClusterMaster :=
  if maxRetryAttempts ≤ (m.objects r).retryCount then
    m.modifyTask r fun t => giveUpTask t "重试次数超限 (1)"
  else
    { m.modifyTask r fun t => retryTask t now with pendingRetry := m.pendingRetry ++ [r] }

def triggerDispatch (m : ClusterMaster) (r : Ref) : ClusterMaster :=
  let t := m.objects r
  if t.assignedNodes = [] then m
  else if (m.dispatchTasks.get? t.taskId).any m.frames.contains then m
  else
    { m.spawn (.dispatch ⟨r,m.attempts t.taskId,[],.start⟩) with
      dispatchTasks := m.dispatchTasks.set t.taskId m.nextFrame
      launched := m.launched ++ [r] }

def isNodeBanned (m : ClusterMaster) (id : NodeId) (now : ℚ) : Bool :=
  (m.bannedNodes.get? id).any fun unbanAt => decide (now < unbanAt)

/-- `_is_node_banned_locked` on an expired entry. -/
def dropExpiredBan (m : ClusterMaster) (id : NodeId) (now : ℚ) : ClusterMaster :=
  if (m.bannedNodes.contains id && !m.isNodeBanned id now) = true then
    { m with bannedNodes := m.bannedNodes.erase id, faultCounts := m.faultCounts.erase id }
  else m

def reportFault (m : ClusterMaster) (id : NodeId) (now : ℚ) : ClusterMaster :=
  if m.nodes.contains id then
    let windowed := ((m.faultCounts.get? id).getD [] ++ [now]).filter fun t =>
      decide (now-t ≤ faultWindowS)
    { m with
      nodes := m.nodes.modify id fun n => { n with status := .fault }
      faultCounts := m.faultCounts.set id windowed
      bannedNodes :=
        if faultThreshold ≤ windowed.length then m.bannedNodes.set id (now+banDurationS)
        else m.bannedNodes }
  else m

def isTerminalForStore (m : ClusterMaster) : TaskStatus → Bool
  | .completed | .failed | .cancelled | .timeout => true
  | .partialDone => !m.config.partialRecovery
  | _ => false

/-- The records `_persist_tasks_locked` returns. -/
def taskSnapshot (m : ClusterMaster) : List TaskRecord :=
  (m.tasks.values.filter fun r => !(m.isTerminalForStore (m.objects r).status)).map fun r =>
    (m.objects r).toDict

/-- `_persist_tasks_locked`, and the start of the thread that writes its snapshot. -/
def persistTasks (m : ClusterMaster) : ClusterMaster :=
  { m with
    store := { m.store with
      pendingBatchSnap := m.testBatches.values
      pendingSessionSnap := m.sessions.values
      pendingRunsSnap := m.runIds.entries.filter fun p => m.tasks.contains p.2
      writes := m.store.writes.set m.store.nextWrite (.opened m.taskSnapshot)
      nextWrite := m.store.nextWrite+1 } }

def markDirty (m : ClusterMaster) : ClusterMaster :=
  { m with store := { m.store with persistDirty := true } }

/-- `_persist_tasks_locked` where its snapshot of the tasks is not written. -/
def deferPersist (m : ClusterMaster) : ClusterMaster :=
  { m with
    store := { m.store with
      pendingBatchSnap := m.testBatches.values
      pendingSessionSnap := m.sessions.values
      pendingRunsSnap := m.runIds.entries.filter fun p => m.tasks.contains p.2
      persistDirty := true } }

end ClusterMaster
end FusionMultiNodes
