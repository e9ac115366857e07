import FusionMultiNodes.Lib.Machine
import FusionMultiNodes.Master.Membership
import FusionMultiNodes.Master.Store

/-! Everything that can happen to a `ClusterMaster`. -/
namespace FusionMultiNodes

/-- The calls, replies, ticks and thread steps a master reacts to. A time argument is what
`time.time()` returns in the step, a random one the draw of an election timeout. -/
inductive MasterEvent
  | election (ev : MasterElection.Event)
  | registerNode (info : NodeInfo) (now : ℚ)
  | unregisterNode (id : NodeId) (banned : Bool) (now : ℚ)
  | unbanNode (id : NodeId)
  | updateHeartbeat (id : NodeId) (totalMemoryGb availableMemoryGb : Option ℚ)
      (activeTasks : Option ℤ) (supervisorAvailable : Option Bool) (now : ℚ)
  | updateNodeLoad (id : NodeId) (metrics : LoadMetrics)
      (gpuMemoryUsedGb gpuMemoryTotalGb : Option ℚ) (supervisorAvailable : Option Bool) (now : ℚ)
  | setNodeDraining (id : NodeId) (draining : Bool)
  | checkHeartbeat (id : NodeId) (now : ℚ)
  | reportFault (id : NodeId) (now : ℚ)
  | probeBannedNodes (now : ℚ)
  | probed (cid : ℕ) (ok : Bool) (now : ℚ)
  | receiveSyncedState (infos : List NodeInfo) (banned : List (NodeId × ℚ)) (now : ℚ)
  | configureScheduling (tenantMaxConcurrent : ℕ) (maxPendingQueue : Option ℕ)
  | setTenantQuota (tid : String) (concurrent : ℤ)
  | submit (task : ClusterTask)
  | resume (cid : ℕ) (now : ℚ)
  | reply (cid i : ℕ) (reply : AgentReply) (now : ℚ)
  | doneCallback (id : TaskId)
  | completeTask (id : TaskId) (error : String) (now : ℚ)
  | cancelTask (id : TaskId) (reason : String) (cancelSubs : Bool)
  | migrateTask (id : TaskId)
  | degradeTask (id : TaskId)
  | checkTimeouts (now : ℚ)
  | refreshNodeStatuses (now : ℚ)
  | cleanupCompletedTasks
  | cleanupOfflineNodes (now : ℚ)
  | retryLoop (now : ℚ)
  | persistLoop
  | fillTmp (w : ℕ)
  | replaceFile (w : ℕ) (now : ℚ)
  | registerTestBatch (b : TestBatch)
  | registerRunId (runId : String) (taskId : TaskId)
  | registerSession (sessionId : String) (originNode hostNode : NodeId) (owner : String) (now : ℚ)
  | handoffSession (sessionId : String) (target : NodeId) (now : ℚ)
  | closeSession (sessionId : String) (now : ℚ)
  | receiveSyncedTasks (records : List TaskRecord)
  | restart (now rnd : ℚ)

def MasterEvent.isStore : MasterEvent → Bool
  | .fillTmp _ | .replaceFile _ _ | .persistLoop | .registerRunId _ _ => true
  | .registerSession _ _ _ _ _ | .handoffSession _ _ _ | .closeSession _ _ => true
  | _ => false

/-- What `time.time()` returns in the step. -/
def MasterEvent.now? : MasterEvent → Option ℚ
  | .registerNode _ now | .unregisterNode _ _ now | .updateHeartbeat _ _ _ _ _ now
  | .updateNodeLoad _ _ _ _ _ now | .checkHeartbeat _ now | .reportFault _ now
  | .probeBannedNodes now | .probed _ _ now | .receiveSyncedState _ _ now | .resume _ now
  | .reply _ _ _ now | .completeTask _ _ now | .checkTimeouts now | .refreshNodeStatuses now
  | .cleanupOfflineNodes now | .retryLoop now | .replaceFile _ now | .registerSession _ _ _ _ now
  | .handoffSession _ _ now | .closeSession _ now | .restart now _ => some now
  | _ => none

namespace ClusterMaster

/-- A submitted task: the route makes a fresh id and leaves the other attributes at their
defaults. -/
def isNewTask (m : ClusterMaster) (t : ClusterTask) : Bool :=
  decide (t.status = .pending) && decide (t.assignedNodes = []) && decide (t.retryCount = 0) &&
    decide (t.nextRetryAt = 0) && decide (t.partialPrevOutputs = none) &&
    (List.range m.nextRef).all fun r => decide ((m.objects r).taskId ≠ t.taskId)

def submit (m : ClusterMaster) (t : ClusterTask) : ClusterMaster :=
  { m with
    objects := Function.update m.objects m.nextRef t
    nextRef := m.nextRef+1 }.spawn (.assign m.nextRef .guards .submit)

def setTenantQuota (m : ClusterMaster) (tid : String) (concurrent : ℤ) : ClusterMaster :=
  { m with
    tenantQuotas :=
      if concurrent ≤ 0 then m.tenantQuotas.erase tid
      else m.tenantQuotas.set tid concurrent.toNat }

def resumeFrame (m : ClusterMaster) (cid : ℕ) (now : ℚ) : Frame → Option ClusterMaster
  | .assign r pc k => m.resumeAssign cid r k now pc
  | .drainStart => some (m.drainStart cid)
  | .draining rest => some (m.drainNext cid rest)
  | .retrying loopNow rest => some (m.retryNext cid loopNow rest)
  | .cancelling w =>
    if m.store.writes.contains w then none else some (m.setFrame cid .drainStart)
  | .refreshing offline => some (m.refreshTasks cid offline now)
  | .probing [] => some (m.endFrame cid)
  | .probing (_::_) => none
  | .dispatch d => m.resumeDispatch cid d now

def step (m : ClusterMaster) : MasterEvent → Option ClusterMaster
  | .election ev => (m.ha.electionStep ev).map fun p => { m with ha := p.1 }
  | .registerNode info now => some (m.registerNode info now)
  | .unregisterNode id banned now => some (m.unregisterNode id banned now)
  | .unbanNode id => some (m.unbanNode id)
  | .updateHeartbeat id total available active supervisor now =>
    some (m.updateHeartbeat id total available active supervisor now)
  | .updateNodeLoad id metrics used total supervisor now =>
    some (m.updateNodeLoad id metrics used total supervisor now)
  | .setNodeDraining id draining => some (m.setNodeDraining id draining)
  | .checkHeartbeat id now => some (m.checkHeartbeat id now)
  | .reportFault id now => some (m.reportFault id now)
  | .probeBannedNodes now => some (m.probeBannedNodes now)
  | .probed cid ok now =>
    match m.frames.get? cid with
    | some (.probing (id::rest)) => some (m.probed cid id rest ok now)
    | _ => none
  | .receiveSyncedState infos banned now => some (m.receiveSyncedState infos banned now)
  | .configureScheduling tenantMax maxQueue =>
    some { m with
      tenantMaxConcurrent := tenantMax
      maxPendingQueue := maxQueue.getD m.maxPendingQueue }
  | .setTenantQuota tid concurrent => some (m.setTenantQuota tid concurrent)
  | .submit t => if m.isNewTask t then some (m.submit t) else none
  | .resume cid now => (m.frames.get? cid).bind (m.resumeFrame cid now)
  | .reply cid i reply now =>
    match m.frames.get? cid with
    | some (.dispatch d) => m.receiveReply cid d i reply now
    | _ => none
  | .doneCallback id =>
    if id ∈ m.doneCallbacks then
      some { m with
        doneCallbacks := m.doneCallbacks.erase id
        dispatchTasks := m.dispatchTasks.erase id }
    else none
  | .completeTask id error now => some (m.completeTask id error now)
  | .cancelTask id reason subs => some (m.cancelTask id reason subs)
  | .migrateTask id => some (m.migrateTask id)
  | .degradeTask id => some (m.degradeTask id)
  | .checkTimeouts now => some (m.checkTimeouts now)
  | .refreshNodeStatuses now => some (m.refreshNodes now)
  | .cleanupCompletedTasks => some m.cleanupCompletedTasks
  | .cleanupOfflineNodes now => some (m.cleanupOfflineNodes now)
  | .retryLoop now => some (m.retryLoop now)
  | .persistLoop => some m.persistLoop
  | .fillTmp w => m.fillTmp w
  | .replaceFile w now => m.replaceFile w now
  | .registerTestBatch b => some (m.registerTestBatch b)
  | .registerRunId runId taskId => some (m.registerRunId runId taskId)
  | .registerSession id origin host owner now => some (m.registerSession id origin host owner now)
  | .handoffSession id target now => some (m.handoffSession id target now)
  | .closeSession id now => some (m.closeSession id now)
  | .receiveSyncedTasks records => some (m.receiveSyncedTasks records)
  | .restart now rnd => some (m.restart now rnd)

def machine : Machine ClusterMaster MasterEvent := ⟨step⟩

/-- Steps that are about the store, the sessions or the run ids. -/
theorem step_store {m m' : ClusterMaster} {ev : MasterEvent} (h : machine.step m ev = some m')
    (hev : ev.isStore = true) :
    ∃ c d e, m' = { m with sessions := c, runIds := d, store := e } := by
  have hsame : ∃ c d e, m = { m with sessions := c, runIds := d, store := e } := ⟨_,_,_,rfl⟩
  cases ev with
  | fillTmp w =>
    simp only [machine,step,fillTmp] at h
    split at h
    · exact ⟨_,_,_,(Option.some.inj h).symm⟩
    · cases h
  | replaceFile w now =>
    simp only [machine,step,replaceFile] at h
    split at h
    · split at h <;> exact ⟨_,_,_,(Option.some.inj h).symm⟩
    · cases h
  | persistLoop =>
    obtain rfl := Option.some.inj h
    unfold persistLoop
    split_ifs
    · exact ⟨_,_,_,rfl⟩
    · exact hsame
  | registerRunId runId id =>
    obtain rfl := Option.some.inj h
    unfold registerRunId
    split_ifs
    · exact hsame
    · exact ⟨_,_,_,rfl⟩
  | registerSession id origin host owner now =>
    obtain rfl := Option.some.inj h
    unfold registerSession
    split_ifs
    · exact hsame
    · exact ⟨_,_,_,rfl⟩
  | handoffSession id target now =>
    obtain rfl := Option.some.inj h
    unfold handoffSession
    split
    · exact hsame
    · split_ifs
      · exact hsame
      · exact ⟨_,_,_,rfl⟩
  | closeSession id now =>
    obtain rfl := Option.some.inj h
    unfold closeSession
    split
    · exact hsame
    · split_ifs
      · exact hsame
      · exact ⟨_,_,_,rfl⟩
  | _ => cases hev

/-- A task that is never looked at: the content of an address not in use. -/
def noTask : ClusterTask where
  taskId := ""
  name := ""
  mode := .data
  modelName := ""
  modelShards := []
  assignedNodes := []
  status := .completed
  createdAt := 0
  startedAt := 0
  completedAt := 0
  timeoutSeconds := 300
  error := ""
  user := ""
  requiredCapability := ""
  preferredNodeId := ""
  excludeNodes := []
  ownerMaster := ""
  pinnedNodeId := ""
  batchId := ""
  tier := "general"
  priority := 0
  degradedFromModel := ""
  degradationCount := 0
  maxDegradations := 2
  subTasks := []
  cancelReason := ""
  taskType := "inference"
  result := none
  retryCount := 0
  nextRetryAt := 0
  partialPrevOutputs := none

def worker (id : NodeId) : NodeInfo where
  nodeId := id
  role := "worker"
  status := .online
  lastHeartbeat := 0
  tags := []
  drivers := []
  activeTasks := 0
  maxTasks := 4
  totalMemoryGb := 16
  availableMemoryGb := 16
  networkRttMs := 0
  gpuMemoryUsedGb := 0
  gpuMemoryTotalGb := 0
  draining := false
  supervisorAvailable := false

def plainTask (id : TaskId) : ClusterTask := { noTask with taskId := id, status := .pending }

/-- The configuration of a master without a cluster configuration file. -/
def defaultConfig : MasterConfig := ⟨15,none,false,1000⟩

def create (config : MasterConfig) (ha : HaState) : ClusterMaster where
  config := config
  ha := ha
  nodes := ∅
  loadRouter := LoadRouter.create
  bannedNodes := ∅
  faultCounts := ∅
  objects := fun _ => noTask
  nextRef := 0
  tasks := ∅
  pendingQueue := []
  pendingRetry := []
  tenantMaxConcurrent := 4
  tenantQuotas := ∅
  maxPendingQueue := 1000
  testBatches := ∅
  sessions := ∅
  runIds := ∅
  store := ⟨none,none,[],[],[],∅,0,0,false⟩
  frames := ∅
  nextFrame := 0
  dispatchTasks := ∅
  doneCallbacks := []
  requests := []
  attempts := fun _ => 0
  launched := []

def goodReply : AgentReply := .dict ⟨false,false,false,false,false,false,none,none,"{}"⟩

/-- Task `t1` is submitted and assigned to the only node `n1`. -/
def assignedRun : List MasterEvent :=
  [.registerNode (worker "n1") 0,.resume 0 0,.submit (plainTask "t1")] ++
    List.replicate 7 (.resume 1 1)

/-- Task `t1` is posted to `n1` and times out there; the retry loop assigns it to `n2` while the
request to `n1` is still waiting for its answer. -/
def timedOutRun : List MasterEvent :=
  assignedRun ++ [.resume 2 1,.resume 2 5,.checkTimeouts 302,.registerNode (worker "n2") 332,
    .resume 3 332,.retryLoop 332] ++ List.replicate 6 (.resume 4 332) ++
    [.fillTmp 0,.replaceFile 0 332,.resume 4 332,.resume 4 332]

end ClusterMaster
end FusionMultiNodes
