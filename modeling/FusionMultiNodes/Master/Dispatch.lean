import FusionMultiNodes.Master.Lifecycle

/-! `_dispatch_task` and `_finalize_task`. -/
namespace FusionMultiNodes
namespace ClusterMaster

/-- The new state of a task that is finalized without a retry. -/
def finishTask (t : ClusterTask) (o : DispatchOutcome) (now : ℚ) : ClusterTask :=
  { t with
    status := if o.success then .completed else if o.partially then .partialDone else .failed
    completedAt := now
    error := if o.success then "" else o.error
    result := if o.result.isSome then o.result else t.result }

/-- The lock section of `_finalize_task` for the task registered under an id; the flag tells
whether the store is written after it. -/
def finalizeTask (m : ClusterMaster) (id : TaskId) (o : DispatchOutcome) (now : ℚ) :
    ClusterMaster × Bool :=
  match m.tasks.get? id with
  | none => (m,false)
  | some r =>
    if (m.objects r).status = .running then
      let m₁ := m.releaseTask r
      let m₂ :=
        if o.success = false ∧ o.partially = false ∧ o.retryable = true then
          (m₁.modifyTask r fun t => { t with error := o.error }).enqueueRetry r now
        else m₁.modifyTask r fun t => finishTask t o now
      (m₂.persistTasks,true)
    else (m,false)

/-- `_partial_prev_outputs` is only set where it already was. -/
def setPrevOutputs (m : ClusterMaster) (r : Ref) (o : DispatchOutcome) : ClusterMaster :=
  match o.prevOutputs with
  | none => m
  | some outputs => m.modifyTask r fun t =>
      { t with partialPrevOutputs := t.partialPrevOutputs.map fun _ => outputs }

/-- A dispatch coroutine ends; its done callback is scheduled. -/
def endDispatch (m : ClusterMaster) (cid : ℕ) (d : Dispatch) (o : DispatchOutcome) :
    ClusterMaster :=
  let m₁ := (m.setPrevOutputs d.task o).endFrame cid
  { m₁ with doneCallbacks := m.doneCallbacks ++ [(m.objects d.task).taskId] }

def resumeFinalize (m : ClusterMaster) (cid : ℕ) (d : Dispatch) (o : DispatchOutcome) (now : ℚ) :
    ClusterMaster :=
  let p := m.finalizeTask (m.objects d.task).taskId o now
  if p.2 then p.1.setFrame cid (.dispatch { d with pc := .tail m.store.nextWrite o })
  else p.1.endDispatch cid d o

/-- The request `_dispatch_to_node` posts for a task that is not a pipeline step. -/
def executeRequest (m : ClusterMaster) (t : ClusterTask) (n : NodeId) : ExecuteRequest where
  target := n
  dispatchId := t.taskId
  taskType := t.taskType
  modelName := t.modelName
  fencingToken := m.ha.fencingToken
  leaderId := if m.ha.haNodeId = "" then "master" else m.ha.haNodeId

/-- The request for the pipeline step of the given index. -/
def stepRequest (m : ClusterMaster) (t : ClusterTask) (n : NodeId) (idx : ℕ) : ExecuteRequest :=
  let shardIndex : ℤ := ((t.modelShards[idx]?).map ModelShard.shardIndex).getD idx
  { m.executeRequest t n with
    dispatchId := t.taskId ++ "-step" ++ toString shardIndex
    taskType := "pipeline_step" }

def post (m : ClusterMaster) (reqs : List ExecuteRequest) : ClusterMaster :=
  { m with requests := m.requests ++ reqs }

def missingNode (n : NodeId) : String := "节点 " ++ n ++ " 不存在或已离线"

/-- All requests are posted; a node that was gone when the nodes were read raises at once. -/
def startData (m : ClusterMaster) (d : Dispatch) : ClusterMaster × DispatchPc :=
  let present := d.nodeIds.filter m.nodes.contains
  (m.post (present.map (m.executeRequest (m.objects d.task))),
    .data (d.nodeIds.map fun n =>
      if m.nodes.contains n then none else some (.raised "RuntimeError" (missingNode n))))

/-- The result of one node in the loop over the results; `true` if a fault is reported. -/
def collectReply (acc : Collected) (n : NodeId) : AgentReply → Collected × Bool
  | .raised exception message =>
    ({ acc with
      errors := acc.errors ++ [n ++ ": " ++ exception ++ ": " ++ message]
      transientFail := true },false)
  | .notDict => ({ acc with errors := acc.errors ++ [n ++ ": 空响应"], transientFail := true },false)
  | .dict r =>
    let text := r.error.getD ""
    if r.rateLimited then
      ({ acc with
        errors := acc.errors ++ [n ++ ": 限流 (rate_limited): " ++ text]
        transientFail := true },false)
    else if r.overload then
      ({ acc with
        errors := acc.errors ++ [n ++ ": 节点任务已满 (overload): " ++ text]
        transientFail := true },false)
    else if r.dedupBlocked || r.sandboxBlocked then
      let reason := if r.dedupBlocked then "去重阻塞" else "沙箱阻塞"
      ({ acc with errors := acc.errors ++ [n ++ ": " ++ reason ++ ": " ++ text] },false)
    else if r.fencingRejected then
      ({ acc with
        errors := acc.errors ++ [n ++ ": 过期 master 派发被拒 (fencing_rejected): " ++ text]
        logicFail := true },false)
    else if r.error.isSome then
      ({ acc with errors := acc.errors ++ [n ++ ": " ++ text], logicFail := true },true)
    else ({ acc with outputs := acc.outputs ++ [⟨n,r.body⟩] },false)

/-- The last part of `_dispatch_data`. -/
def dataOutcome (t : ClusterTask) (nodeIds : List NodeId) (acc : Collected) : DispatchOutcome :=
  let outputs := (t.partialPrevOutputs.getD []) ++ acc.outputs
  let allSuccess := decide (acc.outputs ≠ []) && decide (acc.errors = [])
  let partialSuccess := decide (acc.outputs ≠ []) && decide (acc.errors ≠ [])
  { success := allSuccess
    error := if allSuccess then "" else "; ".intercalate acc.errors
    result := some ⟨outputs,acc.errors,nodeIds.length,none,[]⟩
    retryable := !allSuccess && !partialSuccess && acc.transientFail && !acc.logicFail
    partially := partialSuccess
    prevOutputs := if allSuccess then some [] else if partialSuccess then some outputs else none }

def failOutcome (error : String) (retryable : Bool) : DispatchOutcome :=
  ⟨false,error,none,retryable,false,none⟩

/-- The exception handler of `_dispatch_task`. -/
def raisedOutcome (message : String) : DispatchOutcome := failOutcome ("派发异常: " ++ message) true

/-- The loop over the shards goes on with the node of the given index. -/
def pipelineNext (m : ClusterMaster) (d : Dispatch) (present : List NodeId) (idx : ℕ)
    (hidden : Option String) (steps : List NodeId) : ClusterMaster × DispatchPc :=
  match d.nodeIds[idx]? with
  | none =>
    (m,.finalizing ⟨true,"",some ⟨[],[],d.nodeIds.length,hidden,steps⟩,false,false,none⟩)
  | some n =>
    if n ∈ present then
      (m.post [m.stepRequest (m.objects d.task) n idx],.pipeline present idx hidden steps)
    else (m,.finalizing (raisedOutcome (missingNode n)))

/-- The outcome of a failed step, in the order of the tests of the source. -/
def stepFailure (n : NodeId) (r : AgentResult) : Option DispatchOutcome :=
  let text := r.error.getD ""
  let step := "流水线步骤 " ++ n
  if r.rateLimited then some (failOutcome (step ++ " 限流: " ++ text) true)
  else if r.overload then some (failOutcome (step ++ " 节点任务已满: " ++ text) true)
  else if r.dedupBlocked || r.sandboxBlocked then
    let reason := if r.dedupBlocked then "去重阻塞" else "沙箱阻塞"
    some (failOutcome (step ++ " " ++ reason ++ ": " ++ text) false)
  else if r.fencingRejected then
    some (failOutcome (step ++ ": 过期 master 派发被拒 (fencing_rejected): " ++ text) false)
  else if r.upstreamMissing then
    some (failOutcome (step ++ ": 上游 /distributed/* 未实现 (fusion-mlx#621)") false)
  else if r.error.isSome then some (failOutcome (step ++ ": " ++ text) false)
  else if r.hiddenStates.isNone then some (failOutcome (step ++ " 未返回 hidden_states") false)
  else none

def pipelineReply (m : ClusterMaster) (d : Dispatch) (present : List NodeId) (idx : ℕ)
    (hidden : Option String) (steps : List NodeId) (n : NodeId) (reply : AgentReply) (now : ℚ) :
    ClusterMaster × DispatchPc :=
  match reply with
  | .raised _ message => (m.reportFault n now,.finalizing (raisedOutcome message))
  | .notDict => (m,.finalizing (failOutcome ("流水线步骤 " ++ n ++ " 未返回 hidden_states") false))
  | .dict r =>
    match stepFailure n r with
    | some o => (m,.finalizing o)
    | none => m.pipelineNext d present (idx+1) (r.hiddenStates.or hidden) (steps ++ [n])

/-- One step of `_dispatch_task` that needs no reply. -/
def resumeDispatch (m : ClusterMaster) (cid : ℕ) (d : Dispatch) (now : ℚ) : Option ClusterMaster :=
  let t := m.objects d.task
  match d.pc with
  | .start =>
    some (m.setFrame cid (.dispatch { d with
      attempt := m.attempts t.taskId
      nodeIds := t.assignedNodes
      pc := .snapshot }))
  | .snapshot =>
    let p :=
      if t.mode = .pipeline then m.pipelineNext d (d.nodeIds.filter m.nodes.contains) 0 none []
      else m.startData d
    some (p.1.setFrame cid (.dispatch { d with pc := p.2 }))
  | .data replies =>
    if replies.all Option.isSome then
      some (m.setFrame cid (.dispatch { d with
        pc := .collect (d.nodeIds.zip replies.reduceOption) ⟨[],[],false,false⟩ }))
    else none
  | .collect [] acc =>
    some (m.setFrame cid (.dispatch { d with pc := .finalizing (dataOutcome t d.nodeIds acc) }))
  | .collect ((n,reply)::rest) acc =>
    let p := collectReply acc n reply
    let m₁ := if p.2 then m.reportFault n now else m
    some (m₁.setFrame cid (.dispatch { d with pc := .collect rest p.1 }))
  | .pipeline _ _ _ _ => none
  | .finalizing o => some (m.resumeFinalize cid d o now)
  | .tail w o => if m.store.writes.contains w then none else some (m.endDispatch cid d o)

/-- The reply of the `i`-th node arrives; an exception is reported as a fault of the node. -/
def receiveReply (m : ClusterMaster) (cid : ℕ) (d : Dispatch) (i : ℕ) (reply : AgentReply)
    (now : ℚ) : Option ClusterMaster :=
  match d.nodeIds[i]? with
  | none => none
  | some n =>
    match d.pc with
    | .data replies =>
      if replies[i]? = some none then
        let m₁ := match reply with
          | .raised _ _ => m.reportFault n now
          | _ => m
        some (m₁.setFrame cid (.dispatch { d with pc := .data (replies.set i (some reply)) }))
      else none
    | .pipeline present idx hidden steps =>
      if i = idx then
        let p := m.pipelineReply d present idx hidden steps n reply now
        some (p.1.setFrame cid (.dispatch { d with pc := p.2 }))
      else none
    | _ => none

end ClusterMaster
end FusionMultiNodes
