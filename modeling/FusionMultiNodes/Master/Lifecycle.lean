import FusionMultiNodes.Master.Assign

/-! Operations that end a task, move it or send it back to a waiting list. -/
namespace FusionMultiNodes
namespace ClusterMaster

def releaseTask (m : ClusterMaster) (r : Ref) : ClusterMaster :=
  { m with nodes := releaseNodes m.nodes (m.objects r).assignedNodes }

def completeTask (m : ClusterMaster) (id : TaskId) (error : String) (now : ℚ) : ClusterMaster :=
  match m.tasks.get? id with
  | none => m
  | some r =>
    ((m.releaseTask r).modifyTask r fun t =>
      { t with
        status := if error = "" then .completed else .failed
        completedAt := now
        error := error }).spawn .drainStart

def isCancellable (t : ClusterTask) : Bool :=
  decide (t.status = .pending) || decide (t.status = .running)

/-- Cancel one task: its slots are given back and it leaves the priority queue. -/
def cancelOne (m : ClusterMaster) (r : Ref) (reason : String) : ClusterMaster :=
  let id := (m.objects r).taskId
  { (m.releaseTask r).modifyTask r fun t =>
      { t with
        assignedNodes := []
        status := .cancelled
        cancelReason := reason
        error := reason } with
    pendingQueue := m.pendingQueue.filter fun q => decide ((m.objects q).taskId ≠ id) }

/-- The loop over the stack of sub-tasks; its last element is the top. -/
def cancelSubTasks (m : ClusterMaster) (reason : String) : ℕ → List TaskId → ClusterMaster
  | 0, _ => m
  | fuel+1, stack =>
    match stack.getLast? with
    | none => m
    | some id =>
      match m.tasks.get? id with
      | none => m.cancelSubTasks reason fuel stack.dropLast
      | some r =>
        if isCancellable (m.objects r) then
          (m.cancelOne r reason).cancelSubTasks reason fuel
            (stack.dropLast ++ (m.objects r).subTasks)
        else m.cancelSubTasks reason fuel stack.dropLast

/-- Every task enters the stack at most once as itself and once for each parent. -/
def cancelFuel (m : ClusterMaster) (stack : List TaskId) : ℕ :=
  stack.length+(m.tasks.values.map fun r => (m.objects r).subTasks.length).sum+1

/-- `cancel_task` up to its store write. -/
def cancelTask (m : ClusterMaster) (id : TaskId) (reason : String) (cancelSubs : Bool) :
    ClusterMaster :=
  match m.tasks.get? id with
  | none => m
  | some r =>
    let t := m.objects r
    if isCancellable t then
      let m₁ :=
        { (m.releaseTask r).modifyTask r fun t =>
            { t with
              cancelReason := if reason = "" then "用户取消" else reason
              assignedNodes := [] } with
          pendingQueue := m.pendingQueue.filter fun q => decide ((m.objects q).taskId ≠ id) }
      let m₂ :=
        if cancelSubs then
          m₁.cancelSubTasks ("父任务取消: " ++ id) (m.cancelFuel t.subTasks) t.subTasks
        else m₁
      let m₃ := m₂.modifyTask r fun t => { t with status := .cancelled, error := t.cancelReason }
      m₃.persistTasks.spawn (.cancelling m.store.nextWrite)
    else m

theorem cancelSubTasks_shape (m : ClusterMaster) (reason : String) (fuel : ℕ) (stack : List TaskId) :
    ∃ objects nodes queue, queue.Sublist m.pendingQueue ∧ m.cancelSubTasks reason fuel stack =
      { m with objects := objects, nodes := nodes, pendingQueue := queue } := by
  fun_induction cancelSubTasks m reason fuel stack with
  | case1 => exact ⟨_,_,_,.refl _,rfl⟩
  | case2 => exact ⟨_,_,_,.refl _,rfl⟩
  | case3 _ _ _ _ _ _ ih => exact ih
  | case4 _ _ _ _ _ _ _ _ ih =>
    obtain ⟨_,_,_,hqueue,heq⟩ := ih
    exact ⟨_,_,_,hqueue.trans List.filter_sublist,heq⟩
  | case5 _ _ _ _ _ _ _ _ ih => exact ih

/-- What cancelling leaves alone. -/
theorem cancelTask_shape (m : ClusterMaster) (id : TaskId) (reason : String) (cancelSubs : Bool) :
    m.cancelTask id reason cancelSubs = m ∨
      ∃ objects nodes queue store w, queue.Sublist m.pendingQueue ∧
        m.cancelTask id reason cancelSubs = { m with
          objects := objects
          nodes := nodes
          pendingQueue := queue
          store := store }.spawn (.cancelling w) := by
  have hend : ∀ s : ClusterMaster, (∃ objects nodes queue, queue.Sublist m.pendingQueue ∧
      s = { m with objects := objects, nodes := nodes, pendingQueue := queue }) → ∀ r f w,
        ∃ objects nodes queue store w', queue.Sublist m.pendingQueue ∧
          (s.modifyTask r f).persistTasks.spawn (.cancelling w) = { m with
            objects := objects
            nodes := nodes
            pendingQueue := queue
            store := store }.spawn (.cancelling w') := by
    rintro _ ⟨_,nodes,queue,hqueue,rfl⟩ r f w
    exact ⟨_,nodes,queue,_,w,hqueue,rfl⟩
  unfold cancelTask
  split
  · exact .inl rfl
  · simp only
    split_ifs
    all_goals first | exact .inl rfl | refine .inr (hend _ ?_ _ _ _)
    all_goals first
      | exact ⟨_,_,_,List.filter_sublist,rfl⟩
      | obtain ⟨_,_,_,hqueue,heq⟩ := cancelSubTasks_shape _ _ _ _
        rw [heq]
        exact ⟨_,_,_,hqueue.trans List.filter_sublist,rfl⟩

/-- `migrate_task` up to the new assignment. -/
def migrateTask (m : ClusterMaster) (id : TaskId) : ClusterMaster :=
  match m.tasks.get? id with
  | none => m
  | some r =>
    if (m.objects r).status = .running then
      ((m.releaseTask r).modifyTask r fun t =>
        { t with
          excludeNodes := appendMissing t.excludeNodes t.assignedNodes
          assignedNodes := []
          status := .pending }).spawn (.assign r .guards .migrate)
    else m

/-- The new model name of a degraded task, for an entry of the degradation chain. -/
def degradedName (modelName : String) (size : String × String) : String :=
  String.ofList (replaceSize size.1.toList size.2.toList 0 none modelName.toList)

/-- `degrade_task` up to the new assignment. -/
def degradeTask (m : ClusterMaster) (id : TaskId) : ClusterMaster :=
  match m.tasks.get? id with
  | none => m
  | some r =>
    let t := m.objects r
    if (t.status = .running ∨ t.status = .pending ∨ t.status = .failed) ∧
        t.degradationCount < t.maxDegradations then
      match t.nextModelSize with
      | none => m
      | some size =>
        ((m.releaseTask r).modifyTask r fun t =>
          { t with
            assignedNodes := []
            modelName := degradedName t.modelName size
            degradedFromModel := t.modelName
            degradationCount := t.degradationCount+1
            status := .pending
            error := "" }).spawn (.assign r .guards .degrade)
    else m

def isTimedOut (t : ClusterTask) (now : ℚ) : Bool :=
  decide (t.status = .running) && decide (0 < t.startedAt) &&
    decide (t.timeoutSeconds < now-t.startedAt)

def timeoutOne (m : ClusterMaster) (now : ℚ) (r : Ref) : ClusterMaster :=
  if isTimedOut (m.objects r) now then
    (m.modifyTask r fun t => { t with status := .timeout, error := timeoutText t.timeoutSeconds }).enqueueRetry r now
  else m

def checkTimeouts (m : ClusterMaster) (now : ℚ) : ClusterMaster :=
  m.tasks.values.foldl (fun s r => s.timeoutOne now r) m

/-- The new status `_refresh_node_statuses` gives a node. -/
def refreshedStatus (m : ClusterMaster) (now : ℚ) (n : NodeInfo) : NodeStatus :=
  if n.status = .online ∨ n.status = .busy then
    if m.config.heartbeatTimeout ≤ now-n.lastHeartbeat then .offline
    else if n.maxTasks ≤ n.activeTasks then .busy
    else .online
  else n.status

/-- The first lock section of `_refresh_node_statuses`. -/
def refreshNodes (m : ClusterMaster) (now : ℚ) : ClusterMaster :=
  let offline := (m.nodes.values.filter fun n =>
    decide (n.status ≠ .offline) && decide (m.refreshedStatus now n = .offline)).map
      NodeInfo.nodeId
  let m₁ : ClusterMaster :=
    { m with nodes := m.nodes.mapValues fun _ n => { n with status := m.refreshedStatus now n } }
  if offline = [] then m₁ else m₁.spawn (.refreshing offline)

def isAffected (t : ClusterTask) (offline : List NodeId) : Bool :=
  decide (t.status = .running) && t.assignedNodes.any fun n => decide (n ∈ offline)

def refreshOne (m : ClusterMaster) (offline : List NodeId) (now : ℚ) (r : Ref) : ClusterMaster :=
  (m.modifyTask r fun t =>
    { t with
      excludeNodes :=
        appendMissing t.excludeNodes (t.assignedNodes.filter fun n => decide (n ∈ offline))
      assignedNodes := []
      status := .migrated }).enqueueRetry r now

/-- The second lock section of `_refresh_node_statuses`. -/
def refreshTasks (m : ClusterMaster) (cid : ℕ) (offline : List NodeId) (now : ℚ) :
    ClusterMaster :=
  let affected := m.tasks.values.filter fun r => isAffected (m.objects r) offline
  if affected = [] then m.endFrame cid
  else
    ((affected.foldl (fun s r => s.refreshOne offline now r) m).persistTasks).endFrame cid

/-- The statuses `_cleanup_completed_tasks` counts. -/
def isCleaned (s : TaskStatus) : Bool :=
  decide (s = .completed) || decide (s = .failed) || decide (s = .timeout) ||
    decide (s = .migrated) || decide (s = .partialDone)

def cleanupCompletedTasks (m : ClusterMaster) : ClusterMaster :=
  let terminal := m.tasks.keys.filter fun id =>
    (m.task? id).any fun t => isCleaned t.status
  let remove := terminal.take (terminal.length-m.config.maxCompletedTasks)
  { m with tasks := m.tasks.filter fun id _ => decide (id ∉ remove) }

end ClusterMaster
end FusionMultiNodes
