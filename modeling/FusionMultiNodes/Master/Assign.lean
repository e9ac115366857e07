import FusionMultiNodes.Master.Select

/-! `assign_task`, `_drain_pending_locked` and the retry loop. One step runs one lock section or
the code between two of them, so every order in which the real coroutines can be suspended at
an `await` is among the orders of these steps. -/
namespace FusionMultiNodes

def Caller.rest : Caller → List Ref
  | .drain rest => rest
  | .retry _ rest => rest
  | _ => []

namespace ClusterMaster

/-- `assign_task` moves a task to `RUNNING` on the given nodes. -/
def commit (m : ClusterMaster) (r : Ref) (nodeIds : List NodeId) (now : ℚ) : ClusterMaster :=
  let id := (m.objects r).taskId
  { m.modifyTask r fun t =>
      { t with assignedNodes := nodeIds, status := .running, startedAt := now } with
    tasks := m.tasks.set id r
    nodes := occupyNodes m.nodes nodeIds
    attempts := Function.update m.attempts id (m.attempts id+1) }

/-- The first lock section, and the choice between the local path and the others. -/
def assignQuota (m : ClusterMaster) (r : Ref) : ClusterMaster × AssignPc :=
  let t := m.objects r
  let limit := m.tenantLimitFor t.user
  if m.isRunning t.taskId then (m,.returned true)
  else if 0 < limit ∧ limit ≤ m.runningCountForUser t.user then
    if m.isQueued t.taskId then (m,.returned true)
    else
      let p := m.enqueuePending r false
      (p.1,.returned p.2)
  else if t.isLocalForce t.estimateMemory ∧ t.preferredNodeId ≠ "" ∧
      m.nodes.contains t.preferredNodeId then (m,.localCheck t.estimateMemory)
  else (m,.route t.estimateMemory)

/-- The test of the local path that is made before the locks are taken again. -/
def localAvailable (m : ClusterMaster) (preferred : NodeId) (requiredMem : ℚ) : Bool :=
  (m.nodes.get? preferred).any fun n =>
    decide (n.status = .online) && decide (requiredMem ≤ n.availableMemoryGb)

def hasFreeSlot (m : ClusterMaster) (id : NodeId) : Bool :=
  (m.nodes.get? id).any fun n =>
    decide (n.status = .online) && decide (n.activeTasks < n.maxTasks)

def assignLocal (m : ClusterMaster) (r : Ref) (requiredMem now : ℚ) : ClusterMaster × AssignPc :=
  let t := m.objects r
  if m.isRunning t.taskId then (m,.returned true)
  else if m.hasFreeSlot t.preferredNodeId then (m.commit r [t.preferredNodeId] now,.trigger)
  else (m,.route requiredMem)

/-- The strategy for a large model is set for the time of the selection. -/
def assignRoute (m : ClusterMaster) (r : Ref) (requiredMem : ℚ) : ClusterMaster × AssignPc :=
  ({ m with
    loadRouter :=
      if (m.objects r).isVramFirst then m.loadRouter.setStrategy .vramFirst else m.loadRouter },
    .selecting requiredMem m.loadRouter.strategy)

def assignSelect (m : ClusterMaster) (r : Ref) (requiredMem : ℚ) (original : RoutingStrategy)
    (now : ℚ) : ClusterMaster × AssignPc :=
  let t := m.objects r
  let selected := (m.selectNodes t requiredMem now).map NodeInfo.nodeId
  let m₁ : ClusterMaster :=
    { m with
      loadRouter :=
        if t.isVramFirst = true ∧ m.loadRouter.strategy ≠ original then
          m.loadRouter.setStrategy original
        else m.loadRouter }
  if selected.length < t.need then (m₁,.enqueueShort) else (m₁,.confirm requiredMem selected)

def assignShort (m : ClusterMaster) (r : Ref) : ClusterMaster × AssignPc :=
  if m.isQueued (m.objects r).taskId then (m,.returned true)
  else
    let p := m.enqueuePending r false
    (p.1,.returned p.2)

/-- The nodes that are chosen in the lock, for those that were selected outside of it. -/
def confirmedNodes (m : ClusterMaster) (t : ClusterTask) (requiredMem : ℚ) (selected : List NodeId)
    (now : ℚ) : List NodeId :=
  let confirmed := selected.filter m.hasFreeSlot
  if confirmed.length < t.need then
    confirmed ++ (m.selectFreeNodesLocked t requiredMem (confirmed ++ t.excludeNodes)
      (t.need-confirmed.length) now).map NodeInfo.nodeId
  else confirmed

/-- A node was lost since the selection, and others may be looked for. -/
def looksForBackup (m : ClusterMaster) (t : ClusterTask) (selected : List NodeId) : Bool :=
  decide ((selected.filter m.hasFreeSlot).length < t.need)

/-- The lock section that confirms the selection. Its snapshot is written at once, or dropped
and the store marked dirty when it was written a moment ago. -/
def assignConfirm (m : ClusterMaster) (r : Ref) (requiredMem : ℚ) (selected : List NodeId)
    (now : ℚ) : ClusterMaster × AssignPc :=
  let t := m.objects r
  if m.isRunning t.taskId then (m,.returned true)
  else if m.looksForBackup t selected = true ∧ t.pinnedNodeId ≠ "" then
    let p := m.enqueuePending r false
    (p.1,.returned p.2)
  else
    let m₁ :=
      if m.looksForBackup t selected then
        m.dropExpiredBans (selected.filter m.hasFreeSlot ++ t.excludeNodes) now
      else m
    let chosen := m.confirmedNodes t requiredMem selected now
    if chosen.length < t.need then
      let p := m₁.enqueuePending r false
      (p.1,.returned p.2)
    else if persistThrottleS ≤ now-m.store.lastPersistTs then
      ((m₁.commit r chosen now).persistTasks,.writing m.store.nextWrite)
    else ((m₁.commit r chosen now).deferPersist,.trigger)

/-- One step of `assign_task`; `none` while its store write is running. -/
def assignStep (m : ClusterMaster) (r : Ref) (now : ℚ) :
    AssignPc → Option (ClusterMaster × AssignPc)
  | .guards =>
    some (m,if m.ha.refuses (m.objects r).ownerMaster then .returned false else .quota)
  | .quota => some (m.assignQuota r)
  | .localCheck requiredMem =>
    some (m,if m.localAvailable (m.objects r).preferredNodeId requiredMem then
      .localCommit requiredMem else .route requiredMem)
  | .localCommit requiredMem => some (m.assignLocal r requiredMem now)
  | .route requiredMem => some (m.assignRoute r requiredMem)
  | .selecting requiredMem original => some (m.assignSelect r requiredMem original now)
  | .enqueueShort => some (m.assignShort r)
  | .confirm requiredMem selected => some (m.assignConfirm r requiredMem selected now)
  | .writing w => if m.store.writes.contains w then none else some (m,.trigger)
  | .trigger => some (m.triggerDispatch r,.returned true)
  | .returned _ => none

/-- The caller goes on with the value `assign_task` returned. -/
def assignReturned (m : ClusterMaster) (cid : ℕ) (r : Ref) (ok : Bool) (now : ℚ) :
    Caller → ClusterMaster
  | .submit => m.endFrame cid
  | .drain rest =>
    (if ok then m else (m.enqueuePending r true).1).setFrame cid (.draining rest)
  | .retry loopNow rest =>
    (if ok then m else m.enqueueRetry r now).setFrame cid (.retrying loopNow rest)
  | .migrate => (if ok then m else m.enqueueRetry r now).endFrame cid
  | .degrade => (if ok then m else m.enqueueRetry r now).endFrame cid

def resumeAssign (m : ClusterMaster) (cid : ℕ) (r : Ref) (k : Caller) (now : ℚ) :
    AssignPc → Option ClusterMaster
  | .returned ok => some (m.assignReturned cid r ok now k)
  | pc => (m.assignStep r now pc).map fun p => p.1.setFrame cid (.assign r p.2 k)

theorem resumeAssign_cases {m m' : ClusterMaster} {cid : ℕ} {r : Ref} {k : Caller} {now : ℚ}
    {pc : AssignPc} (h : m.resumeAssign cid r k now pc = some m') :
    (∃ ok, pc = .returned ok ∧ m' = m.assignReturned cid r ok now k) ∨
      (∀ ok, pc ≠ .returned ok) ∧ ∃ s pc', m.assignStep r now pc = some (s,pc') ∧
        m' = s.setFrame cid (.assign r pc' k) := by
  by_cases hpc : ∃ ok, pc = .returned ok
  · obtain ⟨ok,rfl⟩ := hpc
    exact .inl ⟨ok,rfl,(Option.some.inj h).symm⟩
  · have hmap : (m.assignStep r now pc).map (fun p => p.1.setFrame cid (.assign r p.2 k)) =
        some m' := by
      cases pc <;> first | exact h | exact absurd ⟨_,rfl⟩ hpc
    obtain ⟨⟨s,pc'⟩,hp,rfl⟩ := Option.map_eq_some_iff.mp hmap
    exact .inr ⟨not_exists.mp hpc,s,pc',hp,rfl⟩

/-- `_drain_pending_locked` takes the whole queue. -/
def drainStart (m : ClusterMaster) (cid : ℕ) : ClusterMaster :=
  if m.pendingQueue = [] then m.endFrame cid
  else { m with pendingQueue := [] }.setFrame cid (.draining m.pendingQueue)

def drainNext (m : ClusterMaster) (cid : ℕ) : List Ref → ClusterMaster
  | [] => m.endFrame cid
  | r::rest => m.setFrame cid (.assign r .guards (.drain rest))

/-- An iteration of `_retry_loop` takes the whole list. -/
def retryLoop (m : ClusterMaster) (now : ℚ) : ClusterMaster :=
  if m.pendingRetry = [] then m
  else { m with pendingRetry := [] }.spawn (.retrying now m.pendingRetry)

def retryNext (m : ClusterMaster) (cid : ℕ) (now : ℚ) : List Ref → ClusterMaster
  | [] => m.endFrame cid
  | r::rest =>
    if now < (m.objects r).nextRetryAt then
      { m with pendingRetry := m.pendingRetry ++ [r] }.setFrame cid (.retrying now rest)
    else if maxRetryLoopAttempts ≤ (m.objects r).retryCount then
      (m.modifyTask r fun t => giveUpTask t "重试队列次数超限 (10)").setFrame cid (.retrying now rest)
    else m.setFrame cid (.assign r .guards (.retry now rest))

end ClusterMaster
end FusionMultiNodes
