import FusionMultiNodes.Master.Dispatch

/-! The task store: the writer threads, recovery after a crash, and the exchange of task records
between masters. -/
namespace FusionMultiNodes
namespace ClusterMaster

/-- The content a writer thread puts into the temporary file. -/
def storeContent (m : ClusterMaster) (pending : List TaskRecord) : StoreContent :=
  ⟨pending,m.store.pendingBatchSnap,m.store.pendingSessionSnap,m.store.pendingRunsSnap⟩

/-- The first half of `_write_task_store`, in its thread. That another thread opens or moves the
temporary file between `open` and the end of `json.dump` is left out. -/
def fillTmp (m : ClusterMaster) (w : ℕ) : Option ClusterMaster :=
  match m.store.writes.get? w with
  | some (.opened pending) =>
    some { m with
      store := { m.store with
        tmp := some (m.storeContent pending)
        writes := m.store.writes.set w .filled } }
  | _ => none

/-- The second half: `os.replace` fails if another thread has moved the temporary file. -/
def replaceFile (m : ClusterMaster) (w : ℕ) (now : ℚ) : Option ClusterMaster :=
  match m.store.writes.get? w with
  | some .filled =>
    match m.store.tmp with
    | some content =>
      some { m with
        store := { m.store with
          file := some content
          tmp := none
          writes := m.store.writes.erase w
          lastPersistTs := now
          persistDirty := false } }
    | none => some { m with store := { m.store with writes := m.store.writes.erase w } }
  | _ => none

def persistLoop (m : ClusterMaster) : ClusterMaster :=
  if m.store.persistDirty then m.persistTasks else m

def registerTestBatch (m : ClusterMaster) (b : TestBatch) : ClusterMaster :=
  { m with testBatches := m.testBatches.set b.batchId b }

def registerRunId (m : ClusterMaster) (runId : String) (taskId : TaskId) : ClusterMaster :=
  if runId = "" ∨ taskId = "" then m
  else { m with runIds := m.runIds.set runId taskId }.markDirty

def orElse (new old : String) : String := if new = "" then old else new

def registerSession (m : ClusterMaster) (sessionId : String) (originNode hostNode : NodeId)
    (owner : String) (now : ℚ) : ClusterMaster :=
  if sessionId = "" then m
  else
    let s := (m.sessions.get? sessionId).getD ⟨sessionId,"","","active","",now,0⟩
    { m with
      sessions := m.sessions.set sessionId
        { s with
          originNode := orElse originNode s.originNode
          hostNode := orElse hostNode (orElse s.hostNode originNode)
          owner := orElse owner s.owner
          state := "active"
          updatedAt := now } }.markDirty

def handoffSession (m : ClusterMaster) (sessionId : String) (target : NodeId) (now : ℚ) :
    ClusterMaster :=
  match m.sessions.get? sessionId with
  | none => m
  | some s =>
    if sessionId = "" ∨ target = "" ∨ m.nodes.contains target = false ∨ s.state = "closed" then m
    else
      { m with
        sessions := m.sessions.set sessionId
          { s with hostNode := target, state := "handed_off", updatedAt := now } }.markDirty

def closeSession (m : ClusterMaster) (sessionId : String) (now : ℚ) : ClusterMaster :=
  match m.sessions.get? sessionId with
  | none => m
  | some s =>
    if s.state = "closed" then m
    else
      { m with sessions := m.sessions.set sessionId { s with state := "closed", updatedAt := now } }.markDirty

def insertRecord (m : ClusterMaster) (d : TaskRecord) : ClusterMaster :=
  { m with
    objects := Function.update m.objects m.nextRef (d.fromDict m.config.partialRecovery)
    nextRef := m.nextRef+1
    tasks := m.tasks.set d.taskId m.nextRef }

/-- The statuses `receive_synced_tasks` does not overwrite. -/
def isProtected (s : TaskStatus) : Bool :=
  decide (s = .completed) || decide (s = .failed) || decide (s = .cancelled) ||
    decide (s = .timeout)

/-- `receive_synced_tasks` takes a record over. -/
def accepts (m : ClusterMaster) (d : TaskRecord) : Bool :=
  match m.task? d.taskId with
  | none => true
  | some t =>
    !(isProtected t.status) &&
      !(decide (t.ownerMaster = m.ha.haNodeId) && decide (m.ha.haNodeId ≠ ""))

def mergeRecord (m : ClusterMaster) (d : TaskRecord) : ClusterMaster :=
  if m.accepts d then m.insertRecord d else m

def mergedAny (m : ClusterMaster) : List TaskRecord → Bool
  | [] => false
  | d::rest => m.accepts d || mergedAny (m.mergeRecord d) rest

def receiveSyncedTasks (m : ClusterMaster) (records : List TaskRecord) : ClusterMaster :=
  let m₁ := records.foldl mergeRecord m
  if m.mergedAny records then m₁.persistTasks else m₁

/-- The task records `_peer_sync_loop` sends. -/
def peerSnapshot (m : ClusterMaster) : List TaskRecord :=
  (m.tasks.values.filter fun r =>
    let s := (m.objects r).status
    !(isProtected s || decide (s = .partialDone))).map fun r => (m.objects r).toDict

/-- `_restore_tasks` for the content of the store file. -/
def restoreTasks (m : ClusterMaster) (content : StoreContent) : ClusterMaster :=
  let m₁ := content.tasks.foldl insertRecord m
  { m₁ with
    testBatches := (content.batches.filter fun b => decide (b.batchId ≠ "")).foldl
      (fun d b => d.set b.batchId b) m₁.testBatches
    sessions := (content.sessions.filter fun s => decide (s.sessionId ≠ "")).foldl
      (fun d s => d.set s.sessionId s) m₁.sessions
    runIds := (content.runs.filter fun p => decide (p.1 ≠ "") && m₁.tasks.contains p.2).foldl
      (fun d p => d.set p.1 p.2) m₁.runIds }

/-- `start` puts the pending tasks into the priority queue. -/
def enqueueRestored (m : ClusterMaster) (r : Ref) : ClusterMaster :=
  if (m.objects r).status = .pending ∧ m.isQueued (m.objects r).taskId = false then
    (m.enqueuePending r true).1
  else m

/-- The memory of a new process; the disk keeps its files. -/
def reboot (m : ClusterMaster) (now rnd : ℚ) : ClusterMaster :=
  { m with
    ha := m.ha.reboot now rnd
    nodes := ∅
    loadRouter := LoadRouter.create
    bannedNodes := ∅
    faultCounts := ∅
    tasks := ∅
    pendingQueue := []
    pendingRetry := []
    tenantQuotas := ∅
    testBatches := ∅
    sessions := ∅
    runIds := ∅
    store := { m.store with
      pendingBatchSnap := []
      pendingSessionSnap := []
      pendingRunsSnap := []
      writes := ∅
      lastPersistTs := 0
      persistDirty := false }
    frames := ∅
    dispatchTasks := ∅
    doneCallbacks := [] }

/-- A crash followed by `start`. The drain of `start` finds no node and puts every task back. -/
def restart (m : ClusterMaster) (now rnd : ℚ) : ClusterMaster :=
  match m.store.file with
  | none => m.reboot now rnd
  | some content =>
    let m₁ := (m.reboot now rnd).restoreTasks content
    m₁.tasks.values.foldl enqueueRestored m₁

end ClusterMaster
end FusionMultiNodes
