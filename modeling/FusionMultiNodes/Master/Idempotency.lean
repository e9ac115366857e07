import FusionMultiNodes.Master.EventLoop

/-! Submissions that carry an idempotency key. The routes are coroutines beside those of the
master: each looks its key up, awaits `assign_task`, and registers the key after it. -/
namespace FusionMultiNodes

def TaskStatus.freesKey : TaskStatus → Bool
  | .completed | .failed | .cancelled | .timeout => true
  | _ => false

inductive RoutePc
  /-- In `try_idempotency`. -/
  | lookup
  /-- In `assign_task`, which runs as a coroutine of the master. -/
  | assigning (cid : ℕ)
  /-- In `register_idempotency`. -/
  | registering
  /-- In `register_run_id`. -/
  | namingRun
  deriving DecidableEq

/-- A submission through the legacy or the v1 route, from its lookup to its response. -/
structure SubmitRoute where
  key : String
  task : ClusterTask
  runId : String
  pc : RoutePc
  deriving DecidableEq

namespace SubmitRoute

/-- The route has found no task of its key, and has not responded. -/
def isUnderWay (route : SubmitRoute) : Bool := decide (route.pc ≠ .lookup)

def isUnregistered (route : SubmitRoute) : Bool :=
  match route.pc with
  | .assigning _ | .registering => true
  | _ => false

/-- `assign_task` has returned, and nothing that the route does after it suspends it. -/
def isBusy (route : SubmitRoute) : Bool :=
  match route.pc with
  | .registering | .namingRun => true
  | _ => false

def awaits? (route : SubmitRoute) : Option ℕ :=
  match route.pc with
  | .assigning cid => some cid
  | _ => none

end SubmitRoute

structure IdempotencyEntry where
  /-- `none` for the id of a test batch, which is never the id of a task. -/
  taskId : Option TaskId
  expiresAt : ℚ
  deriving DecidableEq

structure SubmitResponse where
  key : String
  taskId : Option TaskId
  deriving DecidableEq

def maxIdempotencyKeys : ℕ := 10000

structure SubmissionWorld where
  master : ClusterMaster
  idempotencyKeys : Dict String IdempotencyEntry
  idempotencyTtl : ℚ
  routes : Dict ℕ SubmitRoute
  nextRoute : ℕ
  /-- History variable: the key that each task was submitted with. -/
  keyOf : Dict TaskId String
  /-- History variable: all responses. -/
  responses : List SubmitResponse

inductive SubmissionEvent
  | request (key : String) (task : ClusterTask) (runId : String)
  | resume (rid : ℕ) (now : ℚ)
  /-- Everything else that happens to the master, submissions without a key included. -/
  | master (ev : MasterEvent)
  | batchLookup (key : String) (now : ℚ)
  | batchRegister (key : String) (now : ℚ)
  | configureTtl (seconds : ℚ)

/-- A task of this id is in the table and has not ended. -/
def ClusterMaster.isLive (m : ClusterMaster) (id : TaskId) : Bool :=
  (m.task? id).any fun t => !t.status.freesKey

namespace SubmissionWorld

variable (w : SubmissionWorld)

/-- `try_idempotency`: the keys after it, and the id that it returns. -/
def tryIdempotency (key : String) (now : ℚ) :
    Dict String IdempotencyEntry × Option (Option TaskId) :=
  match w.idempotencyKeys.get? key with
  | none => (w.idempotencyKeys,none)
  | some entry =>
    if entry.expiresAt ≤ now then (w.idempotencyKeys.erase key,none)
    else if (entry.taskId.bind w.master.task?).any fun t => t.status.freesKey then
      (w.idempotencyKeys.erase key,none)
    else (w.idempotencyKeys,some entry.taskId)

def dropOldest (keys : Dict String IdempotencyEntry) : Dict String IdempotencyEntry :=
  match keys.entries with
  | [] => keys
  | p::_ => keys.erase p.1

/-- `register_idempotency` has to make room. -/
def isFull (key : String) : Bool :=
  decide (maxIdempotencyKeys ≤ w.idempotencyKeys.entries.length) &&
    !w.idempotencyKeys.contains key

def registerIdempotency (key : String) (taskId : Option TaskId) (now : ℚ) :
    Dict String IdempotencyEntry :=
  (if w.isFull key then dropOldest w.idempotencyKeys else w.idempotencyKeys).set key
    ⟨taskId,now+w.idempotencyTtl⟩

def respond (rid : ℕ) (key : String) (taskId : Option TaskId) : SubmissionWorld :=
  { w with routes := w.routes.erase rid, responses := w.responses ++ [⟨key,taskId⟩] }

/-- The task that a submission with the key is answered with. -/
def existing (key : String) (now : ℚ) : Option ClusterTask :=
  (w.tryIdempotency key now).2.join.bind w.master.task?

/-- The lookup, and what the route does up to its next `await`. -/
def lookup (rid : ℕ) (route : SubmitRoute) (now : ℚ) : Option SubmissionWorld :=
  let looked := { w with idempotencyKeys := (w.tryIdempotency route.key now).1 }
  match w.existing route.key now with
  | some t => some (looked.respond rid route.key (some t.taskId))
  | none =>
    if w.master.isNewTask route.task then
      some { looked with
        master := w.master.submit route.task
        routes := w.routes.set rid { route with pc := .assigning w.master.nextFrame }
        keyOf := w.keyOf.set route.task.taskId route.key }
    else none

/-- A step of `assign_task`, or of the route once it has returned. -/
def assign (rid cid : ℕ) (route : SubmitRoute) (now : ℚ) : Option SubmissionWorld :=
  (w.master.step (.resume cid now)).map fun master =>
    match w.master.frames.get? cid with
    | some (.assign _ (.returned true) .submit) =>
      { w with master := master, routes := w.routes.set rid { route with pc := .registering } }
    | some (.assign _ (.returned false) .submit) =>
      { w with master := master }.respond rid route.key none
    | _ => { w with master := master }

def register (rid : ℕ) (route : SubmitRoute) (now : ℚ) : SubmissionWorld :=
  let registered :=
    { w with idempotencyKeys := w.registerIdempotency route.key (some route.task.taskId) now }
  if route.runId = "" then registered.respond rid route.key (some route.task.taskId)
  else { registered with routes := w.routes.set rid { route with pc := .namingRun } }

def nameRun (rid : ℕ) (route : SubmitRoute) : SubmissionWorld :=
  { w with master := w.master.registerRunId route.runId route.task.taskId }.respond rid route.key
    (some route.task.taskId)

def resumeRoute (rid : ℕ) (route : SubmitRoute) (now : ℚ) : Option SubmissionWorld :=
  match route.pc with
  | .lookup => w.lookup rid route now
  | .assigning cid => w.assign rid cid route now
  | .registering => some (w.register rid route now)
  | .namingRun => some (w.nameRun rid route)

/-- A route awaits the coroutine that the event resumes. -/
def awaits (ev : MasterEvent) : Bool :=
  w.routes.values.any fun route =>
    match ev with
    | .resume cid _ => decide (route.pc = .assigning cid)
    | _ => false

/-- A new process has neither the keys nor the routes of the old one. -/
def masterStep (ev : MasterEvent) : Option SubmissionWorld :=
  (w.master.step ev).map fun master =>
    match ev with
    | .restart _ _ => { w with master := master, idempotencyKeys := ∅, routes := ∅ }
    | _ => { w with master := master }

def step : SubmissionEvent → Option SubmissionWorld
  | .request key task runId =>
    if key = "" then none
    else some { w with
      routes := w.routes.set w.nextRoute ⟨key,task,runId,.lookup⟩
      nextRoute := w.nextRoute+1 }
  | .resume rid now => (w.routes.get? rid).bind fun route => w.resumeRoute rid route now
  | .master ev => if w.awaits ev then none else w.masterStep ev
  | .batchLookup key now => some { w with idempotencyKeys := (w.tryIdempotency key now).1 }
  | .batchRegister key now =>
    some { w with idempotencyKeys := w.registerIdempotency key none now }
  | .configureTtl seconds => some { w with idempotencyTtl := max 0 seconds }

def NoneBusy : Prop := ∀ p ∈ w.routes.entries, p.2.isBusy = false

/-- The event can be the next one of the event loop. -/
def Scheduled : SubmissionEvent → Prop
  | .resume rid _ => (∀ p ∈ w.routes.entries, p.2.isBusy = true → p.1 = rid) ∧
      w.master.Yields ((w.routes.get? rid).bind SubmitRoute.awaits?)
  | .master ev => ev.isThread = true ∨ ev.isRestart = true ∨ (w.NoneBusy ∧ w.master.Yields ev.runs)
  | _ => w.NoneBusy ∧ w.master.Yields none

instance : Decidable w.NoneBusy := by
  unfold NoneBusy
  infer_instance

instance (ev : SubmissionEvent) : Decidable (w.Scheduled ev) := by
  cases ev <;> unfold Scheduled <;> infer_instance

def machine : Machine SubmissionWorld SubmissionEvent := Machine.restrict ⟨step⟩ Scheduled

def start (config : MasterConfig) (ha : HaState) : SubmissionWorld where
  master := .create config ha
  idempotencyKeys := ∅
  idempotencyTtl := 86400
  routes := ∅
  nextRoute := 0
  keyOf := ∅
  responses := []

/-- At most one task of each key has not ended, and every response that is given meanwhile carries
its id. -/
structure Idempotent (s : SubmissionWorld) (_ : SubmissionEvent) (t : SubmissionWorld) : Prop where
  once : ∀ key id id', t.keyOf.get? id = some key → t.keyOf.get? id' = some key →
    t.master.isLive id = true → t.master.isLive id' = true → id = id'
  answers : ∀ response ∈ t.responses.drop s.responses.length, ∀ id,
    t.keyOf.get? id = some response.key → t.master.isLive id = true → response.taskId = some id

def underWay (key : String) : List SubmitRoute :=
  w.routes.values.filter fun route => decide (route.key = key) && route.isUnderWay

def unregistered (key : String) : List SubmitRoute :=
  w.routes.values.filter fun route => decide (route.key = key) && route.isUnregistered

/-- The task that has the key: that of a route that will register it, else the registered one. -/
def holder (key : String) : Option TaskId :=
  match w.unregistered key with
  | route::_ => some route.task.taskId
  | [] => (w.idempotencyKeys.get? key).bind IdempotencyEntry.taskId

/-- The route awaits an `assign_task` that has not taken its task, and perhaps will not. -/
def isOpen (route : SubmitRoute) : Bool :=
  match route.pc with
  | .assigning cid =>
    match w.master.frames.get? cid with
    | some (.assign _ pc _) => pc.isOpen || decide (pc = .returned false)
    | _ => false
  | _ => false

def isCurrent (entry : IdempotencyEntry) : Bool := entry.taskId.any w.master.isLive

/-- No entry of a task that has not ended has outlived its time. -/
def InTime (key : String) (now : ℚ) : Prop :=
  ∀ entry ∈ w.idempotencyKeys.get? key, w.isCurrent entry = true → now < entry.expiresAt

def KeepsCurrent (key : String) : Prop :=
  w.isFull key = true → ∀ p ∈ w.idempotencyKeys.entries.head?, w.isCurrent p.2 = false

end SubmissionWorld

/-- The step can put an ended or new task of this id among those that have not ended. -/
def ClusterMaster.revives (m : ClusterMaster) (id : TaskId) : MasterEvent → Bool
  | .resume cid _ =>
    match m.frames.get? cid with
    | some (.assign r pc k) => decide ((m.objects r).taskId = id) &&
        (pc.isOpen || (decide (pc = .returned false) && decide (k ≠ .submit)))
    | _ => false
  | .degradeTask id' => decide (id' = id)
  | .receiveSyncedTasks records => records.any fun d =>
      decide (d.taskId = id) && m.accepts d && !(d.fromDict m.config.partialRecovery).status.freesKey
  | .restart _ _ => m.store.file.any fun content => content.tasks.any fun d =>
      decide (d.taskId = id) && !(d.fromDict m.config.partialRecovery).status.freesKey
  | _ => false

namespace SubmissionWorld

variable (w : SubmissionWorld)

/-- An ended task goes on only while it still has its key, and none is restored with a key that is
forgotten. -/
def Revives (ev : MasterEvent) : Prop :=
  ∀ p ∈ w.keyOf.entries, w.master.revives p.1 ev = true → ev.isRestart = false ∧
    (w.master.isLive p.1 = true ∨
      (w.holder p.2 = some p.1 ∧ ∀ route ∈ w.unregistered p.2, w.isOpen route = false))

def Meets : SubmissionEvent → Prop
  | .resume rid now => ∀ route ∈ w.routes.get? rid,
    match route.pc with
    | .lookup => w.InTime route.key now ∧
        (w.existing route.key now = none → w.underWay route.key = [])
    | .registering => w.KeepsCurrent route.key
    | _ => True
  | .master ev => w.Revives ev
  | .batchLookup key now => w.InTime key now
  | .batchRegister key _ => w.KeepsCurrent key ∧
      ∀ entry ∈ w.idempotencyKeys.get? key, w.isCurrent entry = false
  | _ => True

instance (key : String) (now : ℚ) : Decidable (w.InTime key now) := by
  unfold InTime; infer_instance

instance (key : String) : Decidable (w.KeepsCurrent key) := by
  unfold KeepsCurrent; infer_instance

instance (ev : MasterEvent) : Decidable (w.Revives ev) := by
  unfold Revives; infer_instance

instance (ev : SubmissionEvent) : Decidable (w.Meets ev) := by
  cases ev with
  | resume rid now =>
    have hdec : ∀ route : SubmitRoute, Decidable (match route.pc with
        | .lookup => w.InTime route.key now ∧
            (w.existing route.key now = none → w.underWay route.key = [])
        | .registering => w.KeepsCurrent route.key
        | _ => True) := by
      intro route
      split <;> infer_instance
    unfold Meets; infer_instance
  | _ => unfold Meets; infer_instance

end SubmissionWorld
end FusionMultiNodes
