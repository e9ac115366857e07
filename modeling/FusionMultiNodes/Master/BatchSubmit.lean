import FusionMultiNodes.Master.KeyIsolation
import FusionMultiNodes.Master.TestBatch

/-! Submissions of test batches: one task after the other, then the batch, then its key. -/
namespace FusionMultiNodes

structure JobRequest where
  jobId : String
  taskId : TaskId
  command : List String
  requiredDriver : String
  deriving DecidableEq

structure BatchRoute where
  key : String
  jobs : List JobRequest
  createdAt : ℚ
  ownerMaster : NodeId
  /-- What `assign_task` returned for the jobs so far. -/
  assigned : List Bool
  /-- The batch is registered, its key is not. -/
  built : Bool
  deriving DecidableEq

namespace BatchRoute

variable (route : BatchRoute)

def taskIds : List TaskId := route.jobs.map JobRequest.taskId

def takenIds : List TaskId :=
  ((route.jobs.zip route.assigned).filter Prod.snd).map fun p => p.1.taskId

/-- The batch that is registered, with all jobs of the request. -/
def batch (batchId : String) : TestBatch where
  batchId := batchId
  createdAt := route.createdAt
  ownerMaster := route.ownerMaster
  jobs := route.jobs.map fun job => ⟨job.jobId,job.taskId,job.requiredDriver,route.createdAt,""⟩
  status := "pending"

end BatchRoute

/-- A response that is not an earlier batch, with what is registered under the id by then. -/
structure BatchAnswer where
  batchId : String
  key : String
  jobs : List JobRequest
  ok : Bool
  listed : Option TestBatch
  deriving DecidableEq

inductive JobOutcome
  /-- It returns `True`, and the task is in the table with this status. -/
  | taken (status : TaskStatus)
  | refused
  /-- It raises, perhaps after it has taken the task. -/
  | raised (status : Option TaskStatus)
  deriving DecidableEq

structure BatchTask where
  batchId : String
  status : TaskStatus
  deriving DecidableEq

structure BatchWorld where
  tasks : Dict TaskId BatchTask
  testBatches : Dict String TestBatch
  idempotencyKeys : Dict String KeyEntry
  idempotencyTtl : ℚ
  /-- By the id that the batch gets. -/
  routes : Dict String BatchRoute
  /-- History variable: the ids that were given to batches. -/
  batchIds : List String
  /-- History variable: the tasks that `assign_task` took, with the ids of their batches. -/
  taken : List (TaskId × String)
  /-- History variable: all responses. -/
  answers : List BatchAnswer

inductive BatchEvent
  /-- A request; it is allowed unless the route refuses it before its loop. -/
  | submit (batchId key : String) (jobs : List JobRequest) (ownerMaster : NodeId) (allowed : Bool)
    (now : ℚ)
  | assign (batchId : String) (outcome : JobOutcome)
  | register (batchId : String) (now : ℚ)
  /-- Whatever changes the status of a task in the table: a dispatch, an end, a cancellation. -/
  | setStatus (id : TaskId) (status : TaskStatus)
  | forget (id : TaskId)
  | taskLookup (key : String) (now : ℚ)
  | taskRegister (key : String) (id : TaskId) (now : ℚ)
  | configureTtl (seconds : ℚ)
  /-- A new process, with the tasks and batches that it restores. -/
  | restart (tasks : List TaskId) (batches : List String)

namespace BatchWorld

variable (w : BatchWorld)

def keyTable : KeyWorld where
  idempotencyKeys := w.idempotencyKeys
  idempotencyTtl := w.idempotencyTtl
  tasks := w.tasks.mapValues fun _ => BatchTask.status
  testBatches := w.testBatches.keys
  routes := ∅
  answers := []
  owners := ∅

def respond (batchId : String) (route : BatchRoute) (ok : Bool) : BatchWorld :=
  { w with
    routes := w.routes.erase batchId
    answers := w.answers ++
      [⟨batchId,route.key,route.jobs,ok,w.testBatches.get? batchId⟩] }

/-- What follows the loop. The batch is registered before the route looks whether any job was
assigned; a job that is queued is one that `assign_task` returned `True` for. -/
def finish (batchId : String) (route : BatchRoute) : BatchWorld :=
  let w' := { w with testBatches := w.testBatches.set batchId (route.batch batchId) }
  if route.assigned.any id = false then w'.respond batchId route false
  else if route.key = "" then w'.respond batchId route true
  else { w' with routes := w.routes.set batchId { route with built := true } }

/-- The loop over the jobs, up to its next `await`. -/
def advance (batchId : String) (route : BatchRoute) : BatchWorld :=
  match route.jobs[route.assigned.length]? with
  | none => w.finish batchId route
  | some job =>
    if job.command = [] then w.respond batchId route false
    else { w with routes := w.routes.set batchId route }

/-- `assign_task` has taken the task of a job. -/
def take (batchId : String) (id : TaskId) (status : TaskStatus) : BatchWorld :=
  { w with
    tasks := w.tasks.set id ⟨batchId,status⟩
    taken := w.taken ++ [(id,batchId)] }

def submit (batchId key : String) (jobs : List JobRequest) (ownerMaster : NodeId) (allowed : Bool)
    (now : ℚ) : BatchWorld :=
  let looked := { w with idempotencyKeys := (w.keyTable.lookup key now).1 }
  match w.keyTable.existing? false (w.keyTable.lookup key now).2 with
  | some _ => looked
  | none =>
    let given := { looked with batchIds := batchId::w.batchIds }
    let route : BatchRoute := ⟨key,jobs,now,ownerMaster,[],false⟩
    if allowed then given.advance batchId route else given.respond batchId route false

def assign (batchId : String) (route : BatchRoute) (job : JobRequest) : JobOutcome → BatchWorld
  | .taken status => (w.take batchId job.taskId status).advance batchId
      { route with assigned := route.assigned ++ [true] }
  | .refused => w.advance batchId { route with assigned := route.assigned ++ [false] }
  | .raised none => w.respond batchId route false
  | .raised (some status) => (w.take batchId job.taskId status).respond batchId route false

def register (batchId : String) (route : BatchRoute) (now : ℚ) : BatchWorld :=
  { w with
    idempotencyKeys := w.keyTable.registerIdempotency route.key (.batch batchId) now }.respond
      batchId route true

def step : BatchEvent → Option BatchWorld
  | .submit batchId key jobs ownerMaster allowed now =>
    if batchId ∈ w.batchIds ∨ ¬(jobs.map JobRequest.taskId).Nodup then none
    else some (w.submit batchId key jobs ownerMaster allowed now)
  | .assign batchId outcome =>
    (w.routes.get? batchId).bind fun route =>
      if route.built then none
      else route.jobs[route.assigned.length]?.map fun job => w.assign batchId route job outcome
  | .register batchId now =>
    (w.routes.get? batchId).bind fun route =>
      if route.built then some (w.register batchId route now) else none
  | .setStatus id status =>
    (w.tasks.get? id).map fun t => { w with tasks := w.tasks.set id { t with status := status } }
  | .forget id => some { w with tasks := w.tasks.erase id }
  | .taskLookup key now => some { w with idempotencyKeys := (w.keyTable.lookup key now).1 }
  | .taskRegister key id now =>
    if key = "" then none
    else some { w with idempotencyKeys := w.keyTable.registerIdempotency key (.task id) now }
  | .configureTtl seconds => some { w with idempotencyTtl := max 0 seconds }
  | .restart tasks batches =>
    some { w with
      tasks := w.tasks.filter fun id _ => tasks.contains id
      testBatches := w.testBatches.filter fun id _ => batches.contains id
      idempotencyKeys := ∅
      routes := ∅ }

def machine : Machine BatchWorld BatchEvent := ⟨step⟩

def start : BatchWorld := ⟨∅,∅,∅,86400,∅,[],[],[]⟩

def takenOf (batchId : String) : List TaskId :=
  (w.taken.filter fun p => decide (p.2 = batchId)).map Prod.fst

/-- A task that carries the id of the batch waits or runs. -/
def isUnfinished (batchId : String) : Bool :=
  w.tasks.values.any fun t => decide (t.batchId = batchId) && !t.status.isDone

structure Nothing (batchId : String) : Prop where
  taken : w.takenOf batchId = []
  tasks : ∀ id t, w.tasks.get? id = some t → t.batchId ≠ batchId
  batch : w.testBatches.get? batchId = none

/-- Each job of the request has one task with the id of the batch, which lists just these. -/
structure Everything (a : BatchAnswer) : Prop where
  taken : w.takenOf a.batchId = a.jobs.map JobRequest.taskId
  once : (a.jobs.map JobRequest.taskId).Nodup
  tasks : ∀ id t, w.tasks.get? id = some t → t.batchId = a.batchId →
    id ∈ a.jobs.map JobRequest.taskId
  listed : ∃ batch, a.listed = some batch ∧ batch.batchId = a.batchId ∧
    batch.jobs.map TestJob.taskId = a.jobs.map JobRequest.taskId

/-- The key was answered with a batch that is unfinished. -/
def Holds (key : String) : Prop :=
  ∃ a ∈ w.answers, a.ok = true ∧ a.key = key ∧ w.isUnfinished a.batchId = true

/-- Errors leave nothing, successes everything, and a retry makes no second batch. -/
structure AllOrNothing (w : BatchWorld) (e : BatchEvent) (w' : BatchWorld) : Prop where
  errors : ∀ a ∈ w'.answers, a.ok = false → w'.Nothing a.batchId
  successes : ∀ a ∈ w'.answers, a.ok = true → w'.Everything a
  retries : ∀ batchId key jobs ownerMaster allowed now,
    e = .submit batchId key jobs ownerMaster allowed now → key ≠ "" → w.Holds key →
      w'.batchIds = w.batchIds ∧ w'.routes = w.routes

/-- The loop ends on an error before any task is taken, or after all are. -/
def EndsWhole (route : BatchRoute) : Prop :=
  match route.jobs[route.assigned.length]? with
  | none => route.jobs ≠ [] ∧ route.assigned.all id = true
  | some job => job.command = [] → route.assigned.any id = false

/-- The entry of a key with an unfinished batch has not expired. -/
def InTime (key : String) (now : ℚ) : Prop :=
  w.Holds key → ∀ entry ∈ w.idempotencyKeys.get? key, now < entry.expiresAt

/-- The key is not registered over an unfinished batch, nor is one dropped to make room. -/
def Spares (key : String) : Prop :=
  ¬w.Holds key ∧ ∀ oldest ∈ w.keyTable.dropped? key, ¬w.Holds oldest

def Meets : BatchEvent → Prop
  | .submit _ key jobs ownerMaster allowed now => w.InTime key now ∧
      (allowed = true → EndsWhole ⟨key,jobs,now,ownerMaster,[],false⟩)
  | .assign batchId outcome => ∀ route ∈ w.routes.get? batchId,
      match outcome with
      | .taken _ => EndsWhole { route with assigned := route.assigned ++ [true] }
      | .refused => EndsWhole { route with assigned := route.assigned ++ [false] }
      | .raised status => status = none ∧ route.assigned.any id = false
  | .register batchId _ => ∀ route ∈ w.routes.get? batchId, w.Spares route.key
  | .setStatus id status => ∀ t ∈ w.tasks.get? id, t.status.isDone = true → status.isDone = true
  | .taskLookup key now => w.InTime key now
  | .taskRegister key _ _ => w.Spares key
  | .restart _ _ => ∀ a ∈ w.answers, a.ok = true → a.key ≠ "" → w.isUnfinished a.batchId = false
  | .forget _ | .configureTtl _ => True

structure View where
  given : Bool
  route : Option BatchRoute
  taken : List TaskId
  batch : Option TestBatch
  answers : List BatchAnswer

def view (batchId : String) : View where
  given := decide (batchId ∈ w.batchIds)
  route := w.routes.get? batchId
  taken := w.takenOf batchId
  batch := w.testBatches.get? batchId
  answers := w.answers.filter fun a => decide (a.batchId = batchId)

inductive Phase (batchId : String) : View → Prop
  | unused : Phase batchId ⟨false,none,[],none,[]⟩
  | building {route : BatchRoute} : route.built = false → route.taskIds.Nodup →
      Phase batchId ⟨true,some route,route.takenIds,none,[]⟩
  | built {route : BatchRoute} : route.built = true → route.taskIds.Nodup →
      Phase batchId ⟨true,some route,route.taskIds,some (route.batch batchId),[]⟩
  | failed {a : BatchAnswer} : a.ok = false → Phase batchId ⟨true,none,[],none,[a]⟩
  | answered {a : BatchAnswer} {route : BatchRoute} {batch : Option TestBatch} : a.ok = true →
      a.jobs = route.jobs → route.taskIds.Nodup → a.listed = some (route.batch batchId) →
      Phase batchId ⟨true,none,route.taskIds,batch,[a]⟩
  | lost {taken : List TaskId} {batch : Option TestBatch} :
      Phase batchId ⟨true,none,taken,batch,[]⟩

structure Orderly (w : BatchWorld) : Prop where
  phases : ∀ batchId, Phase batchId (w.view batchId)
  tasks : ∀ id t, w.tasks.get? id = some t → id ∈ w.takenOf t.batchId
  keys : ∀ a ∈ w.answers, a.ok = true → a.key ≠ "" → w.isUnfinished a.batchId = true →
    (w.testBatches.get? a.batchId).isSome = true ∧
      ∃ expiresAt, w.idempotencyKeys.get? a.key = some ⟨.batch a.batchId,expiresAt⟩

variable {w} {w' : BatchWorld} {b c key : String} {route : BatchRoute} {job : JobRequest}
  {now : ℚ}

theorem takenIds_concat (h : route.jobs[route.assigned.length]? = some job) (ok : Bool) :
    BatchRoute.takenIds { route with assigned := route.assigned ++ [ok] } =
      route.takenIds ++ if ok then [job.taskId] else [] := by
  have hzip : ∀ (jobs : List JobRequest) (assigned : List Bool),
      jobs[assigned.length]? = some job →
        jobs.zip (assigned ++ [ok]) = jobs.zip assigned ++ [(job,ok)] := by
    intro jobs assigned h
    induction assigned generalizing jobs with
    | nil =>
      cases jobs with
      | nil => simp at h
      | cons x rest =>
        obtain rfl : x = job := by simpa using h
        simp
    | cons x assigned ih =>
      cases jobs with
      | nil => simp at h
      | cons y rest => simpa using ih rest (by simpa using h)
  simp only [BatchRoute.takenIds,hzip _ _ h,List.filter_append,List.map_append]
  cases ok <;> simp

theorem takenIds_of_none (h : route.assigned.any id = false) : route.takenIds = [] := by
  have hnone : (route.jobs.zip route.assigned).filter Prod.snd = [] := by
    refine List.filter_eq_nil_iff.mpr fun p hp htrue => ?_
    have hmem := (List.of_mem_zip hp).2
    exact absurd (List.any_eq_false.mp h p.2 hmem) (by simp [htrue])
  simp [BatchRoute.takenIds,hnone]

theorem takenIds_of_all (h : route.assigned.all id = true)
    (hlen : route.jobs.length ≤ route.assigned.length) : route.takenIds = route.taskIds := by
  have hall : (route.jobs.zip route.assigned).filter Prod.snd = route.jobs.zip route.assigned := by
    refine List.filter_eq_self.mpr fun p hp => ?_
    exact List.all_eq_true.mp h p.2 (List.of_mem_zip hp).2
  have hfst : ((route.jobs.zip route.assigned).map fun p => p.1) = route.jobs :=
    List.map_fst_zip hlen
  unfold BatchRoute.takenIds BatchRoute.taskIds
  rw [hall]
  conv_rhs => rw [← hfst]
  rw [List.map_map]
  rfl

theorem isUnfinished_iff : w.isUnfinished b = true ↔
    ∃ id t, w.tasks.get? id = some t ∧ t.batchId = b ∧ t.status.isDone = false := by
  simp only [isUnfinished,List.any_eq_true,Dict.mem_values_iff,Bool.and_eq_true,
    decide_eq_true_iff,Bool.not_eq_true']
  constructor
  · rintro ⟨t,⟨id,hid⟩,hb,hdone⟩
    exact ⟨id,t,hid,hb,hdone⟩
  · rintro ⟨id,t,hid,hb,hdone⟩
    exact ⟨t,⟨id,hid⟩,hb,hdone⟩

theorem takenOf_take (w : BatchWorld) (b : String) (id : TaskId) (status : TaskStatus) (c : String) :
    (w.take b id status).takenOf c = w.takenOf c ++ if b = c then [id] else [] := by
  simp only [takenOf,take,List.filter_append,List.map_append]
  congr 1
  by_cases h : b = c <;> simp [h]

theorem view_respond_self (w : BatchWorld) (b : String) (route : BatchRoute) (ok : Bool) :
    (w.respond b route ok).view b = { w.view b with
      route := none
      answers := (w.view b).answers ++ [⟨b,route.key,route.jobs,ok,w.testBatches.get? b⟩] } := by
  simp [view,respond,takenOf,Dict.get?_erase]
  rfl

theorem view_respond_ne (w : BatchWorld) (route : BatchRoute) (ok : Bool) (h : c ≠ b) :
    (w.respond b route ok).view c = w.view c := by
  simp [view,respond,takenOf,Dict.get?_erase,h,Ne.symm h]
  rfl

theorem view_finish_ne (w : BatchWorld) (route : BatchRoute) (h : c ≠ b) :
    (w.finish b route).view c = w.view c := by
  have hset : ∀ batch, ({ w with testBatches := w.testBatches.set b batch } : BatchWorld).view c =
      w.view c := by
    intro batch
    simp [view,takenOf,Dict.get?_set,h]
  unfold finish
  simp only
  split_ifs
  · rw [view_respond_ne _ _ _ h,hset]
  · rw [view_respond_ne _ _ _ h,hset]
  · simp [view,takenOf,Dict.get?_set,h]

theorem view_advance_ne (w : BatchWorld) (route : BatchRoute) (h : c ≠ b) :
    (w.advance b route).view c = w.view c := by
  unfold advance
  split
  · exact view_finish_ne w route h
  · split_ifs
    · exact view_respond_ne w route false h
    · simp [view,takenOf,Dict.get?_set,h]

theorem view_take_ne (w : BatchWorld) (id : TaskId) (status : TaskStatus) (h : c ≠ b) :
    (w.take b id status).view c = w.view c := by
  have htaken := takenOf_take w b id status c
  rw [if_neg (Ne.symm h),List.append_nil] at htaken
  simp only [view,htaken]
  rfl

theorem view_take_self (w : BatchWorld) (b : String) (id : TaskId) (status : TaskStatus) :
    (w.take b id status).view b = { w.view b with taken := (w.view b).taken ++ [id] } := by
  have htaken := takenOf_take w b id status b
  rw [if_pos rfl] at htaken
  simp only [view,htaken]
  rfl

theorem phase_advance (old : Option BatchRoute) (hbuilt : route.built = false)
    (hnodup : route.taskIds.Nodup) (hends : EndsWhole route)
    (hview : w.view b = ⟨true,old,route.takenIds,none,[]⟩) :
    Phase b ((w.advance b route).view b) := by
  have hgiven := congrArg View.given hview
  have htaken := congrArg View.taken hview
  have hbatch := congrArg View.batch hview
  have hanswers := congrArg View.answers hview
  simp only [view] at hgiven htaken hbatch hanswers
  unfold EndsWhole at hends
  unfold advance
  cases hjob : route.jobs[route.assigned.length]? with
  | some job =>
    rw [hjob] at hends
    simp only
    split_ifs with hcommand
    · rw [view_respond_self,hview,takenIds_of_none (hends hcommand)]
      exact .failed rfl
    · have hself : ({ w with routes := w.routes.set b route } : BatchWorld).view b =
          ⟨true,some route,route.takenIds,none,[]⟩ := by
        simp only [view,hgiven,hbatch,hanswers,Dict.get?_set,if_true]
        rw [← htaken]
        rfl
      rw [hself]
      exact .building hbuilt hnodup
  | none =>
    rw [hjob] at hends
    obtain ⟨hjobs,hall⟩ := hends
    have hlen : route.jobs.length ≤ route.assigned.length := List.getElem?_eq_none_iff.mp hjob
    have hids := takenIds_of_all hall hlen
    have hany : route.assigned.any id = true := by
      cases hassigned : route.assigned with
      | nil =>
        rw [hassigned] at hlen
        exact absurd (List.eq_nil_of_length_eq_zero (Nat.le_zero.mp hlen)) hjobs
      | cons x rest =>
        rw [hassigned] at hall
        have hx : x = true := List.all_eq_true.mp hall x (List.mem_cons_self ..)
        simp [hx]
    have hset : ({ w with testBatches := w.testBatches.set b (route.batch b) } : BatchWorld).view b =
        ⟨true,old,route.taskIds,some (route.batch b),[]⟩ := by
      have hroute := congrArg View.route hview
      simp only [view] at hroute
      simp only [view,hgiven,hroute,hanswers,Dict.get?_set,if_true]
      rw [← hids,← htaken]
      rfl
    simp only [finish,hany,Bool.true_eq_false,if_false]
    split_ifs with hkey
    · rw [view_respond_self,hset]
      exact .answered rfl rfl hnodup (by simp)
    · have hself : ({ w with
          testBatches := w.testBatches.set b (route.batch b)
          routes := w.routes.set b { route with built := true } } : BatchWorld).view b =
            ⟨true,some { route with built := true },route.taskIds,some (route.batch b),[]⟩ := by
        simp only [view,hgiven,hanswers,Dict.get?_set,if_true]
        rw [← hids,← htaken]
        rfl
      rw [hself]
      exact .built rfl hnodup

theorem tasks_advance (w : BatchWorld) (b : String) (route : BatchRoute) :
    (w.advance b route).tasks = w.tasks ∧ (w.advance b route).taken = w.taken := by
  unfold advance finish
  split
  · simp only
    split_ifs <;> exact ⟨rfl,rfl⟩
  · split_ifs <;> exact ⟨rfl,rfl⟩

theorem Phase.of_fresh {v : View} (h : Phase b v) (hgiven : v.given = false) :
    v = ⟨false,none,[],none,[]⟩ := by
  cases h with
  | unused => rfl
  | building => exact nomatch hgiven
  | built => exact nomatch hgiven
  | failed => exact nomatch hgiven
  | answered => exact nomatch hgiven
  | lost => exact nomatch hgiven

theorem Orderly.building (h : w.Orderly) (hroute : w.routes.get? b = some route)
    (hbuilt : route.built = false) :
    w.view b = ⟨true,some route,route.takenIds,none,[]⟩ ∧ route.taskIds.Nodup := by
  have hphase := h.phases b
  have hview : (w.view b).route = some route := hroute
  generalize w.view b = v at hphase hview
  cases hphase with
  | @building route' hb hn =>
    obtain rfl := Option.some.inj hview
    exact ⟨rfl,hn⟩
  | @built route' hb hn =>
    obtain rfl := Option.some.inj hview
    exact nomatch hb.symm.trans hbuilt
  | unused => exact nomatch hview
  | failed => exact nomatch hview
  | answered => exact nomatch hview
  | lost => exact nomatch hview

theorem Orderly.built (h : w.Orderly) (hroute : w.routes.get? b = some route)
    (hbuilt : route.built = true) :
    w.view b = ⟨true,some route,route.taskIds,some (route.batch b),[]⟩ ∧ route.taskIds.Nodup := by
  have hphase := h.phases b
  have hview : (w.view b).route = some route := hroute
  generalize w.view b = v at hphase hview
  cases hphase with
  | @building route' hb hn =>
    obtain rfl := Option.some.inj hview
    exact nomatch hb.symm.trans hbuilt
  | @built route' hb hn =>
    obtain rfl := Option.some.inj hview
    exact ⟨rfl,hn⟩
  | unused => exact nomatch hview
  | failed => exact nomatch hview
  | answered => exact nomatch hview
  | lost => exact nomatch hview

theorem phases_submit (h : w.Orderly) {jobs : List JobRequest} {owner : NodeId} {allowed : Bool}
    (hnew : b ∉ w.batchIds) (hnodup : (jobs.map JobRequest.taskId).Nodup)
    (hends : allowed = true → EndsWhole ⟨key,jobs,now,owner,[],false⟩) (c : String) :
    Phase c ((w.submit b key jobs owner allowed now).view c) := by
  unfold submit
  simp only
  cases w.keyTable.existing? false (w.keyTable.lookup key now).2 with
  | some _ => exact h.phases c
  | none =>
    simp only
    set given : BatchWorld := { w with
      idempotencyKeys := (w.keyTable.lookup key now).1
      batchIds := b::w.batchIds } with hgivenDef
    have hfresh := (h.phases b).of_fresh (decide_eq_false hnew)
    have hself : given.view b = ⟨true,none,[],none,[]⟩ := by
      have hview : given.view b = { w.view b with given := true } := by simp [view,given,takenOf]
      rw [hview,hfresh]
    have hother : c ≠ b → given.view c = w.view c := fun hc => by simp [view,given,takenOf,hc]
    by_cases hc : c = b
    · subst hc
      split_ifs with hallowed
      · refine phase_advance none rfl hnodup (hends hallowed) ?_
        rw [hself]
        simp [BatchRoute.takenIds]
      · rw [view_respond_self,hself]
        exact .failed rfl
    · split_ifs
      · rw [view_advance_ne _ _ hc,hother hc]
        exact h.phases c
      · rw [view_respond_ne _ _ _ hc,hother hc]
        exact h.phases c

theorem phases_assign (h : w.Orderly) {outcome : JobOutcome} (hroute : w.routes.get? b = some route)
    (hbuilt : route.built = false) (hjob : route.jobs[route.assigned.length]? = some job)
    (hmeets : w.Meets (.assign b outcome)) (c : String) :
    Phase c ((w.assign b route job outcome).view c) := by
  obtain ⟨hview,hnodup⟩ := h.building hroute hbuilt
  have hmeets' := hmeets route hroute
  by_cases hc : c = b
  · subst hc
    cases outcome with
    | taken status =>
      refine phase_advance (some route) hbuilt hnodup hmeets' ?_
      rw [view_take_self,hview,takenIds_concat hjob]
      rfl
    | refused =>
      refine phase_advance (some route) hbuilt hnodup hmeets' ?_
      rw [hview,takenIds_concat hjob]
      simp
    | raised status =>
      obtain ⟨rfl,hnone⟩ := hmeets'
      show Phase c ((w.respond c route false).view c)
      rw [view_respond_self,hview,takenIds_of_none hnone]
      exact .failed rfl
  · have hsame : (w.assign b route job outcome).view c = w.view c := by
      match outcome with
      | .taken status => exact (view_advance_ne _ _ hc).trans (view_take_ne _ _ _ hc)
      | .refused => exact view_advance_ne _ _ hc
      | .raised none => exact view_respond_ne _ _ _ hc
      | .raised (some status) => exact (view_respond_ne _ _ _ hc).trans (view_take_ne _ _ _ hc)
    rw [hsame]
    exact h.phases c

theorem phases_register (h : w.Orderly) (hroute : w.routes.get? b = some route)
    (hbuilt : route.built = true) (now : ℚ) (c : String) :
    Phase c ((w.register b route now).view c) := by
  obtain ⟨hview,hnodup⟩ := h.built hroute hbuilt
  unfold register
  by_cases hc : c = b
  · subst hc
    have hbatch : w.testBatches.get? c = some (route.batch c) := congrArg View.batch hview
    have hself : ({ w with idempotencyKeys :=
        w.keyTable.registerIdempotency route.key (.batch c) now } : BatchWorld).view c =
          ⟨true,some route,route.taskIds,some (route.batch c),[]⟩ := hview
    rw [view_respond_self,hself]
    exact .answered rfl rfl hnodup hbatch
  · rw [view_respond_ne _ _ _ hc]
    exact h.phases c

theorem phases_restart (h : w.Orderly) (tasks : List TaskId) (batches : List String) (c : String) :
    Phase c (({ w with
      tasks := w.tasks.filter fun id _ => tasks.contains id
      testBatches := w.testBatches.filter fun id _ => batches.contains id
      idempotencyKeys := ∅
      routes := ∅ } : BatchWorld).view c) := by
  have hphase := h.phases c
  have hview : ({ w with
      tasks := w.tasks.filter fun id _ => tasks.contains id
      testBatches := w.testBatches.filter fun id _ => batches.contains id
      idempotencyKeys := ∅
      routes := ∅ } : BatchWorld).view c = { w.view c with
        route := none
        batch := (w.view c).batch.filter fun _ => batches.contains c } := by
    simp only [view,Dict.get?_filter]
    rfl
  rw [hview]
  generalize w.view c = v at hphase
  cases hphase with
  | unused => exact .unused
  | building => exact .lost
  | built => exact .lost
  | failed ha => exact .failed ha
  | answered ha hjobs hn hlisted => exact .answered ha hjobs hn hlisted
  | lost => exact .lost

theorem phases_step (h : w.Orderly) {e : BatchEvent} (hmeets : w.Meets e)
    (hstep : machine.step w e = some w') (c : String) : Phase c (w'.view c) := by
  cases e with
  | submit batchId key jobs owner allowed now =>
    obtain ⟨hnot,hw⟩ := Option.ite_none_left_eq_some.mp hstep
    obtain rfl := Option.some.inj hw
    rw [not_or,not_not] at hnot
    exact phases_submit h hnot.1 hnot.2 hmeets.2 c
  | assign batchId outcome =>
    obtain ⟨route,hroute,hrest⟩ := Option.bind_eq_some_iff.mp hstep
    obtain ⟨hbuilt,hrest⟩ := Option.ite_none_left_eq_some.mp hrest
    obtain ⟨job,hjob,rfl⟩ := Option.map_eq_some_iff.mp hrest
    exact phases_assign h hroute (Bool.eq_false_iff.mpr hbuilt) hjob hmeets c
  | register batchId now =>
    obtain ⟨route,hroute,hrest⟩ := Option.bind_eq_some_iff.mp hstep
    obtain ⟨hbuilt,hw⟩ := Option.ite_none_right_eq_some.mp hrest
    obtain rfl := Option.some.inj hw
    exact phases_register h hroute hbuilt now c
  | setStatus id status =>
    obtain ⟨t,-,rfl⟩ := Option.map_eq_some_iff.mp hstep
    exact h.phases c
  | forget id =>
    obtain rfl := Option.some.inj hstep
    exact h.phases c
  | taskLookup key now =>
    obtain rfl := Option.some.inj hstep
    exact h.phases c
  | taskRegister key id now =>
    obtain ⟨-,hw⟩ := Option.ite_none_left_eq_some.mp hstep
    obtain rfl := Option.some.inj hw
    exact h.phases c
  | configureTtl seconds =>
    obtain rfl := Option.some.inj hstep
    exact h.phases c
  | restart tasks batches =>
    obtain rfl := Option.some.inj hstep
    exact phases_restart h tasks batches c

def TasksTaken (w : BatchWorld) : Prop :=
  ∀ id t, w.tasks.get? id = some t → id ∈ w.takenOf t.batchId

theorem TasksTaken.of_eq (h : w.TasksTaken) (htasks : w'.tasks = w.tasks)
    (htaken : w'.taken = w.taken) : w'.TasksTaken := by
  intro id t hid
  rw [htasks] at hid
  have hmem := h id t hid
  unfold takenOf at hmem ⊢
  rwa [htaken]

theorem TasksTaken.take (h : w.TasksTaken) (b : String) (id : TaskId) (status : TaskStatus) :
    (w.take b id status).TasksTaken := by
  intro id' t hid
  rw [takenOf_take]
  have hget : (w.tasks.set id ⟨b,status⟩).get? id' = some t := hid
  rw [Dict.get?_set] at hget
  split_ifs at hget with heq
  · obtain rfl := Option.some.inj hget
    simp [heq]
  · exact List.mem_append_left _ (h id' t hget)

theorem tasksTaken_step (h : w.TasksTaken) {e : BatchEvent} (hstep : machine.step w e = some w') :
    w'.TasksTaken := by
  have hadvance : ∀ {v : BatchWorld} (b : String) (route : BatchRoute), v.TasksTaken →
      (v.advance b route).TasksTaken := fun b route hv =>
    hv.of_eq (tasks_advance _ b route).1 (tasks_advance _ b route).2
  cases e with
  | submit batchId key jobs owner allowed now =>
    obtain ⟨-,hw⟩ := Option.ite_none_left_eq_some.mp hstep
    obtain rfl := Option.some.inj hw
    unfold submit
    simp only
    split
    · exact h
    · split_ifs
      · exact hadvance _ _ h
      · exact h
  | assign batchId outcome =>
    obtain ⟨route,-,hrest⟩ := Option.bind_eq_some_iff.mp hstep
    obtain ⟨-,hrest⟩ := Option.ite_none_left_eq_some.mp hrest
    obtain ⟨job,-,rfl⟩ := Option.map_eq_some_iff.mp hrest
    match outcome with
    | .taken status => exact hadvance _ _ (h.take batchId job.taskId status)
    | .refused => exact hadvance _ _ h
    | .raised none => exact h
    | .raised (some status) => exact h.take batchId job.taskId status
  | register batchId now =>
    obtain ⟨route,-,hrest⟩ := Option.bind_eq_some_iff.mp hstep
    obtain ⟨-,hw⟩ := Option.ite_none_right_eq_some.mp hrest
    obtain rfl := Option.some.inj hw
    exact h
  | setStatus id status =>
    obtain ⟨t,ht,rfl⟩ := Option.map_eq_some_iff.mp hstep
    intro id' t' hid
    have hget : (w.tasks.set id { t with status := status }).get? id' = some t' := hid
    rw [Dict.get?_set] at hget
    split_ifs at hget with heq
    · obtain rfl := Option.some.inj hget
      exact heq ▸ h id t ht
    · exact h id' t' hget
  | forget id =>
    obtain rfl := Option.some.inj hstep
    intro id' t' hid
    have hget : (w.tasks.erase id).get? id' = some t' := hid
    rw [Dict.get?_erase] at hget
    split_ifs at hget with heq
    exact h id' t' hget
  | taskLookup key now =>
    obtain rfl := Option.some.inj hstep
    exact h
  | taskRegister key id now =>
    obtain ⟨-,hw⟩ := Option.ite_none_left_eq_some.mp hstep
    obtain rfl := Option.some.inj hw
    exact h
  | configureTtl seconds =>
    obtain rfl := Option.some.inj hstep
    exact h
  | restart tasks batches =>
    obtain rfl := Option.some.inj hstep
    intro id' t' hid
    have hget : (w.tasks.filter fun id _ => tasks.contains id).get? id' = some t' := hid
    rw [Dict.get?_filter] at hget
    exact h id' t' (Option.filter_eq_some_iff.mp hget).1

def KeysKept (w : BatchWorld) : Prop :=
  ∀ a ∈ w.answers, a.ok = true → a.key ≠ "" → w.isUnfinished a.batchId = true →
    (w.testBatches.get? a.batchId).isSome = true ∧
      ∃ expiresAt, w.idempotencyKeys.get? a.key = some ⟨.batch a.batchId,expiresAt⟩

theorem KeysKept.mono (h : w.KeysKept)
    (hanswers : ∀ a ∈ w'.answers, a.ok = true → a.key ≠ "" → a ∈ w.answers)
    (hunfinished : ∀ a ∈ w.answers, w'.isUnfinished a.batchId = true →
      w.isUnfinished a.batchId = true)
    (hbatches : ∀ b, (w.testBatches.get? b).isSome = true → (w'.testBatches.get? b).isSome = true)
    (hkeys : ∀ key, key ≠ "" → w.Holds key →
      w'.idempotencyKeys.get? key = w.idempotencyKeys.get? key) : w'.KeysKept := by
  intro a ha hok hkey hu
  have ha' := hanswers a ha hok hkey
  have hu' := hunfinished a ha' hu
  obtain ⟨hbatch,e,he⟩ := h a ha' hok hkey hu'
  exact ⟨hbatches _ hbatch,e,(hkeys a.key hkey ⟨a,ha',hok,rfl,hu'⟩).trans he⟩

theorem KeysKept.respond (h : w.KeysKept) (b : String) (route : BatchRoute) {ok : Bool}
    (hok : ok = true → route.key = "") : (w.respond b route ok).KeysKept := by
  refine h.mono (fun a ha haok hkey => ?_) (fun _ _ hu => hu) (fun _ hb => hb) fun _ _ _ => rfl
  rcases List.mem_append.mp ha with ha | ha
  · exact ha
  · obtain rfl := List.mem_singleton.mp ha
    exact absurd (hok haok) hkey

theorem KeysKept.advance (h : w.KeysKept) (b : String) (route : BatchRoute) :
    (w.advance b route).KeysKept := by
  have hset : ∀ batch, ({ w with testBatches := w.testBatches.set b batch } : BatchWorld).KeysKept := by
    intro batch
    refine h.mono (fun a ha _ _ => ha) (fun _ _ hu => hu) (fun c hc => ?_) fun _ _ _ => rfl
    show ((w.testBatches.set b batch).get? c).isSome = true
    rw [Dict.get?_set]
    split_ifs
    · rfl
    · exact hc
  unfold BatchWorld.advance finish
  split
  · simp only
    split_ifs with hany hkey
    · exact (hset _).respond b route fun h => nomatch h
    · exact (hset _).respond b route fun _ => hkey
    · exact hset _
  · split_ifs
    · exact h.respond b route fun h => nomatch h
    · exact h

theorem lookup_of_holds (h : w.KeysKept) (hin : w.InTime key now) (hkey : key ≠ "")
    (hold : w.Holds key) : ∃ batchId, (w.testBatches.get? batchId).isSome = true ∧
      w.keyTable.lookup key now = (w.idempotencyKeys,some (.batch batchId)) := by
  obtain ⟨a,ha,hok,rfl,hu⟩ := id hold
  obtain ⟨hbatch,e,he⟩ := h a ha hok hkey hu
  have htime : now < e := hin hold _ he
  refine ⟨a.batchId,hbatch,?_⟩
  unfold KeyWorld.lookup KeyWorld.tryIdempotency
  have hget : w.keyTable.idempotencyKeys.get? a.key = some ⟨.batch a.batchId,e⟩ := he
  rw [if_neg hkey,hget]
  simp only
  rw [if_neg (not_le.mpr htime),if_neg (by simp [ObjectId.taskId?])]
  rfl

theorem get?_lookup (h : w.KeysKept) (hin : w.InTime key now) {k : String} (hk : k ≠ "")
    (hold : w.Holds k) :
    (w.keyTable.lookup key now).1.get? k = w.idempotencyKeys.get? k := by
  by_cases hne : k = key
  · subst hne
    obtain ⟨batchId,-,hlookup⟩ := lookup_of_holds h hin hk hold
    rw [hlookup]
  · exact KeyWorld.get?_lookup_ne hne now

theorem get?_register (hspares : w.Spares key) (object : ObjectId) (now : ℚ) {k : String}
    (hold : w.Holds k) :
    (w.keyTable.registerIdempotency key object now).get? k = w.idempotencyKeys.get? k := by
  rw [KeyWorld.get?_registerIdempotency,if_neg,if_neg]
  · rfl
  · exact fun hdrop => hspares.2 k hdrop hold
  · rintro rfl
    exact hspares.1 hold

theorem keysKept_submit (h : w.KeysKept) {jobs : List JobRequest} {owner : NodeId} {allowed : Bool}
    (hin : w.InTime key now) : (w.submit b key jobs owner allowed now).KeysKept := by
  have hlooked : ∀ ids, ({ w with
      idempotencyKeys := (w.keyTable.lookup key now).1
      batchIds := ids } : BatchWorld).KeysKept := fun ids =>
    h.mono (fun a ha _ _ => ha) (fun _ _ hu => hu) (fun _ hb => hb)
      fun k hk hold => get?_lookup h hin hk hold
  unfold submit
  simp only
  split
  · exact hlooked w.batchIds
  · split_ifs
    · exact (hlooked _).advance _ _
    · exact (hlooked _).respond _ _ fun h => nomatch h

theorem keysKept_take (h : w.KeysKept) (hnone : ∀ a ∈ w.answers, a.batchId ≠ b) (id : TaskId)
    (status : TaskStatus) : (w.take b id status).KeysKept := by
  refine h.mono (fun a ha _ _ => ha) (fun a ha hu => ?_) (fun _ hb => hb) fun _ _ _ => rfl
  obtain ⟨id',t,hget,hbatch,hdone⟩ := isUnfinished_iff.mp hu
  have hget' : (w.tasks.set id ⟨b,status⟩).get? id' = some t := hget
  rw [Dict.get?_set] at hget'
  split_ifs at hget' with heq
  · obtain rfl := Option.some.inj hget'
    exact absurd hbatch.symm (hnone a ha)
  · exact isUnfinished_iff.mpr ⟨id',t,hget',hbatch,hdone⟩

theorem keysKept_assign (h : w.KeysKept) {outcome : JobOutcome}
    (hnone : ∀ a ∈ w.answers, a.batchId ≠ b) : (w.assign b route job outcome).KeysKept := by
  match outcome with
  | .taken status => exact (keysKept_take h hnone job.taskId status).advance _ _
  | .refused => exact h.advance _ _
  | .raised none => exact h.respond _ _ fun h => nomatch h
  | .raised (some status) =>
    exact (keysKept_take h hnone job.taskId status).respond _ _ fun h => nomatch h

theorem keysKept_register (h : w.KeysKept) (hspares : w.Spares route.key)
    (hbatch : (w.testBatches.get? b).isSome = true) : (w.register b route now).KeysKept := by
  intro a ha hok hkey hu
  rcases List.mem_append.mp ha with ha | ha
  · obtain ⟨hlisted,e,he⟩ := h a ha hok hkey hu
    exact ⟨hlisted,e,(get?_register hspares _ now ⟨a,ha,hok,rfl,hu⟩).trans he⟩
  · obtain rfl := List.mem_singleton.mp ha
    refine ⟨hbatch,now+w.idempotencyTtl,?_⟩
    exact (KeyWorld.get?_registerIdempotency ..).trans (if_pos rfl)

theorem keysKept_step (h : w.Orderly) {e : BatchEvent} (hmeets : w.Meets e)
    (hstep : machine.step w e = some w') : w'.KeysKept := by
  have hkeys : w.KeysKept := h.keys
  cases e with
  | submit batchId key jobs owner allowed now =>
    obtain ⟨-,hw⟩ := Option.ite_none_left_eq_some.mp hstep
    obtain rfl := Option.some.inj hw
    exact keysKept_submit hkeys hmeets.1
  | assign batchId outcome =>
    obtain ⟨route,hroute,hrest⟩ := Option.bind_eq_some_iff.mp hstep
    obtain ⟨hbuilt,hrest⟩ := Option.ite_none_left_eq_some.mp hrest
    obtain ⟨job,-,rfl⟩ := Option.map_eq_some_iff.mp hrest
    have hanswers := congrArg View.answers (h.building hroute (Bool.eq_false_iff.mpr hbuilt)).1
    refine keysKept_assign hkeys fun a ha heq => ?_
    exact (List.filter_eq_nil_iff.mp hanswers a ha) (decide_eq_true heq)
  | register batchId now =>
    obtain ⟨route,hroute,hrest⟩ := Option.bind_eq_some_iff.mp hstep
    obtain ⟨hbuilt,hw⟩ := Option.ite_none_right_eq_some.mp hrest
    obtain rfl := Option.some.inj hw
    have hbatch : w.testBatches.get? batchId = some (route.batch batchId) :=
      congrArg View.batch (h.built hroute hbuilt).1
    exact keysKept_register hkeys (hmeets route hroute) (by rw [hbatch]; rfl)
  | setStatus id status =>
    obtain ⟨t,ht,rfl⟩ := Option.map_eq_some_iff.mp hstep
    refine hkeys.mono (fun a ha _ _ => ha) (fun a ha hu => ?_) (fun _ hb => hb) fun _ _ _ => rfl
    obtain ⟨id',t',hget,hbatch,hdone⟩ := isUnfinished_iff.mp hu
    have hget' : (w.tasks.set id { t with status := status }).get? id' = some t' := hget
    rw [Dict.get?_set] at hget'
    split_ifs at hget' with heq
    · obtain rfl := Option.some.inj hget'
      refine isUnfinished_iff.mpr ⟨id,t,ht,hbatch,Bool.eq_false_iff.mpr fun hend => ?_⟩
      exact nomatch (hmeets t ht hend).symm.trans hdone
    · exact isUnfinished_iff.mpr ⟨id',t',hget',hbatch,hdone⟩
  | forget id =>
    obtain rfl := Option.some.inj hstep
    refine hkeys.mono (fun a ha _ _ => ha) (fun a ha hu => ?_) (fun _ hb => hb) fun _ _ _ => rfl
    obtain ⟨id',t',hget,hrest⟩ := isUnfinished_iff.mp hu
    have hget' : (w.tasks.erase id).get? id' = some t' := hget
    rw [Dict.get?_erase] at hget'
    split_ifs at hget' with heq
    exact isUnfinished_iff.mpr ⟨id',t',hget',hrest⟩
  | taskLookup key now =>
    obtain rfl := Option.some.inj hstep
    exact hkeys.mono (fun a ha _ _ => ha) (fun _ _ hu => hu) (fun _ hb => hb)
      fun k hk hold => get?_lookup hkeys hmeets hk hold
  | taskRegister key id now =>
    obtain ⟨-,hw⟩ := Option.ite_none_left_eq_some.mp hstep
    obtain rfl := Option.some.inj hw
    exact hkeys.mono (fun a ha _ _ => ha) (fun _ _ hu => hu) (fun _ hb => hb)
      fun k _ hold => get?_register hmeets _ now hold
  | configureTtl seconds =>
    obtain rfl := Option.some.inj hstep
    exact hkeys
  | restart tasks batches =>
    obtain rfl := Option.some.inj hstep
    intro a ha hok hkey hu
    obtain ⟨id',t',hget,hrest⟩ := isUnfinished_iff.mp hu
    have hget' : (w.tasks.filter fun id _ => tasks.contains id).get? id' = some t' := hget
    rw [Dict.get?_filter] at hget'
    have hbefore : w.isUnfinished a.batchId = true :=
      isUnfinished_iff.mpr ⟨id',t',(Option.filter_eq_some_iff.mp hget').1,hrest⟩
    exact nomatch (hmeets a ha hok hkey).symm.trans hbefore

theorem orderly_start : start.Orderly :=
  ⟨fun _ => .unused,fun _ _ h => (nomatch h),fun _ h => (List.not_mem_nil h).elim⟩

theorem Orderly.step (h : w.Orderly) {e : BatchEvent} (hmeets : w.Meets e)
    (hstep : machine.step w e = some w') : w'.Orderly :=
  ⟨phases_step h hmeets hstep,tasksTaken_step h.tasks hstep,keysKept_step h hmeets hstep⟩

theorem Orderly.answer (h : w.Orderly) {a : BatchAnswer} (ha : a ∈ w.answers) :
    (a.ok = false → w.Nothing a.batchId) ∧ (a.ok = true → w.Everything a) := by
  have hphase := h.phases a.batchId
  have hmem : a ∈ (w.view a.batchId).answers :=
    List.mem_filter.mpr ⟨ha,decide_eq_true rfl⟩
  have htaken : (w.view a.batchId).taken = w.takenOf a.batchId := rfl
  have hbatch : (w.view a.batchId).batch = w.testBatches.get? a.batchId := rfl
  generalize w.view a.batchId = v at hphase hmem htaken hbatch
  cases hphase with
  | unused => exact (List.not_mem_nil hmem).elim
  | building => exact (List.not_mem_nil hmem).elim
  | built => exact (List.not_mem_nil hmem).elim
  | lost => exact (List.not_mem_nil hmem).elim
  | failed hok =>
    obtain rfl := List.mem_singleton.mp hmem
    refine ⟨fun _ => ⟨htaken.symm,fun id t hid heq => ?_,hbatch.symm⟩,fun h => nomatch hok.symm.trans h⟩
    have hid' := h.tasks id t hid
    rw [heq,← htaken] at hid'
    exact (List.not_mem_nil hid').elim
  | @answered x route batch hok hjobs hnodup hlisted =>
    obtain rfl := List.mem_singleton.mp hmem
    have hids : route.taskIds = a.jobs.map JobRequest.taskId := by rw [hjobs]; rfl
    refine ⟨fun h => (nomatch hok.symm.trans h),fun _ => ⟨htaken.symm.trans hids,hids ▸ hnodup,?_,?_⟩⟩
    · intro id t hid heq
      have hid' := h.tasks id t hid
      rw [heq,← htaken] at hid'
      exact hids ▸ hid'
    · refine ⟨_,hlisted,rfl,?_⟩
      rw [hjobs]
      simp [BatchRoute.batch,Function.comp_def]

/-- A retry with the key of an unfinished batch is answered with it. -/
theorem submit_of_holds (h : w.Orderly) {jobs : List JobRequest} {owner : NodeId} {allowed : Bool}
    (hin : w.InTime key now) (hkey : key ≠ "") (hold : w.Holds key) :
    (w.submit b key jobs owner allowed now).batchIds = w.batchIds ∧
      (w.submit b key jobs owner allowed now).routes = w.routes := by
  obtain ⟨batchId,hbatch,hlookup⟩ := lookup_of_holds h.keys hin hkey hold
  have hmem : batchId ∈ w.testBatches.keys := by
    obtain ⟨batch,hget⟩ := Option.isSome_iff_exists.mp hbatch
    exact Dict.mem_keys_iff.mpr ⟨batch,hget⟩
  have hfound : w.keyTable.existing? false (some (.batch batchId)) = some (.batch batchId) := by
    simp [KeyWorld.existing?,KeyWorld.finds,ObjectId.isTask,keyTable,hmem,Option.filter]
  unfold submit
  rw [hlookup,hfound]
  exact ⟨rfl,rfl⟩

theorem Orderly.allOrNothing (h : w.Orderly) {e : BatchEvent} (hmeets : w.Meets e)
    (hstep : machine.step w e = some w') : AllOrNothing w e w' := by
  have h' := h.step hmeets hstep
  refine ⟨fun a ha => (h'.answer ha).1,fun a ha => (h'.answer ha).2,?_⟩
  rintro batchId key jobs owner allowed now rfl hkey hold
  obtain ⟨-,hw⟩ := Option.ite_none_left_eq_some.mp hstep
  obtain rfl := Option.some.inj hw
  exact submit_of_holds h hmeets.1 hkey hold

/-- Batch submission is all or nothing along every run whose steps meet the condition. -/
theorem batch_submission_is_whole (es : List BatchEvent)
    (h : machine.Along (fun w e _ => w.Meets e) start es) : machine.Along AllOrNothing start es :=
  Machine.Along.of_invariant (I := Orderly)
    (fun _ _ _ hI hstep hmeets => ⟨hI.allOrNothing hmeets hstep,hI.step hmeets hstep⟩)
    orderly_start h

instance (w : BatchWorld) (key : String) : Decidable (w.Holds key) := by
  unfold Holds; infer_instance

instance (route : BatchRoute) : Decidable (EndsWhole route) := by
  unfold EndsWhole; split <;> infer_instance

instance (w : BatchWorld) (e : BatchEvent) : Decidable (w.Meets e) := by
  cases e with
  | assign batchId outcome => cases outcome <;> (unfold Meets; infer_instance)
  | _ => unfold Meets; simp only [InTime,Spares]; infer_instance

def submittedTwice : List BatchEvent :=
  [.submit "b1" "k" [⟨"j","t1",["pytest"],""⟩] "" true 0,.assign "b1" (.taken .running),
    .register "b1" 1,.submit "b2" "k" [⟨"j","t2",["pytest"],""⟩] "" true 2]

theorem submittedTwice_is_whole : machine.Along AllOrNothing start submittedTwice :=
  batch_submission_is_whole submittedTwice (by decide +kernel)

def emptyCommand : List BatchEvent :=
  [.submit "b" "" [⟨"j1","t1",["pytest"],""⟩,⟨"j2","t2",[],""⟩] "" true 0,
    .assign "b" (.taken .running)]

theorem first_job_runs : ¬machine.Along AllOrNothing start emptyCommand := by
  intro h
  have hlast := ((h _ rfl).2 _ rfl).1
  have htaken := (hlast.errors ⟨"b","",_,false,none⟩ (List.mem_singleton.mpr rfl) rfl).taken
  exact absurd htaken (by decide)

end BatchWorld
end FusionMultiNodes
