import FusionMultiNodes.Lib.Traversal
import FusionMultiNodes.Master.Moves

/-! What `cancel_task` reaches in a graph of sub-tasks. -/
namespace FusionMultiNodes
namespace ClusterMaster

variable {m m' : ClusterMaster} {id : TaskId} {r x : Ref} {reason : String}

def cancelAnswer (m : ClusterMaster) (id : TaskId) : Bool := (m.task? id).any isCancellable

/-- The task itself, before the loop over its sub-tasks. -/
def cancelEntry (m : ClusterMaster) (id : TaskId) (r : Ref) (reason : String) : ClusterMaster :=
  { (m.releaseTask r).modifyTask r fun t =>
      { t with
        cancelReason := if reason = "" then "用户取消" else reason
        assignedNodes := [] } with
    pendingQueue := m.pendingQueue.filter fun q => decide ((m.objects q).taskId ≠ id) }

/-- The task itself, after the loop, and the write `w` of the store. -/
def cancelExit (m : ClusterMaster) (r : Ref) (w : ℕ) : ClusterMaster :=
  (m.modifyTask r fun t =>
    { t with status := .cancelled, error := t.cancelReason }).persistTasks.spawn (.cancelling w)

inductive CancelLoop (reason : String) : ClusterMaster → List TaskId → ClusterMaster → Prop
  | done (m : ClusterMaster) : CancelLoop reason m [] m
  | missing {m m' : ClusterMaster} {stack : List TaskId} {id : TaskId} : m.tasks.get? id = none →
      CancelLoop reason m stack m' → CancelLoop reason m (stack ++ [id]) m'
  | skip {m m' : ClusterMaster} {stack : List TaskId} {id : TaskId} {r : Ref} :
      m.tasks.get? id = some r → isCancellable (m.objects r) = false →
      CancelLoop reason m stack m' → CancelLoop reason m (stack ++ [id]) m'
  | cancel {m m' : ClusterMaster} {stack : List TaskId} {id : TaskId} {r : Ref} :
      m.tasks.get? id = some r → isCancellable (m.objects r) = true →
      CancelLoop reason (m.cancelOne r reason) (stack ++ (m.objects r).subTasks) m' →
      CancelLoop reason m (stack ++ [id]) m'

def taskGraph (m : ClusterMaster) : NamedGraph TaskId Ref where
  node? := m.tasks.get?
  live r := isCancellable (m.objects r)
  children r := (m.objects r).subTasks

/-- A pending or running task reached from `id` through sub-tasks. -/
def Doomed (m : ClusterMaster) (id : TaskId) (x : Ref) : Prop :=
  isCancellable (m.objects x) = true ∧
    ∃ c, m.taskGraph.whole.Meets [id] c ∧ m.tasks.get? c = some x

/-- The same, through sub-tasks of pending and running tasks only. -/
def Reached (m : ClusterMaster) (id : TaskId) (x : Ref) : Prop :=
  isCancellable (m.objects x) = true ∧ ∃ c, m.taskGraph.Meets [id] c ∧ m.tasks.get? c = some x

def Keyed (m : ClusterMaster) : Prop :=
  ∀ id r, m.tasks.get? id = some r → (m.objects r).taskId = id

/-- The state `m'` is `m` with all pending and running tasks below `id` cancelled. -/
structure CancelledBelow (m m' : ClusterMaster) (id : TaskId) : Prop where
  cancelled : ∀ x, m.Doomed id x → (m'.objects x).status = .cancelled ∧
    (m'.objects x).assignedNodes = [] ∧
    ∀ q ∈ m'.pendingQueue ++ m'.pendingRetry, (m'.objects q).taskId ≠ (m'.objects x).taskId
  released : ∃ l : List Ref, l.Nodup ∧ (∀ x, x ∈ l ↔ m.Doomed id x) ∧
    m'.nodes = releaseNodes m.nodes (l.flatMap fun x => (m.objects x).assignedNodes)
  others : m'.tasks = m.tasks ∧ ∀ x, ¬m.Doomed id x → m'.objects x = m.objects x
  waiting : m'.pendingQueue.Sublist m.pendingQueue ∧ m'.pendingRetry.Sublist m.pendingRetry ∧
    ∀ q, (∀ x, m.Doomed id x → (m.objects q).taskId ≠ (m.objects x).taskId) →
      (q ∈ m.pendingQueue → q ∈ m'.pendingQueue) ∧ (q ∈ m.pendingRetry → q ∈ m'.pendingRetry)
  stored : m'.store.writes.get? m.store.nextWrite = some (.opened m'.taskSnapshot) ∧
    m'.frames.get? m.nextFrame = some (.cancelling m.store.nextWrite) ∧
    ∀ d ∈ m'.taskSnapshot, ∀ x, m.Doomed id x → d.taskId ≠ (m.objects x).taskId

/-- The call cancels all that is below `id`, or returns `False` and changes nothing. -/
def CancelCloses (m : ClusterMaster) (id : TaskId) (reason : String) : Prop :=
  (m.cancelAnswer id = true → m.CancelledBelow (m.cancelTask id reason true) id) ∧
    (m.cancelAnswer id = false → m.cancelTask id reason true = m)

/-- No ended task cuts off what is to be cancelled, and none of that waits for a retry. -/
def WithinReach (m : ClusterMaster) (id : TaskId) : Prop :=
  ∀ x, m.Doomed id x → m.Reached id x ∧
    ∀ q ∈ m.pendingRetry, (m.objects q).taskId ≠ (m.objects x).taskId

def cancelAll (m : ClusterMaster) (reason : String) (l : List Ref) : ClusterMaster :=
  l.foldl (fun s r => s.cancelOne r reason) m

def cancelledSub (t : ClusterTask) (reason : String) : ClusterTask :=
  { t with
    assignedNodes := []
    status := .cancelled
    cancelReason := reason
    error := reason }

theorem cancelAll_cons (m : ClusterMaster) (reason : String) (r : Ref) (l : List Ref) :
    m.cancelAll reason (r::l) = (m.cancelOne r reason).cancelAll reason l := rfl

theorem cancelAll_concat (m : ClusterMaster) (reason : String) (l : List Ref) (r : Ref) :
    m.cancelAll reason (l ++ [r]) = (m.cancelAll reason l).cancelOne r reason := by
  unfold cancelAll
  rw [List.foldl_append]
  rfl

theorem objects_cancelOne (m : ClusterMaster) (r : Ref) (reason : String) (x : Ref) :
    (m.cancelOne r reason).objects x =
      if x = r then cancelledSub (m.objects r) reason else m.objects x :=
  Function.update_apply ..

theorem taskId_cancelOne (m : ClusterMaster) (r : Ref) (reason : String) (x : Ref) :
    ((m.cancelOne r reason).objects x).taskId = (m.objects x).taskId := by
  rw [objects_cancelOne]
  split_ifs with hx
  · rw [hx]
    rfl
  · rfl

theorem objects_cancelAll (m : ClusterMaster) (reason : String) (l : List Ref) (x : Ref) :
    (m.cancelAll reason l).objects x =
      if x ∈ l then cancelledSub (m.objects x) reason else m.objects x := by
  induction l generalizing m with
  | nil => rfl
  | cons r l ih =>
    rw [cancelAll_cons,ih,objects_cancelOne]
    by_cases hx : x = r
    · subst hx
      simp [cancelledSub]
    · simp [hx]

theorem cancelAll_rest (m : ClusterMaster) (reason : String) (l : List Ref) :
    (m.cancelAll reason l).tasks = m.tasks ∧ (m.cancelAll reason l).pendingRetry = m.pendingRetry ∧
      (m.cancelAll reason l).store = m.store ∧ (m.cancelAll reason l).frames = m.frames ∧
      (m.cancelAll reason l).nextFrame = m.nextFrame := by
  induction l generalizing m with
  | nil => exact ⟨rfl,rfl,rfl,rfl,rfl⟩
  | cons r l ih => exact ih (m.cancelOne r reason)

theorem releaseNodes_append (nodes : Dict NodeId NodeInfo) (l l' : List NodeId) :
    releaseNodes nodes (l ++ l') = releaseNodes (releaseNodes nodes l) l' := by
  induction l generalizing nodes with
  | nil => rfl
  | cons n l ih => exact ih _

theorem nodes_cancelAll (m : ClusterMaster) (reason : String) {l : List Ref} (hl : l.Nodup) :
    (m.cancelAll reason l).nodes =
      releaseNodes m.nodes (l.flatMap fun x => (m.objects x).assignedNodes) := by
  induction l generalizing m with
  | nil => rfl
  | cons r l ih =>
    obtain ⟨hr,hl⟩ := List.nodup_cons.mp hl
    have hsame : (l.flatMap fun x => ((m.cancelOne r reason).objects x).assignedNodes) =
        l.flatMap fun x => (m.objects x).assignedNodes := by
      refine List.flatMap_congr fun x hx => ?_
      rw [objects_cancelOne,if_neg fun h : x = r => hr (h ▸ hx)]
    rw [cancelAll_cons,ih _ hl,hsame,List.flatMap_cons,releaseNodes_append]
    rfl

theorem pendingQueue_cancelAll (m : ClusterMaster) (reason : String) (l : List Ref) :
    (m.cancelAll reason l).pendingQueue = m.pendingQueue.filter fun q =>
      decide (∀ x ∈ l, (m.objects q).taskId ≠ (m.objects x).taskId) := by
  induction l generalizing m with
  | nil => simp [cancelAll]
  | cons r l ih =>
    rw [cancelAll_cons,ih]
    simp only [taskId_cancelOne]
    show (m.pendingQueue.filter _).filter _ = _
    rw [List.filter_filter]
    refine List.filter_congr fun q _ => ?_
    simp [Bool.and_comm]

theorem isCancellable_cancelAll (m : ClusterMaster) (reason : String) (l : List Ref) (x : Ref) :
    isCancellable ((m.cancelAll reason l).objects x) = true ↔
      isCancellable (m.objects x) = true ∧ x ∉ l := by
  rw [objects_cancelAll]
  split_ifs with hx
  · simp [isCancellable,cancelledSub,hx]
  · simp [hx]

theorem subTasks_cancelAll (m : ClusterMaster) (reason : String) (l : List Ref) (x : Ref) :
    ((m.cancelAll reason l).objects x).subTasks = (m.objects x).subTasks := by
  rw [objects_cancelAll]
  split_ifs <;> rfl

theorem CancelLoop.of_walk {marked out : List Ref} {stack : List TaskId}
    (h : m.taskGraph.Walk marked stack out) :
    CancelLoop reason (m.cancelAll reason marked) stack (m.cancelAll reason out) := by
  have htasks : ∀ l, (m.cancelAll reason l).tasks = m.tasks := fun l =>
    (cancelAll_rest m reason l).1
  induction h with
  | done marked => exact .done _
  | @missing marked out stack k hk _ ih => exact .missing (by rw [htasks]; exact hk) ih
  | @skip marked out stack k r hk hmarked _ ih =>
    refine .skip (by rw [htasks]; exact hk) ?_ ih
    rw [Bool.eq_false_iff]
    intro hlive
    obtain ⟨hlive,hr⟩ := (isCancellable_cancelAll m reason marked r).mp hlive
    exact hr (hmarked hlive)
  | @mark marked out stack k r hk hlive hr _ ih =>
    refine .cancel (by rw [htasks]; exact hk)
      ((isCancellable_cancelAll m reason marked r).mpr ⟨hlive,hr⟩) ?_
    rw [subTasks_cancelAll,← cancelAll_concat]
    exact ih

theorem cancelSubTasks_cancelAll (m : ClusterMaster) (reason : String) (fuel : ℕ)
    (marked : List Ref) (stack : List TaskId) :
    (m.cancelAll reason marked).cancelSubTasks reason fuel stack =
      m.cancelAll reason (m.taskGraph.walk fuel marked stack) := by
  induction fuel generalizing marked stack with
  | zero => rfl
  | succ fuel ih =>
    have htasks : (m.cancelAll reason marked).tasks = m.tasks := (cancelAll_rest m reason marked).1
    unfold cancelSubTasks NamedGraph.walk
    rw [htasks]
    cases stack.getLast? with
    | none => rfl
    | some k =>
      have hnode : m.taskGraph.node? k = m.tasks.get? k := rfl
      simp only [hnode]
      cases m.tasks.get? k with
      | none => exact ih _ _
      | some r =>
        have hcan := isCancellable_cancelAll m reason marked r
        by_cases h : isCancellable (m.objects r) = true ∧ r ∉ marked
        · simp only [hcan.mpr h,if_true]
          rw [if_pos (show m.taskGraph.live r = true ∧ r ∉ marked from h),subTasks_cancelAll,
            ← cancelAll_concat]
          exact ih _ _
        · simp only [if_neg fun h' => h (hcan.mp h')]
          rw [if_neg (show ¬(m.taskGraph.live r = true ∧ r ∉ marked) from h)]
          exact ih _ _

theorem taskGraph_cancelEntry (m : ClusterMaster) (id : TaskId) (r : Ref) (reason : String) :
    (m.cancelEntry id r reason).taskGraph = m.taskGraph := by
  have hobj : ∀ x, isCancellable ((m.cancelEntry id r reason).objects x) =
      isCancellable (m.objects x) ∧
      ((m.cancelEntry id r reason).objects x).subTasks = (m.objects x).subTasks := by
    intro x
    by_cases hx : x = r
    · subst hx
      simp [cancelEntry,modifyTask,releaseTask,isCancellable]
    · simp [cancelEntry,modifyTask,releaseTask,hx]
  unfold taskGraph
  congr 1
  · funext x
    exact (hobj x).1
  · funext x
    exact (hobj x).2

theorem load_lt_cancelFuel (m : ClusterMaster) (stack : List TaskId) :
    m.taskGraph.load m.tasks.values [] stack < m.cancelFuel stack := by
  have hle : ∀ l : List Ref, ((l.filter fun r => m.taskGraph.live r && !([] : List Ref).contains r).map
      fun r => (m.taskGraph.children r).length).sum ≤
        (l.map fun r => (m.objects r).subTasks.length).sum := by
    intro l
    exact List.Sublist.sum_le_sum (List.filter_sublist.map _) fun _ _ => Nat.zero_le _
  have := hle m.tasks.values
  unfold NamedGraph.load cancelFuel
  omega

theorem objects_cancelEntry (m : ClusterMaster) (id : TaskId) (r : Ref) (reason : String) (x : Ref) :
    (m.cancelEntry id r reason).objects x = if x = r then
      { m.objects r with
        cancelReason := if reason = "" then "用户取消" else reason
        assignedNodes := [] } else m.objects x :=
  Function.update_apply ..

theorem objects_cancelExit (m : ClusterMaster) (r : Ref) (w : ℕ) (x : Ref) :
    (m.cancelExit r w).objects x = if x = r then
      { m.objects r with status := .cancelled, error := (m.objects r).cancelReason } else m.objects x :=
  Function.update_apply ..

theorem taskId_cancelEntry (m : ClusterMaster) (id : TaskId) (r : Ref) (reason : String) (x : Ref) :
    ((m.cancelEntry id r reason).objects x).taskId = (m.objects x).taskId := by
  rw [objects_cancelEntry]
  by_cases hx : x = r
  · rw [if_pos hx,hx]
  · rw [if_neg hx]

/-- The sub-tasks that the loop of the call cancels, in their order. -/
def cancelledSubs (m : ClusterMaster) (r : Ref) : List Ref :=
  m.taskGraph.walk (m.cancelFuel (m.objects r).subTasks) [] (m.objects r).subTasks

theorem walk_cancelledSubs (m : ClusterMaster) (r : Ref) :
    m.taskGraph.Walk [] (m.objects r).subTasks (m.cancelledSubs r) :=
  NamedGraph.walk_ends (fun _ _ h => Dict.mem_values_iff.mpr ⟨_,h⟩) (load_lt_cancelFuel m _)

def cancelledTree (m : ClusterMaster) (id : TaskId) (r : Ref) (reason : String) : ClusterMaster :=
  (m.cancelEntry id r reason).cancelAll ("父任务取消: " ++ id) (m.cancelledSubs r)

theorem cancelLoop_ends (m : ClusterMaster) (id : TaskId) (r : Ref) (reason : String) :
    CancelLoop ("父任务取消: " ++ id) (m.cancelEntry id r reason) (m.objects r).subTasks
      (m.cancelledTree id r reason) := by
  have hwalk := walk_cancelledSubs m r
  rw [← taskGraph_cancelEntry m id r reason] at hwalk
  exact CancelLoop.of_walk hwalk

theorem cancelTask_eq (hr : m.tasks.get? id = some r) (hlive : isCancellable (m.objects r) = true) :
    m.cancelTask id reason true =
      (m.cancelledTree id r reason).cancelExit r m.store.nextWrite := by
  have hloop := cancelSubTasks_cancelAll (m.cancelEntry id r reason) ("父任务取消: " ++ id)
    (m.cancelFuel (m.objects r).subTasks) [] (m.objects r).subTasks
  rw [taskGraph_cancelEntry] at hloop
  unfold cancelTask
  simp only [hr,hlive,if_true]
  exact congrArg (fun s : ClusterMaster => s.cancelExit r m.store.nextWrite) hloop

theorem cancelTask_of_false (h : m.cancelAnswer id = false) : m.cancelTask id reason true = m := by
  unfold cancelTask
  cases hr : m.tasks.get? id with
  | none => rfl
  | some r =>
    have hlive : isCancellable (m.objects r) = false := by
      simpa [cancelAnswer,task?,hr] using h
    simp [hlive]

theorem of_cancelAnswer (h : m.cancelAnswer id = true) :
    ∃ r, m.tasks.get? id = some r ∧ isCancellable (m.objects r) = true := by
  unfold cancelAnswer task? at h
  cases hr : m.tasks.get? id with
  | none => simp [hr] at h
  | some r => exact ⟨r,rfl,by simpa [hr] using h⟩

/-- The tasks reached are the task itself and the sub-tasks that the loop cancels. -/
theorem reached_iff (hr : m.tasks.get? id = some r) (hlive : isCancellable (m.objects r) = true) :
    m.Reached id x ↔ x = r ∨ x ∈ m.cancelledSubs r := by
  rw [(walk_cancelledSubs m r).mem_iff]
  constructor
  · rintro ⟨hx,c,hc,hcx⟩
    have hcases : c = id ∨ m.taskGraph.Meets (m.objects r).subTasks c := by
      clear hcx
      induction hc with
      | root hc => exact Or.inl (List.mem_singleton.mp hc)
      | @child k c y _ hy hy' hc ih =>
        rcases ih with rfl | ih
        · obtain rfl := Option.some.inj (hr.symm.trans hy)
          exact Or.inr (.root hc)
        · exact Or.inr (.child ih hy hy' hc)
    rcases hcases with rfl | hcases
    · exact Or.inl (Option.some.inj (hcx.symm.trans hr))
    · exact Or.inr ⟨hx,c,hcases,hcx⟩
  · have hroot : m.taskGraph.Meets [id] id := .root (List.mem_singleton_self id)
    rintro (rfl | ⟨hx,c,hc,hcx⟩)
    · exact ⟨hlive,id,hroot,hr⟩
    · refine ⟨hx,c,?_,hcx⟩
      clear hcx
      induction hc with
      | root hc => exact .child hroot hr hlive hc
      | child _ hy hy' hc ih => exact .child ih hy hy' hc

theorem Reached.doomed (h : m.Reached id x) : m.Doomed id x := by
  obtain ⟨hx,c,hc,hcx⟩ := h
  exact ⟨hx,c,hc.whole,hcx⟩

theorem taskId_cancelTask (reason : String) (hr : m.tasks.get? id = some r)
    (hlive : isCancellable (m.objects r) = true) (x : Ref) :
    ((m.cancelTask id reason true).objects x).taskId = (m.objects x).taskId := by
  have hsub : ((m.cancelledTree id r reason).objects x).taskId = (m.objects x).taskId := by
    rw [cancelledTree,objects_cancelAll,← taskId_cancelEntry m id r reason x]
    split_ifs <;> rfl
  rw [cancelTask_eq hr hlive,objects_cancelExit,← hsub]
  split_ifs with hx
  · rw [hx]
  · rfl

theorem objects_of_reached (reason : String) (hr : m.tasks.get? id = some r)
    (hlive : isCancellable (m.objects r) = true) (hx : m.Reached id x) :
    ((m.cancelTask id reason true).objects x).status = .cancelled ∧
      ((m.cancelTask id reason true).objects x).assignedNodes = [] := by
  rw [cancelTask_eq hr hlive,objects_cancelExit]
  by_cases hxr : x = r
  · rw [if_pos hxr]
    refine ⟨rfl,?_⟩
    show ((m.cancelledTree id r reason).objects r).assignedNodes = []
    rw [cancelledTree,objects_cancelAll,objects_cancelEntry,if_pos rfl]
    by_cases hr' : r ∈ m.cancelledSubs r
    · rw [if_pos hr']
      rfl
    · rw [if_neg hr']
  · rw [if_neg hxr,cancelledTree,objects_cancelAll,
      if_pos (((reached_iff hr hlive).mp hx).resolve_left hxr)]
    exact ⟨rfl,rfl⟩

theorem objects_of_not_reached (reason : String) (hr : m.tasks.get? id = some r)
    (hlive : isCancellable (m.objects r) = true) (hx : ¬m.Reached id x) :
    (m.cancelTask id reason true).objects x = m.objects x := by
  rw [reached_iff hr hlive,not_or] at hx
  rw [cancelTask_eq hr hlive,objects_cancelExit,if_neg hx.1,cancelledTree,objects_cancelAll,
    if_neg hx.2,objects_cancelEntry,if_neg hx.1]

theorem tasks_cancelledTree (m : ClusterMaster) (id : TaskId) (r : Ref) (reason : String) :
    (m.cancelledTree id r reason).tasks = m.tasks ∧
      (m.cancelledTree id r reason).pendingRetry = m.pendingRetry ∧
      (m.cancelledTree id r reason).store = m.store ∧
      (m.cancelledTree id r reason).frames = m.frames ∧
      (m.cancelledTree id r reason).nextFrame = m.nextFrame :=
  cancelAll_rest (m.cancelEntry id r reason) _ _

theorem retry_cancelTask (reason : String) (hr : m.tasks.get? id = some r)
    (hlive : isCancellable (m.objects r) = true) :
    (m.cancelTask id reason true).tasks = m.tasks ∧
      (m.cancelTask id reason true).pendingRetry = m.pendingRetry := by
  rw [cancelTask_eq hr hlive]
  obtain ⟨htasks,hretry,-⟩ := tasks_cancelledTree m id r reason
  exact ⟨htasks,hretry⟩

theorem queue_cancelTask (reason : String) (hk : m.Keyed) (hr : m.tasks.get? id = some r)
    (hlive : isCancellable (m.objects r) = true) :
    (m.cancelTask id reason true).pendingQueue.Sublist m.pendingQueue ∧
      ∀ q, q ∈ (m.cancelTask id reason true).pendingQueue ↔ q ∈ m.pendingQueue ∧
        ∀ x, m.Reached id x → (m.objects q).taskId ≠ (m.objects x).taskId := by
  have hid : (m.objects r).taskId = id := hk id r hr
  have hqueue : (m.cancelTask id reason true).pendingQueue =
      (m.pendingQueue.filter fun q => decide ((m.objects q).taskId ≠ id)).filter fun q =>
        decide (∀ x ∈ m.cancelledSubs r, (m.objects q).taskId ≠ (m.objects x).taskId) := by
    rw [cancelTask_eq hr hlive]
    show (m.cancelledTree id r reason).pendingQueue = _
    rw [cancelledTree,pendingQueue_cancelAll]
    simp only [taskId_cancelEntry]
    rfl
  rw [hqueue]
  refine ⟨List.filter_sublist.trans List.filter_sublist,fun q => ?_⟩
  simp only [List.mem_filter,decide_eq_true_iff]
  constructor
  · rintro ⟨⟨hq,hroot⟩,hsubs⟩
    refine ⟨hq,fun x hx => ?_⟩
    rcases (reached_iff hr hlive).mp hx with rfl | hx
    · rw [hid]
      exact hroot
    · exact hsubs x hx
  · rintro ⟨hq,hall⟩
    refine ⟨⟨hq,?_⟩,fun x hx => hall x ((reached_iff hr hlive).mpr (Or.inr hx))⟩
    rw [← hid]
    exact hall r ((reached_iff hr hlive).mpr (Or.inl rfl))

theorem flatMap_cancelEntry (m : ClusterMaster) (id : TaskId) (r : Ref) (reason : String)
    (l : List Ref) :
    (l.flatMap fun x => ((m.cancelEntry id r reason).objects x).assignedNodes) =
      (l.filter fun x => decide (x ≠ r)).flatMap fun x => (m.objects x).assignedNodes := by
  induction l with
  | nil => rfl
  | cons x l ih =>
    rw [List.flatMap_cons,ih,objects_cancelEntry]
    by_cases hx : x = r
    · simp [hx]
    · simp [hx]

theorem nodes_cancelTask (reason : String) (hr : m.tasks.get? id = some r)
    (hlive : isCancellable (m.objects r) = true) :
    ∃ l : List Ref, l.Nodup ∧ (∀ x, x ∈ l ↔ m.Reached id x) ∧
      (m.cancelTask id reason true).nodes =
        releaseNodes m.nodes (l.flatMap fun x => (m.objects x).assignedNodes) := by
  have hnodup : (m.cancelledSubs r).Nodup := (walk_cancelledSubs m r).nodup List.nodup_nil
  refine ⟨r::(m.cancelledSubs r).filter fun x => decide (x ≠ r),?_,fun x => ?_,?_⟩
  · exact List.nodup_cons.mpr ⟨by simp,hnodup.filter _⟩
  · rw [reached_iff hr hlive,List.mem_cons,List.mem_filter,decide_eq_true_iff]
    by_cases hx : x = r <;> simp [hx]
  · rw [cancelTask_eq hr hlive,List.flatMap_cons,releaseNodes_append]
    show (m.cancelledTree id r reason).nodes = _
    rw [cancelledTree,nodes_cancelAll _ _ hnodup,flatMap_cancelEntry]
    rfl

theorem stored_cancelTask (reason : String) (hr : m.tasks.get? id = some r)
    (hlive : isCancellable (m.objects r) = true) :
    (m.cancelTask id reason true).store.writes.get? m.store.nextWrite =
        some (.opened (m.cancelTask id reason true).taskSnapshot) ∧
      (m.cancelTask id reason true).frames.get? m.nextFrame =
        some (.cancelling m.store.nextWrite) := by
  obtain ⟨-,-,hstore,hframes,hnext⟩ := tasks_cancelledTree m id r reason
  rw [cancelTask_eq hr hlive]
  set s := m.cancelledTree id r reason
  constructor
  · show ((s.modifyTask r _).store.writes.set (s.modifyTask r _).store.nextWrite _).get? _ = _
    rw [show (s.modifyTask r fun t =>
      { t with status := .cancelled, error := t.cancelReason }).store = s.store from rfl,hstore,
      Dict.get?_set,if_pos rfl]
    rfl
  · show (s.frames.set s.nextFrame _).get? _ = _
    rw [hframes,hnext,Dict.get?_set,if_pos rfl]

/-- What the snapshot has under the id of a task reached, it would have of a task cancelled. -/
theorem snapshot_cancelTask (hk : m.Keyed) (hr : m.tasks.get? id = some r)
    (hlive : isCancellable (m.objects r) = true) {d : TaskRecord}
    (hd : d ∈ (m.cancelTask id reason true).taskSnapshot) (hx : m.Reached id x) :
    d.taskId ≠ (m.objects x).taskId := by
  intro heq
  obtain ⟨y,hy,rfl⟩ := List.mem_map.mp hd
  obtain ⟨hy,hstatus⟩ := List.mem_filter.mp hy
  rw [(retry_cancelTask reason hr hlive).1] at hy
  obtain ⟨k,hky⟩ := Dict.mem_values_iff.mp hy
  have hcx := hx.2
  obtain ⟨c,-,hcx⟩ := hcx
  have heq' : (m.objects y).taskId = (m.objects x).taskId :=
    (taskId_cancelTask reason hr hlive y).symm.trans heq
  rw [hk k y hky,hk c x hcx] at heq'
  subst heq'
  obtain rfl := Option.some.inj (hky.symm.trans hcx)
  rw [(objects_of_reached reason hr hlive hx).1] at hstatus
  simp [isTerminalForStore] at hstatus

/-- The loop of `cancel_task` ends on every graph of sub-tasks, and the call cancels all that is
pending or running below a task if and only if no ended task cuts any of it off and none of it
stands in the retry list. -/
theorem cancel_closes_iff (m : ClusterMaster) (id : TaskId) (reason : String) (hk : m.Keyed) :
    (∀ r, m.tasks.get? id = some r → ∃ s : ClusterMaster,
      CancelLoop ("父任务取消: " ++ id) (m.cancelEntry id r reason) (m.objects r).subTasks s ∧
        (m.cancelAnswer id = true →
          m.cancelTask id reason true = s.cancelExit r m.store.nextWrite)) ∧
      (m.CancelCloses id reason ↔ (m.cancelAnswer id = true → m.WithinReach id)) := by
  refine ⟨fun r hr => ⟨_,cancelLoop_ends m id r reason,fun h => ?_⟩,fun h hanswer x hx => ?_,fun h => ?_⟩
  · obtain ⟨r',hr',hlive⟩ := of_cancelAnswer h
    obtain rfl := Option.some.inj (hr.symm.trans hr')
    exact cancelTask_eq hr hlive
  · obtain ⟨r,hr,hlive⟩ := of_cancelAnswer hanswer
    have hclosed := h.1 hanswer
    obtain ⟨hstatus,-,hwaits⟩ := hclosed.cancelled x hx
    refine ⟨by_contra fun hnot => ?_,fun q hq => ?_⟩
    · rw [objects_of_not_reached reason hr hlive hnot] at hstatus
      have hcan := hx.1
      simp [isCancellable,hstatus] at hcan
    · have hq' : q ∈ (m.cancelTask id reason true).pendingRetry := by
        rw [(retry_cancelTask reason hr hlive).2]
        exact hq
      have hne := hwaits q (List.mem_append_right _ hq')
      rwa [taskId_cancelTask reason hr hlive,taskId_cancelTask reason hr hlive] at hne
  · refine ⟨fun hanswer => ?_,cancelTask_of_false⟩
    obtain ⟨r,hr,hlive⟩ := of_cancelAnswer hanswer
    have hwithin := h hanswer
    have hreached : ∀ x, m.Doomed id x ↔ m.Reached id x := fun x =>
      ⟨fun hx => (hwithin x hx).1,Reached.doomed⟩
    have htaskId := taskId_cancelTask reason hr hlive
    obtain ⟨hsublist,hqueue⟩ := queue_cancelTask reason hk hr hlive
    obtain ⟨htasks,hretry⟩ := retry_cancelTask reason hr hlive
    obtain ⟨l,hnodup,hmem,hnodes⟩ := nodes_cancelTask reason hr hlive
    obtain ⟨hwrite,hframe⟩ := stored_cancelTask reason hr hlive
    refine ⟨fun x hx => ?_,⟨l,hnodup,fun x => (hmem x).trans (hreached x).symm,hnodes⟩,
      ⟨htasks,fun x hx => ?_⟩,⟨hsublist,?_,fun q hq => ?_⟩,hwrite,hframe,fun d hd x hx => ?_⟩
    · obtain ⟨hstatus,hempty⟩ := objects_of_reached reason hr hlive ((hreached x).mp hx)
      refine ⟨hstatus,hempty,fun q hq => ?_⟩
      rw [htaskId,htaskId]
      rcases List.mem_append.mp hq with hq | hq
      · exact ((hqueue q).mp hq).2 x ((hreached x).mp hx)
      · rw [hretry] at hq
        exact (hwithin x hx).2 q hq
    · exact objects_of_not_reached reason hr hlive fun h => hx h.doomed
    · rw [hretry]
    · refine ⟨fun hq' => (hqueue q).mpr ⟨hq',fun x hx => hq x hx.doomed⟩,fun hq' => ?_⟩
      rw [hretry]
      exact hq'
    · exact snapshot_cancelTask hk hr hlive hd ((hreached x).mp hx)

/-- A master that runs `t1` and `t3`; between them stands `t2`. -/
def threeTasks (middle : TaskStatus) : ClusterMaster :=
  { create defaultConfig HaState.create with
    objects := fun
      | 0 => { plainTask "t1" with status := .running, subTasks := ["t2"] }
      | 1 => { plainTask "t2" with status := middle, subTasks := ["t3"] }
      | _ => { plainTask "t3" with status := .running }
    tasks := (((∅ : Dict TaskId Ref).set "t1" 0).set "t2" 1).set "t3" 2 }

theorem keyed_threeTasks (middle : TaskStatus) : (threeTasks middle).Keyed := by
  have hall : ∀ p ∈ (threeTasks middle).tasks.entries,
      ((threeTasks middle).objects p.2).taskId = p.1 := by
    intro p hp
    have hp' : p ∈ [("t1",0),("t2",1),("t3",2)] := hp
    simp only [List.mem_cons,List.not_mem_nil,or_false] at hp'
    rcases hp' with rfl | rfl | rfl <;> rfl
  exact fun id r hr => hall (id,r) (Dict.get?_eq_some_iff.mp hr)

theorem cancel_closes_chain : (threeTasks .pending).CancelCloses "t1" "" :=
  (cancel_closes_iff (threeTasks .pending) "t1" "" (keyed_threeTasks .pending)).2.mpr
    fun _ x hx => by
      have hmeets : ∀ c ∈ ["t1","t2","t3"], (threeTasks .pending).taskGraph.Meets ["t1"] c := by
        have h₁ : (threeTasks .pending).taskGraph.Meets ["t1"] "t1" := .root (by decide)
        have h₂ : (threeTasks .pending).taskGraph.Meets ["t1"] "t2" :=
          .child h₁ (r := 0) (by decide) (by decide) (by decide)
        have h₃ : (threeTasks .pending).taskGraph.Meets ["t1"] "t3" :=
          .child h₂ (r := 1) (by decide) (by decide) (by decide)
        simp [h₁,h₂,h₃]
      obtain ⟨hlive,c,-,hcx⟩ := hx
      have hc : c ∈ ["t1","t2","t3"] := Dict.mem_keys_iff.mpr ⟨x,hcx⟩
      exact ⟨⟨hlive,c,hmeets c hc,hcx⟩,fun q hq => (List.not_mem_nil hq).elim⟩

/-- Behind a task that has completed the last one goes on running. -/
theorem ended_task_cuts_off : ¬(threeTasks .completed).CancelCloses "t1" "" := by
  intro h
  have hmeets : (threeTasks .completed).taskGraph.whole.Meets ["t1"] "t3" := by
    have h₁ : (threeTasks .completed).taskGraph.whole.Meets ["t1"] "t1" := .root (by decide)
    have h₂ : (threeTasks .completed).taskGraph.whole.Meets ["t1"] "t2" :=
      .child h₁ (r := 0) (by decide) rfl (by decide)
    exact .child h₂ (r := 1) (by decide) rfl (by decide)
  have hdoomed : (threeTasks .completed).Doomed "t1" 2 :=
    ⟨by decide,"t3",hmeets,by decide⟩
  have hstatus := ((h.1 (by decide)).cancelled 2 hdoomed).1
  exact absurd hstatus (by decide)

end ClusterMaster
end FusionMultiNodes
