import FusionMultiNodes.Master.FrameSteps
import FusionMultiNodes.Master.SingleHolder
import FusionMultiNodes.Master.TaskSteps

/-! The order of the priority queue, its tasks and its bound. -/
namespace FusionMultiNodes

namespace ClusterMaster

/-- The step of `assign_task` comes to an `_enqueue_pending` that is not forced. -/
def queues (m : ClusterMaster) (r : Ref) (now : ℚ) : AssignPc → Bool
  | .quota =>
    let t := m.objects r
    let limit := m.tenantLimitFor t.user
    !m.isRunning t.taskId && decide (0 < limit ∧ limit ≤ m.runningCountForUser t.user) &&
      !m.isQueued t.taskId
  | .enqueueShort => !m.isQueued (m.objects r).taskId
  | .confirm requiredMem selected =>
    let t := m.objects r
    !m.isRunning t.taskId &&
      (decide (m.looksForBackup t selected = true ∧ t.pinnedNodeId ≠ "") ||
        decide ((m.confirmedNodes t requiredMem selected now).length < t.need))
  | _ => false

/-- The drain puts back a task for which there was no room. -/
def forces (pc : AssignPc) (k : Caller) : Bool := decide (pc = .returned false) && k.isDrain

/-- The step of `assign_task`, or of the drain that called it, puts the task into the queue. -/
def puts (m : ClusterMaster) (r : Ref) (now : ℚ) (pc : AssignPc) (k : Caller) : Bool :=
  (m.queues r now pc && decide (m.pendingQueue.length < m.maxPendingQueue)) || forces pc k

def queueWith (m : ClusterMaster) (r : Ref) : List Ref :=
  insertByPriority (fun q => (m.objects q).priority) r m.pendingQueue

variable {m m' : ClusterMaster} {r : Ref} {now : ℚ} {cid : ℕ} {pc : AssignPc} {k : Caller}
  {ev : MasterEvent}

theorem pendingQueue_enqueuePending (m : ClusterMaster) (r : Ref) :
    (m.enqueuePending r false).1.pendingQueue =
      if m.pendingQueue.length < m.maxPendingQueue then m.queueWith r else m.pendingQueue := by
  unfold enqueuePending
  by_cases hroom : m.pendingQueue.length < m.maxPendingQueue
  · rw [if_pos hroom,if_neg fun h => absurd hroom (not_lt.mpr h.2)]
    rfl
  · rw [if_neg hroom,if_pos ⟨rfl,not_lt.mp hroom⟩]

theorem maxPendingQueue_dropExpiredBans (m : ClusterMaster) (exclude : List NodeId) (now : ℚ) :
    (m.dropExpiredBans exclude now).maxPendingQueue = m.maxPendingQueue := by
  unfold dropExpiredBans
  generalize m.nodes.values.filter (isFree exclude) = l
  induction l generalizing m with
  | nil => rfl
  | cons n l ih =>
    refine (ih _).trans ?_
    simp only [dropExpiredBan]
    split_ifs <;> rfl

theorem pendingQueue_assignConfirm (m : ClusterMaster) (r : Ref) (requiredMem : ℚ)
    (selected : List NodeId) (now : ℚ) :
    (m.assignConfirm r requiredMem selected now).1.pendingQueue =
      if m.queues r now (.confirm requiredMem selected) = true ∧
        m.pendingQueue.length < m.maxPendingQueue then m.queueWith r else m.pendingQueue := by
  have hbans : ∀ s : ClusterMaster, s = (if m.looksForBackup (m.objects r) selected = true then
      m.dropExpiredBans (selected.filter m.hasFreeSlot ++ (m.objects r).excludeNodes) now
      else m) → s.pendingQueue = m.pendingQueue ∧ s.objects = m.objects ∧
        s.maxPendingQueue = m.maxPendingQueue := by
    rintro s rfl
    split_ifs
    · have hstill := (onlyBans_dropExpiredBans m
        (selected.filter m.hasFreeSlot ++ (m.objects r).excludeNodes) now).quiet.still
      exact ⟨hstill.pendingQueue,hstill.objects,maxPendingQueue_dropExpiredBans m _ now⟩
    · exact ⟨rfl,rfl,rfl⟩
  simp only [assignConfirm,queues]
  by_cases hrun : m.isRunning (m.objects r).taskId = true
  · simp [hrun]
  · rw [if_neg hrun]
    by_cases hpinned : m.looksForBackup (m.objects r) selected = true ∧
        (m.objects r).pinnedNodeId ≠ ""
    · rw [if_pos hpinned,pendingQueue_enqueuePending]
      simp [hrun,hpinned]
    · rw [if_neg hpinned]
      generalize hs : (if m.looksForBackup (m.objects r) selected = true then
        m.dropExpiredBans (selected.filter m.hasFreeSlot ++ (m.objects r).excludeNodes) now
        else m) = s
      obtain ⟨hqueue,hobjects,hmax⟩ := hbans s hs.symm
      by_cases hshort : (m.confirmedNodes (m.objects r) requiredMem selected now).length <
          (m.objects r).need
      · rw [if_pos hshort,pendingQueue_enqueuePending]
        simp [hrun,hshort,queueWith,hqueue,hobjects,hmax]
      · refine Eq.trans ?_ (if_neg (by simp [hpinned,hshort])).symm
        rw [if_neg hshort]
        split_ifs <;> exact hqueue

theorem pendingQueue_assignStep {p : ClusterMaster × AssignPc}
    (h : m.assignStep r now pc = some p) :
    p.1.pendingQueue =
      if m.queues r now pc = true ∧ m.pendingQueue.length < m.maxPendingQueue then m.queueWith r
      else m.pendingQueue := by
  cases pc with
  | guards | localCheck | route | selecting =>
    obtain rfl := Option.some.inj h
    simp [queues,assignRoute,assignSelect]
    try split_ifs <;> rfl
  | quota =>
    obtain rfl := Option.some.inj h
    simp only [assignQuota,queues]
    by_cases hrun : m.isRunning (m.objects r).taskId = true
    · simp [hrun]
    · by_cases hlimit : 0 < m.tenantLimitFor (m.objects r).user ∧
          m.tenantLimitFor (m.objects r).user ≤ m.runningCountForUser (m.objects r).user
      · by_cases hqueued : m.isQueued (m.objects r).taskId = true
        · simp [hrun,hlimit,hqueued]
        · simp [hrun,hlimit,hqueued,pendingQueue_enqueuePending]
      · simp only [hrun,hlimit]
        split_ifs <;> simp_all
  | localCommit =>
    obtain rfl := Option.some.inj h
    simp only [assignLocal,queues]
    split_ifs <;> first | rfl | simp_all
  | enqueueShort =>
    obtain rfl := Option.some.inj h
    simp only [assignShort,queues]
    by_cases hqueued : m.isQueued (m.objects r).taskId = true
    · simp [hqueued]
    · simp [hqueued,pendingQueue_enqueuePending]
  | confirm requiredMem selected =>
    obtain rfl := Option.some.inj h
    exact pendingQueue_assignConfirm m r requiredMem selected now
  | writing w =>
    obtain ⟨-,h⟩ := Option.ite_none_left_eq_some.mp h
    obtain rfl := Option.some.inj h
    simp [queues]
  | trigger =>
    obtain rfl := Option.some.inj h
    simp only [queues,triggerDispatch]
    split_ifs <;> first | rfl | simp_all
  | returned => cases h

theorem pendingQueue_resumeAssign (h : m.resumeAssign cid r k now pc = some m') :
    m'.pendingQueue = if m.puts r now pc k = true then m.queueWith r else m.pendingQueue := by
  rcases resumeAssign_cases h with ⟨ok,rfl,rfl⟩ | ⟨hpc,s,pc',hp,rfl⟩
  · have hretry : ∀ b : Bool, (if b = true then m else m.enqueueRetry r now).pendingQueue =
        m.pendingQueue := by
      intro b
      unfold enqueueRetry
      split_ifs <;> rfl
    cases k with
    | submit => simp [assignReturned,puts,queues,forces,Caller.isDrain,endFrame]
    | drain rest => cases ok <;>
        simp [assignReturned,puts,queues,forces,Caller.isDrain,setFrame,enqueuePending,park,
          queueWith]
    | retry | migrate | degrade =>
      simpa [assignReturned,puts,queues,forces,Caller.isDrain,setFrame,endFrame] using hretry ok
  · have hforces : forces pc k = false := by
      simp only [forces,Bool.and_eq_false_imp,decide_eq_true_eq]
      exact fun hret => absurd hret (hpc false)
    simp only [puts,hforces,Bool.or_false,Bool.and_eq_true,decide_eq_true_eq]
    exact pendingQueue_assignStep hp

/-- The coroutine of `assign_task` that an event resumes. -/
def assigning (m : ClusterMaster) : MasterEvent → Option (Ref × ℚ × AssignPc × Caller)
  | .resume cid now =>
    match m.frames.get? cid with
    | some (.assign r pc k) => some (r,now,pc,k)
    | _ => none
  | _ => none

theorem assigning_eq_some {a : Ref × ℚ × AssignPc × Caller} (h : m.assigning ev = some a) :
    ∃ cid, ev = .resume cid a.2.1 ∧ m.frames.get? cid = some (.assign a.1 a.2.2.1 a.2.2.2) := by
  cases ev with
  | resume cid now =>
    simp only [assigning] at h
    split at h
    · next hf =>
      obtain rfl := Option.some.inj h
      exact ⟨cid,rfl,hf⟩
    · cases h
  | _ => exact nomatch h

theorem assigning_of_frame (hf : m.frames.get? cid = some (.assign r pc k)) :
    m.assigning (.resume cid now) = some (r,now,pc,k) := by
  simp [assigning,hf]

theorem pendingQueue_cancelTask (m : ClusterMaster) (id : TaskId) (reason : String) (subs : Bool) :
    (m.cancelTask id reason subs).pendingQueue.Sublist m.pendingQueue := by
  rcases cancelTask_shape m id reason subs with h | ⟨_,_,_,_,_,hqueue,h⟩ <;> rw [h]
  exact hqueue

theorem pendingQueue_enqueueRetry (m : ClusterMaster) (r : Ref) (now : ℚ) :
    (m.enqueueRetry r now).pendingQueue = m.pendingQueue := by
  unfold enqueueRetry
  split_ifs <;> rfl

theorem pendingQueue_foldl {α : Type} {F : ClusterMaster → α → ClusterMaster}
    (hF : ∀ s a, (F s a).pendingQueue = s.pendingQueue) (l : List α) (m : ClusterMaster) :
    (l.foldl F m).pendingQueue = m.pendingQueue := by
  induction l generalizing m with
  | nil => rfl
  | cons a l ih => exact (ih (F m a)).trans (hF m a)

theorem pendingQueue_dispatch {d : Dispatch} {s : ClusterMaster} (h : DispatchEffect m cid d now s) :
    s.pendingQueue = m.pendingQueue := by
  have hend : ∀ o, (m.endDispatch cid d o).pendingQueue = m.pendingQueue := by
    intro o
    simp only [endDispatch,setPrevOutputs]
    split <;> rfl
  cases h with
  | continues hq => exact hq.still.pendingQueue
  | finalizes =>
    simp only [finalized]
    split_ifs
    · exact pendingQueue_enqueueRetry _ _ now
    · rfl
  | stale => exact hend _
  | done => exact hend _

/-- A step that resumes no `assign_task` adds nothing to the queue. -/
theorem Effect.pendingQueue (h : Effect m ev m') (hassign : m.assigning ev = none)
    (hev : ev.isRestart = false) : m'.pendingQueue.Sublist m.pendingQueue := by
  have hsame : ∀ {s : ClusterMaster}, s.pendingQueue = m.pendingQueue →
      s.pendingQueue.Sublist m.pendingQueue := fun hs => hs ▸ List.Sublist.refl _
  cases h with
  | still hs _ | spawns hs _ _ => exact hsame hs.pendingQueue
  | swaps hq _ _ | replies hq _ _ => exact hsame hq.still.pendingQueue
  | drains => exact List.nil_sublist _
  | skips hf _ _ | refuses _ hf _ | parks _ hf _ | requeues hf | commits _ _ _ hf _ _ | triggers hf
  | retries hf | fallsBack hf _ =>
    exact absurd ((assigning_of_frame hf).symm.trans hassign) (by simp)
  | dispatches _ he => exact hsame (pendingQueue_dispatch he)
  | cancels => exact pendingQueue_cancelTask m _ _ _
  | completes hr =>
    simp only [completeTask,hr]
    exact List.Sublist.refl _
  | migrates hr hs =>
    simp only [migrateTask,hr,hs,if_true]
    exact List.Sublist.refl _
  | degrades hr hs hbudget hsize =>
    simp only [degradeTask,hr,hs,hbudget,hsize,and_self,if_true]
    exact List.Sublist.refl _
  | timesOut =>
    refine hsame (pendingQueue_foldl (fun s r => ?_) _ m)
    unfold timeoutOne
    split_ifs
    · exact pendingQueue_enqueueRetry _ r _
    · rfl
  | @refreshes cid now offline _ =>
    simp only [refreshTasks]
    split_ifs
    · exact List.Sublist.refl _
    · refine hsame (pendingQueue_foldl (F := fun s r => s.refreshOne offline now r) (fun s r => ?_)
        _ m)
      exact pendingQueue_enqueueRetry _ r now
  | @receives records =>
    have hmerge : (records.foldl mergeRecord m).pendingQueue = m.pendingQueue := by
      refine pendingQueue_foldl (fun s d => ?_) records m
      unfold mergeRecord
      split_ifs <;> rfl
    unfold receiveSyncedTasks
    split_ifs <;> exact hsame hmerge
  | restarts => cases hev
  | _ => exact List.Sublist.refl _

theorem not_mem_queue_of_assigning (h : m.SingleHolder) {a : Ref × ℚ × AssignPc × Caller}
    (ha : m.assigning ev = some a) (hputs : m.puts a.1 a.2.1 a.2.2.1 a.2.2.2 = true) :
    a.1 ∉ m.pendingQueue ∧ a.1 < m.nextRef := by
  obtain ⟨r,now,pc,k⟩ := a
  obtain ⟨cid,-,hf⟩ := assigning_eq_some ha
  replace hf : m.frames.get? cid = some (.assign r pc k) := hf
  have hholds : r ∈ (Frame.assign r pc k).holds := by
    simp only [puts,Bool.or_eq_true] at hputs
    rcases hputs with hputs | hputs
    · cases pc <;> simp_all [queues,Frame.holds]
    · simp only [forces,Bool.and_eq_true,decide_eq_true_eq] at hputs
      obtain ⟨rfl,hk⟩ := hputs
      cases k <;> simp_all [Frame.holds,Caller.isDrain]
  have hr : r < m.nextRef := h.wf.ref_lt hf List.mem_cons_self
  refine ⟨fun hmem => ?_,hr⟩
  have honce := h.once r hr
  have hqueue : 0 < m.pendingQueue.count r := List.count_pos_iff.mpr hmem
  have hframe : (Frame.assign r pc k).holds.count r ≤ m.weigh fun f => f.holds.count r :=
    le_weigh hf fun f => f.holds.count r
  have hcount : 0 < (Frame.assign r pc k).holds.count r := List.count_pos_iff.mpr hholds
  simp only [held] at honce
  omega

theorem SingleHolder.nodup (h : m.SingleHolder) :
    (m.pendingQueue.map fun r => (m.objects r).taskId).Nodup := by
  have hlisted : ∀ r ∈ m.pendingQueue, m.Listed r := by
    intro r hr
    refine .inr ?_
    have hcount : 0 < m.pendingQueue.count r := List.count_pos_iff.mpr hr
    simp only [held]
    omega
  have hnodup : m.pendingQueue.Nodup := by
    rw [List.nodup_iff_count_le_one]
    intro r
    by_cases hr : r ∈ m.pendingQueue
    · have honce := h.once r (h.wf.queue_lt r hr)
      simp only [held] at honce
      omega
    · rw [List.count_eq_zero.mpr hr]
      exact Nat.zero_le _
  refine List.Nodup.map_on (fun r hr x hx hid => ?_) hnodup
  exact h.unique r (h.wf.queue_lt r hr) x (h.wf.queue_lt x hx) (hlisted r hr) (hlisted x hx) hid

theorem pairwise_insertByPriority {R : Ref → Ref → Prop} {priority : Ref → ℤ} {l : List Ref}
    (hl : l.Pairwise R) (hsorted : l.Pairwise fun a b => priority b ≤ priority a)
    (hbehind : ∀ q ∈ l, priority r ≤ priority q → R q r)
    (hbefore : ∀ q ∈ l, priority q < priority r → R r q) :
    (insertByPriority priority r l).Pairwise R := by
  induction l with
  | nil => exact List.pairwise_singleton R r
  | cons q rest ih =>
    obtain ⟨hq,hrest⟩ := List.pairwise_cons.mp hl
    obtain ⟨hqs,hrests⟩ := List.pairwise_cons.mp hsorted
    simp only [insertByPriority]
    split_ifs with hlt
    · refine List.pairwise_cons.mpr ⟨fun x hx => hbefore x hx ?_,hl⟩
      rcases List.mem_cons.mp hx with rfl | hx
      · exact hlt
      · exact (hqs x hx).trans_lt hlt
    · refine List.pairwise_cons.mpr ⟨fun x hx => ?_,?_⟩
      · rcases mem_insertByPriority hx with hx | rfl
        · exact hq x hx
        · exact hbehind q List.mem_cons_self (not_lt.mp hlt)
      · exact ih hrest hrests (fun x hx => hbehind x (List.mem_cons_of_mem q hx))
          fun x hx => hbefore x (List.mem_cons_of_mem q hx)

theorem length_insertByPriority (priority : Ref → ℤ) (r : Ref) (l : List Ref) :
    (insertByPriority priority r l).length = l.length+1 := by
  induction l with
  | nil => rfl
  | cons q rest ih =>
    simp only [insertByPriority]
    split_ifs
    · rfl
    · rw [List.length_cons,ih,List.length_cons]

def QueueSorted (m : ClusterMaster) : Prop :=
  m.pendingQueue.Pairwise fun a b => (m.objects b).priority ≤ (m.objects a).priority

theorem QueueSorted.park (h : m.QueueSorted) (r : Ref) : (m.park r).QueueSorted := by
  have hpriority : ∀ x, ((m.park r).objects x).priority = (m.objects x).priority := by
    intro x
    by_cases hx : x = r
    · subst hx
      simp [ClusterMaster.park,modifyTask]
    · simp [ClusterMaster.park,modifyTask,hx]
  unfold QueueSorted
  simp only [hpriority]
  exact pairwise_insertByPriority h h (fun _ _ hle => hle) fun _ _ hlt => hlt.le

theorem queueSorted_restart (m : ClusterMaster) (now rnd : ℚ) : (m.restart now rnd).QueueSorted := by
  have hempty : ∀ s : ClusterMaster, s.pendingQueue = [] → s.QueueSorted := by
    intro s hs
    simp [QueueSorted,hs]
  unfold restart
  split
  · exact hempty _ rfl
  · next content _ =>
    have hqueue : ((m.reboot now rnd).restoreTasks content).pendingQueue = [] :=
      pendingQueue_foldl (F := insertRecord) (fun _ _ => rfl) content.tasks (m.reboot now rnd)
    simp only
    generalize (m.reboot now rnd).restoreTasks content = s at hqueue
    have hsorted := hempty s hqueue
    clear hqueue
    generalize s.tasks.values = l
    induction l generalizing s with
    | nil => exact hsorted
    | cons r l ih =>
      refine ih _ ?_
      unfold enqueueRestored enqueuePending
      split_ifs
      all_goals first
        | exact hsorted
        | exact hsorted.park r

theorem priority_taskChange {c : StepKind} {t t' : ClusterTask} (h : TaskChange c t t') :
    t'.priority = t.priority := by
  cases h <;> rfl

theorem Rewrites.priority {c : StepKind} (h : m.Rewrites c m') (hr : r < m.nextRef) :
    (m'.objects r).priority = (m.objects r).priority := by
  have hchange := h.change r hr
  generalize m'.objects r = t' at hchange
  induction hchange with
  | refl => rfl
  | tail _ hstep ih => exact (priority_taskChange hstep).trans ih

end ClusterMaster

structure QueueWatch where
  master : ClusterMaster
  clock : ℕ
  arrived : Ref → ℕ

namespace QueueWatch

open ClusterMaster

def placing (w : QueueWatch) (ev : MasterEvent) : Option Ref :=
  (w.master.assigning ev).bind fun a => if a.2.2.2.isDrain then some a.1 else none

/-- A task arrives that comes to the queue, unless a drain puts it back. -/
def step (w : QueueWatch) (ev : MasterEvent) : Option QueueWatch :=
  (machine.step w.master ev).map fun m =>
    ⟨m,w.clock+1,fun r =>
      if r ∈ m.pendingQueue ∧ r ∉ w.master.pendingQueue ∧ w.placing ev ≠ some r then w.clock
      else w.arrived r⟩

def watch : Machine QueueWatch MasterEvent := ⟨step⟩

def create (config : MasterConfig) (ha : HaState) : QueueWatch := ⟨.create config ha,0,fun _ => 0⟩

/-- A task of higher priority, or one of the same priority that arrived no later. -/
def Precedes (w : QueueWatch) (a b : Ref) : Prop :=
  (w.master.objects b).priority < (w.master.objects a).priority ∨
    (w.master.objects b).priority = (w.master.objects a).priority ∧ w.arrived a ≤ w.arrived b

/-- The queue grows by an `_enqueue_pending` that is forced. -/
def isForced (w : QueueWatch) (ev : MasterEvent) : Bool :=
  ev.isRestart || (w.master.assigning ev).any fun a => forces a.2.2.1 a.2.2.2

structure KeepsQueue (w : QueueWatch) (ev : MasterEvent) (w' : QueueWatch) : Prop where
  ordered : w'.master.pendingQueue.Pairwise w'.Precedes
  distinct : (w'.master.pendingQueue.map fun r => (w'.master.objects r).taskId).Nodup
  capped : 0 < w.master.maxPendingQueue → w.isForced ev = false →
    w.master.pendingQueue.length < w'.master.pendingQueue.length →
    w'.master.pendingQueue.length ≤ w.master.maxPendingQueue
  unlimited : w.master.maxPendingQueue = 0 → ∀ a ∈ w.master.assigning ev,
    w.master.queues a.1 a.2.1 a.2.2.1 = true → a.1 ∈ w'.master.pendingQueue

/-- No task is to be queued while the bound is 0, and a drain puts no task back behind one of the
same priority that arrived later. -/
def Fair (w : QueueWatch) (ev : MasterEvent) : Prop :=
  ∀ a ∈ w.master.assigning ev,
    (w.master.queues a.1 a.2.1 a.2.2.1 = true → w.master.maxPendingQueue ≠ 0) ∧
    (a.2.2.2.isDrain = true → w.master.puts a.1 a.2.1 a.2.2.1 a.2.2.2 = true →
      ∀ q ∈ w.master.pendingQueue,
        (w.master.objects q).priority = (w.master.objects a.1).priority →
        w.arrived q ≤ w.arrived a.1)

instance (w : QueueWatch) (ev : MasterEvent) : Decidable (w.Fair ev) :=
  inferInstanceAs (Decidable (∀ a ∈ w.master.assigning ev, _ ∧ _))

structure Sound (w : QueueWatch) : Prop where
  single : w.master.SingleHolder
  ordered : w.master.pendingQueue.Pairwise w.Precedes
  arrived_le : ∀ r, w.arrived r ≤ w.clock

variable {w w' : QueueWatch} {ev : MasterEvent} {r : Ref}

theorem Sound.sorted (h : w.Sound) : w.master.QueueSorted :=
  h.ordered.imp fun hab => hab.elim le_of_lt fun hab => hab.1.le

theorem sound_create (config : MasterConfig) (ha : HaState) : (create config ha).Sound :=
  ⟨singleHolder_create config ha,List.Pairwise.nil,fun _ => le_refl 0⟩

theorem step_spec (h : watch.step w ev = some w') :
    machine.step w.master ev = some w'.master ∧ w'.clock = w.clock+1 ∧
      ∀ r, w'.arrived r =
        if r ∈ w'.master.pendingQueue ∧ r ∉ w.master.pendingQueue ∧ w.placing ev ≠ some r then
          w.clock
        else w.arrived r := by
  obtain ⟨m,hm,rfl⟩ := Option.map_eq_some_iff.mp h
  exact ⟨hm,rfl,fun _ => rfl⟩

theorem arrived_of_mem (h : watch.step w ev = some w') (hr : r ∈ w.master.pendingQueue) :
    w'.arrived r = w.arrived r :=
  ((step_spec h).2.2 r).trans (if_neg fun hnew => hnew.2.1 hr)

theorem step_precedes (hw : w.Sound) (h : watch.step w ev = some w') {a b : Ref}
    (ha : a ∈ w.master.pendingQueue) (hb : b ∈ w.master.pendingQueue) (hab : w.Precedes a b) :
    w'.Precedes a b := by
  have hrewrites := step_rewrites hw.single.wf (step_spec h).1
  unfold Precedes
  rw [arrived_of_mem h ha,arrived_of_mem h hb,
    hrewrites.priority (hw.single.wf.queue_lt a ha),hrewrites.priority (hw.single.wf.queue_lt b hb)]
  exact hab

theorem ordered_insert (hw : w.Sound) (hF : w.Fair ev) (h : watch.step w ev = some w')
    {a : Ref × ℚ × AssignPc × Caller} (ha : w.master.assigning ev = some a)
    (hputs : w.master.puts a.1 a.2.1 a.2.2.1 a.2.2.2 = true)
    (hqueue : w'.master.pendingQueue = w.master.queueWith a.1) :
    w'.master.pendingQueue.Pairwise w'.Precedes := by
  obtain ⟨hnew,hr⟩ := not_mem_queue_of_assigning hw.single ha hputs
  have hpriority : ∀ x < w.master.nextRef,
      (w'.master.objects x).priority = (w.master.objects x).priority :=
    fun x hx => (step_rewrites hw.single.wf (step_spec h).1).priority hx
  have hlater : ∀ q ∈ w.master.pendingQueue,
      (w.master.objects q).priority = (w.master.objects a.1).priority →
      w'.arrived q ≤ w'.arrived a.1 := by
    intro q hq heq
    rw [arrived_of_mem h hq,(step_spec h).2.2 a.1]
    by_cases hdrain : a.2.2.2.isDrain = true
    · have hplacing : w.placing ev = some a.1 := by simp [placing,ha,hdrain]
      rw [if_neg fun hnew => hnew.2.2 hplacing]
      exact (hF a ha).2 hdrain hputs q hq heq
    · have hplacing : w.placing ev ≠ some a.1 := by simp [placing,ha,hdrain]
      have hmem : a.1 ∈ w'.master.pendingQueue := by
        rw [hqueue,← List.count_pos_iff,queueWith,count_insertByPriority]
        simp
      rw [if_pos ⟨hmem,hnew,hplacing⟩]
      exact hw.arrived_le q
  rw [hqueue]
  have hold : w.master.pendingQueue.Pairwise w'.Precedes :=
    hw.ordered.imp_of_mem fun ha hb hab => step_precedes hw h ha hb hab
  refine pairwise_insertByPriority hold hw.sorted (fun q hq hle => ?_) fun q hq hlt => .inl ?_
  · unfold Precedes
    rw [hpriority q (hw.single.wf.queue_lt q hq),hpriority a.1 hr]
    rcases hle.lt_or_eq with hlt | heq
    · exact .inl hlt
    · exact .inr ⟨heq,hlater q hq heq.symm⟩
  · rw [hpriority q (hw.single.wf.queue_lt q hq),hpriority a.1 hr]
    exact hlt

theorem ordered_restart (hw : w.Sound) {now rnd : ℚ}
    (h : watch.step w (.restart now rnd) = some w') :
    w'.master.pendingQueue.Pairwise w'.Precedes := by
  obtain ⟨hm,-,harrived⟩ := step_spec h
  have hmaster : w'.master = w.master.restart now rnd := (Option.some.inj hm).symm
  have hnew : ∀ r ∈ w'.master.pendingQueue, w'.arrived r = w.clock := by
    intro r hr
    refine (harrived r).trans (if_pos ⟨hr,fun hold => ?_,nofun⟩)
    have hcount := List.count_pos_iff.mpr hr
    rw [hmaster] at hcount
    have hlisted : (w.master.restart now rnd).Listed r := by
      refine .inr ?_
      simp only [held]
      omega
    exact not_listed_restart hw.single.wf (hw.single.wf.queue_lt r hold) hlisted
  have hsorted : w'.master.QueueSorted := hmaster ▸ queueSorted_restart w.master now rnd
  refine hsorted.imp_of_mem fun {a b} ha hb hab => ?_
  rcases hab.lt_or_eq with hlt | heq
  · exact .inl hlt
  · exact .inr ⟨heq,by rw [hnew a ha,hnew b hb]⟩

theorem Sound.step (hw : w.Sound) (hK : w.master.KeepsSingle ev) (hF : w.Fair ev)
    (h : watch.step w ev = some w') : w.KeepsQueue ev w' ∧ w'.Sound := by
  obtain ⟨hm,hclock,hstep⟩ := step_spec h
  have hsingle : w'.master.SingleHolder := hw.single.step hK hm
  have harrived : ∀ r, w'.arrived r ≤ w'.clock := by
    intro r
    rw [hstep r,hclock]
    split_ifs
    · exact Nat.le_succ _
    · exact (hw.arrived_le r).trans (Nat.le_succ _)
  have hend : w'.master.pendingQueue.Pairwise w'.Precedes →
      (0 < w.master.maxPendingQueue → w.isForced ev = false →
        w.master.pendingQueue.length < w'.master.pendingQueue.length →
        w'.master.pendingQueue.length ≤ w.master.maxPendingQueue) →
      w.KeepsQueue ev w' ∧ w'.Sound := by
    intro hordered hcapped
    refine ⟨⟨hordered,hsingle.nodup,hcapped,fun hmax a ha hqueues => ?_⟩,hsingle,hordered,harrived⟩
    exact absurd hmax ((hF a ha).1 hqueues)
  by_cases hrestart : ev.isRestart = true
  · cases ev with
    | restart now rnd =>
      refine hend (ordered_restart hw h) fun _ hforced => ?_
      simp [isForced,hrestart] at hforced
    | _ => exact nomatch hrestart
  · have hsub : w'.master.pendingQueue.Sublist w.master.pendingQueue →
        w.KeepsQueue ev w' ∧ w'.Sound := by
      intro hsub
      refine hend ((hw.ordered.sublist hsub).imp_of_mem fun ha hb hab => ?_) fun _ _ hlt => ?_
      · exact step_precedes hw h (hsub.subset ha) (hsub.subset hb) hab
      · exact absurd hsub.length_le (not_le.mpr hlt)
    cases ha : w.master.assigning ev with
    | none =>
      exact hsub ((step_effect hm).pendingQueue ha (by simpa using hrestart))
    | some a =>
      have hqueue : w'.master.pendingQueue =
          if w.master.puts a.1 a.2.1 a.2.2.1 a.2.2.2 = true then w.master.queueWith a.1
          else w.master.pendingQueue := by
        obtain ⟨cid,rfl,hf⟩ := assigning_eq_some ha
        obtain ⟨f,hf',hresume⟩ := Option.bind_eq_some_iff.mp hm
        obtain rfl := Option.some.inj (hf.symm.trans hf')
        exact pendingQueue_resumeAssign hresume
      by_cases hputs : w.master.puts a.1 a.2.1 a.2.2.1 a.2.2.2 = true
      · rw [if_pos hputs] at hqueue
        refine hend (ordered_insert hw hF h ha hputs hqueue) fun _ hforced _ => ?_
        simp only [isForced,ha,Option.any_some,Bool.or_eq_false_iff] at hforced
        simp only [puts,hforced.2,Bool.or_false,Bool.and_eq_true,decide_eq_true_eq] at hputs
        have hlength : (w.master.queueWith a.1).length = w.master.pendingQueue.length+1 :=
          length_insertByPriority _ _ _
        rw [hqueue,hlength]
        exact hputs.2
      · rw [if_neg hputs] at hqueue
        exact hsub (hqueue ▸ List.Sublist.refl _)

/-- In every run in which no task is queued while the bound is 0 and no drain puts a task back
behind a later one, the queue stays in order, without duplicates and within its bound. -/
theorem queue_kept (config : MasterConfig) (ha : HaState) (evs : List MasterEvent)
    (h : watch.Along (fun w ev _ => w.master.KeepsSingle ev ∧ w.Fair ev) (create config ha) evs) :
    watch.Along KeepsQueue (create config ha) evs :=
  Machine.Along.of_invariant (fun _ _ _ hw hstep hG => hw.step hG.1 hG.2 hstep)
    (sound_create config ha) h

/-- Two tasks are queued. The node `n1`, of one slot, is registered, and the drain places the first
of them there; its store write has not ended. -/
def drainingRun : List MasterEvent :=
  [.submit (plainTask "t1")] ++ List.replicate 6 (.resume 0 1) ++ [.submit (plainTask "t2")] ++
    List.replicate 6 (.resume 1 2) ++ [.registerNode { worker "n1" with maxTasks := 1 } 5] ++
    List.replicate 7 (.resume 2 5)

theorem queue_kept_drainingRun : watch.Along KeepsQueue (create defaultConfig .create)
    (drainingRun ++ [.fillTmp 0,.replaceFile 0 7] ++ List.replicate 9 (.resume 2 7)) :=
  queue_kept defaultConfig .create _ (by decide +kernel)

/-- Meanwhile the task `t3` is queued. -/
def overtakenRun : List MasterEvent :=
  drainingRun ++ [.submit (plainTask "t3")] ++ List.replicate 6 (.resume 3 6) ++
    [.fillTmp 0,.replaceFile 0 7] ++ List.replicate 8 (.resume 2 7)

def unboundedRun : List MasterEvent :=
  [.configureScheduling 4 (some 0),.submit (plainTask "t1")] ++ List.replicate 4 (.resume 0 1)

/-- A drained task loses its place to a later one, and a bound of 0 refuses every task. -/
theorem overtaken_and_refused :
    ¬watch.Along KeepsQueue (create defaultConfig .create) (overtakenRun ++ [.resume 2 7]) ∧
      ¬watch.Along KeepsQueue (create defaultConfig .create) (unboundedRun ++ [.resume 0 1]) := by
  constructor
  · intro h
    have hexec : ((watch.exec (create defaultConfig .create) overtakenRun).any fun t =>
        (watch.step t (.resume 2 7)).any fun u =>
          decide (u.master.pendingQueue = [2,1] ∧ (u.master.objects 2).priority = 0 ∧
            (u.master.objects 1).priority = 0 ∧ u.arrived 2 = 27 ∧ u.arrived 1 = 12)) = true := by
      decide +kernel
    obtain ⟨t,ht,hexec⟩ := (Option.any_eq_true _ _).mp hexec
    obtain ⟨u,hu,hexec⟩ := (Option.any_eq_true _ _).mp hexec
    obtain ⟨hqueue,hlater,hearlier,harrived,harrived'⟩ := of_decide_eq_true hexec
    have hordered := (h.last ht hu).ordered
    rw [hqueue] at hordered
    have hprecedes : u.Precedes 2 1 := List.rel_of_pairwise_cons hordered (by simp)
    unfold Precedes at hprecedes
    omega
  · intro h
    have hexec : ((watch.exec (create defaultConfig .create) unboundedRun).any fun t =>
        (watch.step t (.resume 0 1)).any fun u =>
          decide (t.master.maxPendingQueue = 0 ∧ u.master.pendingQueue = [] ∧
            ∃ a ∈ t.master.assigning (.resume 0 1),
              t.master.queues a.1 a.2.1 a.2.2.1 = true)) = true := by
      decide
    obtain ⟨t,ht,hexec⟩ := (Option.any_eq_true _ _).mp hexec
    obtain ⟨u,hu,hexec⟩ := (Option.any_eq_true _ _).mp hexec
    obtain ⟨hmax,hqueue,a,ha,hqueues⟩ := of_decide_eq_true hexec
    have hmem := (h.last ht hu).unlimited hmax a ha hqueues
    rw [hqueue] at hmem
    exact nomatch hmem

end QueueWatch
end FusionMultiNodes
