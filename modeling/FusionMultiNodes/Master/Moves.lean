import FusionMultiNodes.Master.TaskView

/-! The life of one task: how each step of the master changes what its tables say about it. -/
namespace FusionMultiNodes

/-- The share a caller of `assign_task` has in the unfinished submissions. -/
def Caller.fresh : Caller → ℤ
  | .submit => 1
  | _ => 0

namespace ClusterMaster

/-- The tasks `cancel_task` reaches from an id, going through tasks that can be cancelled. -/
inductive CancelTree (m : ClusterMaster) (id : TaskId) (subs : Bool) : TaskId → Prop
  | root : CancelTree m id subs id
  | sub {p c : TaskId} {x : Ref} : subs = true → CancelTree m id subs p →
      m.tasks.get? p = some x → isCancellable (m.objects x) = true →
      c ∈ (m.objects x).subTasks → CancelTree m id subs c

/-- The event takes a running task from its nodes and sends it to `_enqueue_retry`. -/
def Interrupts (m : ClusterMaster) (r : Ref) : MasterEvent → Prop
  | .checkTimeouts now => isTimedOut (m.objects r) now = true
  | .resume cid _ => ∃ d o, m.frames.get? cid = some (.dispatch d) ∧ d.pc = .finalizing o ∧
      o.isRetry = true ∧ m.tasks.get? (m.objects d.task).taskId = some r
  | _ => False

/-- The event takes a running task from nodes that went offline. -/
def Strands (m : ClusterMaster) (r : Ref) : MasterEvent → Prop
  | .resume cid _ => ∃ offline, m.frames.get? cid = some (.refreshing offline) ∧
      isAffected (m.objects r) offline = true
  | _ => False

/-- The event registers another task under the id of `r`. -/
def Displaces (m : ClusterMaster) (r : Ref) (ev : MasterEvent) : Prop :=
  (∃ x, x ≠ r ∧ (m.objects x).taskId = (m.objects r).taskId ∧ 0 < m.held x) ∨
    ∃ records, ev = .receiveSyncedTasks records ∧
      ∃ d ∈ records, d.taskId = (m.objects r).taskId ∧ m.accepts d = true

/-- The coroutine of `_trigger_dispatch` finds a dispatch of the task that is not done. -/
def hasHandle (m : ClusterMaster) (r : Ref) : Bool :=
  (m.dispatchTasks.get? (m.objects r).taskId).any m.frames.contains

inductive Move (m : ClusterMaster) (r : Ref) : MasterEvent → TaskView → Prop
  | stay {ev : MasterEvent} : Move m r ev (m.view r)
  | skip {cid : ℕ} {now : ℚ} {pc : AssignPc} {k : Caller} :
      m.frames.get? cid = some (.assign r pc k) → pc.isOpen = true →
      m.isRunning (m.objects r).taskId = true ∨ m.isQueued (m.objects r).taskId = true →
      Move m r (.resume cid now) { m.view r with
        held := (m.view r).held-1
        fresh := (m.view r).fresh-k.fresh }
  | refuse {cid : ℕ} {now : ℚ} {pc : AssignPc} :
      m.frames.get? cid = some (.assign r pc .submit) → pc.isOpen = true →
      Move m r (.resume cid now) { m.view r with
        held := (m.view r).held-1
        fresh := (m.view r).fresh-1 }
  | park {cid : ℕ} {now : ℚ} {pc : AssignPc} {k : Caller} :
      m.frames.get? cid = some (.assign r pc k) →
      pc.isOpen = true ∨ (pc = .returned false ∧ ∃ rest, k = .drain rest) →
      Move m r (.resume cid now) { m.view r with
        status := .pending
        nodes := []
        registered := True
        fresh := (m.view r).fresh-k.fresh }
  | assign {cid : ℕ} {now : ℚ} {pc : AssignPc} {k : Caller} {ns : List NodeId} :
      m.frames.get? cid = some (.assign r pc k) → pc.isOpen = true → m.Commits r now pc ns →
      Move m r (.resume cid now) { m.view r with
        status := .running
        nodes := ns
        registered := True
        held := (m.view r).held-1
        committing := (m.view r).committing+1
        fresh := (m.view r).fresh-k.fresh }
  | launch {cid : ℕ} {now : ℚ} {k : Caller} :
      m.frames.get? cid = some (.assign r .trigger k) → (m.objects r).assignedNodes ≠ [] →
      m.hasHandle r = false →
      Move m r (.resume cid now) { m.view r with
        committing := (m.view r).committing-1
        live := (m.view r).live+1
        launched := (m.view r).launched+1 }
  | noLaunch {cid : ℕ} {now : ℚ} {k : Caller} :
      m.frames.get? cid = some (.assign r .trigger k) →
      (m.objects r).assignedNodes = [] ∨ m.hasHandle r = true →
      Move m r (.resume cid now) { m.view r with committing := (m.view r).committing-1 }
  | retry {cid : ℕ} {now : ℚ} {k : Caller} :
      m.frames.get? cid = some (.assign r (.returned false) k) → k ≠ .submit →
      (m.objects r).retryCount < maxRetryAttempts →
      Move m r (.resume cid now) { m.view r with status := .pending, nodes := [] }
  | giveUp {cid : ℕ} {now : ℚ} {k : Caller} :
      m.frames.get? cid = some (.assign r (.returned false) k) → k ≠ .submit →
      (∀ rest, k ≠ .drain rest) → maxRetryAttempts ≤ (m.objects r).retryCount →
      Move m r (.resume cid now) { m.view r with
        status := .failed
        held := (m.view r).held-1 }
  | exhaust {cid : ℕ} {now loopNow : ℚ} {rest : List Ref} :
      m.frames.get? cid = some (.retrying loopNow (r::rest)) → (m.objects r).nextRetryAt ≤ loopNow →
      maxRetryLoopAttempts ≤ (m.objects r).retryCount →
      Move m r (.resume cid now) { m.view r with
        status := .failed
        held := (m.view r).held-1 }
  | requeue {ev : MasterEvent} : m.Registered r → (m.objects r).status = .running →
      m.Interrupts r ev ∨ m.Strands r ev → (m.objects r).retryCount < maxRetryAttempts →
      Move m r ev { m.view r with
        status := .pending
        nodes := []
        held := (m.view r).held+1 }
  | abandon {ev : MasterEvent} : m.Registered r → (m.objects r).status = .running →
      m.Interrupts r ev → maxRetryAttempts ≤ (m.objects r).retryCount →
      Move m r ev { m.view r with status := .failed }
  | strand {ev : MasterEvent} : m.Registered r → (m.objects r).status = .running →
      m.Strands r ev → maxRetryAttempts ≤ (m.objects r).retryCount →
      Move m r ev { m.view r with status := .failed, nodes := [] }
  | finish {cid : ℕ} {now : ℚ} {d : Dispatch} {o : DispatchOutcome} :
      m.frames.get? cid = some (.dispatch d) → d.pc = .finalizing o → o.isRetry = false →
      m.tasks.get? (m.objects d.task).taskId = some r → (m.objects r).status = .running →
      Move m r (.resume cid now) { m.view r with
        status := if o.success then .completed else if o.partially then .partialDone else .failed }
  | complete {id : TaskId} {error : String} {now : ℚ} : m.tasks.get? id = some r →
      Move m r (.completeTask id error now) { m.view r with
        status := if error = "" then .completed else .failed }
  | cancel {id : TaskId} {reason : String} {subs : Bool} : m.Registered r →
      isCancellable (m.objects r) = true → m.CancelTree id subs (m.objects r).taskId →
      Move m r (.cancelTask id reason subs) { m.view r with
        status := .cancelled
        nodes := []
        held := (m.view r).held-m.pendingQueue.count r }
  | unqueue {id : TaskId} {reason : String} {subs : Bool} :
      (∃ x, x ≠ r ∧ m.Registered x ∧ (m.objects x).taskId = (m.objects r).taskId) →
      Move m r (.cancelTask id reason subs) { m.view r with
        held := (m.view r).held-m.pendingQueue.count r }
  | migrate {id : TaskId} : m.tasks.get? id = some r → (m.objects r).status = .running →
      Move m r (.migrateTask id) { m.view r with
        status := .pending
        nodes := []
        held := (m.view r).held+1 }
  | degrade {id : TaskId} : m.tasks.get? id = some r →
      (m.objects r).status = .running ∨ (m.objects r).status = .pending ∨
        (m.objects r).status = .failed →
      Move m r (.degradeTask id) { m.view r with
        status := .pending
        nodes := []
        held := (m.view r).held+1 }
  | endLive {cid : ℕ} {now : ℚ} {d : Dispatch} {o : DispatchOutcome} :
      m.frames.get? cid = some (.dispatch d) → d.task = r →
      (∃ w, d.pc = .tail w o) ∨
        (d.pc = .finalizing o ∧ m.isRunning (m.objects r).taskId = false) →
      Move m r (.resume cid now) { m.view r with live := (m.view r).live-1 }
  | purge : m.Registered r → isCleaned (m.objects r).status = true →
      Move m r .cleanupCompletedTasks { m.view r with registered := False }
  | displace {ev : MasterEvent} : m.Registered r → m.Displaces r ev →
      Move m r ev { m.view r with registered := False }
  | reset {now rnd : ℚ} : Move m r (.restart now rnd) { m.view r with
      registered := False
      held := 0
      committing := 0
      live := 0
      fresh := 0 }

variable {m m' s : ClusterMaster} {r x : Ref} {cid : ℕ} {f f' : Frame} {now : ℚ} {ev : MasterEvent}
  {v v' : TaskView}

theorem Move.of_eq (h : Move m r ev v) (heq : v' = v) : Move m r ev v' := heq ▸ h

/-- A task of the same id may lose its place in the task table, and nothing else changes. -/
theorem Move.of_displace (hx : r ≠ x) (hheld : 0 < m.held x)
    (hv : v = { m.view r with
      registered := m.Registered r ∧ (m.objects r).taskId ≠ (m.objects x).taskId }) :
    Move m r ev v := by
  by_cases hr : m.Registered r ∧ (m.objects r).taskId = (m.objects x).taskId
  · refine Move.of_eq (.displace hr.1 (Or.inl ⟨x,hx.symm,hr.2.symm,hheld⟩)) (hv.trans ?_)
    simp [hr.2]
  · refine Move.of_eq .stay (hv.trans ?_)
    have hiff : (m.Registered r ∧ (m.objects r).taskId ≠ (m.objects x).taskId) = m.Registered r := by
      simp only [eq_iff_iff]
      tauto
    rw [hiff]
    rfl

theorem held_pos_of_mem (h : m.frames.get? cid = some f) (hx : x ∈ f.holds) : 0 < m.held x := by
  have hle := le_weigh h fun f => f.holds.count x
  have hpos := List.count_pos_iff.mpr hx
  simp only [held]
  omega

theorem count_fresh {pc : AssignPc} (h : pc.isOpen = true) (r x : Ref) (k : Caller) :
    (((Frame.assign x pc k).fresh.count r : ℕ) : ℤ) = if r = x then k.fresh else 0 := by
  rw [Frame.fresh_of_isOpen h]
  by_cases hr : r = x
  · subst hr
    cases k <;> simp [Caller.fresh]
  · have hc : List.count r [x] = 0 := List.count_eq_zero.mpr (by simpa using hr)
    cases k <;> simp [hr,hc]

theorem swap_close (v : TaskView) (r : Ref) {pc : AssignPc} {k : Caller} (h : pc.isOpen = true)
    (hh : f'.holds = k.rest) (hf : f'.fresh = []) (hd : f'.dispatches = []) :
    (v.lose r (.assign x pc k)).gain r f' = { v with
      held := v.held-[x].count r
      committing := v.committing+f'.commits.count r
      fresh := v.fresh-if r = x then k.fresh else 0 } := by
  have hcount := count_fresh h r x k
  ext1 <;> simp only [TaskView.gain,TaskView.lose,Frame.holds_of_isOpen h,Frame.commits_of_isOpen h,
    hh,hf,hd,hcount,List.count_nil,List.count_cons]
  all_goals simp [Frame.dispatches]
  split_ifs <;> omega

theorem swap_back (v : TaskView) (r : Ref) {k : Caller} (hk : k ≠ .submit) (hh : f'.holds = k.rest)
    (hc : f'.commits = []) (hf : f'.fresh = []) (hd : f'.dispatches = []) :
    (v.lose r (.assign x (.returned false) k)).gain r f' =
      { v with held := v.held-[x].count r } := by
  have hfresh : (Frame.assign x (.returned false) k).fresh = [] := by cases k <;> rfl
  have hholds : (Frame.assign x (.returned false) k).holds = x::k.rest := by simp [Frame.holds,hk]
  ext1 <;> simp only [TaskView.gain,TaskView.lose,hholds,hh,hc,hf,hd,hfresh,List.count_nil,
    List.count_cons]
  all_goals simp [Frame.dispatches,Frame.commits]
  split_ifs <;> omega

theorem swap_trigger (v : TaskView) (r : Ref) (k : Caller) :
    (v.lose r (.assign x .trigger k)).gain r (.assign x (.returned true) k) =
      { v with committing := v.committing-[x].count r } := by
  have hfresh : (Frame.assign x .trigger k).fresh = [] := by cases k <;> rfl
  have hfresh' : (Frame.assign x (.returned true) k).fresh = [] := by cases k <;> rfl
  ext1 <;> simp only [TaskView.gain,TaskView.lose,hfresh,hfresh']
  all_goals simp [Frame.holds,Frame.dispatches,Frame.commits]

theorem swap_retrying (v : TaskView) (r : Ref) (loopNow : ℚ) (rest : List Ref) :
    (v.lose r (.retrying loopNow (x::rest))).gain r (.retrying loopNow rest) =
      { v with held := v.held-[x].count r } := by
  ext1 <;> simp only [TaskView.gain,TaskView.lose,Frame.holds,List.count_cons]
  all_goals simp [Frame.fresh,Frame.dispatches,Frame.commits]
  split_ifs <;> omega

theorem count_singleton_ne (h : r ≠ x) : [x].count r = 0 :=
  List.count_eq_zero.mpr (by simpa using h)

end ClusterMaster
end FusionMultiNodes
