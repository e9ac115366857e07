import FusionMultiNodes.Master.Births

/-! Which tasks stay finished: those that nothing holds any more when they end. -/
namespace FusionMultiNodes

/-- `COMPLETED`, `PARTIAL`, `FAILED` and `CANCELLED`. -/
def TaskStatus.isTerminal : TaskStatus → Bool
  | .completed | .partialDone | .failed | .cancelled => true
  | _ => false

/-- The operations of one master on tasks it was given by submission. -/
def MasterEvent.isLocal : MasterEvent → Bool
  | .receiveSyncedTasks _ | .restart _ _ => false
  | _ => true

def MasterEvent.isCancel : MasterEvent → Bool
  | .cancelTask _ _ _ => true
  | _ => false

/-- An explicit `degrade_task` or `migrate_task` of a task. -/
def MasterEvent.redirects (id : TaskId) : MasterEvent → Bool
  | .degradeTask id' | .migrateTask id' => decide (id' = id)
  | _ => false

namespace TaskView

/-- A finished task is in no waiting list and in no coroutine that would assign or dispatch it. -/
def Settled (v : TaskView) : Prop :=
  v.status.isTerminal = true → v.held = 0 ∧ (v.committing = 0 ∨ v.nodes = [])

end TaskView

namespace ClusterMaster

/-- No waiting list and no coroutine has the task, unless to trigger a dispatch without nodes. -/
def Unheld (m : ClusterMaster) (r : Ref) : Prop :=
  m.held r = 0 ∧ (m.committing r = 0 ∨ (m.objects r).assignedNodes = [])

/-- The coroutine that ends the task is the only one that has it. -/
def HeldOnce (m : ClusterMaster) (r : Ref) : Prop :=
  m.held r = 1 ∧ (m.committing r = 0 ∨ (m.objects r).assignedNodes = [])

instance (m : ClusterMaster) (r : Ref) : Decidable (m.Unheld r) := by
  unfold Unheld; infer_instance

instance (m : ClusterMaster) (r : Ref) : Decidable (m.HeldOnce r) := by
  unfold HeldOnce; infer_instance

/-- The tasks a resumed coroutine ends are held by nothing else. -/
def FrameEndsUnheld (m : ClusterMaster) : Frame → Prop
  | .assign r (.returned false) k =>
    k ≠ .submit → k.isDrain = false → maxRetryAttempts ≤ (m.objects r).retryCount → m.HeldOnce r
  | .retrying loopNow (r::_) =>
    (m.objects r).nextRetryAt ≤ loopNow → maxRetryLoopAttempts ≤ (m.objects r).retryCount →
      m.HeldOnce r
  | .refreshing offline =>
    ∀ r ∈ m.tasks.values, isAffected (m.objects r) offline = true →
      maxRetryAttempts ≤ (m.objects r).retryCount → m.held r = 0
  | .dispatch d =>
    match d.pc with
    | .finalizing o =>
      ∀ r ∈ m.tasks.values, (m.objects r).taskId = (m.objects d.task).taskId →
        (m.objects r).status = .running →
        (o.isRetry = true → maxRetryAttempts ≤ (m.objects r).retryCount) → m.Unheld r
    | _ => True
  | _ => True

/-- No step ends a task that a waiting list or another coroutine still has. -/
def EndsUnheld (m : ClusterMaster) : MasterEvent → Prop
  | .completeTask id _ _ => ∀ r ∈ m.tasks.values, (m.objects r).taskId = id → m.Unheld r
  | .cancelTask id _ subs => ∀ r ∈ m.tasks.values, isCancellable (m.objects r) = true →
      m.CancelTree id subs (m.objects r).taskId → m.held r = m.pendingQueue.count r
  | .checkTimeouts now => ∀ r ∈ m.tasks.values, isTimedOut (m.objects r) now = true →
      maxRetryAttempts ≤ (m.objects r).retryCount → m.Unheld r
  | .resume cid _ => ∀ f ∈ m.frames.get? cid, m.FrameEndsUnheld f
  | _ => True

variable {m m' : ClusterMaster} {r : Ref} {cid : ℕ} {f : Frame} {ev : MasterEvent} {v : TaskView}

theorem committing_pos_of_mem (h : m.frames.get? cid = some f) (hr : r ∈ f.commits) :
    0 < m.committing r := by
  have hle := le_weigh h fun f => f.commits.count r
  have hpos := List.count_pos_iff.mpr hr
  simp only [committing]
  omega

theorem Unheld.settled (h : m.Unheld r) : (m.view r).held = 0 ∧
    ((m.view r).committing = 0 ∨ (m.view r).nodes = []) := by
  simpa [view,Unheld] using h

theorem HeldOnce.settled (h : m.HeldOnce r) : (m.view r).held-1 = 0 ∧
    ((m.view r).committing = 0 ∨ (m.view r).nodes = []) := by
  obtain ⟨hh,hc⟩ := h
  refine ⟨?_,by simpa [view] using hc⟩
  simp only [view,hh]
  norm_num

/-- A task that `_enqueue_retry` gives up is held by nothing else. -/
theorem unheld_of_interrupts (hw : m.Wf) (hG : m.EndsUnheld ev) (hreg : m.Registered r)
    (hs : (m.objects r).status = .running) (hi : m.Interrupts r ev)
    (hmax : maxRetryAttempts ≤ (m.objects r).retryCount) : m.Unheld r := by
  have hmem := hw.registered_iff.mpr hreg
  cases ev with
  | checkTimeouts now => exact hG r hmem hi hmax
  | resume cid now =>
    obtain ⟨d,o,hf,hpc,-,hid⟩ := hi
    have hframe := hG _ hf
    simp only [FrameEndsUnheld,hpc] at hframe
    exact hframe r hmem (hw.task_lt _ _ hid).2 hs fun _ => hmax
  | _ => exact hi.elim

/-- Steps that end no held task keep finished tasks out of every list. -/
theorem Move.settled (hw : m.Wf) (hG : m.EndsUnheld ev) (h : Move m r ev v)
    (hs : (m.view r).Settled) : v.Settled := by
  have hheld : (m.view r).held = m.held r := rfl
  have hcommitting : (m.view r).committing = m.committing r := rfl
  intro ht
  cases h with
  | stay => exact hs ht
  | skip hf hpc _ =>
    have hpos := holds_open hf hpc
    have hzero := (hs ht).1
    omega
  | refuse hf hpc =>
    have hpos := holds_open hf hpc
    have hzero := (hs ht).1
    omega
  | park => simp [TaskStatus.isTerminal] at ht
  | assign => simp [TaskStatus.isTerminal] at ht
  | launch hf hn _ =>
    have hpos := committing_pos_of_mem hf (List.mem_singleton_self r)
    rcases (hs ht).2 with hzero | hnil
    · omega
    · exact absurd hnil hn
  | noLaunch hf _ =>
    have hpos := committing_pos_of_mem hf (List.mem_singleton_self r)
    refine ⟨(hs ht).1,Or.inr ?_⟩
    rcases (hs ht).2 with hzero | hnil
    · omega
    · exact hnil
  | retry => simp [TaskStatus.isTerminal] at ht
  | @giveUp cid now k hf hk hdrain hmax =>
    have hd : k.isDrain = false := by
      cases k <;> first | rfl | exact absurd rfl (hdrain _)
    exact (hG _ hf hk hd hmax).settled
  | exhaust hf hdue hmax => exact (hG _ hf hdue hmax : m.HeldOnce r).settled
  | requeue => simp [TaskStatus.isTerminal] at ht
  | abandon hreg hrun hi hmax => exact (unheld_of_interrupts hw hG hreg hrun hi hmax).settled
  | strand hreg hrun hi hmax =>
    cases ev with
    | resume cid now =>
      obtain ⟨offline,hf,hoff⟩ := hi
      have hzero : m.held r = 0 := hG _ hf r (hw.registered_iff.mpr hreg) hoff hmax
      exact ⟨by simp [view,hzero],Or.inr rfl⟩
    | _ => exact hi.elim
  | @finish cid now d o hf hpc hretry hid hrun =>
    have hframe := hG _ hf
    simp only [FrameEndsUnheld,hpc] at hframe
    exact (hframe r (hw.registered_iff.mpr (hw.registered_of_get? hid)) (hw.task_lt _ _ hid).2 hrun
      fun h => absurd h (by simp [hretry])).settled
  | complete hid =>
    have hmem := hw.registered_iff.mpr (hw.registered_of_get? hid)
    exact (hG r hmem (hw.task_lt _ _ hid).2).settled
  | cancel hreg hc htree =>
    have hall : m.held r = m.pendingQueue.count r := hG r (hw.registered_iff.mpr hreg) hc htree
    exact ⟨by simp [view,hall],Or.inr rfl⟩
  | unqueue =>
    obtain ⟨hzero,hrest⟩ := hs ht
    have hle : m.pendingQueue.count r ≤ m.held r := by
      simp only [held]
      omega
    exact ⟨by simp only [hheld] at hzero ⊢; omega,hrest⟩
  | migrate => simp [TaskStatus.isTerminal] at ht
  | degrade => simp [TaskStatus.isTerminal] at ht
  | endLive => exact hs ht
  | purge => exact hs ht
  | displace => exact hs ht
  | reset => exact ⟨rfl,Or.inl rfl⟩

/-- A settled task that has ended stays ended, and no dispatch of it starts. -/
theorem Move.absorbing (hw : m.Wf) (h : Move m r ev v) (hs : (m.view r).Settled)
    (ht : (m.view r).status.isTerminal = true)
    (hev : ev.redirects (m.objects r).taskId = false) :
    v.status.isTerminal = true ∧ v.launched = (m.view r).launched := by
  obtain ⟨hzero,hrest⟩ := hs ht
  have hheld : (m.view r).held = m.held r := rfl
  have hcommitting : (m.view r).committing = m.committing r := rfl
  have hunheld : ∀ {cid f}, m.frames.get? cid = some f → r ∉ f.holds := fun hf hr => by
    have hpos := held_pos_of_mem hf hr
    omega
  have hrunning : (m.objects r).status ≠ .running := by
    intro hrun
    simp [view,hrun,TaskStatus.isTerminal] at ht
  cases h with
  | stay => exact ⟨ht,rfl⟩
  | skip => exact ⟨ht,rfl⟩
  | refuse => exact ⟨ht,rfl⟩
  | @park cid now pc k hf hpc =>
    refine absurd ?_ (hunheld hf)
    rcases hpc with hpc | ⟨rfl,rest,rfl⟩
    · rw [Frame.holds_of_isOpen hpc]
      exact List.mem_cons_self ..
    · simp [Frame.holds]
  | assign hf hpc _ =>
    refine absurd ?_ (hunheld hf)
    rw [Frame.holds_of_isOpen hpc]
    exact List.mem_cons_self ..
  | launch hf hn _ =>
    have hpos := committing_pos_of_mem hf (List.mem_singleton_self r)
    rcases hrest with hzero' | hnil
    · omega
    · exact absurd hnil hn
  | noLaunch => exact ⟨ht,rfl⟩
  | retry hf hk _ => exact absurd (by simp [Frame.holds,hk]) (hunheld hf)
  | giveUp => exact ⟨rfl,rfl⟩
  | exhaust => exact ⟨rfl,rfl⟩
  | requeue _ hrun _ _ => exact absurd hrun hrunning
  | abandon => exact ⟨rfl,rfl⟩
  | strand => exact ⟨rfl,rfl⟩
  | finish _ _ _ _ hrun => exact absurd hrun hrunning
  | complete => exact ⟨by split_ifs <;> rfl,rfl⟩
  | cancel => exact ⟨rfl,rfl⟩
  | unqueue => exact ⟨ht,rfl⟩
  | migrate _ hrun => exact absurd hrun hrunning
  | degrade hid _ => simp [MasterEvent.redirects,(hw.task_lt _ _ hid).2] at hev
  | endLive => exact ⟨ht,rfl⟩
  | purge => exact ⟨ht,rfl⟩
  | displace => exact ⟨ht,rfl⟩
  | reset => exact ⟨ht,rfl⟩

/-- A master that has only been given tasks by submission, with nothing that could revive a
finished one. -/
structure Quiescent (m : ClusterMaster) : Prop where
  wf : m.Wf
  unique : ∀ r < m.nextRef, ∀ x < m.nextRef, (m.objects r).taskId = (m.objects x).taskId → r = x
  settled : ∀ r < m.nextRef, (m.view r).Settled

theorem quiescent_create (config : MasterConfig) (ha : HaState) : (create config ha).Quiescent :=
  ⟨wf_create config ha,fun r hr => absurd hr (Nat.not_lt_zero r),
    fun r hr => absurd hr (Nat.not_lt_zero r)⟩

theorem Quiescent.step (h : m.Quiescent) (hlocal : ev.isLocal = true) (hG : m.EndsUnheld ev)
    (hstep : machine.step m ev = some m') : m'.Quiescent := by
  have hevolves := step_evolves h.wf hstep
  have hborn : ∀ r, m.nextRef ≤ r → r < m'.nextRef →
      r = m.nextRef ∧ (m'.view r).Settled ∧
        ∀ x < m.nextRef, (m.objects x).taskId ≠ (m'.objects r).taskId := by
    intro r hr hr'
    have hbirth := step_birth h.wf hstep hr hr'
    generalize m'.objects r = t at hbirth ⊢
    generalize m'.view r = v at hbirth ⊢
    cases hbirth with
    | submitted hnew hreq =>
      simp only [isNewTask,Bool.and_eq_true,decide_eq_true_eq,List.all_eq_true,List.mem_range] at hnew
      refine ⟨hreq,fun ht => ?_,fun x hx => hnew.2 x hx⟩
      simp [hnew.1.1.1.1.1,TaskStatus.isTerminal] at ht
    | merged => simp [MasterEvent.isLocal] at hlocal
    | restored => simp [MasterEvent.isLocal] at hlocal
    | queued => simp [MasterEvent.isLocal] at hlocal
  refine ⟨step_wf h.wf hstep,fun r hr x hx hid => ?_,fun r hr => ?_⟩
  · rcases Nat.lt_or_ge r m.nextRef with hr' | hr' <;> rcases Nat.lt_or_ge x m.nextRef with hx' | hx'
    · rw [(hevolves.job r hr').taskId,(hevolves.job x hx').taskId] at hid
      exact h.unique r hr' x hx' hid
    · rw [(hevolves.job r hr').taskId] at hid
      exact absurd hid ((hborn x hx' hx).2.2 r hr')
    · rw [(hevolves.job x hx').taskId] at hid
      exact absurd hid.symm ((hborn r hr' hr).2.2 x hx')
    · exact (hborn r hr' hr).1.trans (hborn x hx' hx).1.symm
  · rcases Nat.lt_or_ge r m.nextRef with hr' | hr'
    · exact (step_move h.wf hstep hr').settled h.wf hG (h.settled r hr')
    · exact (hborn r hr' hr).2.1

/-- Once a task is `COMPLETED`, `PARTIAL`, `FAILED` or `CANCELLED`, and unless it is degraded or
migrated, it keeps a terminal status and no dispatch is started for it: as long as no step ends
a task that a waiting list or another coroutine still has. -/
theorem terminal_status_is_absorbing {config : MasterConfig} {ha : HaState}
    (hrun : machine.Reaches (fun m ev => ev.isLocal = true ∧ m.EndsUnheld ev) (create config ha) m)
    {id : TaskId} (hr : m.tasks.get? id = some r) (ht : (m.objects r).status.isTerminal = true)
    (hrest : machine.Reaches (fun m ev => (ev.isLocal = true ∧ m.EndsUnheld ev) ∧
      ev.redirects id = false) m m') :
    (m'.objects r).status.isTerminal = true ∧ m'.launched.count r = m.launched.count r ∧
      ∀ x < m'.nextRef, (m'.objects x).taskId = id → x = r := by
  have hq : m.Quiescent := hrun.invariant
    (fun x ev y hx hG hstep => hx.step hG.1 hG.2 hstep) (quiescent_create config ha)
  have hall : m'.Quiescent ∧ r < m'.nextRef ∧ (m'.objects r).taskId = id ∧
      (m'.objects r).status.isTerminal = true ∧ m'.launched.count r = m.launched.count r := by
    induction hrest with
    | refl => exact ⟨hq,(hq.wf.task_lt id r hr).1,(hq.wf.task_lt id r hr).2,ht,rfl⟩
    | tail _ hG hstep ih =>
      obtain ⟨hq',hlt,hid,ht',hcount⟩ := ih
      have hevolves := step_evolves hq'.wf hstep
      have hmove := step_move hq'.wf hstep hlt
      obtain ⟨hterm,hlaunched⟩ :=
        hmove.absorbing hq'.wf (hq'.settled r hlt) ht' (by rw [hid]; exact hG.2)
      refine ⟨hq'.step hG.1.1 hG.1.2 hstep,lt_of_lt_of_le hlt hevolves.nextRef,
        (hevolves.job r hlt).taskId.trans hid,hterm,?_⟩
      exact (Int.ofNat_inj.mp hlaunched).trans hcount
  obtain ⟨hq',hlt,hid,hterm,hcount⟩ := hall
  exact ⟨hterm,hcount,fun x hx hxid => hq'.unique x hx r hlt (hxid.trans hid.symm)⟩

instance (m : ClusterMaster) (f : Frame) : Decidable (m.FrameEndsUnheld f) := by
  unfold FrameEndsUnheld
  split <;> try infer_instance
  split <;> infer_instance

/-- The condition can be tested on steps that cancel nothing. -/
instance (m : ClusterMaster) (ev : MasterEvent) :
    Decidable (ev.isCancel = false ∧ m.EndsUnheld ev) := by
  cases ev <;> first
    | exact isFalse fun h => Bool.noConfusion h.1
    | (unfold EndsUnheld; infer_instance)

/-- The agent answers, and the task is finalized and stored. -/
def finishedRun : List MasterEvent :=
  assignedRun ++ [.resume 2 1,.resume 2 1,.reply 2 0 goodReply 2] ++ List.replicate 4 (.resume 2 2) ++
    [.fillTmp 0,.replaceFile 0 2,.resume 2 2]

def quietRun : List MasterEvent := [.doneCallback "t1",.checkTimeouts 1000,.retryLoop 1000]

theorem terminal_status_is_absorbing_completed :
    ∃ m m', (m.objects 0).status = .completed ∧ m.launched.count 0 = 1 ∧
      machine.Reaches (fun m ev => ev.isLocal = true ∧ m.EndsUnheld ev)
        (create defaultConfig HaState.create) m ∧
      machine.Reaches (fun m ev => (ev.isLocal = true ∧ m.EndsUnheld ev) ∧
        ev.redirects "t1" = false) m m' ∧
      (m'.objects 0).status.isTerminal = true ∧ m'.launched.count 0 = m.launched.count 0 := by
  have hexec : ((machine.restrict fun m ev => ev.isLocal = true ∧ (ev.isCancel = false ∧
      m.EndsUnheld ev)).exec (create defaultConfig HaState.create) finishedRun).any (fun m =>
        decide (m.tasks.get? "t1" = some 0 ∧ (m.objects 0).status = .completed ∧
          m.launched.count 0 = 1) &&
        ((machine.restrict fun m ev => (ev.isLocal = true ∧ (ev.isCancel = false ∧
          m.EndsUnheld ev)) ∧ ev.redirects "t1" = false).exec m quietRun).isSome) = true := by
    decide +kernel
  obtain ⟨m,hm,hrest⟩ := (Option.any_eq_true _ _).mp hexec
  simp only [Bool.and_eq_true,decide_eq_true_eq] at hrest
  obtain ⟨⟨hid,hs,hcount⟩,hrest⟩ := hrest
  obtain ⟨m',hm'⟩ := Option.isSome_iff_exists.mp hrest
  have hrun : machine.Reaches (fun m ev => ev.isLocal = true ∧ m.EndsUnheld ev)
      (create defaultConfig HaState.create) m :=
    (Machine.Reaches.of_exec hm).of_restrict.mono fun x ev h => ⟨h.1,h.2.2⟩
  have hrun' : machine.Reaches (fun m ev => (ev.isLocal = true ∧ m.EndsUnheld ev) ∧
      ev.redirects "t1" = false) m m' :=
    (Machine.Reaches.of_exec hm').of_restrict.mono fun x ev h => ⟨⟨h.1.1,h.1.2.2⟩,h.2⟩
  have hend := terminal_status_is_absorbing hrun hid (by rw [hs]; rfl) hrun'
  exact ⟨m,m',hs,hcount,hrun,hrun',hend.1,hend.2.1⟩

/-- The agent cannot be reached: the task goes to the retry list, where it is cancelled. -/
def cancelledRun : List MasterEvent :=
  assignedRun ++ [.resume 2 1,.resume 2 1,.reply 2 0 (.raised "ReadTimeout" "") 2] ++
    List.replicate 4 (.resume 2 2) ++ [.fillTmp 0,.replaceFile 0 2,.resume 2 2,
      .cancelTask "t1" "" true,.fillTmp 1,.replaceFile 1 3,.resume 3 3,.resume 3 3]

/-- The retry loop finds it there once another node is up. -/
def revivedRun : List MasterEvent :=
  [.registerNode (worker "n2") 40,.resume 4 40,.retryLoop 40] ++ List.replicate 6 (.resume 5 40) ++
    [.fillTmp 2,.replaceFile 2 40,.resume 5 40,.resume 5 40]

theorem cancelled_task_is_dispatched_again :
    ¬∀ (m m' : ClusterMaster) (r : Ref) (id : TaskId),
      machine.Reaches (fun _ ev => ev.isLocal = true) (create defaultConfig HaState.create) m →
      m.tasks.get? id = some r → (m.objects r).status.isTerminal = true →
      machine.Reaches (fun _ ev => ev.isLocal = true ∧ ev.redirects id = false) m m' →
      (m'.objects r).status.isTerminal = true ∧ m'.launched.count r = m.launched.count r := by
  intro h
  have hexec : ((machine.restrict fun _ ev => ev.isLocal = true).exec
      (create defaultConfig HaState.create) cancelledRun).any (fun m =>
        decide (m.tasks.get? "t1" = some 0 ∧ (m.objects 0).status = .cancelled) &&
        ((machine.restrict fun _ ev => ev.isLocal = true ∧ ev.redirects "t1" = false).exec m
          revivedRun).any fun m' => decide ((m'.objects 0).status = .running ∧
            m'.launched.count 0 = m.launched.count 0+1)) = true := by
    decide +kernel
  obtain ⟨m,hm,hrest⟩ := (Option.any_eq_true _ _).mp hexec
  simp only [Bool.and_eq_true,decide_eq_true_eq] at hrest
  obtain ⟨⟨hid,hs⟩,hrest⟩ := hrest
  obtain ⟨m',hm',hs'⟩ := (Option.any_eq_true _ _).mp hrest
  simp only [decide_eq_true_eq] at hs'
  have hend := h m m' 0 "t1" (Machine.Reaches.of_exec hm).of_restrict hid (by rw [hs]; rfl)
    (Machine.Reaches.of_exec hm').of_restrict
  have hcount := hend.2
  omega

end ClusterMaster
end FusionMultiNodes
