import FusionMultiNodes.Master.Holders

/-! What one step of `assign_task` or of `_dispatch_task` can do. -/
namespace FusionMultiNodes
/-- The outcome sends the task back to the retry list, if its budget allows. -/
def DispatchOutcome.isRetry (o : DispatchOutcome) : Bool :=
  !o.success && !o.partially && o.retryable

namespace ClusterMaster

/-- The slots of a registered node: taken, and available in all. -/
def slots (m : ClusterMaster) (n : NodeId) : Option (ℤ × ℤ) :=
  (m.nodes.get? n).map fun i => (i.activeTasks,i.maxTasks)

structure Still (m m' : ClusterMaster) : Prop where
  objects : m'.objects = m.objects
  nextRef : m'.nextRef = m.nextRef
  tasks : m'.tasks = m.tasks
  pendingQueue : m'.pendingQueue = m.pendingQueue
  pendingRetry : m'.pendingRetry = m.pendingRetry
  frames : m'.frames = m.frames
  nextFrame : m'.nextFrame = m.nextFrame
  dispatchTasks : m'.dispatchTasks = m.dispatchTasks
  attempts : m'.attempts = m.attempts
  launched : m'.launched = m.launched

structure Quiet (m m' : ClusterMaster) : Prop where
  still : m.Still m'
  slots : ∀ n, m'.slots n = m.slots n

variable {m m' m'' : ClusterMaster} {r : Ref} {now : ℚ} {pc pc' : AssignPc}

theorem Still.refl (m : ClusterMaster) : m.Still m := ⟨rfl,rfl,rfl,rfl,rfl,rfl,rfl,rfl,rfl,rfl⟩

theorem Still.trans (h : m.Still m') (h' : m'.Still m'') : m.Still m'' :=
  ⟨h'.1.trans h.1,h'.2.trans h.2,h'.3.trans h.3,h'.4.trans h.4,h'.5.trans h.5,h'.6.trans h.6,
    h'.7.trans h.7,h'.8.trans h.8,h'.9.trans h.9,h'.10.trans h.10⟩

theorem Quiet.refl (m : ClusterMaster) : m.Quiet m := ⟨Still.refl m,fun _ => rfl⟩

theorem Quiet.trans (h : m.Quiet m') (h' : m'.Quiet m'') : m.Quiet m'' :=
  ⟨h.still.trans h'.still,fun n => (h'.slots n).trans (h.slots n)⟩

theorem slots_modify {nodes : Dict NodeId NodeInfo} (id : NodeId) {f : NodeInfo → NodeInfo}
    (hf : ∀ i, (f i).activeTasks = i.activeTasks ∧ (f i).maxTasks = i.maxTasks) (n : NodeId) :
    ((nodes.modify id f).get? n).map (fun i => (i.activeTasks,i.maxTasks)) =
      (nodes.get? n).map fun i => (i.activeTasks,i.maxTasks) := by
  rw [Dict.get?_modify]
  split_ifs
  · cases nodes.get? n <;> simp [hf]
  · rfl

theorem quiet_reportFault (m : ClusterMaster) (id : NodeId) (now : ℚ) :
    m.Quiet (m.reportFault id now) := by
  unfold reportFault
  split_ifs
  · refine ⟨⟨rfl,rfl,rfl,rfl,rfl,rfl,rfl,rfl,rfl,rfl⟩,fun n => ?_⟩
    apply slots_modify
    exact fun i => ⟨rfl,rfl⟩
  · exact Quiet.refl m

theorem quiet_dropExpiredBan (m : ClusterMaster) (id : NodeId) (now : ℚ) :
    m.Quiet (m.dropExpiredBan id now) := by
  unfold dropExpiredBan
  split_ifs
  · exact ⟨⟨rfl,rfl,rfl,rfl,rfl,rfl,rfl,rfl,rfl,rfl⟩,fun _ => rfl⟩
  · exact Quiet.refl m

theorem quiet_persistTasks (m : ClusterMaster) : m.Quiet m.persistTasks :=
  ⟨⟨rfl,rfl,rfl,rfl,rfl,rfl,rfl,rfl,rfl,rfl⟩,fun _ => rfl⟩

theorem quiet_deferPersist (m : ClusterMaster) : m.Quiet m.deferPersist :=
  ⟨⟨rfl,rfl,rfl,rfl,rfl,rfl,rfl,rfl,rfl,rfl⟩,fun _ => rfl⟩

theorem quiet_post (m : ClusterMaster) (reqs : List ExecuteRequest) : m.Quiet (m.post reqs) :=
  ⟨⟨rfl,rfl,rfl,rfl,rfl,rfl,rfl,rfl,rfl,rfl⟩,fun _ => rfl⟩

theorem Still.park (h : m.Still m') (r : Ref) : (m.park r).Still (m'.park r) := by
  refine ⟨?_,h.2,?_,?_,h.5,h.6,h.7,h.8,h.9,h.10⟩ <;>
    simp only [ClusterMaster.park,modifyTask,h.1,h.3,h.4]

theorem Quiet.park (h : m.Quiet m') (r : Ref) : (m.park r).Quiet (m'.park r) :=
  ⟨h.still.park r,h.slots⟩

theorem Quiet.commit (h : m.Quiet m') (hnodes : m'.nodes = m.nodes) (r : Ref) (ns : List NodeId)
    (now : ℚ) : (m.commit r ns now).Quiet (m'.commit r ns now) := by
  obtain ⟨h,-⟩ := h
  refine ⟨⟨?_,h.2,?_,h.4,h.5,h.6,h.7,h.8,?_,h.10⟩,fun n => ?_⟩ <;>
    simp only [ClusterMaster.commit,modifyTask,ClusterMaster.slots,h.1,h.3,h.9,hnodes]

/-- The condition under which the lock section of `assign_task` at `pc` assigns the nodes `ns`. -/
def Commits (m : ClusterMaster) (r : Ref) (now : ℚ) (pc : AssignPc) (ns : List NodeId) : Prop :=
  m.isRunning (m.objects r).taskId = false ∧
    match pc with
    | .localCommit _ =>
      m.hasFreeSlot (m.objects r).preferredNodeId = true ∧ ns = [(m.objects r).preferredNodeId]
    | .confirm requiredMem selected =>
      (m.looksForBackup (m.objects r) selected = true → (m.objects r).pinnedNodeId = "") ∧
        ns = m.confirmedNodes (m.objects r) requiredMem selected now ∧
        (m.objects r).need ≤ ns.length
    | _ => False

/-- The effects one step of `assign_task` can have. -/
inductive AssignOutcome (m : ClusterMaster) (r : Ref) (now : ℚ) :
    AssignPc → ClusterMaster → AssignPc → Prop
  | advance {p p' : AssignPc} {s : ClusterMaster} : m.Quiet s → s.nodes = m.nodes →
      p.isOpen = true → p'.isOpen = true → AssignOutcome m r now p s p'
  | skip {p : AssignPc} : m.isRunning (m.objects r).taskId = true ∨
      m.isQueued (m.objects r).taskId = true → p.isOpen = true →
      AssignOutcome m r now p m (.returned true)
  | refuse {p : AssignPc} {s : ClusterMaster} : m.Quiet s → s.nodes = m.nodes → p.isOpen = true →
      AssignOutcome m r now p s (.returned false)
  | parked {p : AssignPc} {s : ClusterMaster} : (m.park r).Quiet s → s.nodes = m.nodes →
      p.isOpen = true → AssignOutcome m r now p s (.returned true)
  | committed {p p' : AssignPc} {s : ClusterMaster} {ns : List NodeId} : m.Commits r now p ns →
      (m.commit r ns now).Quiet s → s.nodes = occupyNodes m.nodes ns → p.isOpen = true →
      (p' = .trigger ∨ p' = .writing m.store.nextWrite) → AssignOutcome m r now p s p'
  | written {w : ℕ} : AssignOutcome m r now (.writing w) m .trigger
  | triggered : AssignOutcome m r now .trigger (m.triggerDispatch r) (.returned true)

structure OnlyBans (m m' : ClusterMaster) : Prop where
  quiet : m.Quiet m'
  nodes : m'.nodes = m.nodes
  store : m'.store = m.store

theorem OnlyBans.refl (m : ClusterMaster) : m.OnlyBans m := ⟨Quiet.refl m,rfl,rfl⟩

theorem onlyBans_dropExpiredBans (m : ClusterMaster) (exclude : List NodeId) (now : ℚ) :
    m.OnlyBans (m.dropExpiredBans exclude now) := by
  unfold dropExpiredBans
  generalize m.nodes.values.filter (isFree exclude) = l
  induction l generalizing m with
  | nil => exact OnlyBans.refl m
  | cons n l ih =>
    have hq := quiet_dropExpiredBan m n.nodeId now
    have hn : (m.dropExpiredBan n.nodeId now).nodes = m.nodes ∧
        (m.dropExpiredBan n.nodeId now).store = m.store := by
      unfold dropExpiredBan
      split_ifs <;> exact ⟨rfl,rfl⟩
    have hrest := ih (m.dropExpiredBan n.nodeId now)
    exact ⟨hq.trans hrest.1,hrest.2.trans hn.1,hrest.3.trans hn.2⟩

theorem enqueuePending_outcome (h : m.OnlyBans m') (hpc : pc.isOpen = true) :
    AssignOutcome m r now pc (m'.enqueuePending r false).1 (.returned (m'.enqueuePending r false).2) := by
  unfold enqueuePending
  split_ifs
  · exact .refuse h.quiet h.nodes hpc
  · exact .parked (h.quiet.park r) h.nodes hpc

theorem assignConfirm_outcome (m : ClusterMaster) (r : Ref) (requiredMem : ℚ)
    (selected : List NodeId) (now : ℚ) :
    AssignOutcome m r now (.confirm requiredMem selected)
      (m.assignConfirm r requiredMem selected now).1 (m.assignConfirm r requiredMem selected now).2 := by
  simp only [assignConfirm]
  by_cases hrun : m.isRunning (m.objects r).taskId = true
  · rw [if_pos hrun]
    exact .skip (Or.inl hrun) rfl
  rw [if_neg hrun]
  by_cases hpinned : m.looksForBackup (m.objects r) selected = true ∧ (m.objects r).pinnedNodeId ≠ ""
  · rw [if_pos hpinned]
    exact enqueuePending_outcome (OnlyBans.refl m) rfl
  rw [if_neg hpinned]
  have hbans : m.OnlyBans (if m.looksForBackup (m.objects r) selected = true then
      m.dropExpiredBans (selected.filter m.hasFreeSlot ++ (m.objects r).excludeNodes) now else m) := by
    split_ifs
    · exact onlyBans_dropExpiredBans m _ now
    · exact OnlyBans.refl m
  generalize (if m.looksForBackup (m.objects r) selected = true then
    m.dropExpiredBans (selected.filter m.hasFreeSlot ++ (m.objects r).excludeNodes) now else m) = m₁
    at hbans ⊢
  by_cases hshort : (m.confirmedNodes (m.objects r) requiredMem selected now).length <
      (m.objects r).need
  · rw [if_pos hshort]
    exact enqueuePending_outcome hbans rfl
  rw [if_neg hshort]
  have hcommits : m.Commits r now (.confirm requiredMem selected)
      (m.confirmedNodes (m.objects r) requiredMem selected now) := by
    refine ⟨by simpa using hrun,fun hback => ?_,rfl,not_lt.mp hshort⟩
    by_contra hne
    exact hpinned ⟨hback,hne⟩
  have hcommit := hbans.quiet.commit hbans.nodes r
    (m.confirmedNodes (m.objects r) requiredMem selected now) now
  have hnodes : ∀ ns, (m₁.commit r ns now).nodes = occupyNodes m.nodes ns := fun ns => by
    simp only [commit,hbans.nodes]
  split_ifs
  · exact .committed hcommits (hcommit.trans (quiet_persistTasks _)) (hnodes _) rfl (Or.inr rfl)
  · exact .committed hcommits (hcommit.trans (quiet_deferPersist _)) (hnodes _) rfl (Or.inl rfl)

theorem assignQuota_outcome (m : ClusterMaster) (r : Ref) (now : ℚ) :
    AssignOutcome m r now .quota (m.assignQuota r).1 (m.assignQuota r).2 := by
  simp only [assignQuota]
  split_ifs with hrun _ hqueued
  · exact .skip (Or.inl hrun) rfl
  · exact .skip (Or.inr hqueued) rfl
  · exact enqueuePending_outcome (OnlyBans.refl m) rfl
  · exact .advance (Quiet.refl m) rfl rfl rfl
  · exact .advance (Quiet.refl m) rfl rfl rfl

theorem assignLocal_outcome (m : ClusterMaster) (r : Ref) (requiredMem now : ℚ) :
    AssignOutcome m r now (.localCommit requiredMem) (m.assignLocal r requiredMem now).1
      (m.assignLocal r requiredMem now).2 := by
  simp only [assignLocal]
  split_ifs with hrun hfree
  · exact .skip (Or.inl hrun) rfl
  · exact .committed ⟨by simpa using hrun,hfree,rfl⟩ (Quiet.refl _) rfl rfl (Or.inl rfl)
  · exact .advance (Quiet.refl m) rfl rfl rfl

theorem assignStep_outcome (h : m.assignStep r now pc = some (m',pc')) :
    AssignOutcome m r now pc m' pc' := by
  cases pc with
  | guards =>
    simp only [assignStep,Option.some.injEq,Prod.mk.injEq] at h
    obtain ⟨rfl,rfl⟩ := h
    split_ifs
    · exact .refuse (Quiet.refl m) rfl rfl
    · exact .advance (Quiet.refl m) rfl rfl rfl
  | quota =>
    simp only [assignStep,Option.some.injEq] at h
    have hq := assignQuota_outcome m r now
    rwa [h] at hq
  | localCheck requiredMem =>
    simp only [assignStep,Option.some.injEq,Prod.mk.injEq] at h
    obtain ⟨rfl,rfl⟩ := h
    split_ifs <;> exact .advance (Quiet.refl m) rfl rfl rfl
  | localCommit requiredMem =>
    simp only [assignStep,Option.some.injEq] at h
    have hl := assignLocal_outcome m r requiredMem now
    rwa [h] at hl
  | route requiredMem =>
    simp only [assignStep,assignRoute,Option.some.injEq,Prod.mk.injEq] at h
    obtain ⟨rfl,rfl⟩ := h
    exact .advance ⟨⟨rfl,rfl,rfl,rfl,rfl,rfl,rfl,rfl,rfl,rfl⟩,fun _ => rfl⟩ rfl rfl rfl
  | selecting requiredMem original =>
    simp only [assignStep,assignSelect,Option.some.injEq] at h
    split_ifs at h <;> obtain ⟨rfl,rfl⟩ := Prod.mk.inj h <;>
      exact .advance ⟨⟨rfl,rfl,rfl,rfl,rfl,rfl,rfl,rfl,rfl,rfl⟩,fun _ => rfl⟩ rfl rfl rfl
  | enqueueShort =>
    simp only [assignStep,assignShort,Option.some.injEq] at h
    split_ifs at h with hqueued <;> obtain ⟨rfl,rfl⟩ := Prod.mk.inj h
    · exact .skip (Or.inr hqueued) rfl
    · exact enqueuePending_outcome (OnlyBans.refl m) rfl
  | confirm requiredMem selected =>
    simp only [assignStep,Option.some.injEq] at h
    have hc := assignConfirm_outcome m r requiredMem selected now
    rwa [h] at hc
  | writing w =>
    simp only [assignStep,Option.ite_none_left_eq_some,Option.some.injEq,Prod.mk.injEq] at h
    obtain ⟨-,rfl,rfl⟩ := h
    exact .written
  | trigger =>
    simp only [assignStep,Option.some.injEq,Prod.mk.injEq] at h
    obtain ⟨rfl,rfl⟩ := h
    exact .triggered
  | returned ok => simp [assignStep] at h

/-- What the lock section of `_finalize_task` makes of a running task. -/
def finalized (m : ClusterMaster) (r : Ref) (o : DispatchOutcome) (now : ℚ) : ClusterMaster :=
  if o.isRetry then
    ((m.releaseTask r).modifyTask r fun t => { t with error := o.error }).enqueueRetry r now
  else (m.releaseTask r).modifyTask r fun t => finishTask t o now

/-- A dispatch goes on; it reads its nodes in its first step and keeps them. -/
structure Continues (m : ClusterMaster) (d d' : Dispatch) : Prop where
  task : d'.task = d.task
  started : d'.pc ≠ .start
  notDone : ∀ w o, d'.pc ≠ .tail w o
  nodes : d'.nodeIds = if d.pc = .start then (m.objects d.task).assignedNodes else d.nodeIds
  attempt : d'.attempt =
    if d.pc = .start then m.attempts (m.objects d.task).taskId else d.attempt

inductive DispatchEffect (m : ClusterMaster) (cid : ℕ) (d : Dispatch) (now : ℚ) :
    ClusterMaster → Prop
  | continues {s : ClusterMaster} {d' : Dispatch} : m.Quiet s → m.Continues d d' →
      DispatchEffect m cid d now (s.setFrame cid (.dispatch d'))
  | finalizes {r : Ref} {o : DispatchOutcome} : d.pc = .finalizing o →
      m.tasks.get? (m.objects d.task).taskId = some r → (m.objects r).status = .running →
      DispatchEffect m cid d now ((m.finalized r o now).persistTasks.setFrame cid
        (.dispatch { d with pc := .tail m.store.nextWrite o }))
  | stale {o : DispatchOutcome} : d.pc = .finalizing o →
      m.isRunning (m.objects d.task).taskId = false →
      DispatchEffect m cid d now (m.endDispatch cid d o)
  | done {w : ℕ} {o : DispatchOutcome} : d.pc = .tail w o →
      DispatchEffect m cid d now (m.endDispatch cid d o)

theorem quiet_startData (m : ClusterMaster) (d : Dispatch) : m.Quiet (m.startData d).1 :=
  quiet_post m _

theorem pipelineNext_spec (m : ClusterMaster) (d : Dispatch) (present : List NodeId) (idx : ℕ)
    (hidden : Option String) (steps : List NodeId) :
    m.Quiet (m.pipelineNext d present idx hidden steps).1 ∧
      (m.pipelineNext d present idx hidden steps).2 ≠ .start ∧
      ∀ w o, (m.pipelineNext d present idx hidden steps).2 ≠ .tail w o := by
  unfold pipelineNext
  split
  · exact ⟨Quiet.refl m,by simp,by simp⟩
  · split_ifs
    · exact ⟨quiet_post m _,by simp,by simp⟩
    · exact ⟨Quiet.refl m,by simp,by simp⟩

theorem pipelineReply_spec (m : ClusterMaster) (d : Dispatch) (present : List NodeId) (idx : ℕ)
    (hidden : Option String) (steps : List NodeId) (n : NodeId) (reply : AgentReply) (now : ℚ) :
    m.Quiet (m.pipelineReply d present idx hidden steps n reply now).1 ∧
      (m.pipelineReply d present idx hidden steps n reply now).2 ≠ .start ∧
      ∀ w o, (m.pipelineReply d present idx hidden steps n reply now).2 ≠ .tail w o := by
  unfold pipelineReply
  cases reply with
  | raised exception message => exact ⟨quiet_reportFault m n now,by simp,by simp⟩
  | notDict => exact ⟨Quiet.refl m,by simp,by simp⟩
  | dict a =>
    simp only
    cases h : stepFailure n a with
    | some o => exact ⟨Quiet.refl m,by simp,by simp⟩
    | none => exact pipelineNext_spec m d present (idx+1) _ _

theorem finalizeTask_spec (m : ClusterMaster) (id : TaskId) (o : DispatchOutcome) (now : ℚ) :
    (m.isRunning id = false ∧ m.finalizeTask id o now = (m,false)) ∨
      ∃ r, m.tasks.get? id = some r ∧ (m.objects r).status = .running ∧
        m.finalizeTask id o now = ((m.finalized r o now).persistTasks,true) := by
  unfold finalizeTask
  cases hr : m.tasks.get? id with
  | none => exact Or.inl ⟨by simp [isRunning,task?,hr],rfl⟩
  | some r =>
    by_cases hs : (m.objects r).status = .running
    · refine Or.inr ⟨r,rfl,hs,?_⟩
      simp [hs,finalized,DispatchOutcome.isRetry,and_assoc]
    · exact Or.inl ⟨by simp [isRunning,task?,hr,hs],by simp [hs]⟩

theorem resumeDispatch_effect {cid : ℕ} {d : Dispatch} (h : m.resumeDispatch cid d now = some m') :
    DispatchEffect m cid d now m' := by
  obtain ⟨task,attempt,nodeIds,pc⟩ := d
  cases pc with
  | start =>
    simp only [resumeDispatch,Option.some.injEq] at h
    subst h
    exact .continues (Quiet.refl m) ⟨rfl,by simp,by simp,by simp,by simp⟩
  | snapshot =>
    simp only [resumeDispatch,Option.some.injEq] at h
    subst h
    split_ifs
    · obtain ⟨hq,hs,ht⟩ := pipelineNext_spec m ⟨task,attempt,nodeIds,.snapshot⟩
        (nodeIds.filter m.nodes.contains) 0 none []
      exact .continues hq ⟨rfl,hs,ht,by simp,by simp⟩
    · exact .continues (quiet_startData m _) ⟨rfl,by simp [startData],by simp [startData],by simp,by simp⟩
  | data replies =>
    simp only [resumeDispatch,Option.ite_none_right_eq_some,Option.some.injEq] at h
    obtain ⟨-,rfl⟩ := h
    exact .continues (Quiet.refl m) ⟨rfl,by simp,by simp,by simp,by simp⟩
  | collect rest acc =>
    cases rest with
    | nil =>
      simp only [resumeDispatch,Option.some.injEq] at h
      subst h
      exact .continues (Quiet.refl m) ⟨rfl,by simp,by simp,by simp,by simp⟩
    | cons p rest =>
      simp only [resumeDispatch,Option.some.injEq] at h
      subst h
      refine .continues ?_ ⟨rfl,by simp,by simp,by simp,by simp⟩
      split_ifs
      · exact quiet_reportFault m p.1 now
      · exact Quiet.refl m
  | pipeline => simp [resumeDispatch] at h
  | finalizing o =>
    simp only [resumeDispatch,resumeFinalize,Option.some.injEq] at h
    rcases finalizeTask_spec m (m.objects task).taskId o now with ⟨hrun,heq⟩ | ⟨r,hr,hs,heq⟩
    · rw [heq] at h
      subst h
      exact .stale rfl hrun
    · rw [heq] at h
      subst h
      exact .finalizes (d := ⟨task,attempt,nodeIds,.finalizing o⟩) rfl hr hs
  | tail w o =>
    simp only [resumeDispatch,Option.ite_none_left_eq_some,Option.some.injEq] at h
    obtain ⟨-,rfl⟩ := h
    exact .done rfl

theorem receiveReply_continues {cid i : ℕ} {d : Dispatch} {reply : AgentReply}
    (h : m.receiveReply cid d i reply now = some m') :
    ∃ s d', m.Quiet s ∧ m.Continues d d' ∧ m' = s.setFrame cid (.dispatch d') := by
  obtain ⟨task,attempt,nodeIds,pc⟩ := d
  unfold receiveReply at h
  cases hn : nodeIds[i]? with
  | none => simp [hn] at h
  | some n =>
    simp only [hn] at h
    cases pc with
    | data replies =>
      simp only [Option.ite_none_right_eq_some,Option.some.injEq] at h
      obtain ⟨-,rfl⟩ := h
      refine ⟨_,_,?_,?_,rfl⟩
      rotate_left
      · exact ⟨rfl,by simp,by simp,by simp,by simp⟩
      cases reply with
      | raised exception message => exact quiet_reportFault m n now
      | notDict => exact Quiet.refl m
      | dict a => exact Quiet.refl m
    | pipeline present idx hidden steps =>
      simp only [Option.ite_none_right_eq_some,Option.some.injEq] at h
      obtain ⟨-,rfl⟩ := h
      obtain ⟨hq,hs,ht⟩ := pipelineReply_spec m ⟨task,attempt,nodeIds,.pipeline present idx hidden steps⟩
        present idx hidden steps n reply now
      refine ⟨_,_,hq,?_,rfl⟩
      exact ⟨rfl,hs,ht,by simp,by simp⟩
    | _ => simp at h

end ClusterMaster
end FusionMultiNodes
