import FusionMultiNodes.Master.FrameSteps
import FusionMultiNodes.Master.Isolation

/-! What the steps of a master leave of its fault records and of its routing strategy. -/
namespace FusionMultiNodes
namespace ClusterMaster

structure LeavesRecords (m m' : ClusterMaster) : Prop where
  faults : ∀ n l, m'.faultCounts.get? n = some l → m.faultCounts.get? n = some l
  strategy : m'.loadRouter.strategy = m.loadRouter.strategy

variable {m m' s : ClusterMaster} {c : ℕ} {f : Frame} {now : ℚ} {ev : MasterEvent} {r : Ref}

theorem LeavesRecords.of_eq (hf : m'.faultCounts = m.faultCounts)
    (hs : m'.loadRouter.strategy = m.loadRouter.strategy) : m.LeavesRecords m' :=
  ⟨fun _ _ h => by rwa [hf] at h,hs⟩

theorem LeavesRecords.refl (m : ClusterMaster) : m.LeavesRecords m := .of_eq rfl rfl

theorem LeavesRecords.trans (h : m.LeavesRecords s) (h' : s.LeavesRecords m') :
    m.LeavesRecords m' :=
  ⟨fun n l hl => h.faults n l (h'.faults n l hl),h'.strategy.trans h.strategy⟩

theorem LeavesRecords.after (h : s.LeavesRecords m') (hf : s.faultCounts = m.faultCounts)
    (hs : s.loadRouter.strategy = m.loadRouter.strategy) : m.LeavesRecords m' :=
  (LeavesRecords.of_eq hf hs).trans h

theorem leavesRecords_erase (m : ClusterMaster) (id : NodeId) :
    m.LeavesRecords { m with faultCounts := m.faultCounts.erase id } := by
  refine ⟨fun n l h => ?_,rfl⟩
  rw [Dict.get?_erase] at h
  split_ifs at h
  exact h

theorem leavesRecords_foldl {α : Type} {F : ClusterMaster → α → ClusterMaster}
    (hF : ∀ s a, LeavesRecords s (F s a)) (l : List α) (m : ClusterMaster) :
    m.LeavesRecords (l.foldl F m) := by
  induction l generalizing m with
  | nil => exact .refl m
  | cons a l ih => exact (hF m a).trans (ih (F m a))

theorem leavesRecords_enqueuePending (m : ClusterMaster) (r : Ref) (force : Bool) :
    m.LeavesRecords (m.enqueuePending r force).1 := by
  unfold enqueuePending
  split_ifs
  · exact .refl m
  · exact .of_eq rfl rfl

theorem leavesRecords_enqueueRetry (m : ClusterMaster) (r : Ref) (now : ℚ) :
    m.LeavesRecords (m.enqueueRetry r now) := by
  unfold enqueueRetry
  split_ifs <;> exact .of_eq rfl rfl

theorem leavesRecords_triggerDispatch (m : ClusterMaster) (r : Ref) :
    m.LeavesRecords (m.triggerDispatch r) := by
  simp only [triggerDispatch]
  split_ifs <;> exact .of_eq rfl rfl

theorem leavesRecords_dropExpiredBan (m : ClusterMaster) (id : NodeId) (now : ℚ) :
    m.LeavesRecords (m.dropExpiredBan id now) := by
  unfold dropExpiredBan
  split_ifs
  · exact ⟨(leavesRecords_erase m id).faults,rfl⟩
  · exact .refl m

theorem leavesRecords_unbanNode (m : ClusterMaster) (id : NodeId) :
    m.LeavesRecords (m.unbanNode id) :=
  ⟨(leavesRecords_erase m id).faults,rfl⟩

theorem leavesRecords_dropExpiredBans (m : ClusterMaster) (exclude : List NodeId) (now : ℚ) :
    m.LeavesRecords (m.dropExpiredBans exclude now) :=
  leavesRecords_foldl (F := fun s (n : NodeInfo) => s.dropExpiredBan n.nodeId now)
    (fun s n => leavesRecords_dropExpiredBan s n.nodeId now) _ m

theorem leavesRecords_assignConfirm (m : ClusterMaster) (r : Ref) (requiredMem : ℚ)
    (selected : List NodeId) (now : ℚ) :
    m.LeavesRecords (m.assignConfirm r requiredMem selected now).1 := by
  have hlooks : m.LeavesRecords (if m.looksForBackup (m.objects r) selected then
      m.dropExpiredBans (selected.filter m.hasFreeSlot ++ (m.objects r).excludeNodes) now
      else m) := by
    split_ifs
    · exact leavesRecords_dropExpiredBans m _ now
    · exact .refl m
  simp only [assignConfirm]
  split_ifs
  all_goals first
    | exact .refl m
    | exact leavesRecords_enqueuePending m r false
    | exact (leavesRecords_dropExpiredBans m _ now).trans (leavesRecords_enqueuePending _ r false)
    | exact (leavesRecords_dropExpiredBans m _ now).trans (.of_eq rfl rfl)
    | exact .of_eq rfl rfl

theorem leavesRecords_assignStep {pc : AssignPc} {p : ClusterMaster × AssignPc}
    (h : m.assignStep r now pc = some p) (hroute : ∀ requiredMem, pc ≠ .route requiredMem)
    (hselect : ∀ requiredMem original, pc ≠ .selecting requiredMem original) :
    m.LeavesRecords p.1 := by
  cases pc with
  | guards => exact Option.some.inj h ▸ .refl m
  | quota =>
    obtain rfl := Option.some.inj h
    simp only [assignQuota]
    split_ifs <;> first | exact .refl m | exact leavesRecords_enqueuePending m r false
  | localCheck requiredMem => exact Option.some.inj h ▸ .refl m
  | localCommit requiredMem =>
    obtain rfl := Option.some.inj h
    simp only [assignLocal]
    split_ifs <;> exact .of_eq rfl rfl
  | route requiredMem => exact absurd rfl (hroute requiredMem)
  | selecting requiredMem original => exact absurd rfl (hselect requiredMem original)
  | enqueueShort =>
    obtain rfl := Option.some.inj h
    simp only [assignShort]
    split_ifs
    · exact .refl m
    · exact leavesRecords_enqueuePending m r false
  | confirm requiredMem selected =>
    exact Option.some.inj h ▸ leavesRecords_assignConfirm m r requiredMem selected now
  | writing w =>
    obtain ⟨-,h⟩ := Option.ite_none_left_eq_some.mp h
    exact Option.some.inj h ▸ .refl m
  | trigger => exact Option.some.inj h ▸ leavesRecords_triggerDispatch m r
  | returned ok => cases h

theorem leavesRecords_assignReturned (m : ClusterMaster) (c : ℕ) (r : Ref) (ok : Bool) (now : ℚ)
    (k : Caller) : m.LeavesRecords (m.assignReturned c r ok now k) := by
  have hretry : m.LeavesRecords (if ok then m else m.enqueueRetry r now) := by
    split_ifs
    · exact .refl m
    · exact leavesRecords_enqueueRetry m r now
  have hpending : m.LeavesRecords (if ok then m else (m.enqueuePending r true).1) := by
    split_ifs
    · exact .refl m
    · exact leavesRecords_enqueuePending m r true
  cases k with
  | submit => exact .of_eq rfl rfl
  | drain rest => exact hpending.trans (.of_eq rfl rfl)
  | retry loopNow rest => exact hretry.trans (.of_eq rfl rfl)
  | migrate => exact hretry.trans (.of_eq rfl rfl)
  | degrade => exact hretry.trans (.of_eq rfl rfl)

theorem leavesRecords_resumeAssign {pc : AssignPc} {k : Caller}
    (h : m.resumeAssign c r k now pc = some m') (hroute : ∀ requiredMem, pc ≠ .route requiredMem)
    (hselect : ∀ requiredMem original, pc ≠ .selecting requiredMem original) :
    m.LeavesRecords m' := by
  rcases resumeAssign_cases h with ⟨ok,rfl,rfl⟩ | ⟨-,s,pc',hp,rfl⟩
  · exact leavesRecords_assignReturned m c r ok now k
  · exact (leavesRecords_assignStep hp hroute hselect).trans (.of_eq rfl rfl)

theorem leavesRecords_finalizeTask (m : ClusterMaster) (id : TaskId) (o : DispatchOutcome)
    (now : ℚ) : m.LeavesRecords (m.finalizeTask id o now).1 := by
  have hend : ∀ s : ClusterMaster, m.LeavesRecords s → m.LeavesRecords s.persistTasks :=
    fun s hs => hs.trans (.of_eq rfl rfl)
  unfold finalizeTask
  split
  · exact .refl m
  · next r _ =>
    simp only
    split_ifs
    · apply hend
      exact (leavesRecords_enqueueRetry _ r now).after rfl rfl
    · exact .of_eq rfl rfl
    · exact .refl m

theorem leavesRecords_endDispatch (m : ClusterMaster) (c : ℕ) (d : Dispatch) (o : DispatchOutcome) :
    m.LeavesRecords (m.endDispatch c d o) := by
  simp only [endDispatch,setPrevOutputs]
  split <;> exact .of_eq rfl rfl

theorem leavesRecords_pipelineNext (m : ClusterMaster) (d : Dispatch) (present : List NodeId)
    (idx : ℕ) (hidden : Option String) (steps : List NodeId) :
    m.LeavesRecords (m.pipelineNext d present idx hidden steps).1 := by
  obtain ⟨-,hnodes,hfaults⟩ := pipelineNext_tables m d present idx hidden steps
  refine .of_eq hfaults ?_
  unfold pipelineNext
  split
  · rfl
  · split_ifs <;> rfl

/-- A dispatch that goes on records no fault but for an answer that its loop takes as one. -/
theorem leavesRecords_resumeDispatch {d : Dispatch} (h : m.resumeDispatch c d now = some m') :
    m.LeavesRecords m' ∨ ∃ n reply rest acc, d.pc = .collect ((n,reply)::rest) acc ∧
      (collectReply acc n reply).2 = true ∧ m' = (m.reportFault n now).setFrame c
        (.dispatch { d with pc := .collect rest (collectReply acc n reply).1 }) := by
  obtain ⟨task,attempt,nodeIds,pc⟩ := d
  cases pc with
  | start => exact .inl (Option.some.inj h ▸ .of_eq rfl rfl)
  | snapshot =>
    obtain rfl := Option.some.inj h
    refine .inl ?_
    dsimp only
    split_ifs
    · exact (leavesRecords_pipelineNext m _ _ _ _ _).trans (.of_eq rfl rfl)
    · exact .of_eq rfl rfl
  | data replies =>
    obtain ⟨-,h⟩ := Option.ite_none_right_eq_some.mp h
    exact .inl (Option.some.inj h ▸ .of_eq rfl rfl)
  | collect rest acc =>
    cases rest with
    | nil => exact .inl (Option.some.inj h ▸ .of_eq rfl rfl)
    | cons p rest =>
      obtain ⟨n,reply⟩ := p
      obtain rfl := Option.some.inj h
      cases hfault : (collectReply acc n reply).2 with
      | true => exact .inr ⟨n,reply,rest,acc,rfl,hfault,rfl⟩
      | false => exact .inl (.of_eq rfl rfl)
  | pipeline present idx hidden steps => cases h
  | finalizing o =>
    obtain rfl := Option.some.inj h
    refine .inl ?_
    simp only [resumeFinalize]
    split_ifs
    · exact (leavesRecords_finalizeTask m _ o now).trans (.of_eq rfl rfl)
    · exact (leavesRecords_finalizeTask m _ o now).trans (leavesRecords_endDispatch _ c _ o)
  | tail w o =>
    obtain ⟨-,h⟩ := Option.ite_none_left_eq_some.mp h
    exact .inl (Option.some.inj h ▸ leavesRecords_endDispatch m c _ o)

theorem leavesRecords_refreshTasks (m : ClusterMaster) (c : ℕ) (offline : List NodeId) (now : ℚ) :
    m.LeavesRecords (m.refreshTasks c offline now) := by
  simp only [refreshTasks]
  split_ifs
  · exact .of_eq rfl rfl
  · refine LeavesRecords.trans (leavesRecords_foldl (fun s r => ?_) _ m) (.of_eq rfl rfl)
    exact (leavesRecords_enqueueRetry _ r now).after rfl rfl

theorem leavesRecords_cancelTask (m : ClusterMaster) (id : TaskId) (reason : String)
    (subs : Bool) : m.LeavesRecords (m.cancelTask id reason subs) := by
  rcases cancelTask_shape m id reason subs with h | ⟨_,_,_,_,_,-,h⟩ <;> rw [h]
  · exact .refl m
  · exact .of_eq rfl rfl

theorem leavesRecords_receiveSyncedTasks (m : ClusterMaster) (records : List TaskRecord) :
    m.LeavesRecords (m.receiveSyncedTasks records) := by
  have hmerge : m.LeavesRecords (records.foldl mergeRecord m) := by
    apply leavesRecords_foldl
    intro s d
    unfold mergeRecord
    split_ifs
    · exact .of_eq rfl rfl
    · exact .refl s
  unfold receiveSyncedTasks
  split_ifs
  · exact hmerge.trans (.of_eq rfl rfl)
  · exact hmerge

theorem strategy_foldl_updateMetrics (infos : List NodeInfo) (router : LoadRouter) (now : ℚ) :
    (infos.foldl (fun r n => r.updateMetrics n.nodeId (n.loadMetrics now) now) router).strategy =
      router.strategy := by
  induction infos generalizing router with
  | nil => rfl
  | cons n infos ih => exact ih _

end ClusterMaster

/-- The coroutine is in one of the two steps around a selection. -/
def Frame.routes : Frame → Bool
  | .assign _ (.route _) _ => true
  | .assign _ (.selecting _ _) _ => true
  | _ => false

namespace ClusterMaster

variable {m m' s : ClusterMaster} {c : ℕ} {f : Frame} {now : ℚ} {ev : MasterEvent} {r : Ref}

/-- A coroutine that goes on records no fault, and leaves the strategy, but for a loop over answers
and a selection. -/
theorem leavesRecords_resumeFrame (h : m.resumeFrame c now f = some m') (hf : f.routes = false)
    (hd : ∀ d, f ≠ .dispatch d) : m.LeavesRecords m' := by
  cases f with
  | assign r pc k =>
    refine leavesRecords_resumeAssign h ?_ ?_
    · rintro requiredMem rfl
      cases hf
    · rintro requiredMem original rfl
      cases hf
  | drainStart =>
    obtain rfl := Option.some.inj h
    unfold drainStart
    split_ifs <;> exact .of_eq rfl rfl
  | draining rest =>
    obtain rfl := Option.some.inj h
    cases rest <;> exact .of_eq rfl rfl
  | retrying loopNow rest =>
    obtain rfl := Option.some.inj h
    cases rest with
    | nil => exact .of_eq rfl rfl
    | cons r rest =>
      simp only [retryNext]
      split_ifs <;> exact .of_eq rfl rfl
  | cancelling w =>
    obtain ⟨-,h⟩ := Option.ite_none_left_eq_some.mp h
    exact Option.some.inj h ▸ .of_eq rfl rfl
  | refreshing offline => exact Option.some.inj h ▸ leavesRecords_refreshTasks m c offline now
  | probing rest =>
    cases rest with
    | nil => exact Option.some.inj h ▸ .of_eq rfl rfl
    | cons n rest => cases h
  | dispatch d => exact absurd rfl (hd d)

end ClusterMaster

/-- The event may record a fault, select nodes or start a new process. -/
def MasterEvent.mayRecord : MasterEvent → Bool
  | .reportFault _ _ | .reply _ _ _ _ | .resume _ _ | .restart _ _ => true
  | _ => false

namespace ClusterMaster

variable {m m' : ClusterMaster} {ev : MasterEvent}

theorem step_leavesRecords (h : machine.step m ev = some m') (hev : ev.mayRecord = false) :
    m.LeavesRecords m' := by
  by_cases hstore : ev.isStore = true
  · obtain ⟨_,_,_,rfl⟩ := step_store h hstore
    exact .of_eq rfl rfl
  cases ev with
  | restart => cases hev
  | resume => cases hev
  | reply => cases hev
  | reportFault => cases hev
  | probed cid ok now =>
    simp only [machine,step] at h
    split at h
    · obtain rfl := Option.some.inj h
      cases ok
      · exact ⟨(leavesRecords_erase m _).faults,rfl⟩
      · exact (leavesRecords_unbanNode m _).trans (.of_eq rfl rfl)
    · cases h
  | election e =>
    obtain ⟨p,-,rfl⟩ := Option.map_eq_some_iff.mp h
    exact .of_eq rfl rfl
  | registerNode info now =>
    obtain rfl := Option.some.inj h
    unfold registerNode
    split_ifs
    · exact .refl m
    · refine (leavesRecords_dropExpiredBan m info.nodeId now).trans (.of_eq rfl ?_)
      unfold dropExpiredBan
      split_ifs <;> rfl
  | unbanNode id => exact Option.some.inj h ▸ leavesRecords_unbanNode m id
  | updateNodeLoad id metrics used total supervisor now =>
    obtain rfl := Option.some.inj h
    unfold updateNodeLoad
    split_ifs <;> exact .of_eq rfl rfl
  | probeBannedNodes now =>
    obtain rfl := Option.some.inj h
    exact (leavesRecords_foldl leavesRecords_unbanNode _ m).trans (.of_eq rfl rfl)
  | receiveSyncedState infos banned now =>
    obtain rfl := Option.some.inj h
    exact .of_eq rfl (strategy_foldl_updateMetrics _ _ now)
  | submit t =>
    obtain ⟨-,h⟩ := Option.ite_none_right_eq_some.mp h
    exact Option.some.inj h ▸ .of_eq rfl rfl
  | doneCallback id =>
    obtain ⟨-,h⟩ := Option.ite_none_right_eq_some.mp h
    exact Option.some.inj h ▸ .of_eq rfl rfl
  | completeTask id error now =>
    obtain rfl := Option.some.inj h
    unfold completeTask
    split <;> exact .of_eq rfl rfl
  | cancelTask id reason subs => exact Option.some.inj h ▸ leavesRecords_cancelTask m id reason subs
  | migrateTask id =>
    obtain rfl := Option.some.inj h
    unfold migrateTask
    split
    · exact .refl m
    · split_ifs <;> exact .of_eq rfl rfl
  | degradeTask id =>
    obtain rfl := Option.some.inj h
    unfold degradeTask
    split
    · exact .refl m
    · simp only
      split_ifs
      · split <;> exact .of_eq rfl rfl
      · exact .refl m
  | checkTimeouts now =>
    obtain rfl := Option.some.inj h
    apply leavesRecords_foldl
    intro s r
    unfold timeoutOne
    split_ifs
    · exact (leavesRecords_enqueueRetry _ r now).after rfl rfl
    · exact .refl s
  | refreshNodeStatuses now =>
    obtain rfl := Option.some.inj h
    simp only [refreshNodes]
    split_ifs <;> exact .of_eq rfl rfl
  | retryLoop now =>
    obtain rfl := Option.some.inj h
    unfold retryLoop
    split_ifs <;> exact .of_eq rfl rfl
  | fillTmp | replaceFile | persistLoop | registerRunId | registerSession | handoffSession |
      closeSession =>
    exact absurd rfl hstore
  | receiveSyncedTasks records =>
    exact Option.some.inj h ▸ leavesRecords_receiveSyncedTasks m records
  | _ =>
    obtain rfl := Option.some.inj h
    exact .of_eq rfl rfl

/-- A new process has neither faults on record nor a strategy of its own. -/
theorem records_restart (m : ClusterMaster) (now rnd : ℚ) :
    (m.restart now rnd).faultCounts = ∅ ∧ (m.restart now rnd).loadRouter = LoadRouter.create := by
  have henqueue : ∀ (l : List Ref) (s : ClusterMaster),
      (l.foldl enqueueRestored s).faultCounts = s.faultCounts ∧
        (l.foldl enqueueRestored s).loadRouter = s.loadRouter := by
    intro l
    induction l with
    | nil => exact fun s => ⟨rfl,rfl⟩
    | cons r l ih =>
      intro s
      have hfirst : (s.enqueueRestored r).faultCounts = s.faultCounts ∧
          (s.enqueueRestored r).loadRouter = s.loadRouter := by
        simp only [enqueueRestored,enqueuePending]
        split_ifs <;> exact ⟨rfl,rfl⟩
      exact ⟨(ih _).1.trans hfirst.1,(ih _).2.trans hfirst.2⟩
  have hinsert : ∀ (l : List TaskRecord) (s : ClusterMaster),
      (l.foldl insertRecord s).faultCounts = s.faultCounts ∧
        (l.foldl insertRecord s).loadRouter = s.loadRouter := by
    intro l
    induction l with
    | nil => exact fun s => ⟨rfl,rfl⟩
    | cons d l ih => exact fun s => ih (s.insertRecord d)
  unfold restart
  split
  · exact ⟨rfl,rfl⟩
  · next content _ =>
    have hrestored := hinsert content.tasks (m.reboot now rnd)
    exact ⟨(henqueue _ _).1.trans hrestored.1,(henqueue _ _).2.trans hrestored.2⟩

theorem loadRouter_reportFault (m : ClusterMaster) (id : NodeId) (now : ℚ) :
    (m.reportFault id now).loadRouter = m.loadRouter := by
  unfold reportFault
  split_ifs <;> rfl

theorem loadRouter_receiveReply {c i : ℕ} {d : Dispatch} {reply : AgentReply} {now : ℚ}
    (h : m.receiveReply c d i reply now = some m') : m'.loadRouter = m.loadRouter := by
  unfold receiveReply at h
  split at h
  · exact nomatch h
  · split at h
    · obtain ⟨-,h⟩ := Option.ite_none_right_eq_some.mp h
      obtain rfl := Option.some.inj h
      cases reply with
      | raised => exact loadRouter_reportFault m _ now
      | _ => rfl
    · obtain ⟨-,h⟩ := Option.ite_none_right_eq_some.mp h
      obtain rfl := Option.some.inj h
      change (m.pipelineReply _ _ _ _ _ _ reply now).1.loadRouter = m.loadRouter
      unfold pipelineReply
      split
      · exact loadRouter_reportFault m _ now
      · rfl
      · split
        · rfl
        · unfold pipelineNext
          split
          · rfl
          · split_ifs <;> rfl
    · exact nomatch h

end ClusterMaster
end FusionMultiNodes
