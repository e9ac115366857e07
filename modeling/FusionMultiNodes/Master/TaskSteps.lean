import Mathlib.Logic.Relation
import FusionMultiNodes.Master.Dispatches

/-! What a step can do to the attributes of a task. -/
namespace FusionMultiNodes

open Relation

inductive StepKind
  | assigns
  /-- Running tasks are taken from their nodes. -/
  | interrupts
  | restarts
  | migrates
  | degrades (id : TaskId)
  | other
  deriving DecidableEq

/-- An assignment of the code to the attributes of a task, in a step of a kind. -/
inductive TaskChange (k : StepKind) (t : ClusterTask) : ClusterTask → Prop
  | park : k = .assigns ∨ k = .restarts →
      TaskChange k t { t with status := .pending, assignedNodes := [] }
  | commit {ns : List NodeId} {now : ℚ} :
      TaskChange k t { t with assignedNodes := ns, status := .running, startedAt := now }
  | retry {now : ℚ} : k = .assigns ∨ k = .interrupts → t.retryCount < maxRetryAttempts →
      TaskChange k t (ClusterMaster.retryTask t now)
  | giveUp {error : String} : TaskChange k t (ClusterMaster.giveUpTask t error)
  | fault {error : String} : TaskChange k t { t with error := error }
  | finish {o : DispatchOutcome} {now : ℚ} : TaskChange k t (ClusterMaster.finishTask t o now)
  | prevOutputs {outputs : List AgentOutput} :
      TaskChange k t { t with partialPrevOutputs := t.partialPrevOutputs.map fun _ => outputs }
  | complete {now : ℚ} {error : String} :
      TaskChange k t
        { t with
          status := if error = "" then .completed else .failed
          completedAt := now
          error := error }
  | cancel {reason : String} :
      TaskChange k t
        { t with
          assignedNodes := []
          status := .cancelled
          cancelReason := reason
          error := reason }
  | cancelling {reason : String} :
      TaskChange k t { t with cancelReason := reason, assignedNodes := [] }
  | cancelled : TaskChange k t { t with status := .cancelled, error := t.cancelReason }
  | migrate : k = .migrates → TaskChange k t
      { t with
        excludeNodes := appendMissing t.excludeNodes t.assignedNodes
        assignedNodes := []
        status := .pending }
  | degrade {size : String × String} : k = .degrades t.taskId → t.nextModelSize = some size →
      t.degradationCount < t.maxDegradations →
      TaskChange k t
        { t with
          assignedNodes := []
          modelName := ClusterMaster.degradedName t.modelName size
          degradedFromModel := t.modelName
          degradationCount := t.degradationCount+1
          status := .pending
          error := "" }
  | timeout : TaskChange k t { t with status := .timeout, error := timeoutText t.timeoutSeconds }
  | strand {ns : List NodeId} :
      TaskChange k t { t with excludeNodes := ns, assignedNodes := [], status := .migrated }

namespace ClusterMaster

def kind (m : ClusterMaster) : MasterEvent → StepKind
  | .resume cid _ =>
    match m.frames.get? cid with
    | some (.assign ..) => .assigns
    | some (.dispatch _) | some (.refreshing _) => .interrupts
    | _ => .other
  | .checkTimeouts _ => .interrupts
  | .restart _ _ => .restarts
  | .migrateTask _ => .migrates
  | .degradeTask id => .degrades id
  | _ => .other

structure Rewrites (m : ClusterMaster) (k : StepKind) (m' : ClusterMaster) : Prop where
  nextRef : m.nextRef ≤ m'.nextRef
  change : ∀ r < m.nextRef, ReflTransGen (TaskChange k) (m.objects r) (m'.objects r)

variable {m m' s : ClusterMaster} {k : StepKind} {r : Ref} {now : ℚ}

theorem Rewrites.refl (m : ClusterMaster) : m.Rewrites k m := ⟨le_refl _,fun _ _ => .refl⟩

theorem Rewrites.trans (h : m.Rewrites k s) (h' : s.Rewrites k m') : m.Rewrites k m' :=
  ⟨h.nextRef.trans h'.nextRef,fun r hr =>
    (h.change r hr).trans (h'.change r (hr.trans_le h.nextRef))⟩

theorem Rewrites.of_eq (hn : m'.nextRef = m.nextRef) (ho : m'.objects = m.objects) :
    m.Rewrites k m' :=
  ⟨hn.ge,fun r _ => by rw [ho]⟩

theorem Still.rewrites (h : m.Still m') : m.Rewrites k m' := .of_eq h.nextRef h.objects

theorem Rewrites.of_update {t : ClusterTask} (hn : m'.nextRef = m.nextRef)
    (ho : m'.objects = Function.update m.objects r t) (ht : TaskChange k (m.objects r) t) :
    m.Rewrites k m' := by
  refine ⟨hn.ge,fun x _ => ?_⟩
  rw [ho]
  by_cases hx : x = r
  · subst hx
    rw [Function.update_self]
    exact .single ht
  · rw [Function.update_of_ne hx]

theorem Rewrites.modifyTask {f : ClusterTask → ClusterTask}
    (hf : TaskChange k (m.objects r) (f (m.objects r))) : m.Rewrites k (m.modifyTask r f) :=
  .of_update rfl rfl hf

theorem rewrites_foldl {α : Type} {F : ClusterMaster → α → ClusterMaster}
    (hF : ∀ s a, Rewrites s k (F s a)) (l : List α) (m : ClusterMaster) :
    m.Rewrites k (l.foldl F m) := by
  induction l generalizing m with
  | nil => exact .refl m
  | cons a l ih => exact (hF m a).trans (ih (F m a))

theorem rewrites_park (hk : k = .assigns ∨ k = .restarts) (m : ClusterMaster) (r : Ref) :
    m.Rewrites k (m.park r) :=
  .of_update rfl rfl (.park hk)

theorem rewrites_enqueueRetry (hk : k = .assigns ∨ k = .interrupts) (m : ClusterMaster) (r : Ref)
    (now : ℚ) : m.Rewrites k (m.enqueueRetry r now) := by
  unfold enqueueRetry
  split_ifs with hbudget
  · exact .modifyTask .giveUp
  · exact .of_update rfl rfl (.retry hk (not_le.mp hbudget))

theorem rewrites_finalized (m : ClusterMaster) (r : Ref) (o : DispatchOutcome) (now : ℚ) :
    m.Rewrites .interrupts (m.finalized r o now) := by
  unfold finalized
  split_ifs
  · have hfault : m.Rewrites .interrupts
        ((m.releaseTask r).modifyTask r fun t => { t with error := o.error }) :=
      .of_update rfl rfl .fault
    exact hfault.trans (rewrites_enqueueRetry (.inr rfl) _ r now)
  · exact .of_update rfl rfl .finish

theorem rewrites_endDispatch (m : ClusterMaster) (c : ℕ) (d : Dispatch) (o : DispatchOutcome) :
    m.Rewrites .interrupts (m.endDispatch c d o) := by
  have hprev : m.Rewrites .interrupts (m.setPrevOutputs d.task o) := by
    unfold setPrevOutputs
    split
    · exact .refl m
    · exact .modifyTask .prevOutputs
  exact hprev.trans (.of_eq rfl rfl)

theorem rewrites_dispatch {c : ℕ} {d : Dispatch} (h : DispatchEffect m c d now s) :
    m.Rewrites .interrupts s := by
  cases h with
  | continues hq => exact hq.still.rewrites.trans (.of_eq rfl rfl)
  | finalizes => exact (rewrites_finalized m _ _ now).trans (.of_eq rfl rfl)
  | stale => exact rewrites_endDispatch m c d _
  | done => exact rewrites_endDispatch m c d _

theorem rewrites_cancelOne (m : ClusterMaster) (r : Ref) (reason : String) :
    m.Rewrites k (m.cancelOne r reason) :=
  .of_update (r := r) rfl rfl .cancel

theorem rewrites_cancelSubTasks (m : ClusterMaster) (reason : String) (fuel : ℕ)
    (stack : List TaskId) : m.Rewrites k (m.cancelSubTasks reason fuel stack) := by
  fun_induction cancelSubTasks m reason fuel stack with
  | case1 => exact .refl _
  | case2 => exact .refl _
  | case3 _ _ _ _ _ _ ih => exact ih
  | case4 m _ _ _ _ r _ _ ih => exact (rewrites_cancelOne m r reason).trans ih
  | case5 _ _ _ _ _ _ _ _ ih => exact ih

theorem rewrites_cancelTask (m : ClusterMaster) (id : TaskId) (reason : String) (subs : Bool) :
    m.Rewrites k (m.cancelTask id reason subs) := by
  unfold cancelTask
  split
  · exact .refl m
  · next r _ =>
    simp only
    set m₁ : ClusterMaster := { (m.releaseTask r).modifyTask r fun t =>
      { t with
        cancelReason := if reason = "" then "用户取消" else reason
        assignedNodes := [] } with
      pendingQueue := m.pendingQueue.filter fun q => decide ((m.objects q).taskId ≠ id) }
    have hmark : m.Rewrites k m₁ := .of_update (r := r) rfl rfl .cancelling
    have hsubs : m₁.Rewrites k (if subs = true then m₁.cancelSubTasks ("父任务取消: " ++ id)
        (m.cancelFuel (m.objects r).subTasks) (m.objects r).subTasks else m₁) := by
      split_ifs
      · exact rewrites_cancelSubTasks _ _ _ _
      · exact .refl _
    generalize (if subs = true then m₁.cancelSubTasks ("父任务取消: " ++ id)
      (m.cancelFuel (m.objects r).subTasks) (m.objects r).subTasks else m₁) = m₂ at hsubs
    have hend : m₂.Rewrites k
        (m₂.modifyTask r fun t => { t with status := .cancelled, error := t.cancelReason }) :=
      .modifyTask .cancelled
    by_cases hc : isCancellable (m.objects r) = true
    · rw [if_pos hc]
      exact ((hmark.trans hsubs).trans hend).trans (.of_eq rfl rfl)
    · rw [if_neg hc]
      exact .refl m

theorem rewrites_timeoutOne (m : ClusterMaster) (now : ℚ) (r : Ref) :
    m.Rewrites .interrupts (m.timeoutOne now r) := by
  unfold timeoutOne
  split_ifs
  · exact (Rewrites.modifyTask .timeout).trans (rewrites_enqueueRetry (.inr rfl) _ r now)
  · exact .refl m

theorem rewrites_refreshOne (m : ClusterMaster) (offline : List NodeId) (now : ℚ) (r : Ref) :
    m.Rewrites .interrupts (m.refreshOne offline now r) :=
  (Rewrites.modifyTask .strand).trans (rewrites_enqueueRetry (.inr rfl) _ r now)

theorem rewrites_refreshTasks (m : ClusterMaster) (c : ℕ) (offline : List NodeId) (now : ℚ) :
    m.Rewrites .interrupts (m.refreshTasks c offline now) := by
  simp only [refreshTasks]
  split_ifs
  · exact .of_eq rfl rfl
  · exact (rewrites_foldl (fun s r => rewrites_refreshOne s offline now r) _ m).trans
      (.of_eq rfl rfl)

theorem rewrites_insertRecord (m : ClusterMaster) (d : TaskRecord) :
    m.Rewrites k (m.insertRecord d) := by
  refine ⟨Nat.le_succ _,fun r hr => ?_⟩
  rw [objects_insertRecord hr]

theorem rewrites_receiveSyncedTasks (m : ClusterMaster) (records : List TaskRecord) :
    m.Rewrites k (m.receiveSyncedTasks records) := by
  have hmerge : m.Rewrites k (records.foldl mergeRecord m) := by
    apply rewrites_foldl
    intro s d
    unfold mergeRecord
    split_ifs
    · exact rewrites_insertRecord s d
    · exact .refl s
  unfold receiveSyncedTasks
  split_ifs
  · exact hmerge.trans (.of_eq rfl rfl)
  · exact hmerge

theorem rewrites_restart (m : ClusterMaster) (now rnd : ℚ) :
    m.Rewrites .restarts (m.restart now rnd) := by
  have hboot : m.Rewrites .restarts (m.reboot now rnd) := .of_eq rfl rfl
  have henqueue : ∀ (s : ClusterMaster) r, s.Rewrites .restarts (s.enqueueRestored r) := by
    intro s r
    simp only [enqueueRestored,enqueuePending]
    split_ifs <;> first | exact .refl s | exact rewrites_park (.inr rfl) s r
  unfold restart
  split
  · exact hboot
  · next content _ =>
    have hrestore : (m.reboot now rnd).Rewrites .restarts ((m.reboot now rnd).restoreTasks content) :=
      (rewrites_foldl rewrites_insertRecord content.tasks (m.reboot now rnd)).trans (.of_eq rfl rfl)
    exact (hboot.trans hrestore).trans (rewrites_foldl henqueue _ _)

theorem kind_assign {cid : ℕ} {pc : AssignPc} {c : Caller}
    (hf : m.frames.get? cid = some (.assign r pc c)) : m.kind (.resume cid now) = .assigns := by
  simp [kind,hf]

theorem Effect.rewrites {ev : MasterEvent} (h : Effect m ev m') (hw : m.Wf) :
    m.Rewrites (m.kind ev) m' := by
  cases h with
  | still hs _ => exact hs.rewrites
  | spawns hs _ _ => exact hs.rewrites.trans (.of_eq rfl rfl)
  | swaps hq _ _ => exact hq.still.rewrites.trans (.of_eq rfl rfl)
  | submits =>
    refine ⟨Nat.le_succ _,fun r hr => ?_⟩
    simp only [submit,spawn,Function.update_of_ne hr.ne]
    exact .refl
  | @exhausted cid now _ r _ error =>
    have hgiveUp : m.Rewrites (m.kind (.resume cid now)) (m.modifyTask r fun t => giveUpTask t error) :=
      .modifyTask .giveUp
    exact hgiveUp.trans (.of_eq rfl rfl)
  | refuses hq _ _ => exact hq.still.rewrites.trans (.of_eq rfl rfl)
  | parks hq hf _ =>
    exact (rewrites_park (.inl (kind_assign hf)) m _).trans
      (hq.still.rewrites.trans (.of_eq rfl rfl))
  | requeues hf => exact (rewrites_park (.inl (kind_assign hf)) m _).trans (.of_eq rfl rfl)
  | @commits _ cid now r _ _ _ ns _ hq =>
    have hcommit : m.Rewrites (m.kind (.resume cid now)) (m.commit r ns now) :=
      .of_update (r := r) rfl rfl .commit
    exact hcommit.trans (hq.still.rewrites.trans (.of_eq rfl rfl))
  | triggers =>
    refine .of_eq ?_ ?_ <;> simp only [triggerDispatch,setFrame] <;> split_ifs <;> rfl
  | retries hf | fallsBack hf _ =>
    exact (rewrites_enqueueRetry (.inl (kind_assign hf)) m _ _).trans (.of_eq rfl rfl)
  | @dispatches _ cid now d hf he =>
    have hkind : m.kind (.resume cid now) = .interrupts := by simp [kind,hf]
    exact hkind ▸ rewrites_dispatch he
  | replies hq _ _ => exact hq.still.rewrites.trans (.of_eq rfl rfl)
  | completes hr =>
    simp only [completeTask,hr]
    exact .of_update rfl rfl .complete
  | cancels => exact rewrites_cancelTask m _ _ _
  | migrates hr hs =>
    simp only [migrateTask,hr,hs,if_true]
    exact .of_update rfl rfl (.migrate rfl)
  | @degrades id r size hr hs hbudget hsize =>
    simp only [degradeTask,hr,hs,hbudget,hsize,and_self,if_true]
    refine .of_update rfl rfl (.degrade ?_ hsize hbudget)
    rw [(hw.task_lt id r hr).2]
    rfl
  | timesOut => exact rewrites_foldl (fun s r => rewrites_timeoutOne s _ r) _ m
  | @refreshes cid now offline hf =>
    have hkind : m.kind (.resume cid now) = .interrupts := by simp [kind,hf]
    exact hkind ▸ rewrites_refreshTasks m cid offline now
  | receives => exact rewrites_receiveSyncedTasks m _
  | restarts => exact rewrites_restart m _ _
  | _ => exact .of_eq rfl rfl

theorem step_rewrites {ev : MasterEvent} (hw : m.Wf) (h : machine.step m ev = some m') :
    m.Rewrites (m.kind ev) m' :=
  (step_effect h).rewrites hw

end ClusterMaster
end FusionMultiNodes
