import FusionMultiNodes.Master.FrameSteps
import FusionMultiNodes.Master.SingleHolder
import FusionMultiNodes.Master.TestBatch

/-! The status of a test batch along a run. -/
namespace FusionMultiNodes

/-- The task a coroutine may still assign, put back or give up. -/
def Frame.decides : Frame → List Ref
  | .assign r pc k =>
    if pc.isOpen = true ∨ (pc = .returned false ∧ k ≠ .submit) then [r] else []
  | _ => []

namespace ClusterMaster

def isEnded (m : ClusterMaster) (id : TaskId) : Bool := (m.task? id).any fun t => t.status.isDone

def endedIds (m : ClusterMaster) : List TaskId := m.tasks.keys.filter m.isEnded

/-- The ids `_cleanup_completed_tasks` removes. -/
def cleanedIds (m : ClusterMaster) : List TaskId :=
  let terminal := m.tasks.keys.filter fun id => (m.task? id).any fun t => isCleaned t.status
  terminal.take (terminal.length-m.config.maxCompletedTasks)

def refused? (m m' : ClusterMaster) : MasterEvent → Option TaskId
  | .resume cid _ =>
    match m.frames.get? cid with
    | some (.assign r pc .submit) =>
      if pc.isOpen = true ∧ m'.frames.get? cid = some (.assign r (.returned false) .submit) then
        some (m.objects r).taskId
      else none
    | _ => none
  | _ => none

/-- The step can put the task of the id back to work, replace it or remove it. -/
def Reopens (m : ClusterMaster) (id : TaskId) : MasterEvent → Prop
  | .resume cid _ => ∃ f ∈ m.frames.get? cid, ∃ r ∈ f.decides, (m.objects r).taskId = id
  | .receiveSyncedTasks records => ∃ d ∈ records, d.taskId = id ∧ m.accepts d = true
  | .degradeTask id' => id' = id ∧ ∃ r ∈ m.tasks.get? id, (m.objects r).status = .failed ∧
      (m.objects r).degradationCount < (m.objects r).maxDegradations ∧
      (m.objects r).nextModelSize ≠ none
  | .cleanupCompletedTasks => id ∈ m.cleanedIds
  | _ => False

instance (m : ClusterMaster) (id : TaskId) (ev : MasterEvent) : Decidable (m.Reopens id ev) := by
  apply MasterEvent.casesOn (motive := fun ev => Decidable (m.Reopens id ev)) ev <;> intros <;>
    dsimp only [Reopens] <;> infer_instance

variable {m m' s : ClusterMaster} {r x : Ref} {cid : ℕ} {ev : MasterEvent} {v : TaskView}
  {id : TaskId} {now : ℚ}

theorem isEnded_iff : m.isEnded id = true ↔
    ∃ r, m.tasks.get? id = some r ∧ (m.objects r).status.isDone = true := by
  simp only [isEnded,task?]
  cases m.tasks.get? id with
  | none => simp
  | some r => simp

theorem mem_endedIds : id ∈ m.endedIds ↔ m.isEnded id = true := by
  simp only [endedIds,List.mem_filter,and_iff_right_iff_imp]
  intro h
  obtain ⟨r,hr,-⟩ := isEnded_iff.mp h
  exact Dict.mem_keys_iff.mpr ⟨r,hr⟩

theorem tasks_foldl {α : Type} {F : ClusterMaster → α → ClusterMaster}
    (hF : ∀ s a, (F s a).tasks = s.tasks) (l : List α) (m : ClusterMaster) :
    (l.foldl F m).tasks = m.tasks := by
  induction l generalizing m with
  | nil => rfl
  | cons a l ih => exact (ih (F m a)).trans (hF m a)

theorem tasks_enqueueRetry (m : ClusterMaster) (r : Ref) (now : ℚ) :
    (m.enqueueRetry r now).tasks = m.tasks := by
  unfold enqueueRetry
  split_ifs <;> rfl

theorem tasks_cancelTask (m : ClusterMaster) (id : TaskId) (reason : String) (subs : Bool) :
    (m.cancelTask id reason subs).tasks = m.tasks := by
  rcases cancelTask_shape m id reason subs with h | ⟨_,_,_,_,_,-,h⟩ <;> rw [h]
  rfl

theorem tasks_dispatch {d : Dispatch} (h : DispatchEffect m cid d now s) : s.tasks = m.tasks := by
  have hend : ∀ o, (m.endDispatch cid d o).tasks = m.tasks := by
    intro o
    simp only [endDispatch,setPrevOutputs]
    split <;> rfl
  cases h with
  | continues hq => exact hq.still.tasks
  | finalizes =>
    simp only [finalized]
    split_ifs
    · exact tasks_enqueueRetry _ _ now
    · rfl
  | stale => exact hend _
  | done => exact hend _

theorem get?_tasks_set (hid : m.tasks.get? id = some r) (x : Ref) :
    (m.tasks.set (m.objects x).taskId x).get? id = some r ∨
      (m.tasks.set (m.objects x).taskId x).get? id = some x ∧ (m.objects x).taskId = id := by
  rw [Dict.get?_set]
  split_ifs with h
  · exact .inr ⟨rfl,h.symm⟩
  · exact .inl hid

inductive TableStep (m : ClusterMaster) : MasterEvent → ClusterMaster → Prop
  | same {ev : MasterEvent} {m' : ClusterMaster} : m'.tasks = m.tasks → TableStep m ev m'
  | puts {cid : ℕ} {now : ℚ} {x : Ref} {pc : AssignPc} {k : Caller} {m' : ClusterMaster} :
      m.frames.get? cid = some (.assign x pc k) →
      pc.isOpen = true ∨ (pc = .returned false ∧ k ≠ .submit) →
      m'.tasks = m.tasks.set (m.objects x).taskId x → TableStep m (.resume cid now) m'
  | cleans : TableStep m .cleanupCompletedTasks m.cleanupCompletedTasks
  | receives {records : List TaskRecord} {m' : ClusterMaster} :
      m'.tasks = (records.foldl mergeRecord m).tasks →
      TableStep m (.receiveSyncedTasks records) m'
  | restarts {now rnd : ℚ} : TableStep m (.restart now rnd) (m.restart now rnd)

theorem Effect.tableStep (h : Effect m ev m') : TableStep m ev m' := by
  cases h with
  | still hs _ | spawns hs _ _ => exact .same hs.tasks
  | swaps hq _ _ | refuses hq _ _ | replies hq _ _ => exact .same hq.still.tasks
  | parks hq hf hpc => exact .puts hf (.inl hpc) hq.still.tasks
  | requeues hf => exact .puts hf (.inr ⟨rfl,by simp⟩) rfl
  | commits _ hq _ hf hpc _ => exact .puts hf (.inl hpc) hq.still.tasks
  | triggers =>
    refine .same ?_
    simp only [setFrame,triggerDispatch]
    split_ifs <;> rfl
  | retries | fallsBack => exact .same (tasks_enqueueRetry m _ _)
  | dispatches _ he => exact .same (tasks_dispatch he)
  | completes hr => exact .same (by simp only [completeTask,hr]; rfl)
  | cancels => exact .same (tasks_cancelTask m _ _ _)
  | migrates hr hs =>
    refine .same ?_
    simp only [migrateTask,hr,hs,if_true]
    rfl
  | degrades hr hs hbudget hsize =>
    refine .same ?_
    simp only [degradeTask,hr,hs,hbudget,hsize,and_self,if_true]
    rfl
  | timesOut =>
    refine .same (tasks_foldl (fun s r => ?_) _ m)
    unfold timeoutOne
    split_ifs
    · exact tasks_enqueueRetry _ r _
    · rfl
  | @refreshes cid now offline _ =>
    refine .same ?_
    simp only [refreshTasks]
    split_ifs
    · rfl
    · exact tasks_foldl (F := fun s r => s.refreshOne offline now r)
        (fun s r => tasks_enqueueRetry _ r now) _ m
  | cleans => exact .cleans
  | @receives records =>
    refine .receives ?_
    unfold receiveSyncedTasks
    split_ifs <;> rfl
  | restarts => exact .restarts
  | _ => exact .same rfl

/-- A record that is taken over stands in the table under its id. -/
theorem tasks_mergeRecord (m : ClusterMaster) (d : TaskRecord) :
    (m.mergeRecord d).tasks = m.tasks ∨
      (m.mergeRecord d).tasks = m.tasks.set d.taskId m.nextRef := by
  unfold mergeRecord
  split_ifs
  · exact .inr rfl
  · exact .inl rfl

theorem get?_mergeRecords (records : List TaskRecord) (h : ∃ x, m.tasks.get? id = some x) :
    ∃ x, (records.foldl mergeRecord m).tasks.get? id = some x := by
  induction records generalizing m with
  | nil => exact h
  | cons d records ih =>
    refine ih ?_
    rcases tasks_mergeRecord m d with ht | ht
    · exact ht ▸ h
    · rw [ht,Dict.get?_set]
      split_ifs
      · exact ⟨_,rfl⟩
      · exact h

/-- A task keeps its place in the table, unless the step reopens it. -/
theorem Effect.task_kept (hw : m.Wf) (h : Effect m ev m') (hid : m.tasks.get? id = some r)
    (hrestart : ev.isRestart = false) :
    m'.tasks.get? id = some r ∨
      m.Reopens id ev ∧ (ev ≠ .cleanupCompletedTasks → ∃ x, m'.tasks.get? id = some x) := by
  cases h.tableStep with
  | same hs => exact .inl (hs ▸ hid)
  | @puts cid now x pc k _ hf hpc hs =>
    rcases get?_tasks_set hid x with hx | ⟨hx,htask⟩
    · exact .inl (hs ▸ hx)
    · refine .inr ⟨⟨_,hf,x,?_,htask⟩,fun _ => ⟨x,hs ▸ hx⟩⟩
      simp [Frame.decides,hpc]
  | cleans =>
    by_cases hclean : id ∈ m.cleanedIds
    · exact .inr ⟨hclean,fun hne => absurd rfl hne⟩
    · refine .inl ?_
      change (m.tasks.filter fun id _ => decide (id ∉ m.cleanedIds)).get? id = some r
      rw [Dict.get?_filter,hid]
      simp [hclean]
  | @receives records _ hmerge =>
    rcases view_mergeRecords records hw (hw.reg_lt hid) with hview | ⟨-,-,d,hd,htask,haccept⟩
    · have hreg : (records.foldl mergeRecord m).Registered r :=
        (congrArg TaskView.registered hview).mpr (hw.registered_of_get? hid)
      have hgrows : m.Grows (records.foldl mergeRecord m) :=
        grows_foldl fun s _ d _ => grows_mergeRecord s d
      have htask := (hgrows.evolves.job r (hw.reg_lt hid)).taskId
      refine .inl ?_
      rw [hmerge]
      rwa [Registered,htask,(hw.task_lt _ r hid).2] at hreg
    · exact .inr ⟨⟨d,hd,htask.trans (hw.task_lt _ r hid).2,haccept⟩,
        fun _ => hmerge ▸ get?_mergeRecords records ⟨r,hid⟩⟩
  | restarts => cases hrestart

theorem isDone_degradeTask (hid : m.tasks.get? id = some r)
    (hdone : (m.objects r).status.isDone = true) (h : ¬m.Reopens id (.degradeTask id)) :
    ((m.degradeTask id).objects r).status.isDone = true := by
  simp only [degradeTask,hid]
  split_ifs with hc
  · obtain ⟨hs,hbudget⟩ := hc
    cases hsize : (m.objects r).nextModelSize with
    | none => exact hdone
    | some size =>
      rcases hs with hs | hs | hs
      · rw [hs] at hdone
        cases hdone
      · rw [hs] at hdone
        cases hdone
      · exact absurd ⟨rfl,r,hid,hs,hbudget,by simp [hsize]⟩ h
  · exact hdone

theorem Move.stays_done (hw : m.Wf) (hmove : Move m r ev v)
    (hdone : (m.objects r).status.isDone = true) (hrestart : ev.isRestart = false)
    (hreopens : ¬m.Reopens (m.objects r).taskId ev)
    (hdegrade : ev ≠ .degradeTask (m.objects r).taskId) : v.status.isDone = true := by
  have hstatus : ∀ s : TaskStatus, s.isDone = false → (m.objects r).status ≠ s := by
    rintro s hs heq
    rw [heq,hs] at hdone
    exact nomatch hdone
  have hheld : ∀ {cid now pc k}, ev = .resume cid now →
      m.frames.get? cid = some (.assign r pc k) →
      pc.isOpen = true ∨ (pc = .returned false ∧ k ≠ .submit) → False := by
    rintro cid now pc k rfl hf hpc
    refine hreopens ⟨_,hf,r,?_,rfl⟩
    simp [Frame.decides,hpc]
  cases hmove with
  | park hf hpc =>
    rcases hpc with hpc | ⟨hpc,rest,rfl⟩
    · exact (hheld rfl hf (.inl hpc)).elim
    · exact (hheld rfl hf (.inr ⟨hpc,by simp⟩)).elim
  | assign hf hpc _ => exact (hheld rfl hf (.inl hpc)).elim
  | retry hf hk _ => exact (hheld rfl hf (.inr ⟨rfl,hk⟩)).elim
  | giveUp | exhaust => rfl
  | requeue _ hs | abandon _ hs | strand _ hs | migrate _ hs => exact absurd hs (hstatus _ rfl)
  | finish _ _ _ _ hs => exact absurd hs (hstatus _ rfl)
  | complete =>
    simp only
    split_ifs <;> rfl
  | cancel => rfl
  | degrade hid => exact absurd rfl ((hw.task_lt _ r hid).2 ▸ hdegrade)
  | reset => exact nomatch hrestart
  | _ => exact hdone

/-- One step: a registered task stays registered, and ended if it has ended. -/
theorem step_ended (hw : m.Wf) (h : machine.step m ev = some m') (hid : m.isEnded id = true)
    (hrestart : ev.isRestart = false) (hreopens : ¬m.Reopens id ev) : m'.isEnded id = true := by
  obtain ⟨r,hr,hdone⟩ := isEnded_iff.mp hid
  have htask := (hw.task_lt _ r hr).2
  have hkept : m'.tasks.get? id = some r := by
    rcases (step_effect h).task_kept hw hr hrestart with hkept | ⟨hopen,-⟩
    · exact hkept
    · exact absurd hopen hreopens
  refine isEnded_iff.mpr ⟨r,hkept,?_⟩
  by_cases hdegrade : ev = .degradeTask id
  · subst hdegrade
    obtain rfl := Option.some.inj h
    exact isDone_degradeTask hr hdone hreopens
  · refine (step_move hw h (hw.reg_lt hr)).stays_done hw hdone hrestart ?_ ?_
    · exact htask.symm ▸ hreopens
    · exact htask.symm ▸ hdegrade

theorem refused?_spec (h : refused? m m' ev = some id) :
    ∃ r, 0 < m.fresh r ∧ (m.objects r).taskId = id := by
  unfold refused? at h
  split at h
  · split at h
    · next r pc hf =>
      obtain ⟨⟨hpc,-⟩,hid⟩ := Option.ite_none_right_eq_some.mp h
      refine ⟨r,?_,Option.some.inj hid⟩
      have hle := le_weigh hf fun f => f.fresh.count r
      rw [Frame.fresh_of_isOpen hpc] at hle
      simp only [if_true,List.count_singleton_self] at hle
      exact hle
    · cases h
  · cases h

theorem Move.fresh_le (hmove : Move m r ev v) : v.fresh ≤ m.fresh r := by
  have hfresh : (m.view r).fresh = m.fresh r := rfl
  have hcaller : ∀ k : Caller, 0 ≤ k.fresh := by
    intro k
    cases k <;> simp [Caller.fresh]
  cases hmove with
  | @skip _ _ _ k | @park _ _ _ k | @assign _ _ _ k =>
    have hk := hcaller k
    simp only [hfresh]
    omega
  | refuse =>
    simp only [hfresh]
    omega
  | reset => exact Int.natCast_nonneg _
  | _ => exact le_refl _

/-- No submission under the id is waiting for its decision. -/
def Decided (m : ClusterMaster) (id : TaskId) : Prop :=
  ∀ r < m.nextRef, (m.objects r).taskId = id → m.fresh r = 0

instance (m : ClusterMaster) (id : TaskId) : Decidable (m.Decided id) :=
  inferInstanceAs (Decidable (∀ _ < _, _ → _))

theorem Decided.step (hd : m.Decided id) (hw : m.Wf) (h : machine.step m ev = some m')
    (hid : ∃ r, m.tasks.get? id = some r) : m'.Decided id := by
  intro x hx htask
  rcases Nat.lt_or_ge x m.nextRef with hx' | hx'
  · rw [((step_evolves hw h).job x hx').taskId] at htask
    have hle := (step_move hw h hx').fresh_le
    rw [hd x hx' htask] at hle
    exact Int.ofNat_eq_zero.mp (le_antisymm hle (Int.natCast_nonneg _))
  · have hfresh : (m'.view x).fresh = m'.fresh x := rfl
    have hbirth := step_birth hw h hx' hx
    generalize m'.view x = v at hbirth hfresh
    generalize ht : m'.objects x = t at hbirth
    cases hbirth with
    | submitted hnew _ =>
      obtain ⟨r,hr⟩ := hid
      simp only [isNewTask,Bool.and_eq_true,decide_eq_true_eq,List.all_eq_true,
        List.mem_range] at hnew
      have hne := hnew.2 r (hw.reg_lt hr)
      rw [(hw.task_lt _ r hr).2,← ht,htask] at hne
      exact absurd rfl hne
    | _ => exact Int.ofNat_eq_zero.mp hfresh.symm

theorem decided_restart (hw : m.Wf) (now rnd : ℚ) : (m.restart now rnd).Decided id := by
  have hstep : machine.step m (.restart now rnd) = some (m.restart now rnd) := rfl
  intro x hx _
  rcases Nat.lt_or_ge x m.nextRef with hx' | hx'
  · have hview : (m.restart now rnd).view x = _ := view_restart hw hx'
    exact Int.ofNat_eq_zero.mp (congrArg TaskView.fresh hview)
  · have hfresh : ((m.restart now rnd).view x).fresh = (m.restart now rnd).fresh x := rfl
    have hbirth := step_birth hw hstep hx' hx
    generalize (m.restart now rnd).view x = v at hbirth hfresh
    cases hbirth with
    | restored | queued => exact Int.ofNat_eq_zero.mp hfresh.symm

theorem exists_restored {now rnd : ℚ} {content : StoreContent} {d : TaskRecord}
    (hfile : m.store.file = some content) (hd : d ∈ content.tasks) :
    ∃ r, (m.restart now rnd).tasks.get? d.taskId = some r := by
  have hinsert : ∀ (l : List TaskRecord) (s : ClusterMaster),
      d ∈ l ∨ (∃ r, s.tasks.get? d.taskId = some r) →
      ∃ r, (l.foldl insertRecord s).tasks.get? d.taskId = some r := by
    intro l
    induction l with
    | nil => exact fun s hs => hs.elim (fun h => nomatch h) id
    | cons a l ih =>
      intro s hs
      refine ih _ ?_
      rcases hs with hs | hs
      · rcases List.mem_cons.mp hs with rfl | hs
        · exact .inr ⟨_,Dict.get?_set_self ..⟩
        · exact .inl hs
      · refine .inr ?_
        simp only [insertRecord,Dict.get?_set]
        split_ifs
        · exact ⟨_,rfl⟩
        · exact hs
  have hqueue : ∀ (l : List Ref) (s : ClusterMaster), (∃ r, s.tasks.get? d.taskId = some r) →
      ∃ r, (l.foldl enqueueRestored s).tasks.get? d.taskId = some r := by
    intro l
    induction l with
    | nil => exact fun s hs => hs
    | cons a l ih =>
      intro s hs
      refine ih _ ?_
      rw [enqueueRestored_eq]
      split_ifs
      · simp only [park,Dict.get?_set]
        split_ifs
        · exact ⟨_,rfl⟩
        · exact hs
      · exact hs
  simp only [restart,hfile]
  exact hqueue _ _ (hinsert content.tasks (m.reboot now rnd) (.inl hd))

/-- A task after a restart is loaded from a record that had ended, or waits. -/
theorem restored_ended {now rnd : ℚ} {content : StoreContent} (hw : m.Wf)
    (hfile : m.store.file = some content) (hid : (m.restart now rnd).tasks.get? id = some r)
    (hrecords : ∀ d ∈ content.tasks, d.taskId = id →
      (d.fromDict m.config.partialRecovery).status.isDone = true) :
    ((m.restart now rnd).objects r).status.isDone = true := by
  have hstep : machine.step m (.restart now rnd) = some (m.restart now rnd) := rfl
  have hw' : (m.restart now rnd).Wf := step_wf hw hstep
  obtain ⟨hr,htask⟩ := hw'.task_lt _ r hid
  have hge : m.nextRef ≤ r := by
    by_contra hlt
    exact not_listed_restart hw (not_le.mp hlt) (.inl (hw'.registered_of_get? hid))
  have hbirth := step_birth hw hstep hge hr
  generalize (m.restart now rnd).view r = v at hbirth
  generalize (m.restart now rnd).objects r = t at hbirth htask
  cases hbirth with
  | @restored _ _ content' d _ _ hfile' hd ht =>
    obtain rfl := Option.some.inj (hfile.symm.trans hfile')
    subst ht
    exact hrecords d hd ((fromDict_spec _ d).1.symm.trans htask)
  | @queued _ _ content' d _ hfile' hd hstatus ht =>
    obtain rfl := Option.some.inj (hfile.symm.trans hfile')
    subst ht
    have hdone := hrecords d hd ((fromDict_spec _ d).1.symm.trans htask)
    rw [hstatus] at hdone
    exact nomatch hdone

theorem isEnded_of_mem_cleanedIds (h : id ∈ m.cleanedIds) : m.isEnded id = true := by
  have hmem := List.mem_filter.mp (List.mem_of_mem_take h)
  obtain ⟨t,ht,hclean⟩ := (Option.any_eq_true _ _).mp hmem.2
  refine (Option.any_eq_true _ _).mpr ⟨t,ht,?_⟩
  generalize t.status = s at hclean
  cases s <;> first | rfl | exact nomatch hclean

end ClusterMaster

/-- A master, the tasks that have ended or were refused, and the batches whose status was terminal
once. -/
structure BatchWatch where
  master : ClusterMaster
  ended : List TaskId
  reported : List TestBatch

namespace BatchWatch

open ClusterMaster

def record (w : BatchWatch) (ev : MasterEvent) (m : ClusterMaster) : BatchWatch where
  master := m
  ended := m.endedIds ++ (refused? w.master m ev).toList ++ w.ended
  reported := (m.testBatches.values.filter fun b =>
    decide (TestBatch.IsTerminal (b.deriveStatus m))) ++ w.reported

/-- The route registers a batch when its submissions have returned. -/
def allows (w : BatchWatch) : MasterEvent → Bool
  | .registerTestBatch b => b.jobs.all fun j => decide (w.master.Decided j.taskId)
  | _ => true

def step (w : BatchWatch) (ev : MasterEvent) : Option BatchWatch :=
  if w.allows ev then (machine.step w.master ev).map (w.record ev) else none

def watch : Machine BatchWatch MasterEvent := ⟨step⟩

def create (config : MasterConfig) (ha : HaState) : BatchWatch := ⟨.create config ha,[],[]⟩

/-- A status that was terminal is, and a batch whose jobs have all ended has a terminal one. -/
structure KeepsStatus (w : BatchWatch) : Prop where
  monotone : ∀ b ∈ w.reported, b ∈ w.master.testBatches.values →
    TestBatch.IsTerminal (b.deriveStatus w.master)
  settled : ∀ b ∈ w.master.testBatches.values, (∀ j ∈ b.jobs, j.taskId ∈ w.ended) →
    TestBatch.IsTerminal (b.deriveStatus w.master)

def doneJobs (w : BatchWatch) : List TaskId :=
  (w.master.testBatches.values.flatMap fun b => b.jobs.map TestJob.taskId).filter fun id =>
    decide (id ∈ w.ended)

/-- A batch that is registered has jobs, all of them in the task table; one that is restored has
jobs, all of them in the store and none that ended without a record of it; no other step reopens a
job that has ended. -/
def KeepsEnded (w : BatchWatch) : MasterEvent → Prop
  | .registerTestBatch b => b.jobs ≠ [] ∧ ∀ j ∈ b.jobs,
      w.master.tasks.contains j.taskId = true ∧
        (j.taskId ∈ w.ended → w.master.isEnded j.taskId = true)
  | .restart _ _ => ∀ content ∈ w.master.store.file, ∀ b ∈ content.batches,
      b.jobs ≠ [] ∧ ∀ j ∈ b.jobs, (∃ d ∈ content.tasks, d.taskId = j.taskId) ∧
        (j.taskId ∈ w.ended → ∀ d ∈ content.tasks, d.taskId = j.taskId →
          (d.fromDict w.master.config.partialRecovery).status.isDone = true)
  | ev => ∀ id ∈ w.doneJobs, ¬w.master.Reopens id ev

instance (w : BatchWatch) (ev : MasterEvent) : Decidable (w.KeepsEnded ev) := by
  apply MasterEvent.casesOn (motive := fun ev => Decidable (w.KeepsEnded ev)) ev <;> intros <;>
    dsimp only [KeepsEnded] <;> infer_instance

/-- A job has a task, its submission is decided, and its end is not forgotten. -/
structure Follows (w : BatchWatch) (id : TaskId) : Prop where
  present : ∃ r, w.master.tasks.get? id = some r
  decided : w.master.Decided id
  kept : id ∈ w.ended → w.master.isEnded id = true

structure Sound (w : BatchWatch) : Prop where
  wf : w.master.Wf
  current : ∀ id, w.master.isEnded id = true → id ∈ w.ended
  jobs : ∀ b ∈ w.master.testBatches.values, b.jobs ≠ []
  follows : ∀ b ∈ w.master.testBatches.values, ∀ j ∈ b.jobs, w.Follows j.taskId
  reported : ∀ b ∈ w.reported, ∀ j ∈ b.jobs, j.taskId ∈ w.ended

variable {w w' : BatchWatch} {ev : MasterEvent} {id : TaskId} {b : TestBatch}

theorem sound_create (config : MasterConfig) (ha : HaState) : (create config ha).Sound :=
  ⟨wf_create config ha,fun _ => nofun,fun _ => nofun,fun _ => nofun,fun _ => nofun⟩

theorem Sound.keepsStatus (h : w.Sound) : w.KeepsStatus := by
  have hsettled : ∀ b ∈ w.master.testBatches.values, (∀ j ∈ b.jobs, j.taskId ∈ w.ended) →
      TestBatch.IsTerminal (b.deriveStatus w.master) := by
    intro b hb hended
    refine (TestBatch.isTerminal_deriveStatus_iff (h.jobs b hb)).mpr fun j hj => ?_
    exact isEnded_iff.mp ((h.follows b hb j hj).kept (hended j hj))
  exact ⟨fun b hb hmem => hsettled b hmem (h.reported b hb),hsettled⟩

theorem step_spec (h : watch.step w ev = some w') :
    w.allows ev = true ∧ machine.step w.master ev = some w'.master ∧
      w' = w.record ev w'.master := by
  obtain ⟨hallows,h⟩ := Option.ite_none_right_eq_some.mp h
  obtain ⟨m,hm,rfl⟩ := Option.map_eq_some_iff.mp h
  exact ⟨hallows,hm,rfl⟩

theorem mem_ended (h : watch.step w ev = some w') :
    id ∈ w'.ended ↔ w'.master.isEnded id = true ∨
      refused? w.master w'.master ev = some id ∨ id ∈ w.ended := by
  rw [(step_spec h).2.2]
  simp [record,mem_endedIds]

/-- One step: a job that is followed stays so, unless it has ended and the step reopens it. -/
theorem Follows.step (hf : w.Follows id) (hw : w.Sound) (h : watch.step w ev = some w')
    (hrestart : ev.isRestart = false) (hreopens : id ∈ w.ended → ¬w.master.Reopens id ev) :
    w'.Follows id := by
  obtain ⟨-,hm,-⟩ := step_spec h
  obtain ⟨r,hr⟩ := hf.present
  refine ⟨?_,hf.decided.step hw.wf hm hf.present,fun hended => ?_⟩
  · rcases (step_effect hm).task_kept hw.wf hr hrestart with hkept | ⟨hopen,hsome⟩
    · exact ⟨r,hkept⟩
    · refine hsome fun hclean => ?_
      subst hclean
      exact hreopens (hw.current id (isEnded_of_mem_cleanedIds hopen)) hopen
  · rcases (mem_ended h).mp hended with hended | hrefused | hended
    · exact hended
    · obtain ⟨x,hfresh,hid⟩ := refused?_spec hrefused
      have hx : x < w.master.nextRef := by
        by_contra hge
        have hzero := (hw.wf.view_unborn (not_lt.mp hge)).2.2.2.2
        omega
      have hzero := hf.decided x hx hid
      omega
    · exact step_ended hw.wf hm (hf.kept hended) hrestart (hreopens hended)

theorem Sound.batches_step (hw : w.Sound) (hG : w.KeepsEnded ev) (h : watch.step w ev = some w') :
    ∀ b ∈ w'.master.testBatches.values, b.jobs ≠ [] ∧ ∀ j ∈ b.jobs, w'.Follows j.taskId := by
  obtain ⟨hallows,hm,-⟩ := step_spec h
  intro b hb
  have hsame : (∀ b, ev ≠ .registerTestBatch b) → (∀ now rnd, ev ≠ .restart now rnd) →
      (∀ id ∈ w.doneJobs, ¬w.master.Reopens id ev) → ev.isRestart = false →
      b.jobs ≠ [] ∧ ∀ j ∈ b.jobs, w'.Follows j.taskId := by
    intro hreg hres hreopens hrestart
    rw [step_testBatches hm hreg hres] at hb
    refine ⟨hw.jobs b hb,fun j hj => ?_⟩
    refine (hw.follows b hb j hj).step hw h hrestart fun hended => hreopens _ ?_
    refine List.mem_filter.mpr ⟨List.mem_flatMap.mpr ⟨b,hb,?_⟩,by simpa using hended⟩
    exact List.mem_map_of_mem hj
  cases ev with
  | registerTestBatch new =>
    obtain ⟨hjobs,hnew⟩ := hG
    have hfollows : ∀ b, b = new ∨ b ∈ w.master.testBatches.values →
        b.jobs ≠ [] ∧ ∀ j ∈ b.jobs, w.Follows j.taskId := by
      rintro b (rfl | hb)
      · refine ⟨hjobs,fun j hj => ?_⟩
        obtain ⟨hcontains,hended⟩ := hnew j hj
        exact ⟨Option.isSome_iff_exists.mp hcontains,
          of_decide_eq_true (List.all_eq_true.mp hallows j hj),hended⟩
      · exact ⟨hw.jobs b hb,hw.follows b hb⟩
    have hmem : b = new ∨ b ∈ w.master.testBatches.values := by
      have hbatches : w'.master.testBatches = w.master.testBatches.set new.batchId new :=
        (congrArg ClusterMaster.testBatches (Option.some.inj hm)).symm
      rw [hbatches] at hb
      obtain ⟨k,hk⟩ := Dict.mem_values_iff.mp hb
      rw [Dict.get?_set] at hk
      split_ifs at hk
      · exact .inl (Option.some.inj hk).symm
      · exact .inr (Dict.mem_values_iff.mpr ⟨k,hk⟩)
    obtain ⟨hjobs,hfollows⟩ := hfollows b hmem
    exact ⟨hjobs,fun j hj => (hfollows j hj).step hw h rfl fun _ hopen => hopen⟩
  | restart now rnd =>
    have hmaster : w'.master = w.master.restart now rnd := (Option.some.inj hm).symm
    rw [hmaster] at hb
    obtain ⟨k,hk⟩ := Dict.mem_values_iff.mp hb
    obtain ⟨content,hfile,hcontent⟩ := testBatches_restart hk
    obtain ⟨hjobs,hrecords⟩ := hG content hfile b hcontent
    refine ⟨hjobs,fun j hj => ?_⟩
    obtain ⟨⟨d,hd,hid⟩,hdone⟩ := hrecords j hj
    obtain ⟨r,hr⟩ : ∃ r, (w.master.restart now rnd).tasks.get? d.taskId = some r :=
      exists_restored hfile hd
    rw [hid] at hr
    refine ⟨⟨r,hmaster ▸ hr⟩,hmaster ▸ decided_restart hw.wf now rnd,fun hended => ?_⟩
    rcases (mem_ended h).mp hended with hended | hrefused | hended
    · exact hended
    · exact nomatch hrefused
    · rw [hmaster]
      exact isEnded_iff.mpr ⟨r,hr,restored_ended hw.wf hfile hr (hdone hended)⟩
  | _ => exact hsame (fun _ => nofun) (fun _ _ => nofun) hG rfl

theorem Sound.step (hw : w.Sound) (hG : w.KeepsEnded ev) (h : watch.step w ev = some w') :
    w'.Sound := by
  obtain ⟨-,hm,hrecord⟩ := step_spec h
  have hbatches := hw.batches_step hG h
  refine ⟨step_wf hw.wf hm,fun id hended => (mem_ended h).mpr (.inl hended),
    fun b hb => (hbatches b hb).1,fun b hb => (hbatches b hb).2,fun b hb j hj => ?_⟩
  rw [hrecord] at hb
  rcases List.mem_append.mp hb with hb | hb
  · obtain ⟨hb,hterminal⟩ := List.mem_filter.mp hb
    have hended := (TestBatch.isTerminal_deriveStatus_iff (hbatches b hb).1).mp
      (of_decide_eq_true hterminal) j hj
    exact (mem_ended h).mpr (.inl (isEnded_iff.mpr hended))
  · exact (mem_ended h).mpr (.inr (.inr (hw.reported b hb j hj)))

/-- In every run in which batches are registered and restored with all their jobs, and no job that
has ended is reopened, a status that was terminal stays so, and every batch whose jobs have ended
has one. -/
theorem status_kept (config : MasterConfig) (ha : HaState) (evs : List MasterEvent)
    (h : watch.Along (fun w ev _ => w.KeepsEnded ev) (create config ha) evs) :
    watch.Along (fun _ _ w' => w'.KeepsStatus) (create config ha) evs :=
  Machine.Along.of_invariant
    (fun _ _ _ hw hstep hG => ⟨(hw.step hG hstep).keepsStatus,hw.step hG hstep⟩)
    (sound_create config ha) h

def oneJob (id : TaskId) : TestBatch := ⟨"b1",0,"",[⟨id,id,"",0,""⟩],"pending"⟩

/-- The job `j1` runs on `n1`, and its batch is registered. -/
def registeredRun : List MasterEvent :=
  [.registerNode (worker "n1") 0,.resume 0 0,.submit (plainTask "j1")] ++
    List.replicate 5 (.resume 1 5) ++ [.registerTestBatch (oneJob "j1")]

/-- The task `t2` is assigned by the coroutine `c`, and the store is written. -/
def storedRun (c : ℕ) : List MasterEvent :=
  [.submit (plainTask "t2")] ++ List.replicate 5 (.resume c 12) ++ [.fillTmp 1,.replaceFile 1 12]

theorem status_kept_restart : watch.Along (fun _ _ w' => w'.KeepsStatus)
    (create defaultConfig .create)
    (registeredRun ++ storedRun 2 ++ [.restart 13 0,.completeTask "j1" "" 20]) :=
  status_kept defaultConfig .create _ (by decide +kernel)

/-- The job ends before the store is written: the store has its batch, and no record of it. -/
def forgottenRun : List MasterEvent :=
  registeredRun ++ [.completeTask "j1" "" 6] ++ storedRun 3

def refusedRun : List MasterEvent :=
  [.configureScheduling 4 (some 0),.submit (plainTask "j1")] ++ List.replicate 5 (.resume 0 1)

/-- A completed batch runs again after a restart, and a batch without tasks runs for ever. -/
theorem batches_run_again :
    ¬watch.Along (fun _ _ w' => w'.KeepsStatus) (create defaultConfig .create)
        (forgottenRun ++ [.restart 13 0]) ∧
      ¬watch.Along (fun _ _ w' => w'.KeepsStatus) (create defaultConfig .create)
        (refusedRun ++ [.registerTestBatch (oneJob "j1")]) := by
  constructor
  · intro h
    have hexec : ((watch.exec (create defaultConfig .create) forgottenRun).any fun t =>
        (watch.step t (.restart 13 0)).any fun u =>
          decide (oneJob "j1" ∈ u.reported ∧ oneJob "j1" ∈ u.master.testBatches.values ∧
            (oneJob "j1").deriveStatus u.master = "running")) = true := by
      decide +kernel
    obtain ⟨t,ht,hexec⟩ := (Option.any_eq_true _ _).mp hexec
    obtain ⟨u,hu,hexec⟩ := (Option.any_eq_true _ _).mp hexec
    obtain ⟨hreported,hmem,hstatus⟩ := of_decide_eq_true hexec
    have hterminal := (h.last ht hu).monotone _ hreported hmem
    rw [hstatus] at hterminal
    exact absurd hterminal (by decide)
  · intro h
    have hexec : ((watch.exec (create defaultConfig .create) refusedRun).any fun t =>
        (watch.step t (.registerTestBatch (oneJob "j1"))).any fun u =>
          decide (oneJob "j1" ∈ u.master.testBatches.values ∧ "j1" ∈ u.ended ∧
            (oneJob "j1").deriveStatus u.master = "running")) = true := by
      decide
    obtain ⟨t,ht,hexec⟩ := (Option.any_eq_true _ _).mp hexec
    obtain ⟨u,hu,hexec⟩ := (Option.any_eq_true _ _).mp hexec
    obtain ⟨hmem,hended,hstatus⟩ := of_decide_eq_true hexec
    have hterminal := (h.last ht hu).settled _ hmem (by simpa [oneJob] using hended)
    rw [hstatus] at hterminal
    exact absurd hterminal (by decide)

end BatchWatch
end FusionMultiNodes
