import FusionMultiNodes.Lib.LruDict
import FusionMultiNodes.Master.BatchRuns
import FusionMultiNodes.Master.RetryBudget

/-! The counters of the metrics that a master exports, from one scrape to the next. -/
namespace FusionMultiNodes

/-- The values of `get_prometheus_metrics` that are exported as counters, and the sum and the count
of the latencies. -/
structure PrometheusCounters where
  taskRetriesTotal : ℕ
  rateLimitedTotal : ℕ
  dispatchLatencyCount : ℕ
  dispatchLatencySum : ℚ
  deriving DecidableEq

structure PrometheusCounters.Le (c c' : PrometheusCounters) : Prop where
  retries : c.taskRetriesTotal ≤ c'.taskRetriesTotal
  rateLimited : c.rateLimitedTotal ≤ c'.rateLimitedTotal
  count : c.dispatchLatencyCount ≤ c'.dispatchLatencyCount
  sum : c.dispatchLatencySum ≤ c'.dispatchLatencySum

def ClusterTask.isMeasured (t : ClusterTask) : Bool :=
  decide (t.status = .completed) && decide (0 < t.startedAt) && decide (t.startedAt < t.completedAt)

def ClusterTask.latency (t : ClusterTask) : ℚ := t.completedAt-t.startedAt

/-- A master with its attribute `_rate_limited_total`. -/
structure ScrapedMaster where
  master : ClusterMaster
  rateLimitedTotal : ℕ

namespace ScrapedMaster

/-- The results that a step counts as limited: those the loop of `_dispatch_data` comes to, and
those of the steps of a pipeline. -/
def rateLimits (m : ClusterMaster) : MasterEvent → ℕ
  | .resume cid _ =>
    match m.frames.get? cid with
    | some (.dispatch ⟨_,_,_,.collect ((_,.dict r)::_) _⟩) => if r.rateLimited then 1 else 0
    | _ => 0
  | .reply cid _ (.dict r) _ =>
    match m.frames.get? cid with
    | some (.dispatch ⟨_,_,_,.pipeline ..⟩) => if r.rateLimited then 1 else 0
    | _ => 0
  | _ => 0

def step (w : ScrapedMaster) (ev : MasterEvent) : Option ScrapedMaster :=
  (ClusterMaster.machine.step w.master ev).map fun m' =>
    ⟨m',if ev.isRestart then 0 else w.rateLimitedTotal+rateLimits w.master ev⟩

def machine : Machine ScrapedMaster MasterEvent := ⟨step⟩

def create (config : MasterConfig) (ha : HaState) : ScrapedMaster := ⟨.create config ha,0⟩

/-- The loop of `get_prometheus_metrics` over the task table. -/
def getPrometheusMetrics (w : ScrapedMaster) : PrometheusCounters :=
  let tasks := w.master.tasks.values.map w.master.objects
  let latencies := (tasks.filter ClusterTask.isMeasured).map ClusterTask.latency
  ⟨(tasks.map ClusterTask.retryCount).sum,w.rateLimitedTotal,latencies.length,latencies.sum⟩

end ScrapedMaster

namespace ClusterMaster

/-- The task that a coroutine may register under its id: it commits or parks it. -/
def places : Frame → Option Ref
  | .assign r pc k => if pc.isOpen ∨ (pc = .returned false ∧ k.isDrain) then some r else none
  | _ => none

/-- The task that a coroutine gives up or sends to the retry list. -/
def givesBack (m : ClusterMaster) : Frame → Option Ref
  | .assign r pc k =>
    if pc = .returned false ∧ k ≠ .submit ∧ k.isDrain = false then some r else none
  | .retrying loopNow (r::_) =>
    if (m.objects r).nextRetryAt ≤ loopNow ∧ maxRetryLoopAttempts ≤ (m.objects r).retryCount then
      some r
    else none
  | _ => none

/-- Each record that is taken over has at least as many retries as what it replaces. -/
def KeepsRetries (m : ClusterMaster) : List TaskRecord → Prop
  | [] => True
  | d::rest => (∀ t, m.task? d.taskId = some t → m.accepts d = true →
      t.retryCount ≤ (d.fromDict m.config.partialRecovery).retryCount) ∧
    (m.mergeRecord d).KeepsRetries rest

/-- A step that takes back no retry and no latency: the cleanup removes tasks that count for
nothing; a measured task is not completed again with an error or for an earlier time; records of a
peer have the retries of what they replace; and no coroutine assigns or gives up a measured task or
puts a task with fewer retries, or none for a measured one, in the place of another. -/
def KeepsCounts (m : ClusterMaster) : MasterEvent → Prop
  | .completeTask id error now => ∀ t, m.task? id = some t → t.isMeasured = true →
      error = "" ∧ t.completedAt ≤ now
  | .cleanupCompletedTasks => ∀ id ∈ m.cleanedIds, ∀ t, m.task? id = some t →
      t.retryCount = 0 ∧ t.isMeasured = false
  | .receiveSyncedTasks records => m.KeepsRetries records
  | .resume cid _ => ∀ f ∈ m.frames.get? cid,
      (∀ x ∈ places f, ∀ t, m.task? (m.objects x).taskId = some t →
        t.isMeasured = false ∧ t.retryCount ≤ (m.objects x).retryCount) ∧
      ∀ x ∈ m.givesBack f, m.Registered x → (m.objects x).isMeasured = false
  | .restart _ _ => False
  | _ => True

structure Outdone (t t' : ClusterTask) : Prop where
  retries : t.retryCount ≤ t'.retryCount
  latency : t.isMeasured = true → t'.isMeasured = true ∧ t.latency ≤ t'.latency

variable {m m' s : ClusterMaster} {r x : Ref} {cid : ℕ} {ev : MasterEvent} {id : TaskId} {now : ℚ}
  {t t' : ClusterTask}

theorem Outdone.refl (t : ClusterTask) : Outdone t t := ⟨le_refl _,fun h => ⟨h,le_refl _⟩⟩

theorem Outdone.trans {u : ClusterTask} (h : Outdone t u) (h' : Outdone u t') : Outdone t t' :=
  ⟨h.retries.trans h'.retries,fun ht =>
    ⟨(h'.latency (h.latency ht).1).1,(h.latency ht).2.trans (h'.latency (h.latency ht).1).2⟩⟩

theorem Outdone.of_eq (h : t' = t) : Outdone t t' := h ▸ .refl t

theorem Outdone.of_unmeasured (hretries : t.retryCount ≤ t'.retryCount) (h : t.isMeasured = false) :
    Outdone t t' :=
  ⟨hretries,fun h' => nomatch h.symm.trans h'⟩

theorem completed_of_isMeasured (h : t.isMeasured = true) : t.status = .completed := by
  rw [ClusterTask.isMeasured,Bool.and_eq_true,Bool.and_eq_true,decide_eq_true_eq] at h
  exact h.1.1

theorem not_isMeasured (h : t.status ≠ .completed) : t.isMeasured = false := by
  rw [← Bool.not_eq_true]
  exact fun ht => h (completed_of_isMeasured ht)

theorem objects_timeouts (hs : (m.objects r).status = .completed) (l : List Ref) :
    (l.foldl (fun s x => s.timeoutOne now x) m).objects r = m.objects r := by
  induction l generalizing m with
  | nil => rfl
  | cons x l ih =>
    have hone : (m.timeoutOne now x).objects r = m.objects r := by
      by_cases hx : r = x
      · subst hx
        rw [timeoutOne,if_neg]
        simp [isTimedOut,hs]
      · exact (timeoutOne_ne hx).1
    rw [List.foldl_cons,ih (by rw [hone]; exact hs),hone]

theorem objects_refreshes {offline : List NodeId} (l : List Ref) (hl : r ∉ l) :
    (l.foldl (fun s x => s.refreshOne offline now x) m).objects r = m.objects r := by
  induction l generalizing m with
  | nil => rfl
  | cons x l ih =>
    obtain ⟨hx,hl⟩ := not_or.mp (mt List.mem_cons.mpr hl)
    rw [List.foldl_cons,ih hl,(refreshOne_ne hx).1]

theorem objects_cancelSubTasks (hs : (m.objects r).status = .completed) (reason : String)
    (fuel : ℕ) (stack : List TaskId) :
    (m.cancelSubTasks reason fuel stack).objects r = m.objects r := by
  revert hs
  fun_induction cancelSubTasks m reason fuel stack with
  | case1 => exact fun _ => rfl
  | case2 => exact fun _ => rfl
  | case3 _ _ _ _ _ _ ih => exact ih
  | case4 m _ _ _ _ x _ hcancel ih =>
    intro hs
    have hx : r ≠ x := by
      rintro rfl
      rw [isCancellable,hs] at hcancel
      cases hcancel
    have hone : (m.cancelOne x reason).objects r = m.objects r := Function.update_of_ne hx _ _
    rw [ih (by rw [hone]; exact hs),hone]
  | case5 _ _ _ _ _ _ _ _ ih => exact ih

theorem objects_cancelTask (hs : (m.objects r).status = .completed) (id : TaskId)
    (reason : String) (subs : Bool) : (m.cancelTask id reason subs).objects r = m.objects r := by
  unfold cancelTask
  cases m.tasks.get? id with
  | none => rfl
  | some x =>
    simp only
    set m₁ : ClusterMaster := { (m.releaseTask x).modifyTask x fun t =>
      { t with
        cancelReason := if reason = "" then "用户取消" else reason
        assignedNodes := [] } with
      pendingQueue := m.pendingQueue.filter fun q => decide ((m.objects q).taskId ≠ id) }
    by_cases hcancel : isCancellable (m.objects x) = true
    · have hx : r ≠ x := by
        rintro rfl
        rw [isCancellable,hs] at hcancel
        cases hcancel
      have hmark : m₁.objects r = m.objects r := Function.update_of_ne hx _ _
      have hsubs : (if subs = true then m₁.cancelSubTasks ("父任务取消: " ++ id)
          (m.cancelFuel (m.objects x).subTasks) (m.objects x).subTasks else m₁).objects r =
            m.objects r := by
        split_ifs
        · exact (objects_cancelSubTasks (hmark ▸ hs) _ _ _).trans hmark
        · exact hmark
      rw [if_pos hcancel]
      exact (Function.update_of_ne hx _ _).trans hsubs
    · rw [if_neg hcancel]

theorem objects_finalized (h : r ≠ x) (o : DispatchOutcome) :
    (m.finalized x o now).objects r = m.objects r := by
  unfold finalized
  split_ifs
  · rw [objects_enqueueRetry_ne h]
    exact Function.update_of_ne h _ _
  · exact Function.update_of_ne h _ _

/-- The end of a dispatch only sets what it keeps of earlier nodes. -/
theorem outdone_endDispatch (d : Dispatch) (o : DispatchOutcome) :
    Outdone (m.objects r) ((m.endDispatch cid d o).objects r) := by
  simp only [endDispatch,setPrevOutputs]
  cases o.prevOutputs with
  | none => exact .refl _
  | some outputs =>
    show Outdone (m.objects r) (Function.update m.objects d.task _ r)
    by_cases hr : r = d.task
    · subst hr
      rw [Function.update_self]
      exact ⟨le_refl _,fun h => ⟨h,le_refl _⟩⟩
    · rw [Function.update_of_ne hr]
      exact .refl _

theorem outdone_mergeRecords (records : List TaskRecord) (hw : m.Wf) (hk : m.KeepsRetries records)
    (hid : m.tasks.get? id = some r) : ∃ r',
      (records.foldl mergeRecord m).tasks.get? id = some r' ∧
        Outdone (m.objects r) ((records.foldl mergeRecord m).objects r') := by
  induction records generalizing m r with
  | nil => exact ⟨r,hid,.refl _⟩
  | cons d rest ih =>
    obtain ⟨hretries,hrest⟩ := hk
    have hone : ∃ x, (m.mergeRecord d).tasks.get? id = some x ∧
        Outdone (m.objects r) ((m.mergeRecord d).objects x) := by
      by_cases hacc : m.accepts d = true
      · have hm : m.mergeRecord d = m.insertRecord d := if_pos hacc
        rw [hm]
        by_cases hsame : id = d.taskId
        · subst hsame
          have htask : m.task? d.taskId = some (m.objects r) := by rw [task?,hid]; rfl
          refine ⟨m.nextRef,Dict.get?_set_self _ _ _,?_⟩
          have hobj : (m.insertRecord d).objects m.nextRef =
              d.fromDict m.config.partialRecovery := Function.update_self _ _ _
          rw [hobj]
          refine .of_unmeasured (hretries _ htask hacc) (not_isMeasured fun hs => ?_)
          rw [accepts,htask] at hacc
          simp [isProtected,hs] at hacc
        · refine ⟨r,?_,.of_eq (Function.update_of_ne (hw.reg_lt hid).ne _ _)⟩
          show (m.tasks.set d.taskId m.nextRef).get? id = some r
          rw [Dict.get?_set,if_neg hsame]
          exact hid
      · have hm : m.mergeRecord d = m := if_neg hacc
        rw [hm]
        exact ⟨r,hid,.refl _⟩
    obtain ⟨x,hx,houtdone⟩ := hone
    obtain ⟨r',hr',houtdone'⟩ := ih ((grows_mergeRecord m d).wf hw) hrest hx
    exact ⟨r',hr',houtdone.trans houtdone'⟩

/-- A task that takes its place in the table again outdoes what was there. -/
theorem outdone_set (hw : m.Wf) (hid : m.tasks.get? id = some r)
    (htasks : s.tasks = m.tasks.set (m.objects x).taskId x)
    (hother : r ≠ x → s.objects r = m.objects r)
    (hcount : (m.objects x).retryCount ≤ (s.objects x).retryCount)
    (hplace : ∀ t, m.task? (m.objects x).taskId = some t →
      t.isMeasured = false ∧ t.retryCount ≤ (m.objects x).retryCount) :
    ∃ r', s.tasks.get? id = some r' ∧ Outdone (m.objects r) (s.objects r') := by
  by_cases hsame : id = (m.objects x).taskId
  · subst hsame
    have htask : m.task? (m.objects x).taskId = some (m.objects r) := by rw [task?,hid]; rfl
    obtain ⟨hunmeasured,hretries⟩ := hplace _ htask
    refine ⟨x,?_,.of_unmeasured (hretries.trans hcount) hunmeasured⟩
    rw [htasks,Dict.get?_set,if_pos rfl]
  · have hne : r ≠ x := by
      rintro rfl
      exact hsame (hw.task_lt id r hid).2.symm
    refine ⟨r,?_,.of_eq (hother hne)⟩
    rw [htasks,Dict.get?_set,if_neg hsame]
    exact hid

/-- A task that a coroutine gives up or retries is not measured. -/
theorem outdone_enqueueRetry (hw : m.Wf) (hid : m.tasks.get? id = some r)
    (hback : m.Registered x → (m.objects x).isMeasured = false) :
    Outdone (m.objects r) ((m.enqueueRetry x now).objects r) := by
  by_cases hx : r = x
  · subst hx
    have hrewrites := rewrites_enqueueRetry (k := .assigns) (.inl rfl) m r now
    exact .of_unmeasured (hrewrites.counts (hw.reg_lt hid)).le (hback (hw.registered_of_get? hid))
  · exact .of_eq (objects_enqueueRetry_ne hx)

theorem outdone_dispatch {d : Dispatch} (hlt : r < m.nextRef) (h : DispatchEffect m cid d now s) :
    Outdone (m.objects r) (s.objects r) := by
  have hcounts := ((rewrites_dispatch h).counts hlt).le
  cases h with
  | continues hq _ => exact .of_eq (congrFun hq.still.objects r)
  | @finalizes x _ _ _ hrun =>
    by_cases hx : r = x
    · subst hx
      exact .of_unmeasured hcounts (not_isMeasured (by simp [hrun]))
    · exact .of_eq (objects_finalized hx _)
  | stale => exact outdone_endDispatch d _
  | done => exact outdone_endDispatch d _

/-- A measured task that is completed again later, and without an error, is measured. -/
theorem outdone_completeTask {error : String} (hid : m.tasks.get? id = some r)
    (hk : (m.objects r).isMeasured = true → error = "" ∧ (m.objects r).completedAt ≤ now) :
    Outdone (m.objects r) ((m.completeTask id error now).objects r) := by
  simp only [completeTask,hid]
  show Outdone (m.objects r) (Function.update m.objects r _ r)
  rw [Function.update_self]
  refine ⟨le_refl _,fun hm => ?_⟩
  obtain ⟨rfl,hnow⟩ := hk hm
  simp only [ClusterTask.isMeasured,Bool.and_eq_true,decide_eq_true_eq] at hm
  refine ⟨?_,sub_le_sub_right hnow _⟩
  rw [ClusterTask.isMeasured,Bool.and_eq_true,Bool.and_eq_true]
  exact ⟨⟨rfl,decide_eq_true hm.1.2⟩,decide_eq_true (hm.2.trans_le hnow)⟩

theorem Effect.keeps_entry (hw : m.Wf) (h : Effect m ev m') (hk : m.KeepsCounts ev)
    (hid : m.tasks.get? id = some r) :
    ((m.objects r).retryCount = 0 ∧ (m.objects r).isMeasured = false) ∨
      ∃ r', m'.tasks.get? id = some r' ∧ Outdone (m.objects r) (m'.objects r') := by
  have hlt := hw.reg_lt hid
  have hcounts : ∀ y < m.nextRef, (m.objects y).retryCount ≤ (m'.objects y).retryCount :=
    fun y hy => ((h.rewrites hw).counts hy).le
  have htask : m.task? id = some (m.objects r) := by rw [task?,hid]; rfl
  have hstatus : (m.objects r).isMeasured = true → ∀ s, (m.objects r).status = s → s = .completed :=
    fun hm _ hs => hs.symm.trans (completed_of_isMeasured hm)
  have hsame : ∀ {s : ClusterMaster}, s.tasks = m.tasks → s.objects r = m.objects r →
      ∃ r', s.tasks.get? id = some r' ∧ Outdone (m.objects r) (s.objects r') :=
    fun hs ho => ⟨r,hs ▸ hid,.of_eq ho⟩
  have hunmeasured : m'.tasks = m.tasks →
      ((m.objects r).isMeasured = true → m'.objects r = m.objects r) →
      ∃ r', m'.tasks.get? id = some r' ∧ Outdone (m.objects r) (m'.objects r') := by
    intro hs hobj
    refine ⟨r,hs ▸ hid,?_⟩
    cases hm : (m.objects r).isMeasured with
    | false => exact .of_unmeasured (hcounts r hlt) hm
    | true => exact .of_eq (hobj hm)
  cases h with
  | still hs _ | spawns hs _ _ =>
    exact .inr (hsame hs.tasks (congrFun hs.objects r))
  | swaps hq _ _ | refuses hq _ _ | replies hq _ _ =>
    exact .inr (hsame hq.still.tasks (congrFun hq.still.objects r))
  | submits => exact .inr (hsame rfl (Function.update_of_ne hlt.ne _ _))
  | exhausted hf hdue hmax =>
    refine .inr (hunmeasured rfl fun hm => Function.update_of_ne ?_ _ _)
    rintro rfl
    have hback := (hk _ hf).2 r (by simp [givesBack,hdue,hmax]) (hw.registered_of_get? hid)
    cases hm.symm.trans hback
  | parks hq hf hpc =>
    refine .inr (outdone_set hw hid hq.still.tasks (fun hx => ?_)
      (hcounts _ (hw.refs_lt _ _ hf _ (List.mem_cons_self ..)))
      ((hk _ hf).1 _ (by simp [places,hpc])))
    exact (congrFun hq.still.objects r).trans (Function.update_of_ne hx _ _)
  | requeues hf =>
    exact .inr (outdone_set hw hid rfl (fun hx => Function.update_of_ne hx _ _)
      (hcounts _ (hw.refs_lt _ _ hf _ (List.mem_cons_self ..)))
      ((hk _ hf).1 _ (by simp [places,Caller.isDrain])))
  | commits _ hq _ hf hpc _ =>
    refine .inr (outdone_set hw hid hq.still.tasks (fun hx => ?_)
      (hcounts _ (hw.refs_lt _ _ hf _ (List.mem_cons_self ..)))
      ((hk _ hf).1 _ (by simp [places,hpc])))
    exact (congrFun hq.still.objects r).trans (Function.update_of_ne hx _ _)
  | triggers =>
    refine .inr (hsame ?_ ?_) <;> simp only [setFrame,triggerDispatch] <;> split_ifs <;> rfl
  | retries hf =>
    exact .inr ⟨r,(tasks_enqueueRetry m _ _).symm ▸ hid,outdone_enqueueRetry hw hid
      ((hk _ hf).2 _ (by simp [givesBack,Caller.isDrain]))⟩
  | fallsBack hf hcaller =>
    refine .inr ⟨r,(tasks_enqueueRetry m _ _).symm ▸ hid,outdone_enqueueRetry hw hid
      ((hk _ hf).2 _ ?_)⟩
    rcases hcaller with rfl | rfl <;> simp [givesBack,Caller.isDrain]
  | dispatches _ he => exact .inr ⟨r,(tasks_dispatch he).symm ▸ hid,outdone_dispatch hlt he⟩
  | @completes id' error now x hx =>
    have htasks : (m.completeTask id' error now).tasks = m.tasks := by
      simp only [completeTask,hx]
      rfl
    refine .inr ⟨r,htasks ▸ hid,?_⟩
    by_cases hsame : id = id'
    · subst hsame
      exact outdone_completeTask hid (hk _ htask)
    · have hne : r ≠ x := by
        rintro rfl
        exact hsame ((hw.task_lt _ _ hid).2.symm.trans (hw.task_lt _ _ hx).2)
      refine .of_eq ?_
      simp only [completeTask,hx]
      exact Function.update_of_ne hne _ _
  | cancels =>
    exact .inr (hunmeasured (tasks_cancelTask m _ _ _) fun hm =>
      objects_cancelTask (completed_of_isMeasured hm) _ _ _)
  | migrates hr hs =>
    simp only [migrateTask,hr,hs,if_true] at hunmeasured ⊢
    refine .inr (hunmeasured rfl fun hm => Function.update_of_ne ?_ _ _)
    rintro rfl
    cases hstatus hm _ hs
  | degrades hr hs hbudget hsize =>
    simp only [degradeTask,hr,hs,hbudget,hsize,and_self,if_true] at hunmeasured ⊢
    refine .inr (hunmeasured rfl fun hm => Function.update_of_ne ?_ _ _)
    rintro rfl
    rcases hs with hs | hs | hs <;> cases hstatus hm _ hs
  | timesOut =>
    refine .inr (hunmeasured (tasks_foldl (fun s r => ?_) _ m) fun hm =>
      objects_timeouts (completed_of_isMeasured hm) _)
    unfold timeoutOne
    split_ifs
    · exact tasks_enqueueRetry _ r _
    · rfl
  | @refreshes cid now offline _ =>
    simp only [refreshTasks] at hunmeasured ⊢
    split_ifs at hunmeasured ⊢
    · exact .inr (hsame rfl rfl)
    · refine .inr (hunmeasured (tasks_foldl (F := fun s r => s.refreshOne offline now r)
        (fun s r => tasks_enqueueRetry _ r now) _ m) fun hm => objects_refreshes _ fun hmem => ?_)
      have haffected := (List.mem_filter.mp hmem).2
      rw [isAffected,completed_of_isMeasured hm] at haffected
      cases haffected
  | cleans =>
    by_cases hclean : id ∈ m.cleanedIds
    · exact .inl (hk id hclean _ htask)
    · refine .inr ⟨r,?_,.refl _⟩
      change (m.tasks.filter fun id _ => decide (id ∉ m.cleanedIds)).get? id = some r
      rw [Dict.get?_filter,hid]
      simp [hclean]
  | @receives records =>
    have hmerge := outdone_mergeRecords records hw hk hid
    unfold receiveSyncedTasks
    split_ifs <;> exact .inr hmerge
  | restarts => exact hk.elim
  | _ => exact .inr (hsame rfl rfl)

end ClusterMaster

theorem PrometheusCounters.Le.refl (c : PrometheusCounters) : c.Le c :=
  ⟨le_refl _,le_refl _,le_refl _,le_refl _⟩

theorem PrometheusCounters.Le.trans {c c' c'' : PrometheusCounters} (h : c.Le c')
    (h' : c'.Le c'') : c.Le c'' :=
  ⟨h.retries.trans h'.retries,h.rateLimited.trans h'.rateLimited,h.count.trans h'.count,
    h.sum.trans h'.sum⟩

namespace ScrapedMaster

open ClusterMaster

variable {w w' : ScrapedMaster} {ev : MasterEvent}

theorem step_spec (h : machine.step w ev = some w') :
    ClusterMaster.machine.step w.master ev = some w'.master ∧
      w'.rateLimitedTotal =
        if ev.isRestart then 0 else w.rateLimitedTotal+rateLimits w.master ev := by
  obtain ⟨m',hstep,rfl⟩ := Option.map_eq_some_iff.mp h
  exact ⟨hstep,rfl⟩

theorem wf_step (hw : w.master.Wf) (h : machine.step w ev = some w') : w'.master.Wf :=
  step_wf hw (step_spec h).1

theorem getPrometheusMetrics_eq (w : ScrapedMaster) :
    let measured := w.master.tasks.values.filter fun r => (w.master.objects r).isMeasured
    w.getPrometheusMetrics =
      ⟨(w.master.tasks.values.map fun r => (w.master.objects r).retryCount).sum,
        w.rateLimitedTotal,(measured.map fun _ => 1).sum,
        (measured.map fun r => (w.master.objects r).latency).sum⟩ := by
  have hcount : ∀ l : List Ref, (l.map fun _ => 1).sum = l.length := by simp
  simp only [getPrometheusMetrics,List.filter_map,List.map_map,List.length_map,hcount]
  rfl

theorem getPrometheusMetrics_le (hw : w.master.Wf) (h : machine.step w ev = some w')
    (hk : w.master.KeepsCounts ev) : w.getPrometheusMetrics.Le w'.getPrometheusMetrics := by
  obtain ⟨hstep,hlimited⟩ := step_spec h
  have hentry : ∀ {id r}, w.master.tasks.get? id = some r → _ :=
    fun hid => (step_effect hstep).keeps_entry hw hk hid
  have hmeasured : ∀ id r, w.master.tasks.get? id = some r →
      (w.master.objects r).isMeasured = true → ∃ r', w'.master.tasks.get? id = some r' ∧
        (w'.master.objects r').isMeasured = true ∧
          (w.master.objects r).latency ≤ (w'.master.objects r').latency := by
    intro id r hid hm
    rcases hentry hid with ⟨-,hm'⟩ | ⟨r',hid',houtdone⟩
    · exact nomatch hm.symm.trans hm'
    · exact ⟨r',hid',houtdone.latency hm⟩
  rw [getPrometheusMetrics_eq,getPrometheusMetrics_eq]
  refine ⟨Dict.sum_values_le (fun _ => Nat.zero_le _) fun id r hid => ?_,?_,?_,?_⟩
  · rcases hentry hid with ⟨hzero,-⟩ | ⟨r',hid',houtdone⟩
    · exact .inl hzero
    · exact .inr ⟨r',hid',houtdone.retries⟩
  · have hrestart : ev.isRestart = false := by
      cases ev <;> first | rfl | exact hk.elim
    rw [hlimited,hrestart]
    exact Nat.le_add_right _ _
  · refine Dict.sum_filter_values_le (fun _ _ => Nat.zero_le _) fun id r hid hm => ?_
    obtain ⟨r',hid',hm',-⟩ := hmeasured id r hid hm
    exact ⟨r',hid',hm',le_refl _⟩
  · refine Dict.sum_filter_values_le (fun r hm => ?_) hmeasured
    simp only [ClusterTask.isMeasured,Bool.and_eq_true,decide_eq_true_eq] at hm
    exact sub_nonneg.mpr hm.2.le

/-- In a run without a restart, no counter is lower at a later scrape than at an earlier one, if no
step between them takes back a retry or a latency. -/
theorem counters_never_fall {config : MasterConfig} {ha : HaState}
    (hw : machine.Reaches (fun _ ev => ev.isRestart = false) (create config ha) w)
    (h : machine.Reaches (fun w ev => w.master.KeepsCounts ev) w w') :
    w.getPrometheusMetrics.Le w'.getPrometheusMetrics := by
  have hwf : w.master.Wf :=
    hw.invariant (I := fun w => w.master.Wf) (fun _ _ _ hwf _ hstep => wf_step hwf hstep)
      (wf_create config ha)
  exact h.relates (R := fun w w' => w.getPrometheusMetrics.Le w'.getPrometheusMetrics)
    (fun _ => .refl _) (fun _ _ _ hxy hyz => hxy.trans hyz)
    (fun _ _ _ hwf _ hstep => wf_step hwf hstep)
    (fun _ _ _ hwf hk hstep => getPrometheusMetrics_le hwf hstep hk) hwf

theorem counters_never_fall_completed :
    ∃ w w', machine.Reaches (fun _ ev => ev.isRestart = false)
        (create defaultConfig HaState.create) w ∧
      machine.step w (.completeTask "t1" "" 5) = some w' ∧
      w.getPrometheusMetrics.Le w'.getPrometheusMetrics ∧
      w.getPrometheusMetrics = ⟨0,0,0,0⟩ ∧ w'.getPrometheusMetrics = ⟨0,0,1,4⟩ := by
  have hexec : ((machine.restrict fun _ ev => ev.isRestart = false).exec
      (create defaultConfig HaState.create) assignedRun).any (fun w =>
        (w.master.task? "t1").all (fun t => !t.isMeasured) &&
        decide (w.getPrometheusMetrics = ⟨0,0,0,0⟩) &&
        (machine.step w (.completeTask "t1" "" 5)).any fun w' =>
          decide (w'.getPrometheusMetrics = ⟨0,0,1,4⟩)) = true := by
    decide +kernel
  obtain ⟨w,hw,hrest⟩ := (Option.any_eq_true _ _).mp hexec
  rw [Bool.and_eq_true,Bool.and_eq_true] at hrest
  obtain ⟨⟨hm,hbefore⟩,hrest⟩ := hrest
  obtain ⟨w',hw',hafter⟩ := (Option.any_eq_true _ _).mp hrest
  have hreach : machine.Reaches (fun _ ev => ev.isRestart = false)
      (create defaultConfig HaState.create) w := (Machine.Reaches.of_exec hw).of_restrict
  have hk : w.master.KeepsCounts (.completeTask "t1" "" 5) := by
    intro t ht hmeasured
    rw [ht,Option.all_some,hmeasured] at hm
    exact nomatch hm
  exact ⟨w,w',hreach,hw',counters_never_fall hreach (.tail .refl hk hw'),
    of_decide_eq_true hbefore,of_decide_eq_true hafter⟩

/-- Task `t1` is completed, and its coroutines have ended. -/
def completedRun : List MasterEvent := assignedRun ++ [.completeTask "t1" "" 5,.resume 3 5]

/-- The task is completed once more, with an error. -/
theorem second_completion_lowers_count :
    ∃ w w', machine.Reaches (fun _ ev => ev.isRestart = false)
        (create defaultConfig HaState.create) w ∧
      machine.step w (.completeTask "t1" "OOM" 6) = some w' ∧
      w.getPrometheusMetrics.dispatchLatencyCount = 1 ∧
      w'.getPrometheusMetrics.dispatchLatencyCount = 0 ∧
      ¬w.getPrometheusMetrics.Le w'.getPrometheusMetrics := by
  have hexec : ((machine.restrict fun _ ev => ev.isRestart = false).exec
      (create defaultConfig HaState.create) completedRun).any
        (fun w => decide (w.getPrometheusMetrics.dispatchLatencyCount = 1) &&
        (machine.step w (.completeTask "t1" "OOM" 6)).any fun w' =>
          decide (w'.getPrometheusMetrics.dispatchLatencyCount = 0)) = true := by
    decide +kernel
  obtain ⟨w,hw,hrest⟩ := (Option.any_eq_true _ _).mp hexec
  rw [Bool.and_eq_true] at hrest
  obtain ⟨w',hw',hafter⟩ := (Option.any_eq_true _ _).mp hrest.2
  have hone := of_decide_eq_true hrest.1
  have hnone := of_decide_eq_true hafter
  refine ⟨w,w',(Machine.Reaches.of_exec hw).of_restrict,hw',hone,hnone,fun hle => ?_⟩
  have hcount := hle.count
  rw [hone,hnone] at hcount
  exact absurd hcount (by decide)

end ScrapedMaster
end FusionMultiNodes
