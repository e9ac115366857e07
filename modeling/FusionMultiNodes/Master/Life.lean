import FusionMultiNodes.Master.Moves

/-! Every step of a master is a move of each of its tasks. -/
namespace FusionMultiNodes
namespace ClusterMaster

variable {m m' s : ClusterMaster} {r x : Ref} {cid : ℕ} {f f' : Frame} {now : ℚ} {ev : MasterEvent}
  {k : Caller} {pc pc' : AssignPc} {ns : List NodeId}

theorem move_skips (hf : m.frames.get? cid = some (.assign x pc k)) (hpc : pc.isOpen = true)
    (hreason : m.isRunning (m.objects x).taskId = true ∨ m.isQueued (m.objects x).taskId = true) :
    Move m r (.resume cid now) ((m.setFrame cid (.assign x (.returned true) k)).view r) := by
  have hv := view_setFrame hf (.assign x (.returned true) k) r
  rw [swap_close _ r hpc rfl (by cases k <;> rfl) rfl] at hv
  by_cases hr : r = x
  · subst hr
    refine Move.of_eq (.skip hf hpc hreason) (hv.trans ?_)
    simp [Frame.commits]
  · refine Move.of_eq .stay (hv.trans ?_)
    simp [hr,count_singleton_ne hr,Frame.commits]

theorem move_refuses (hq : m.Quiet s) (hf : m.frames.get? cid = some (.assign x pc .submit))
    (hpc : pc.isOpen = true) :
    Move m r (.resume cid now) ((s.setFrame cid (.assign x (.returned false) .submit)).view r) := by
  have hv := view_setFrame (hq.still.frame hf) (.assign x (.returned false) .submit) r
  rw [swap_close _ r hpc rfl rfl rfl,hq.still.view] at hv
  by_cases hr : r = x
  · subst hr
    refine Move.of_eq (.refuse hf hpc) (hv.trans ?_)
    simp [Frame.commits,Caller.fresh]
  · refine Move.of_eq .stay (hv.trans ?_)
    simp [hr,count_singleton_ne hr,Frame.commits]

theorem holds_open (hf : m.frames.get? cid = some (.assign x pc k)) (hpc : pc.isOpen = true) :
    0 < m.held x :=
  held_pos_of_mem hf (by rw [Frame.holds_of_isOpen hpc]; exact List.mem_cons_self ..)

theorem move_parks (hq : (m.park x).Quiet s) (hf : m.frames.get? cid = some (.assign x pc k))
    (hpc : pc.isOpen = true) :
    Move m r (.resume cid now) ((s.setFrame cid (.assign x (.returned true) k)).view r) := by
  have hv := view_setFrame (hq.still.frame hf) (.assign x (.returned true) k) r
  rw [swap_close _ r hpc rfl (by cases k <;> rfl) rfl,hq.still.view] at hv
  by_cases hr : r = x
  · subst hr
    refine Move.of_eq (.park hf (Or.inl hpc)) (hv.trans ?_)
    rw [view_park_self]
    simp [Frame.commits]
  · refine Move.of_displace hr (holds_open hf hpc) (hv.trans ?_)
    rw [view_park_ne hr]
    simp [hr,count_singleton_ne hr,Frame.commits]

theorem move_requeues {rest : List Ref}
    (hf : m.frames.get? cid = some (.assign x (.returned false) (.drain rest))) :
    Move m r (.resume cid now) (((m.park x).setFrame cid (.draining rest)).view r) := by
  have hv := view_setFrame (m := m.park x) hf (.draining rest) r
  rw [swap_back (k := .drain rest) _ r (by simp) rfl rfl rfl rfl] at hv
  have hheld : 0 < m.held x := held_pos_of_mem hf (by simp [Frame.holds])
  by_cases hr : r = x
  · subst hr
    refine Move.of_eq (.park hf (Or.inr ⟨rfl,rest,rfl⟩)) (hv.trans ?_)
    rw [view_park_self]
    simp [Caller.fresh]
  · refine Move.of_displace hr hheld (hv.trans ?_)
    rw [view_park_ne hr]
    simp [count_singleton_ne hr]

theorem move_commits (hc : m.Commits x now pc ns) (hq : (m.commit x ns now).Quiet s)
    (hf : m.frames.get? cid = some (.assign x pc k)) (hpc : pc.isOpen = true)
    (hpc' : pc' = .trigger ∨ pc' = .writing m.store.nextWrite) :
    Move m r (.resume cid now) ((s.setFrame cid (.assign x pc' k)).view r) := by
  have hv := view_setFrame (hq.still.frame hf) (.assign x pc' k) r
  have hframe : (Frame.assign x pc' k).holds = k.rest ∧ (Frame.assign x pc' k).fresh = [] ∧
      (Frame.assign x pc' k).commits = [x] := by
    rcases hpc' with rfl | rfl <;> cases k <;> exact ⟨rfl,rfl,rfl⟩
  obtain ⟨h₁,h₂,h₃⟩ := hframe
  rw [swap_close _ r hpc h₁ h₂ rfl,h₃,hq.still.view] at hv
  by_cases hr : r = x
  · subst hr
    refine Move.of_eq (.assign hf hpc hc) (hv.trans ?_)
    rw [view_commit_self]
    simp
  · refine Move.of_displace hr (holds_open hf hpc) (hv.trans ?_)
    rw [view_commit_ne hr]
    simp [hr,count_singleton_ne hr]

theorem move_triggers (hw : m.Wf) (hf : m.frames.get? cid = some (.assign x .trigger k)) :
    Move m r (.resume cid now)
      (((m.triggerDispatch x).setFrame cid (.assign x (.returned true) k)).view r) := by
  have hno : (m.objects x).assignedNodes = [] ∨ m.hasHandle x = true →
      m.triggerDispatch x = m := by
    rintro (h | h)
    · simp only [triggerDispatch,h,if_true]
    · simp only [hasHandle] at h
      simp only [triggerDispatch,h,if_true,ite_self]
  by_cases hlaunch : (m.objects x).assignedNodes = [] ∨ m.hasHandle x = true
  · have hv := view_setFrame hf (.assign x (.returned true) k) r
    rw [swap_trigger] at hv
    rw [hno hlaunch,hv]
    by_cases hr : r = x
    · subst hr
      refine Move.of_eq (.noLaunch hf hlaunch) ?_
      simp
    · refine Move.of_eq .stay ?_
      simp [count_singleton_ne hr]
  · obtain ⟨hn,hh⟩ := not_or.mp hlaunch
    simp only [Bool.not_eq_true] at hh
    set s₁ := m.spawn (.dispatch ⟨x,m.attempts (m.objects x).taskId,[],.start⟩) with hs₁
    have htrigger : m.triggerDispatch x = { s₁ with
        dispatchTasks := m.dispatchTasks.set (m.objects x).taskId m.nextFrame
        launched := m.launched ++ [x] } := by
      simp only [hasHandle] at hh
      simp only [triggerDispatch,hn,hh,if_false,Bool.false_eq_true,hs₁]
    have hframe : (m.triggerDispatch x).frames.get? cid = some (.assign x .trigger k) := by
      rw [htrigger]
      simp only [hs₁,spawn]
      rwa [Dict.get?_set_ne _ _ (hw.frame_lt cid _ hf).ne]
    have hview : (m.triggerDispatch x).view r = { (m.view r).gain r
        (.dispatch ⟨x,m.attempts (m.objects x).taskId,[],.start⟩) with
          launched := (m.view r).launched+[x].count r } := by
      rw [← view_spawn hw.nextFrame_free,← hs₁,htrigger]
      ext1 <;> try rfl
      simp [view]
    have hv := view_setFrame hframe (.assign x (.returned true) k) r
    rw [swap_trigger,hview] at hv
    rw [hv]
    by_cases hr : r = x
    · subst hr
      refine Move.of_eq (.launch hf hn hh) ?_
      simp [TaskView.gain,Frame.holds,Frame.commits,Frame.dispatches,Frame.fresh]
    · refine Move.of_eq .stay ?_
      simp [TaskView.gain,Frame.holds,Frame.commits,Frame.dispatches,Frame.fresh,
        count_singleton_ne hr]

theorem move_retries {rest : List Ref} {loopNow : ℚ}
    (hf : m.frames.get? cid = some (.assign x (.returned false) (.retry loopNow rest))) :
    Move m r (.resume cid now) (((m.enqueueRetry x now).setFrame cid (.retrying loopNow rest)).view r) := by
  have hframes : (m.enqueueRetry x now).frames = m.frames := by
    unfold enqueueRetry
    split_ifs <;> rfl
  have hv := view_setFrame (hframes.symm ▸ hf : _ = some (.assign x _ _)) (.retrying loopNow rest) r
  rw [swap_back (k := .retry loopNow rest) _ r (by simp) rfl rfl rfl rfl] at hv
  by_cases hr : r = x
  · subst hr
    rw [view_enqueueRetry_self] at hv
    split_ifs at hv with hmax
    · exact Move.of_eq (.giveUp hf (by simp) (by simp) hmax) (hv.trans (by simp))
    · exact Move.of_eq (.retry hf (by simp) (not_le.mp hmax)) (hv.trans (by simp))
  · refine Move.of_eq .stay (hv.trans ?_)
    rw [view_enqueueRetry_ne hr]
    simp [count_singleton_ne hr]

theorem move_fallsBack (hf : m.frames.get? cid = some (.assign x (.returned false) k))
    (hk : k = .migrate ∨ k = .degrade) :
    Move m r (.resume cid now) (((m.enqueueRetry x now).endFrame cid).view r) := by
  have hframes : (m.enqueueRetry x now).frames = m.frames := by
    unfold enqueueRetry
    split_ifs <;> rfl
  have hlose : ∀ v : TaskView, v.lose r (.assign x (.returned false) k) =
      { v with held := v.held-[x].count r } := by
    intro v
    rcases hk with rfl | rfl <;>
      ext1 <;> simp [TaskView.lose,Frame.holds,Frame.commits,Frame.fresh,Frame.dispatches,Caller.rest]
  have hv := view_endFrame (hframes.symm ▸ hf : _ = some (.assign x _ _)) r
  rw [hlose] at hv
  have hne : k ≠ .submit ∧ ∀ rest, k ≠ .drain rest := by rcases hk with rfl | rfl <;> simp
  by_cases hr : r = x
  · subst hr
    rw [view_enqueueRetry_self] at hv
    split_ifs at hv with hmax
    · exact Move.of_eq (.giveUp hf hne.1 hne.2 hmax) (hv.trans (by simp))
    · exact Move.of_eq (.retry hf hne.1 (not_le.mp hmax)) (hv.trans (by simp))
  · refine Move.of_eq .stay (hv.trans ?_)
    rw [view_enqueueRetry_ne hr]
    simp [count_singleton_ne hr]

theorem move_notDue {rest : List Ref} {loopNow : ℚ}
    (hf : m.frames.get? cid = some (.retrying loopNow (x::rest))) :
    Move m r (.resume cid now)
      (({ m with pendingRetry := m.pendingRetry ++ [x] }.setFrame cid (.retrying loopNow rest)).view r) := by
  have hv := view_setFrame (m := { m with pendingRetry := m.pendingRetry ++ [x] }) hf
    (.retrying loopNow rest) r
  rw [swap_retrying] at hv
  refine Move.of_eq .stay (hv.trans ?_)
  ext1 <;> try rfl
  simp only [view,held,List.count_append,weigh]
  omega

theorem move_exhausted {rest : List Ref} {loopNow : ℚ} {error : String}
    (hf : m.frames.get? cid = some (.retrying loopNow (x::rest)))
    (hdue : (m.objects x).nextRetryAt ≤ loopNow) (hmax : maxRetryLoopAttempts ≤ (m.objects x).retryCount) :
    Move m r (.resume cid now)
      (((m.modifyTask x fun t => giveUpTask t error).setFrame cid (.retrying loopNow rest)).view r) := by
  have hv := view_setFrame (m := m.modifyTask x fun t => giveUpTask t error) hf (.retrying loopNow rest) r
  rw [swap_retrying] at hv
  by_cases hr : r = x
  · subst hr
    refine Move.of_eq (.exhaust hf hdue hmax) (hv.trans ?_)
    rw [view_modifyTask_self (g := fun t => giveUpTask t error) rfl]
    simp [giveUpTask,view]
  · refine Move.of_eq .stay (hv.trans ?_)
    rw [view_modifyTask_ne hr]
    simp [count_singleton_ne hr]

theorem move_drains (hf : m.frames.get? cid = some .drainStart) :
    Move m r (.resume cid now)
      (({ m with pendingQueue := [] }.setFrame cid (.draining m.pendingQueue)).view r) := by
  have hv := view_setFrame (m := { m with pendingQueue := [] }) hf (.draining m.pendingQueue) r
  refine Move.of_eq .stay (hv.trans ?_)
  ext1 <;> simp only [TaskView.gain,TaskView.lose]
  all_goals simp [view,held,weigh,committing,live,fresh,Registered,Frame.holds,Frame.commits,
    Frame.dispatches,Frame.fresh]
  omega

theorem move_collects (hw : m.Wf) :
    Move m r (.retryLoop now)
      (({ m with pendingRetry := [] }.spawn (.retrying now m.pendingRetry)).view r) := by
  have hv := view_spawn (m := { m with pendingRetry := [] }) hw.nextFrame_free
    (.retrying now m.pendingRetry) r
  refine Move.of_eq .stay (hv.trans ?_)
  ext1 <;> simp only [TaskView.gain]
  all_goals simp [view,held,weigh,committing,live,fresh,Registered,Frame.holds,Frame.commits,
    Frame.dispatches,Frame.fresh]
  omega

theorem swap_dispatch (v : TaskView) (r : Ref) {d d' : Dispatch} (h : d'.task = d.task) :
    (v.lose r (.dispatch d)).gain r (.dispatch d') = v := by
  simp [TaskView.lose,TaskView.gain,Frame.holds,Frame.commits,Frame.dispatches,Frame.fresh,h]

theorem lose_dispatch (v : TaskView) (r : Ref) (d : Dispatch) :
    v.lose r (.dispatch d) = { v with live := v.live-[d.task].count r } := by
  simp [TaskView.lose,Frame.holds,Frame.commits,Frame.dispatches,Frame.fresh]

theorem view_finalized_self (m : ClusterMaster) (r : Ref) (o : DispatchOutcome) (now : ℚ) :
    (m.finalized r o now).view r =
      if o.isRetry then
        if maxRetryAttempts ≤ (m.objects r).retryCount then { m.view r with status := .failed }
        else { m.view r with status := .pending, nodes := [], held := (m.view r).held+1 }
      else { m.view r with
        status := if o.success then .completed else if o.partially then .partialDone else .failed } := by
  unfold finalized
  by_cases hretry : o.isRetry = true
  · rw [if_pos hretry,if_pos hretry,view_enqueueRetry_self,view_modifyTask_same (by rfl) (by rfl) (by rfl),
      (still_releaseTask m r).view]
    have hcount : (((m.releaseTask r).modifyTask r fun t => { t with error := o.error }).objects r).retryCount =
        (m.objects r).retryCount := by simp [modifyTask,releaseTask]
    rw [hcount]
  · rw [if_neg hretry,if_neg hretry]
    have hv := view_modifyTask_self (m := m.releaseTask r) (r := r) (g := fun t => finishTask t o now) rfl
    rw [(still_releaseTask m r).view] at hv
    exact hv

theorem view_finalized_ne (h : r ≠ x) (o : DispatchOutcome) (now : ℚ) :
    (m.finalized x o now).view r = m.view r := by
  unfold finalized
  split_ifs
  · rw [view_enqueueRetry_ne h,view_modifyTask_ne h]
    rfl
  · rw [view_modifyTask_ne h]
    rfl

theorem view_endDispatch {d : Dispatch} {o : DispatchOutcome}
    (hf : m.frames.get? cid = some (.dispatch d)) (r : Ref) :
    (m.endDispatch cid d o).view r = { m.view r with live := (m.view r).live-[d.task].count r } := by
  have hset : (m.setPrevOutputs d.task o).view r = m.view r ∧
      (m.setPrevOutputs d.task o).frames = m.frames := by
    unfold setPrevOutputs
    cases o.prevOutputs with
    | none => exact ⟨rfl,rfl⟩
    | some outputs => exact ⟨view_modifyTask_same (by rfl) (by rfl) (by rfl) r,rfl⟩
  have hv := view_endFrame (hset.2.symm ▸ hf : _ = some (.dispatch d)) r
  rw [lose_dispatch,hset.1] at hv
  exact hv

theorem move_endDispatch {d : Dispatch} {o : DispatchOutcome}
    (hf : m.frames.get? cid = some (.dispatch d))
    (hend : (∃ w, d.pc = .tail w o) ∨
      (d.pc = .finalizing o ∧ m.isRunning (m.objects d.task).taskId = false)) :
    Move m r (.resume cid now) ((m.endDispatch cid d o).view r) := by
  rw [view_endDispatch hf]
  by_cases hr : r = d.task
  · subst hr
    refine Move.of_eq (.endLive hf rfl hend) ?_
    simp
  · refine Move.of_eq .stay ?_
    simp [count_singleton_ne hr]

theorem frames_finalized (m : ClusterMaster) (r : Ref) (o : DispatchOutcome) (now : ℚ) :
    (m.finalized r o now).frames = m.frames := by
  simp only [finalized,enqueueRetry]
  split_ifs <;> rfl

theorem move_dispatches (hw : m.Wf) {d : Dispatch} (hf : m.frames.get? cid = some (.dispatch d))
    (he : DispatchEffect m cid d now s) : Move m r (.resume cid now) (s.view r) := by
  cases he with
  | @continues s d' hq hc =>
    have hv := view_setFrame (hq.still.frame hf) (.dispatch d') r
    rw [swap_dispatch _ r hc.task,hq.still.view] at hv
    exact Move.of_eq .stay hv
  | @finalizes x o hpc hx hs =>
    have hframe : (m.finalized x o now).persistTasks.frames.get? cid = some (.dispatch d) := by
      show (m.finalized x o now).frames.get? cid = _
      rw [frames_finalized]
      exact hf
    have hv := view_setFrame hframe (.dispatch { d with pc := .tail m.store.nextWrite o }) r
    rw [swap_dispatch _ r (by rfl),(quiet_persistTasks _).still.view] at hv
    by_cases hr : r = x
    · subst hr
      have hreg := hw.registered_of_get? hx
      rw [view_finalized_self] at hv
      by_cases hretry : o.isRetry = true
      · rw [if_pos hretry] at hv
        split_ifs at hv with hmax
        · exact Move.of_eq (.abandon hreg hs ⟨d,o,hf,hpc,hretry,hx⟩ hmax) hv
        · exact Move.of_eq (.requeue hreg hs (Or.inl ⟨d,o,hf,hpc,hretry,hx⟩) (not_le.mp hmax)) hv
      · rw [if_neg hretry] at hv
        exact Move.of_eq (.finish hf hpc (by simpa using hretry) hx hs) hv
    · rw [view_finalized_ne hr] at hv
      exact Move.of_eq .stay hv
  | stale hpc hrun => exact move_endDispatch hf (Or.inr ⟨hpc,hrun⟩)
  | done hpc => exact move_endDispatch hf (Or.inl ⟨_,hpc⟩)

theorem move_completes (hw : m.Wf) {id : TaskId} {error : String} (hx : m.tasks.get? id = some x) :
    Move m r (.completeTask id error now) ((m.completeTask id error now).view r) := by
  simp only [completeTask,hx]
  rw [view_spawn (by exact hw.nextFrame_free),TaskView.gain_idle _ _ ⟨rfl,rfl,rfl,rfl⟩]
  by_cases hr : r = x
  · subst hr
    refine Move.of_eq (.complete hx) ?_
    rw [view_modifyTask_self (by rfl)]
    rfl
  · refine Move.of_eq .stay ?_
    rw [view_modifyTask_ne hr]
    rfl

theorem view_assignLater (hw : m.Wf) {g : ClusterTask → ClusterTask} (hk : k.rest = [])
    (hk' : k ≠ .submit) (hid : (g (m.objects x)).taskId = (m.objects x).taskId)
    (hs : (g (m.objects x)).status = .pending) (hn : (g (m.objects x)).assignedNodes = []) :
    (((m.releaseTask x).modifyTask x g).spawn (.assign x .guards k)).view r =
      if r = x then { m.view r with status := .pending, nodes := [], held := (m.view r).held+1 }
      else m.view r := by
  rw [view_spawn (by exact hw.nextFrame_free)]
  have hfresh : (Frame.assign x .guards k).fresh = [] := by cases k <;> simp_all [Frame.fresh]
  split_ifs with hr
  · subst hr
    have hv : ((m.releaseTask r).modifyTask r g).view r =
        { m.view r with status := .pending, nodes := [] } := by
      rw [view_modifyTask_self (by exact hid)]
      ext1 <;> first | rfl | exact hs | exact hn
    rw [hv]
    ext1 <;> simp [TaskView.gain,Frame.holds,Frame.commits,Frame.dispatches,hfresh,hk]
  · have hv : ((m.releaseTask x).modifyTask x g).view r = m.view r := view_modifyTask_ne hr
    rw [hv]
    ext1 <;> simp [TaskView.gain,Frame.holds,Frame.commits,Frame.dispatches,hfresh,hk,
      count_singleton_ne hr]

theorem move_migrates (hw : m.Wf) {id : TaskId} (hx : m.tasks.get? id = some x)
    (hs : (m.objects x).status = .running) :
    Move m r (.migrateTask id) ((m.migrateTask id).view r) := by
  simp only [migrateTask,hx,hs,if_true]
  rw [view_assignLater hw rfl (by simp) rfl rfl rfl]
  split_ifs with hr
  · subst hr
    exact .migrate hx hs
  · exact .stay

theorem move_degrades (hw : m.Wf) {id : TaskId} {size : String × String}
    (hx : m.tasks.get? id = some x)
    (hs : (m.objects x).status = .running ∨ (m.objects x).status = .pending ∨
      (m.objects x).status = .failed)
    (hbudget : (m.objects x).degradationCount < (m.objects x).maxDegradations)
    (hsize : (m.objects x).nextModelSize = some size) :
    Move m r (.degradeTask id) ((m.degradeTask id).view r) := by
  simp only [degradeTask,hx,hs,hbudget,hsize,and_self,if_true]
  rw [view_assignLater hw rfl (by simp) rfl rfl rfl]
  split_ifs with hr
  · subst hr
    exact .degrade hx hs
  · exact .stay

theorem view_timeoutOne_self (m : ClusterMaster) (r : Ref) (now : ℚ) :
    (m.timeoutOne now r).view r =
      if isTimedOut (m.objects r) now = true then
        if maxRetryAttempts ≤ (m.objects r).retryCount then { m.view r with status := .failed }
        else { m.view r with status := .pending, nodes := [], held := (m.view r).held+1 }
      else m.view r := by
  unfold timeoutOne
  split_ifs with ht hmax
  · rw [view_enqueueRetry_self,if_pos (by simpa [modifyTask] using hmax),view_modifyTask_self (by rfl)]
    rfl
  · rw [view_enqueueRetry_self,if_neg (by simpa [modifyTask] using hmax),view_modifyTask_self (by rfl)]
  · rfl

theorem timeoutOne_ne (h : r ≠ x) :
    (m.timeoutOne now x).objects r = m.objects r ∧ (m.timeoutOne now x).view r = m.view r := by
  unfold timeoutOne
  split_ifs
  · rw [objects_enqueueRetry_ne h,view_enqueueRetry_ne h,view_modifyTask_ne h]
    exact ⟨by simp [modifyTask,h],rfl⟩
  · exact ⟨rfl,rfl⟩

theorem move_timesOut (hw : m.Wf) : Move m r (.checkTimeouts now) ((m.checkTimeouts now).view r) := by
  have hv := view_foldl (m := m) (r := r) (F := fun s r => s.timeoutOne now r)
    (G := fun t v => if isTimedOut t now = true then
        if maxRetryAttempts ≤ t.retryCount then { v with status := .failed }
        else { v with status := .pending, nodes := [], held := v.held+1 }
      else v) (fun s => view_timeoutOne_self s r now) (fun s x hx => timeoutOne_ne hx) hw.values_nodup
  show Move m r _ ((m.tasks.values.foldl (fun s r => s.timeoutOne now r) m).view r)
  rw [hv]
  split_ifs with hreg ht hmax
  · have hs : (m.objects r).status = .running := by
      simp only [isTimedOut,Bool.and_eq_true,decide_eq_true_eq] at ht
      exact ht.1.1
    exact .abandon (hw.registered_iff.mp hreg) hs ht hmax
  · have hs : (m.objects r).status = .running := by
      simp only [isTimedOut,Bool.and_eq_true,decide_eq_true_eq] at ht
      exact ht.1.1
    exact .requeue (hw.registered_iff.mp hreg) hs (Or.inl ht) (not_le.mp hmax)
  · exact .stay
  · exact .stay

theorem view_refreshOne_self (m : ClusterMaster) (r : Ref) (offline : List NodeId) (now : ℚ) :
    (m.refreshOne offline now r).view r =
      if maxRetryAttempts ≤ (m.objects r).retryCount then
        { m.view r with status := .failed, nodes := [] }
      else { m.view r with status := .pending, nodes := [], held := (m.view r).held+1 } := by
  unfold refreshOne
  rw [view_enqueueRetry_self]
  split_ifs with h₁ h₂ h₂
  · rw [view_modifyTask_self (by rfl)]
  · exact absurd (by simpa [modifyTask] using h₁) h₂
  · exact absurd (by simpa [modifyTask] using h₂) h₁
  · rw [view_modifyTask_self (by rfl)]

theorem refreshOne_ne {offline : List NodeId} (h : r ≠ x) :
    (m.refreshOne offline now x).objects r = m.objects r ∧
      (m.refreshOne offline now x).view r = m.view r := by
  unfold refreshOne
  rw [objects_enqueueRetry_ne h,view_enqueueRetry_ne h,view_modifyTask_ne h]
  exact ⟨by simp [modifyTask,h],rfl⟩

theorem frames_refreshOne (m : ClusterMaster) (offline : List NodeId) (now : ℚ) (r : Ref) :
    (m.refreshOne offline now r).frames = m.frames := by
  unfold refreshOne enqueueRetry
  split_ifs <;> rfl

theorem frames_foldl {α : Type} {F : ClusterMaster → α → ClusterMaster}
    (hF : ∀ s a, (F s a).frames = s.frames) (l : List α) (m : ClusterMaster) :
    (l.foldl F m).frames = m.frames := by
  induction l generalizing m with
  | nil => rfl
  | cons a l ih => exact (ih (F m a)).trans (hF m a)

theorem move_refreshes (hw : m.Wf) {offline : List NodeId}
    (hf : m.frames.get? cid = some (.refreshing offline)) :
    Move m r (.resume cid now) ((m.refreshTasks cid offline now).view r) := by
  have hend : ∀ s : ClusterMaster, s.frames = m.frames → (s.endFrame cid).view r = s.view r := by
    intro s hs
    rw [view_endFrame (hs.symm ▸ hf : s.frames.get? cid = some (.refreshing offline)),
      TaskView.lose_idle _ _ ⟨rfl,rfl,rfl,rfl⟩]
  simp only [refreshTasks]
  split_ifs with hnone
  · exact Move.of_eq .stay (hend m rfl)
  set affected := m.tasks.values.filter fun r => isAffected (m.objects r) offline with haff
  have hframes : (affected.foldl (fun s r => s.refreshOne offline now r) m).persistTasks.frames =
      m.frames := frames_foldl (fun s r => frames_refreshOne s offline now r) affected m
  rw [hend _ hframes,(quiet_persistTasks _).still.view]
  have hv := view_foldl (m := m) (r := r) (F := fun s r => s.refreshOne offline now r)
    (G := fun t v => if maxRetryAttempts ≤ t.retryCount then { v with status := .failed, nodes := [] }
      else { v with status := .pending, nodes := [], held := v.held+1 })
    (fun s => view_refreshOne_self s r offline now) (fun s x hx => refreshOne_ne hx)
    (hw.values_nodup.filter (fun r => isAffected (m.objects r) offline))
  rw [hv]
  split_ifs with hmem hmax
  · obtain ⟨hreg,hoff⟩ := List.mem_filter.mp hmem
    have hs : (m.objects r).status = .running := by
      simp only [isAffected,Bool.and_eq_true,decide_eq_true_eq] at hoff
      exact hoff.1
    exact .strand (hw.registered_iff.mp hreg) hs ⟨offline,hf,hoff⟩ hmax
  · obtain ⟨hreg,hoff⟩ := List.mem_filter.mp hmem
    have hs : (m.objects r).status = .running := by
      simp only [isAffected,Bool.and_eq_true,decide_eq_true_eq] at hoff
      exact hoff.1
    exact .requeue (hw.registered_iff.mp hreg) hs (Or.inr ⟨offline,hf,hoff⟩) (not_le.mp hmax)
  · exact .stay

theorem view_filterTasks (p : TaskId → Ref → Bool) (r : Ref) :
    ({ m with tasks := m.tasks.filter p } : ClusterMaster).view r = { m.view r with
      registered := m.Registered r ∧ p (m.objects r).taskId r = true } := by
  ext1
  case registered =>
    simp only [view,Registered,Dict.get?_filter,Option.filter_eq_some_iff]
  all_goals rfl

theorem move_cleans :
    Move m r .cleanupCompletedTasks (m.cleanupCompletedTasks.view r) := by
  simp only [cleanupCompletedTasks]
  rw [view_filterTasks]
  set remove := (m.tasks.keys.filter fun id => (m.task? id).any fun t => isCleaned t.status).take
    ((m.tasks.keys.filter fun id => (m.task? id).any fun t => isCleaned t.status).length -
      m.config.maxCompletedTasks) with hremove
  by_cases hr : m.Registered r ∧ (m.objects r).taskId ∈ remove
  · have hclean : isCleaned (m.objects r).status = true := by
      have hmem := (List.mem_filter.mp (List.mem_of_mem_take hr.2)).2
      have htask : m.task? (m.objects r).taskId = some (m.objects r) := by
        rw [task?,hr.1]
        rfl
      rwa [htask,Option.any_some] at hmem
    refine Move.of_eq (.purge hr.1 hclean) ?_
    simp [hr.2]
  · refine Move.of_eq .stay ?_
    have hiff : (m.Registered r ∧ decide ((m.objects r).taskId ∉ remove) = true) = m.Registered r := by
      simp only [decide_eq_true_eq,eq_iff_iff]
      tauto
    rw [hiff]
    rfl

/-- A task from a record displaces the registered task of its id. -/
theorem view_insertRecord {d : TaskRecord} (h : r < m.nextRef) :
    (m.insertRecord d).view r = { m.view r with
      registered := m.Registered r ∧ (m.objects r).taskId ≠ d.taskId } := by
  have hobj : (m.insertRecord d).objects r = m.objects r := by simp [insertRecord,h.ne]
  ext1
  case registered =>
    simp only [view,Registered,hobj]
    simp only [insertRecord,Dict.get?_set]
    split_ifs with hid
    · simp [hid,h.ne']
    · simp [hid]
  case status => exact congrArg ClusterTask.status hobj
  case nodes => exact congrArg ClusterTask.assignedNodes hobj
  all_goals rfl

theorem objects_insertRecord {d : TaskRecord} (h : r < m.nextRef) :
    (m.insertRecord d).objects r = m.objects r := by
  simp [insertRecord,h.ne]

theorem accepts_insertRecord (hw : m.Wf) {d d' : TaskRecord} (h : d'.taskId ≠ d.taskId) :
    (m.insertRecord d).accepts d' = m.accepts d' := by
  have hget : (m.insertRecord d).tasks.get? d'.taskId = m.tasks.get? d'.taskId := by
    simp only [insertRecord,Dict.get?_set,if_neg h]
  have htask : (m.insertRecord d).task? d'.taskId = m.task? d'.taskId := by
    simp only [task?,hget]
    cases hx : m.tasks.get? d'.taskId with
    | none => rfl
    | some x => exact congrArg some (objects_insertRecord (hw.reg_lt hx))
  unfold accepts
  rw [htask]
  rfl

/-- The objects in use before a merge keep their views, unless a record is taken over under
their id. -/
theorem view_mergeRecords (records : List TaskRecord) (hw : m.Wf) (h : r < m.nextRef) :
    (records.foldl mergeRecord m).view r = m.view r ∨
      (m.Registered r ∧ (records.foldl mergeRecord m).view r = { m.view r with registered := False } ∧
        ∃ d ∈ records, d.taskId = (m.objects r).taskId ∧ m.accepts d = true) := by
  induction records generalizing m with
  | nil => exact Or.inl rfl
  | cons d records ih =>
    by_cases ha : m.accepts d = true
    · have hm : m.mergeRecord d = m.insertRecord d := if_pos ha
      have hw' := (grows_insertRecord m d).wf hw
      have hlt : r < (m.insertRecord d).nextRef := Nat.lt_succ_of_lt h
      have hview := view_insertRecord (d := d) h
      have hobj := objects_insertRecord (d := d) h
      rw [List.foldl_cons,hm]
      by_cases hid : m.Registered r ∧ (m.objects r).taskId = d.taskId
      · have hgone : (m.insertRecord d).view r = { m.view r with registered := False } := by
          rw [hview]
          simp [hid.2]
        refine Or.inr ⟨hid.1,?_,d,List.mem_cons_self ..,hid.2.symm,ha⟩
        rcases ih hw' hlt with hrest | ⟨hreg,-⟩
        · rw [hrest,hgone]
        · have hno : (m.insertRecord d).Registered r = False := congrArg TaskView.registered hgone
          exact absurd hreg (by rw [hno]; exact id)
      · have hsame : (m.insertRecord d).view r = m.view r := by
          have hiff : (m.Registered r ∧ (m.objects r).taskId ≠ d.taskId) = m.Registered r := by
            simp only [eq_iff_iff]
            tauto
          rw [hview,hiff]
          rfl
        rcases ih hw' hlt with hrest | ⟨hreg,hrest,d',hd',hid',hacc'⟩
        · exact Or.inl (hrest.trans hsame)
        · have hregs : (m.insertRecord d).Registered r = m.Registered r :=
            congrArg TaskView.registered hsame
          have hreg' : m.Registered r := hregs ▸ hreg
          rw [hobj] at hid'
          refine Or.inr ⟨hreg',by rw [hrest,hsame],d',List.mem_cons_of_mem d hd',hid',?_⟩
          have hne : d'.taskId ≠ d.taskId := fun he => hid ⟨hreg',hid'.symm.trans he⟩
          rwa [accepts_insertRecord hw hne] at hacc'
    · have hm : m.mergeRecord d = m := if_neg ha
      rw [List.foldl_cons,hm]
      rcases ih hw h with hrest | ⟨hreg,hrest,d',hd',hrec⟩
      · exact Or.inl hrest
      · exact Or.inr ⟨hreg,hrest,d',List.mem_cons_of_mem d hd',hrec⟩

theorem move_receives (hw : m.Wf) {records : List TaskRecord} (h : r < m.nextRef) :
    Move m r (.receiveSyncedTasks records) ((m.receiveSyncedTasks records).view r) := by
  have hview : (m.receiveSyncedTasks records).view r = (records.foldl mergeRecord m).view r := by
    unfold receiveSyncedTasks
    split_ifs
    · exact (quiet_persistTasks _).still.view r
    · rfl
  rcases view_mergeRecords records hw h with hsame | ⟨hreg,hgone,d,hd,hid,hacc⟩
  · exact Move.of_eq .stay (hview.trans hsame)
  · exact Move.of_eq (.displace hreg (Or.inr ⟨records,rfl,d,hd,hid,hacc⟩)) (hview.trans hgone)

inductive Cut (m : ClusterMaster) (id : TaskId) (subs : Bool) (r : Ref) (s s' : ClusterMaster) : Prop
  | kept : s'.view r = s.view r → s'.pendingQueue.count r = s.pendingQueue.count r → Cut m id subs r s s'
  | cancelled : s.Registered r → isCancellable (s.objects r) = true →
      m.CancelTree id subs (m.objects r).taskId → s'.view r = { s.view r with
        status := .cancelled
        nodes := []
        held := (s.view r).held-s.pendingQueue.count r } → s'.pendingQueue.count r = 0 →
      Cut m id subs r s s'
  | unqueued {x : Ref} : x ≠ r → s.Registered x → (s.objects x).taskId = (s.objects r).taskId →
      s'.view r = { s.view r with held := (s.view r).held-s.pendingQueue.count r } →
      s'.pendingQueue.count r = 0 → Cut m id subs r s s'

theorem count_filter_taskId {l : List Ref} {o : Ref → ClusterTask} (id : TaskId) (r : Ref) :
    (l.filter fun q => decide ((o q).taskId ≠ id)).count r =
      if (o r).taskId = id then 0 else l.count r := by
  split_ifs with h
  · refine List.count_eq_zero.mpr fun hr => ?_
    simpa [h] using (List.mem_filter.mp hr).2
  · exact List.count_filter (by simpa using h)

theorem view_dropQueued (m : ClusterMaster) (id : TaskId) (r : Ref) :
    ({ m with pendingQueue := m.pendingQueue.filter fun q => decide ((m.objects q).taskId ≠ id) } :
      ClusterMaster).view r = { m.view r with
        held := (m.view r).held-(if (m.objects r).taskId = id then m.pendingQueue.count r else 0 : ℕ) } := by
  ext1
  case held =>
    simp only [view,held,weigh,count_filter_taskId]
    split_ifs <;> omega
  all_goals rfl

theorem view_cancelOne_self (m : ClusterMaster) (r : Ref) (reason : String) :
    (m.cancelOne r reason).view r = { m.view r with
      status := .cancelled
      nodes := []
      held := (m.view r).held-m.pendingQueue.count r } := by
  have hv := congrArg TaskView.held (view_dropQueued m (m.objects r).taskId r)
  rw [if_pos rfl] at hv
  ext1
  case status => simp [cancelOne,view,modifyTask]
  case nodes => simp [cancelOne,view,modifyTask]
  case registered => simp [cancelOne,view,modifyTask,Registered,releaseTask]
  case held => exact hv
  all_goals rfl

theorem view_cancelOne_ne (h : r ≠ x) (reason : String) :
    (m.cancelOne x reason).view r = { m.view r with
      held := (m.view r).held-(if (m.objects r).taskId = (m.objects x).taskId then
        m.pendingQueue.count r else 0 : ℕ) } := by
  have hv := congrArg TaskView.held (view_dropQueued m (m.objects x).taskId r)
  ext1
  case status => simp [cancelOne,view,modifyTask,releaseTask,h]
  case nodes => simp [cancelOne,view,modifyTask,releaseTask,h]
  case registered => simp [cancelOne,view,modifyTask,Registered,releaseTask,h]
  case held => exact hv
  all_goals rfl

theorem count_cancelOne (m : ClusterMaster) (x r : Ref) (reason : String) :
    (m.cancelOne x reason).pendingQueue.count r =
      if (m.objects r).taskId = (m.objects x).taskId then 0 else m.pendingQueue.count r :=
  count_filter_taskId _ r

theorem Registered.unique (h : m.Registered r) (h' : m.Registered x)
    (hid : (m.objects x).taskId = (m.objects r).taskId) : x = r := by
  have heq := h
  rw [Registered,← hid,h'] at heq
  exact Option.some.inj heq

theorem cut_cancelOne {id : TaskId} {subs : Bool} {reason : String} (hx : s.Registered x)
    (hc : isCancellable (s.objects x) = true) (htree : m.CancelTree id subs (m.objects x).taskId) :
    Cut m id subs r s (s.cancelOne x reason) := by
  by_cases hr : r = x
  · subst hr
    exact .cancelled hx hc htree (view_cancelOne_self s r reason) (by simp [count_cancelOne])
  · have hv := view_cancelOne_ne (m := s) hr reason
    have hcount := count_cancelOne s x r reason
    by_cases hid : (s.objects r).taskId = (s.objects x).taskId
    · rw [if_pos hid] at hv hcount
      exact .unqueued (Ne.symm hr) hx hid.symm hv hcount
    · rw [if_neg hid] at hv hcount
      exact .kept (by simpa using hv) hcount

/-- Coroutines, task ids and registration are as before, and no task has become cancellable. -/
structure Cutting (m s : ClusterMaster) : Prop where
  frames : s.frames = m.frames
  nextFrame : s.nextFrame = m.nextFrame
  tasks : s.tasks = m.tasks
  taskId : ∀ y, (s.objects y).taskId = (m.objects y).taskId
  subTasks : ∀ y, (s.objects y).subTasks = (m.objects y).subTasks
  cancellable : ∀ y, isCancellable (s.objects y) = true → isCancellable (m.objects y) = true

theorem Cutting.refl (m : ClusterMaster) : m.Cutting m :=
  ⟨rfl,rfl,rfl,fun _ => rfl,fun _ => rfl,fun _ => id⟩

theorem Cutting.registered (h : m.Cutting s) (r : Ref) : s.Registered r = m.Registered r := by
  simp only [Registered,h.tasks,h.taskId]

theorem Cutting.update (h : m.Cutting s) {g : ClusterTask} (hf : m'.frames = s.frames)
    (hn : m'.nextFrame = s.nextFrame) (ht : m'.tasks = s.tasks)
    (ho : m'.objects = Function.update s.objects x g) (hid : g.taskId = (s.objects x).taskId)
    (hsub : g.subTasks = (s.objects x).subTasks)
    (hc : isCancellable g = true → isCancellable (s.objects x) = true) : m.Cutting m' := by
  refine ⟨hf.trans h.frames,hn.trans h.nextFrame,ht.trans h.tasks,fun y => ?_,fun y => ?_,fun y hy => ?_⟩
  all_goals
    by_cases hyx : y = x
    · subst hyx
      simp_all [h.taskId,h.subTasks,h.cancellable]
    · simp_all [h.taskId,h.subTasks,h.cancellable]

theorem Cutting.cancelOne (h : m.Cutting s) (x : Ref) (reason : String) :
    m.Cutting (s.cancelOne x reason) :=
  h.update rfl rfl rfl rfl rfl rfl (by simp [isCancellable])

theorem Cut.trans {id : TaskId} {subs : Bool} {s₁ s₂ : ClusterMaster} (hs : m.Cutting s) (hs₁ : m.Cutting s₁)
    (h : Cut m id subs r s s₁) (h' : Cut m id subs r s₁ s₂) : Cut m id subs r s s₂ := by
  have hreg : s₁.Registered = s.Registered :=
    funext fun y => (hs₁.registered y).trans (hs.registered y).symm
  have hids : ∀ y, (s₁.objects y).taskId = (s.objects y).taskId := fun y =>
    (hs₁.taskId y).trans (hs.taskId y).symm
  cases h with
  | kept hv hc =>
    have hstatus : (s₁.objects r).status = (s.objects r).status := congrArg TaskView.status hv
    cases h' with
    | kept hv' hc' => exact .kept (hv'.trans hv) (hc'.trans hc)
    | cancelled hr hcan ht hv' hc' =>
      refine .cancelled (hreg ▸ hr) (by simpa only [isCancellable,hstatus] using hcan) ht ?_ hc'
      rw [hv',hv,hc]
    | unqueued hx hr hid hv' hc' =>
      refine .unqueued hx (hreg ▸ hr) (by rwa [hids,hids] at hid) ?_ hc'
      rw [hv',hv,hc]
  | cancelled hr hcan ht hv hc =>
    cases h' with
    | kept hv' hc' => exact .cancelled hr hcan ht (hv'.trans hv) (hc'.trans hc)
    | cancelled hr' hcan' ht' hv' hc' =>
      have hstatus : (s₁.objects r).status = .cancelled := congrArg TaskView.status hv
      simp [isCancellable,hstatus] at hcan'
    | unqueued hx hr' hid hv' hc' =>
      exact absurd (Registered.unique hr (hreg ▸ hr') (by rwa [hids,hids] at hid)) hx
  | unqueued hx hr hid hv hc =>
    cases h' with
    | kept hv' hc' => exact .unqueued hx hr hid (hv'.trans hv) (hc'.trans hc)
    | cancelled hr' hcan' ht' hv' hc' =>
      exact absurd (Registered.unique (hreg ▸ hr') hr hid) hx
    | unqueued hx' hr' hid' hv' hc' =>
      refine .unqueued hx hr hid ?_ hc'
      rw [hv',hv,hc]
      simp

theorem cut_cancelSubTasks {id : TaskId} (hw : m.Wf) (reason : String) (fuel : ℕ)
    (stack : List TaskId) (hs : m.Cutting s) (hstack : ∀ c ∈ stack, m.CancelTree id true c) :
    m.Cutting (s.cancelSubTasks reason fuel stack) ∧
      Cut m id true r s (s.cancelSubTasks reason fuel stack) := by
  fun_induction cancelSubTasks s reason fuel stack with
  | case1 s stack => exact ⟨hs,.kept rfl rfl⟩
  | case2 s fuel stack hlast => exact ⟨hs,.kept rfl rfl⟩
  | case3 s fuel stack c hlast hnone ih => exact ih hs fun c hc => hstack c (List.dropLast_subset _ hc)
  | case4 s fuel stack c hlast x hx hcan ih =>
    have hc : m.CancelTree id true c := hstack c (List.mem_of_getLast? hlast)
    have hx' : m.tasks.get? c = some x := hs.tasks ▸ hx
    have hid := (hw.task_lt c x hx').2
    have htree : m.CancelTree id true (m.objects x).taskId := hid.symm ▸ hc
    have hregx : s.Registered x := by
      rw [hs.registered]
      exact hw.registered_of_get? hx'
    have hone : Cut m id true r s (s.cancelOne x reason) := cut_cancelOne hregx hcan htree
    have hcut := hs.cancelOne x reason
    obtain ⟨hrest,hcutrest⟩ := ih hcut fun c' hc' => by
      rcases List.mem_append.mp hc' with hc' | hc'
      · exact hstack c' (List.dropLast_subset _ hc')
      · rw [hs.subTasks] at hc'
        exact .sub rfl hc hx' (hs.cancellable x hcan) hc'
    exact ⟨hrest,hone.trans hs hcut hcutrest⟩
  | case5 s fuel stack c hlast x hx hcan ih => exact ih hs fun c hc => hstack c (List.dropLast_subset _ hc)

theorem view_cancelRoot {g : ClusterTask → ClusterTask} (id : TaskId) (r : Ref)
    (hid : (g (m.objects x)).taskId = (m.objects x).taskId)
    (hs : (g (m.objects x)).status = (m.objects x).status) (hn : (g (m.objects x)).assignedNodes = []) :
    ({ (m.releaseTask x).modifyTask x g with
      pendingQueue := m.pendingQueue.filter fun q => decide ((m.objects q).taskId ≠ id) } :
        ClusterMaster).view r = { m.view r with
      nodes := if r = x then [] else (m.view r).nodes
      held := (m.view r).held-(if (m.objects r).taskId = id then m.pendingQueue.count r else 0 : ℕ) } := by
  have hv := congrArg TaskView.held (view_dropQueued m id r)
  by_cases hr : r = x
  · subst hr
    ext1
    case status => simpa [view,modifyTask,releaseTask] using hs
    case nodes => simpa [view,modifyTask,releaseTask] using hn
    case registered => simp [view,modifyTask,Registered,releaseTask,hid]
    case held => exact hv
    all_goals rfl
  · ext1
    case status => simp [view,modifyTask,releaseTask,hr]
    case nodes => simp [view,modifyTask,releaseTask,hr]
    case registered => simp [view,modifyTask,Registered,releaseTask,hr]
    case held => exact hv
    all_goals rfl

theorem move_cancels (hw : m.Wf) {id : TaskId} {reason : String} {subs : Bool}
    (hx : m.tasks.get? id = some x) (hc : isCancellable (m.objects x) = true) :
    Move m r (.cancelTask id reason subs) ((m.cancelTask id reason subs).view r) := by
  have hid : (m.objects x).taskId = id := (hw.task_lt id x hx).2
  have hregx := hw.registered_of_get? hx
  simp only [cancelTask,hx,hc,if_true]
  set m₁ : ClusterMaster := { (m.releaseTask x).modifyTask x fun t =>
    { t with
      cancelReason := if reason = "" then "用户取消" else reason
      assignedNodes := [] } with
    pendingQueue := m.pendingQueue.filter fun q => decide ((m.objects q).taskId ≠ id) } with hm₁
  have hcut₁ : m.Cutting m₁ := (Cutting.refl m).update rfl rfl rfl rfl rfl rfl fun h => h
  have hview₁ := view_cancelRoot (m := m) (x := x) (g := fun t =>
    { t with
      cancelReason := if reason = "" then "用户取消" else reason
      assignedNodes := [] }) id r rfl rfl rfl
  rw [← hm₁] at hview₁
  have hcount₁ : m₁.pendingQueue.count r =
      if (m.objects r).taskId = id then 0 else m.pendingQueue.count r := count_filter_taskId id r
  have hcut₂ : m.Cutting (if subs = true then m₁.cancelSubTasks ("父任务取消: " ++ id)
      (m.cancelFuel (m.objects x).subTasks) (m.objects x).subTasks else m₁) ∧
      Cut m id subs r m₁ (if subs = true then m₁.cancelSubTasks ("父任务取消: " ++ id)
        (m.cancelFuel (m.objects x).subTasks) (m.objects x).subTasks else m₁) := by
    split_ifs with hsubs
    · rw [hsubs]
      exact cut_cancelSubTasks hw _ _ _ hcut₁ fun c hc' => .sub rfl .root hx hc hc'
    · exact ⟨hcut₁,.kept rfl rfl⟩
  generalize (if subs = true then m₁.cancelSubTasks ("父任务取消: " ++ id)
    (m.cancelFuel (m.objects x).subTasks) (m.objects x).subTasks else m₁) = m₂ at hcut₂
  obtain ⟨hcut₂,hr₂⟩ := hcut₂
  have hlast : ∀ s : ClusterMaster, s.frames = m₂.frames → s.nextFrame = m₂.nextFrame →
      (s.persistTasks.spawn (.cancelling m.store.nextWrite)).view r = s.view r := by
    intro s hs hn
    have hfree : s.persistTasks.frames.get? s.persistTasks.nextFrame = none := by
      show s.frames.get? s.nextFrame = none
      rw [hs,hn,hcut₂.frames,hcut₂.nextFrame]
      exact hw.nextFrame_free
    rw [view_spawn hfree,TaskView.gain_idle _ _ ⟨rfl,rfl,rfl,rfl⟩]
    exact (quiet_persistTasks s).still.view r
  rw [hlast (m₂.modifyTask x fun t => { t with status := .cancelled, error := t.cancelReason }) rfl rfl]
  have hreg₁ : ∀ y, m₁.Registered y = m.Registered y := hcut₁.registered
  by_cases hr : r = x
  · subst hr
    rw [view_modifyTask_self (by rfl)]
    rw [if_pos hid] at hview₁ hcount₁
    refine Move.of_eq (.cancel hregx hc (hid.symm ▸ .root)) ?_
    cases hr₂ with
    | kept hv _ => rw [show (m₂.objects r).assignedNodes = (m₂.view r).nodes from rfl,hv,hview₁]; simp
    | cancelled _ _ _ hv _ =>
      rw [show (m₂.objects r).assignedNodes = (m₂.view r).nodes from rfl,hv,hview₁,hcount₁]; simp
    | unqueued hne hreg hids _ _ =>
      rw [hreg₁] at hreg
      rw [hcut₁.taskId,hcut₁.taskId] at hids
      exact absurd (Registered.unique hregx hreg hids) hne
  · rw [view_modifyTask_ne hr]
    by_cases hids : (m.objects r).taskId = id
    · rw [if_pos hids] at hview₁ hcount₁
      have hxr : (m.objects x).taskId = (m.objects r).taskId := hid.trans hids.symm
      refine Move.of_eq (.unqueue ⟨x,Ne.symm hr,hregx,hxr⟩) ?_
      cases hr₂ with
      | kept hv _ => rw [hv,hview₁]; simp [hr]
      | cancelled hreg _ _ _ _ =>
        rw [hreg₁] at hreg
        exact absurd (Registered.unique hreg hregx hxr) (Ne.symm hr)
      | unqueued _ _ _ hv _ => rw [hv,hview₁,hcount₁]; simp [hr]
    · rw [if_neg hids] at hview₁ hcount₁
      have hsame : m₁.view r = m.view r := by rw [hview₁]; simp [hr]
      cases hr₂ with
      | kept hv _ => exact Move.of_eq .stay (hv.trans hsame)
      | cancelled hreg hcan ht hv _ =>
        refine Move.of_eq (.cancel (hreg₁ r ▸ hreg) (hcut₁.cancellable r hcan) ht) ?_
        rw [hv,hsame,hcount₁]
      | unqueued hne hreg hids' hv _ =>
        rw [hreg₁] at hreg
        rw [hcut₁.taskId,hcut₁.taskId] at hids'
        refine Move.of_eq (.unqueue ⟨_,hne,hreg,hids'⟩) ?_
        rw [hv,hsame,hcount₁]

theorem view_insertRecords (records : List TaskRecord) (h : r < m.nextRef) (hr : ¬m.Registered r) :
    (records.foldl insertRecord m).view r = m.view r ∧
      m.nextRef ≤ (records.foldl insertRecord m).nextRef := by
  induction records generalizing m with
  | nil => exact ⟨rfl,le_refl _⟩
  | cons d records ih =>
    have hview : (m.insertRecord d).view r = m.view r := by
      rw [view_insertRecord h]
      simp only [hr,false_and]
      ext1 <;> first | rfl | exact (propext (iff_false_intro hr)).symm
    have hreg : (m.insertRecord d).Registered r = m.Registered r := congrArg TaskView.registered hview
    obtain ⟨hrest,hnext⟩ := ih (Nat.lt_succ_of_lt h) (by rw [hreg]; exact hr)
    exact ⟨hrest.trans hview,(Nat.le_succ _).trans hnext⟩

theorem view_enqueueRestored_ne (h : r ≠ x) (hr : ¬m.Registered r) :
    (m.enqueueRestored x).view r = m.view r := by
  simp only [enqueueRestored,enqueuePending]
  split_ifs <;> try rfl
  rw [view_park_ne h]
  simp only [hr,false_and]
  ext1 <;> first | rfl | exact (propext (iff_false_intro hr)).symm

theorem view_restart (hw : m.Wf) {rnd : ℚ} (h : r < m.nextRef) :
    (m.restart now rnd).view r = { m.view r with
      registered := False
      held := 0
      committing := 0
      live := 0
      fresh := 0 } := by
  have hboot : (m.reboot now rnd).view r = { m.view r with
      registered := False
      held := 0
      committing := 0
      live := 0
      fresh := 0 } := by
    ext1 <;> simp [reboot,view,Registered,held,committing,live,fresh,weigh]
  rw [← hboot]
  unfold restart
  cases m.store.file with
  | none => rfl
  | some content =>
    have hreg : ¬(m.reboot now rnd).Registered r := by simp [Registered,reboot]
    obtain ⟨hrecords,hnext⟩ := view_insertRecords (m := m.reboot now rnd) content.tasks h hreg
    have hrestore : ((m.reboot now rnd).restoreTasks content).view r = (m.reboot now rnd).view r :=
      hrecords
    have hwr := (grows_reboot m now rnd).trans (grows_restoreTasks (m.reboot now rnd) content)
    have hnotin : ∀ x ∈ ((m.reboot now rnd).restoreTasks content).tasks.values, r ≠ x := by
      rintro x hx rfl
      have hregr := (hwr.wf hw).registered_iff.mp hx
      have heq : ((m.reboot now rnd).restoreTasks content).Registered r =
          (m.reboot now rnd).Registered r := congrArg TaskView.registered hrestore
      exact hreg (heq ▸ hregr)
    have hfold : ∀ (l : List Ref) (s : ClusterMaster), (∀ x ∈ l, r ≠ x) →
        s.view r = (m.reboot now rnd).view r → (l.foldl enqueueRestored s).view r =
          (m.reboot now rnd).view r := by
      intro l
      induction l with
      | nil => exact fun s _ hs => hs
      | cons a l ih =>
        intro s hl hs
        have hregs : ¬s.Registered r := by
          have heq : s.Registered r = (m.reboot now rnd).Registered r := congrArg TaskView.registered hs
          rw [heq]
          exact hreg
        refine ih _ (fun x hx => hl x (List.mem_cons_of_mem a hx)) ?_
        rw [view_enqueueRestored_ne (hl a (List.mem_cons_self ..)) hregs]
        exact hs
    exact hfold _ _ hnotin hrestore

theorem Effect.move (hw : m.Wf) (h : Effect m ev m') (hr : r < m.nextRef) : Move m r ev (m'.view r) := by
  cases h with
  | still hs _ => exact Move.of_eq .stay (hs.view r)
  | spawns hs _ hf =>
    refine Move.of_eq .stay ?_
    have hfree := hw.nextFrame_free
    rw [← hs.frames,← hs.nextFrame] at hfree
    rw [view_spawn hfree,TaskView.gain_idle _ _ (Frame.Idle.of_refs hf),hs.view]
  | swaps hq hf ha =>
    refine Move.of_eq .stay ?_
    rw [view_setFrame (hq.still.frame hf),TaskView.swap_alike _ _ ha,hq.still.view]
  | ends hf hi =>
    refine Move.of_eq .stay ?_
    rw [view_endFrame hf,TaskView.lose_idle _ _ hi]
  | callback => exact .stay
  | @submits t _ =>
    refine Move.of_eq .stay ?_
    rw [submit,view_spawn (by exact hw.nextFrame_free)]
    have hobj : Function.update m.objects m.nextRef t r = m.objects r := by simp [hr.ne]
    ext1 <;> simp [TaskView.gain,Frame.holds,Frame.commits,Frame.dispatches,Frame.fresh,AssignPc.isOpen,
      Caller.rest,view,Registered,hobj,count_singleton_ne hr.ne,held,committing,live,fresh,weigh]
  | drains hf => exact move_drains hf
  | collects => exact move_collects hw
  | notDue hf => exact move_notDue hf
  | exhausted hf hdue hmax => exact move_exhausted hf hdue hmax
  | skips hf hpc hreason => exact move_skips hf hpc hreason
  | refuses hq hf hpc => exact move_refuses hq hf hpc
  | parks hq hf hpc => exact move_parks hq hf hpc
  | requeues hf => exact move_requeues hf
  | commits hc hq _ hf hpc hpc' => exact move_commits hc hq hf hpc hpc'
  | triggers hf => exact move_triggers hw hf
  | retries hf => exact move_retries hf
  | fallsBack hf hk => exact move_fallsBack hf hk
  | dispatches hf he => exact move_dispatches hw hf he
  | @replies s cid i now d d' reply hq hf hc =>
    refine Move.of_eq .stay ?_
    rw [view_setFrame (hq.still.frame hf),swap_dispatch _ r hc.task,hq.still.view]
  | completes hx => exact move_completes hw hx
  | cancels hx hc => exact move_cancels hw hx hc
  | migrates hx hs => exact move_migrates hw hx hs
  | degrades hx hs hbudget hsize => exact move_degrades hw hx hs hbudget hsize
  | timesOut => exact move_timesOut hw
  | refreshes hf => exact move_refreshes hw hf
  | cleans => exact move_cleans
  | receives => exact move_receives hw hr
  | restarts => exact Move.of_eq .reset (view_restart hw hr)

/-- Each step of a well-formed master is a move of each task in use. -/
theorem step_move (hw : m.Wf) (h : machine.step m ev = some m') (hr : r < m.nextRef) :
    Move m r ev (m'.view r) :=
  (step_effect h).move hw hr

end ClusterMaster
end FusionMultiNodes
