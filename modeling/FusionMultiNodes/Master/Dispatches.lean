import FusionMultiNodes.Master.Births

/-! How the dispatch coroutines go on from step to step. -/
namespace FusionMultiNodes
namespace ClusterMaster

def KeepsDispatches (m m' : ClusterMaster) : Prop :=
  ∀ cid d, m'.frames.get? cid = some (.dispatch d) → m.frames.get? cid = some (.dispatch d)

inductive DispatchOrigin (m m' : ClusterMaster) (cid : ℕ) (d' : Dispatch) : Prop
  | kept : m.frames.get? cid = some (.dispatch d') → DispatchOrigin m m' cid d'
  | started : d'.pc = .start → DispatchOrigin m m' cid d'
  | continued {d : Dispatch} : m.frames.get? cid = some (.dispatch d) → m.Continues d d' →
      DispatchOrigin m m' cid d'
  | finalized {d : Dispatch} {x : Ref} : m.frames.get? cid = some (.dispatch d) → d'.task = d.task →
      m.tasks.get? (m.objects d.task).taskId = some x → (m'.objects x).status ≠ .running →
      DispatchOrigin m m' cid d'

variable {m m' s : ClusterMaster} {cid : ℕ} {f f' : Frame} {now : ℚ} {ev : MasterEvent} {r : Ref}

theorem KeepsDispatches.refl (m : ClusterMaster) : m.KeepsDispatches m := fun _ _ h => h

theorem KeepsDispatches.of_eq (h : m'.frames = m.frames) : m.KeepsDispatches m' :=
  fun cid d hd => by rwa [h] at hd

theorem KeepsDispatches.trans (h : m.KeepsDispatches s) (h' : s.KeepsDispatches m') :
    m.KeepsDispatches m' := fun cid d hd => h cid d (h' cid d hd)

theorem KeepsDispatches.setFrame (m : ClusterMaster) (cid : ℕ) (hf : f.dispatches = []) :
    m.KeepsDispatches (m.setFrame cid f) := by
  intro c d hd
  simp only [ClusterMaster.setFrame,Dict.get?_set] at hd
  split_ifs at hd with hc
  · obtain rfl := Option.some.inj hd
    simp [Frame.dispatches] at hf
  · exact hd

theorem KeepsDispatches.spawn (m : ClusterMaster) (hf : f.dispatches = []) :
    m.KeepsDispatches (m.spawn f) :=
  KeepsDispatches.setFrame m m.nextFrame hf

theorem KeepsDispatches.endFrame (m : ClusterMaster) (cid : ℕ) :
    m.KeepsDispatches (m.endFrame cid) := by
  intro c d hd
  simp only [ClusterMaster.endFrame,Dict.get?_erase] at hd
  split_ifs at hd
  exact hd

theorem frames_enqueueRetry (m : ClusterMaster) (r : Ref) (now : ℚ) :
    (m.enqueueRetry r now).frames = m.frames := by
  unfold enqueueRetry
  split_ifs <;> rfl

theorem frames_timeoutOne (m : ClusterMaster) (now : ℚ) (r : Ref) :
    (m.timeoutOne now r).frames = m.frames := by
  unfold timeoutOne
  split_ifs
  · exact frames_enqueueRetry _ r now
  · rfl

theorem keeps_cancelTask (m : ClusterMaster) (id : TaskId) (reason : String) (subs : Bool) :
    m.KeepsDispatches (m.cancelTask id reason subs) := by
  rcases cancelTask_shape m id reason subs with h | ⟨_,_,_,_,_,-,h⟩ <;> rw [h]
  · exact .refl m
  · exact KeepsDispatches.trans (.of_eq rfl) (.spawn _ rfl)

theorem frames_restart (m : ClusterMaster) (now rnd : ℚ) : (m.restart now rnd).frames = ∅ := by
  have henqueue : ∀ (s : ClusterMaster) r, (s.enqueueRestored r).frames = s.frames := fun s r => by
    simp only [enqueueRestored,enqueuePending]
    split_ifs <;> rfl
  unfold restart
  split
  · rfl
  · next content _ =>
    rw [frames_foldl henqueue]
    exact (frames_foldl (F := insertRecord) (fun _ _ => rfl) content.tasks (m.reboot now rnd)).trans rfl

theorem frames_receiveSyncedTasks (m : ClusterMaster) (records : List TaskRecord) (hw : m.Wf) :
    (m.receiveSyncedTasks records).frames = m.frames := by
  have hmerge := (objects_mergeRecords records m hw).2.1
  unfold receiveSyncedTasks
  split_ifs <;> exact hmerge

theorem KeepsDispatches.origin (h : m.KeepsDispatches m') {cid : ℕ} {d : Dispatch}
    (hd : m'.frames.get? cid = some (.dispatch d)) : DispatchOrigin m m' cid d :=
  .kept (h cid d hd)

theorem origin_triggers {c : ℕ} {k : Caller} {d : Dispatch}
    (hd : ((m.triggerDispatch r).setFrame c (.assign r (.returned true) k)).frames.get? cid =
      some (.dispatch d)) :
    DispatchOrigin m ((m.triggerDispatch r).setFrame c (.assign r (.returned true) k)) cid d := by
  have hlaunch := KeepsDispatches.setFrame (f := .assign r (.returned true) k) (m.triggerDispatch r) c
    rfl cid d hd
  simp only [triggerDispatch] at hlaunch
  split_ifs at hlaunch
  · exact .kept hlaunch
  · exact .kept hlaunch
  · simp only [ClusterMaster.spawn,Dict.get?_set] at hlaunch
    split_ifs at hlaunch
    · obtain rfl := Frame.dispatch.inj (Option.some.inj hlaunch)
      exact .started rfl
    · exact .kept hlaunch

/-- A dispatch that goes on replaces its coroutine and no other. -/
theorem origin_setDispatch {c : ℕ} {d₀ d d' : Dispatch} (hq : m.Still s)
    (hf : m.frames.get? c = some (.dispatch d₀)) (hd : (s.setFrame c (.dispatch d')).frames.get? cid =
      some (.dispatch d)) (horigin : DispatchOrigin m m' c d') : DispatchOrigin m m' cid d := by
  simp only [ClusterMaster.setFrame,Dict.get?_set,hq.frames] at hd
  split_ifs at hd with hc
  · subst hc
    obtain rfl := Frame.dispatch.inj (Option.some.inj hd)
    exact horigin
  · exact .kept hd

theorem status_finalized (m : ClusterMaster) (r : Ref) (o : DispatchOutcome) (now : ℚ) :
    ((m.finalized r o now).objects r).status ≠ .running := by
  have hv := congrArg TaskView.status (view_finalized_self m r o now)
  intro hs
  rw [show ((m.finalized r o now).view r).status = .running from hs] at hv
  split_ifs at hv

theorem frames_endDispatch (m : ClusterMaster) (c : ℕ) (d : Dispatch) (o : DispatchOutcome) :
    (m.endDispatch c d o).frames = (m.endFrame c).frames := by
  simp only [endDispatch,setPrevOutputs]
  split <;> rfl

theorem DispatchEffect.origin {c : ℕ} {d₀ d : Dispatch} (hf : m.frames.get? c = some (.dispatch d₀))
    (he : DispatchEffect m c d₀ now s) (hd : s.frames.get? cid = some (.dispatch d)) :
    DispatchOrigin m s cid d := by
  cases he with
  | continues hq hc => exact origin_setDispatch hq.still hf hd (.continued hf hc)
  | @finalizes x o hpc hx hs =>
    simp only [ClusterMaster.setFrame,Dict.get?_set] at hd
    split_ifs at hd with hc
    · subst hc
      obtain rfl := Frame.dispatch.inj (Option.some.inj hd)
      exact .finalized hf rfl hx (status_finalized m x o now)
    · refine .kept ?_
      rw [← frames_finalized m x o now]
      exact hd
  | stale => exact .kept ((KeepsDispatches.endFrame m c) cid d (by rwa [frames_endDispatch] at hd))
  | done => exact .kept ((KeepsDispatches.endFrame m c) cid d (by rwa [frames_endDispatch] at hd))

/-- Each dispatch after a step was there before it, has just begun, or has gone on. -/
theorem Effect.origin (hw : m.Wf) (h : Effect m ev m') {d : Dispatch}
    (hd : m'.frames.get? cid = some (.dispatch d)) : DispatchOrigin m m' cid d := by
  have hkept : m.KeepsDispatches m' → DispatchOrigin m m' cid d := fun hk => hk.origin hd
  cases h with
  | still hs _ => exact hkept (.of_eq hs.frames)
  | spawns hs _ hf =>
    exact hkept (.trans (.of_eq hs.frames) (.spawn _ (Frame.Idle.of_refs hf).dispatches))
  | swaps hq _ ha => exact hkept (.trans (.of_eq hq.still.frames) (.setFrame _ _ ha.dispatches'))
  | ends => exact hkept (.endFrame m _)
  | callback => exact hkept (.of_eq rfl)
  | submits => exact hkept (.trans (.of_eq rfl) (.spawn _ rfl))
  | drains => exact hkept (.trans (.of_eq rfl) (.setFrame _ _ rfl))
  | collects => exact hkept (.trans (.of_eq rfl) (.spawn _ rfl))
  | notDue => exact hkept (.trans (.of_eq rfl) (.setFrame _ _ rfl))
  | exhausted => exact hkept (.trans (.of_eq rfl) (.setFrame _ _ rfl))
  | skips => exact hkept (.setFrame m _ rfl)
  | refuses hq => exact hkept (.trans (.of_eq hq.still.frames) (.setFrame _ _ rfl))
  | parks hq => exact hkept (.trans (.of_eq hq.still.frames) (.setFrame _ _ rfl))
  | requeues => exact hkept (.trans (.of_eq rfl) (.setFrame _ _ rfl))
  | commits _ hq _ _ _ hpc' =>
    refine hkept (.trans (.of_eq hq.still.frames) (.setFrame _ _ ?_))
    rcases hpc' with rfl | rfl <;> rfl
  | triggers => exact origin_triggers hd
  | retries => exact hkept (.trans (.of_eq (frames_enqueueRetry m _ _)) (.setFrame _ _ rfl))
  | fallsBack => exact hkept (.trans (.of_eq (frames_enqueueRetry m _ _)) (.endFrame _ _))
  | dispatches hf he => exact he.origin hf hd
  | replies hq hf hc => exact origin_setDispatch hq.still hf hd (.continued hf hc)
  | completes hr =>
    refine hkept ?_
    simp only [completeTask,hr]
    exact .trans (.of_eq rfl) (.spawn _ rfl)
  | cancels => exact hkept (keeps_cancelTask m _ _ _)
  | migrates hr hs =>
    refine hkept ?_
    simp only [migrateTask,hr,hs,if_true]
    exact .trans (.of_eq rfl) (.spawn _ rfl)
  | degrades hr hs hbudget hsize =>
    refine hkept ?_
    simp only [degradeTask,hr,hs,hbudget,hsize,and_self,if_true]
    exact .trans (.of_eq rfl) (.spawn _ rfl)
  | timesOut => exact hkept (.of_eq (frames_foldl (fun s r => frames_timeoutOne s _ r) _ m))
  | refreshes =>
    refine hkept ?_
    simp only [refreshTasks]
    split_ifs
    · exact .endFrame m _
    · refine KeepsDispatches.trans (.of_eq ?_) (.endFrame _ _)
      exact frames_foldl (fun s r => frames_refreshOne s _ _ r) _ m
  | cleans => exact hkept (.of_eq rfl)
  | receives => exact hkept (.of_eq (frames_receiveSyncedTasks m _ hw))
  | restarts =>
    rw [frames_restart] at hd
    cases hd

theorem step_origin (hw : m.Wf) (h : machine.step m ev = some m') {d : Dispatch}
    (hd : m'.frames.get? cid = some (.dispatch d)) : DispatchOrigin m m' cid d :=
  (step_effect h).origin hw hd

end ClusterMaster
end FusionMultiNodes
